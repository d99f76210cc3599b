import Nomina.Lib.Lts
import Mathlib.Logic.Function.Basic
import Mathlib.Order.Nat

/-!
# A derived value that writers refresh

Any number of writers change a source and then refresh a value that is derived from it. A refresh
takes two steps: the writer derives a value from the source as it is, and later puts it in place of
the shared one. Between the two, other writers may have changed the source and put newer values in
place.

Each value is stamped with the number of changes it has seen. If writers only put values in place
that have seen at least as many changes as the one they replace, the shared value is the derived
one whenever no writer is under way.
-/

namespace Lib

namespace Refresh

variable {τ δ : Type}

/-- What a writer has done. The number with a value counts the changes it has seen. -/
inductive Phase (δ : Type)
  | idle
  | committed
  | loaded (value : δ) (version : ℕ)

/-- The changes that the value of a writer has seen. -/
def Phase.version? : Phase δ → Option ℕ
  | .loaded _ version => some version
  | _ => none

/-- The source, the shared value and the writers. `version` counts the changes to the source and
`installed` those the shared value has seen; both are history. -/
structure System (τ δ : Type) where
  source : τ
  derived : δ
  writers : ℕ → Phase δ
  version : ℕ
  installed : ℕ

namespace System

/-- Writer `i` goes on to a phase. -/
def enter (s : System τ δ) (i : ℕ) (phase : Phase δ) : System τ δ :=
  { s with writers := Function.update s.writers i phase }

/-- Writer `i` leaves the source as `t`. -/
def commit (s : System τ δ) (i : ℕ) (t : τ) : System τ δ :=
  { s.enter i .committed with source := t, version := s.version + 1 }

/-- Writer `i` puts a value in place. -/
def swap (s : System τ δ) (i : ℕ) (value : δ) (version : ℕ) : System τ δ :=
  { s.enter i .idle with derived := value, installed := version }

/-- The system with a derived value that is up to date and no writer under way. -/
def initial (derive : τ → δ) (t : τ) : System τ δ :=
  ⟨t, derive t, fun _ => .idle, 0, 0⟩

/-- The writer must still refresh, and its value will have seen all changes. -/
def Pending (s : System τ δ) (i : ℕ) : Prop :=
  s.writers i = .committed ∨ ∃ value, s.writers i = .loaded value s.version

/-- Values that have seen all changes are the derived one, and while the shared value has not, some
writer is about to put such a value in place. -/
structure Fresh (derive : τ → δ) (s : System τ δ) : Prop where
  loaded_le : ∀ i value version, s.writers i = .loaded value version → version ≤ s.version
  loaded_eq : ∀ i value, s.writers i = .loaded value s.version → value = derive s.source
  installed_le : s.installed ≤ s.version
  derived_eq : s.installed = s.version → s.derived = derive s.source
  pending : s.installed < s.version → ∃ i, s.Pending i

variable {derive : τ → δ} {s : System τ δ}

lemma fresh_initial (t : τ) : (initial derive t).Fresh derive where
  loaded_le _ _ _ h := by cases h
  loaded_eq _ _ h := by cases h
  installed_le := le_rfl
  derived_eq _ := rfl
  pending h := absurd h (lt_irrefl 0)

/-- A change makes every value out of date, and the writer that made it is about to refresh. -/
lemma Fresh.commit (h : s.Fresh derive) (i : ℕ) (t : τ) : (s.commit i t).Fresh derive where
  loaded_le j value version hj := by
    by_cases hij : j = i
    · subst hij
      simp [System.commit, enter] at hj
    · have hj' : s.writers j = .loaded value version := by
        simpa [System.commit, enter, hij] using hj
      exact (h.loaded_le j value version hj').trans (Nat.le_succ _)
  loaded_eq j value hj := by
    by_cases hij : j = i
    · subst hij
      simp [System.commit, enter] at hj
    · have hj' : s.writers j = .loaded value (s.version + 1) := by
        simpa [System.commit, enter, hij] using hj
      exact absurd (h.loaded_le j value _ hj') (Nat.not_succ_le_self _)
  installed_le := h.installed_le.trans (Nat.le_succ _)
  derived_eq heq := by
    have hle := h.installed_le
    have heq : s.installed = s.version + 1 := heq
    omega
  pending _ := ⟨i, .inl (by simp [System.commit, enter])⟩

/-- A writer that loads has the derived value. -/
lemma Fresh.load (h : s.Fresh derive) {i : ℕ} (hi : s.writers i = .committed) :
    (s.enter i (.loaded (derive s.source) s.version)).Fresh derive where
  loaded_le j value version hj := by
    by_cases hij : j = i
    · subst hij
      simp only [enter, Function.update_self, Phase.loaded.injEq] at hj
      exact hj.2.ge
    · exact h.loaded_le j value version (by simpa [enter, hij] using hj)
  loaded_eq j value hj := by
    by_cases hij : j = i
    · subst hij
      simp only [enter, Function.update_self, Phase.loaded.injEq] at hj
      exact hj.1.symm
    · exact h.loaded_eq j value (by simpa [enter, hij] using hj)
  installed_le := h.installed_le
  derived_eq := h.derived_eq
  pending hlt := by
    obtain ⟨j, hj⟩ := h.pending hlt
    by_cases hij : j = i
    · subst hij
      exact ⟨j, .inr ⟨derive s.source, by simp [enter]⟩⟩
    · exact ⟨j, by simpa [Pending, enter, hij] using hj⟩

/-- A value that is no older than the shared one is put in place. -/
lemma Fresh.swap (h : s.Fresh derive) {i : ℕ} {value : δ} {version : ℕ}
    (hi : s.writers i = .loaded value version) (hle : s.installed ≤ version) :
    (s.swap i value version).Fresh derive where
  loaded_le j value' version' hj := by
    by_cases hij : j = i
    · subst hij
      simp [System.swap, enter] at hj
    · exact h.loaded_le j value' version' (by simpa [System.swap, enter, hij] using hj)
  loaded_eq j value' hj := by
    by_cases hij : j = i
    · subst hij
      simp [System.swap, enter] at hj
    · exact h.loaded_eq j value' (by simpa [System.swap, enter, hij] using hj)
  installed_le := h.loaded_le i value version hi
  derived_eq heq := by
    have heq : version = s.version := heq
    subst heq
    exact h.loaded_eq i value hi
  pending hlt := by
    have hlt : version < s.version := hlt
    obtain ⟨j, hj⟩ := h.pending (hle.trans_lt hlt)
    -- The value of writer `i` has not seen all changes, so the pending writer is another one.
    have hij : j ≠ i := by
      rintro rfl
      rcases hj with hj | ⟨value', hj⟩
      · rw [hi] at hj
        cases hj
      · rw [hi] at hj
        cases hj
        exact lt_irrefl _ hlt
    exact ⟨j, by simpa [Pending, System.swap, enter, hij] using hj⟩

/-- When no writer is under way the shared value is the derived one. -/
theorem Fresh.derived_eq_of_idle (h : s.Fresh derive) (hidle : ∀ i, s.writers i = .idle) :
    s.derived = derive s.source := by
  refine h.derived_eq (le_antisymm h.installed_le (not_lt.mp fun hlt => ?_))
  obtain ⟨i, hi | ⟨value, hi⟩⟩ := h.pending hlt
  · rw [hidle i] at hi
    cases hi
  · rw [hidle i] at hi
    cases hi

end System

end Refresh

end Lib
