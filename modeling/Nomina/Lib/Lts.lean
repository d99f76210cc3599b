import Mathlib.Data.List.Induction
import Mathlib.Tactic.Common

/-!
# Systems that take steps

A system is given by a step function: the state an action leads to, or nothing when the action is not
possible. Runs are lists of actions. `Along` says that every step of a run meets a condition, which
may look at the state before the step; the invariant rule derives what holds after such a run from
what one step preserves.
-/

namespace Lib

variable {σ ι : Type} (step : σ → ι → Option σ)

/-- The state after a run, if every action of it was possible. -/
def run : σ → List ι → Option σ
  | s, [] => some s
  | s, a :: as => (step s a).bind fun s' => run s' as

/-- Every step of the run from `s` meets the condition `g` on the state before it. -/
def Along (g : σ → ι → Prop) : σ → List ι → Prop
  | _, [] => True
  | s, a :: as => g s a ∧ ∀ s', step s a = some s' → Along g s' as

instance Along.decidable {g : σ → ι → Prop} [∀ s a, Decidable (g s a)] :
    (s : σ) → (as : List ι) → Decidable (Along step g s as)
  | _, [] => isTrue trivial
  | s, a :: as =>
    have : Decidable (∀ s', step s a = some s' → Along step g s' as) :=
      match h : step s a with
      | none => isTrue fun _ h' => by cases h'
      | some t => @decidable_of_iff _ (Along step g t as)
          ⟨fun hg _ h' => Option.some.inj h' ▸ hg, fun hg => hg t rfl⟩
          (Along.decidable t as)
    inferInstanceAs (Decidable (_ ∧ _))

variable {step}

/-- A run goes on from the state its first step leads to. -/
lemma run_cons {s s' : σ} {a : ι} {as : List ι} (h : step s a = some s') :
    run step s (a :: as) = run step s' as := by
  simp only [run, h, Option.bind_some]

/-- The condition goes on from the state the first step leads to. -/
lemma along_cons {g : σ → ι → Prop} {s s' : σ} {a : ι} {as : List ι} (h : step s a = some s')
    (hg : g s a) (has : Along step g s' as) : Along step g s (a :: as) := by
  refine ⟨hg, fun t ht => ?_⟩
  rw [h] at ht
  cases ht
  exact has

/-- A condition that every step meets. -/
lemma along_of_forall {g : σ → ι → Prop} (h : ∀ s a, g s a) (s : σ) (as : List ι) :
    Along step g s as := by
  induction as generalizing s with
  | nil => trivial
  | cons a as ih => exact ⟨h s a, fun s' _ => ih s'⟩

/-- A condition that every action of the list meets. -/
lemma along_of_mem {g : σ → ι → Prop} {as : List ι} (h : ∀ s, ∀ a ∈ as, g s a) (s : σ) :
    Along step g s as := by
  induction as generalizing s with
  | nil => trivial
  | cons a as ih =>
    exact ⟨h s a List.mem_cons_self, fun s' _ => ih (fun t b hb => h t b (List.mem_cons_of_mem a hb)) s'⟩

/-- A run whose steps meet a condition meets what follows from it. -/
lemma Along.mono {g g' : σ → ι → Prop} (h : ∀ s a, g s a → g' s a) {s : σ} {as : List ι}
    (hg : Along step g s as) : Along step g' s as := by
  induction as generalizing s with
  | nil => trivial
  | cons a as ih => exact ⟨h s a hg.1, fun s' hs' => ih (hg.2 s' hs')⟩

/-- A run whose steps meet two conditions. -/
lemma Along.and {g g' : σ → ι → Prop} {s : σ} {as : List ι} (hg : Along step g s as)
    (hg' : Along step g' s as) : Along step (fun s a => g s a ∧ g' s a) s as := by
  induction as generalizing s with
  | nil => trivial
  | cons a as ih =>
    exact ⟨⟨hg.1, hg'.1⟩, fun s' hs' => ih (hg.2 s' hs') (hg'.2 s' hs')⟩

/-- What every step that meets the condition preserves holds after every run that meets it. -/
theorem run_invariant {Inv : σ → Prop} {g : σ → ι → Prop}
    (hstep : ∀ s a s', Inv s → g s a → step s a = some s' → Inv s') {s s' : σ} {as : List ι}
    (hs : Inv s) (hg : Along step g s as) (hrun : run step s as = some s') : Inv s' := by
  induction as generalizing s with
  | nil =>
    cases hrun
    exact hs
  | cons a as ih =>
    obtain ⟨t, ht, hrest⟩ := Option.bind_eq_some_iff.mp hrun
    exact ih (hstep s a t hs hg.1 ht) (hg.2 t ht) hrest

/-- A condition that follows from the invariant of a run holds before every step. -/
theorem Along.of_invariant {Inv : σ → Prop} {g g' : σ → ι → Prop}
    (hstep : ∀ s a s', Inv s → g s a → step s a = some s' → Inv s') (hInv : ∀ s a, Inv s → g' s a)
    {s : σ} {as : List ι} (hs : Inv s) (hg : Along step g s as) : Along step g' s as := by
  induction as generalizing s with
  | nil => trivial
  | cons a as ih =>
    exact ⟨hInv s a hs, fun s' hs' => ih (hstep s a s' hs hg.1 hs') (hg.2 s' hs')⟩

/-- When a step is possible from every state of an invariant and preserves it, so is every run. -/
theorem exists_run {Inv : σ → Prop} (hstep : ∀ s a, Inv s → ∃ s', step s a = some s' ∧ Inv s')
    {s : σ} (hs : Inv s) (as : List ι) : ∃ s', run step s as = some s' ∧ Inv s' := by
  induction as generalizing s with
  | nil => exact ⟨s, rfl, hs⟩
  | cons a as ih =>
    obtain ⟨t, ht, hInv⟩ := hstep s a hs
    obtain ⟨s', hrun, hs'⟩ := ih hInv
    exact ⟨s', (run_cons ht).trans hrun, hs'⟩

/-! ## Runs of a system that never stops -/

/-- What every step of a run preserves holds in every state that the run comes to. -/
theorem foldl_invariant {f : σ → ι → σ} {Inv : σ → Prop} {l : List ι} {s : σ} (hs : Inv s)
    (hstep : ∀ pre a, pre ++ [a] <+: l → Inv (pre.foldl f s) → Inv ((pre ++ [a]).foldl f s)) {pre : List ι}
    (hpre : pre <+: l) : Inv (pre.foldl f s) := by
  induction pre using List.reverseRecOn with
  | nil => exact hs
  | append_singleton pre a ih =>
    exact hstep pre a hpre (ih ((List.prefix_append pre [a]).trans hpre))

/-! ## Two runs of a system that never stops -/

section Twin

variable {ω : Type} {f f' : σ → ι → σ} {obs : σ → ω} {g : σ → ι → Prop} {l : List ι}

/-- Runs whose steps lead to the same state, one after the other, do so as a whole. -/
lemma foldl_eq_of_steps (h : ∀ s, ∀ a ∈ l, g s a → f s a = f' s a) {s : σ} {pre : List ι}
    (hpre : pre <+: l) (hg : ∀ p a, p ++ [a] <+: pre → g (p.foldl f s) a) :
    pre.foldl f s = pre.foldl f' s := by
  induction pre using List.reverseRecOn with
  | nil => rfl
  | append_singleton pre a ih =>
    have hsame : pre.foldl f s = pre.foldl f' s := by
      apply ih ((List.prefix_append pre [a]).trans hpre)
      intro p b hb
      exact hg p b (hb.trans (List.prefix_append pre [a]))
    have ha : a ∈ l := hpre.subset (List.mem_append_right pre (List.mem_singleton_self a))
    rw [List.foldl_append, List.foldl_append, ← hsame]
    exact h _ a ha (hg pre a List.prefix_rfl)

/-- Two runs from one state look the same after each of their steps exactly when every step meets the
condition under which it leads to the same state. -/
theorem twin_iff (h : ∀ s, ∀ a ∈ l, g s a → f s a = f' s a)
    (hobs : ∀ s, ∀ a ∈ l, obs (f s a) = obs (f' s a) → g s a) (s : σ) :
    (∀ pre, pre <+: l → obs (pre.foldl f s) = obs (pre.foldl f' s)) ↔
      ∀ pre a, pre ++ [a] <+: l → g (pre.foldl f s) a := by
  constructor
  · intro hlook pre
    -- Up to the step in question all steps meet the condition, so the states before it are the same.
    induction hn : pre.length using Nat.strongRecOn generalizing pre with
    | ind n ih =>
      intro a ha
      have hpre : pre <+: l := (List.prefix_append pre [a]).trans ha
      have hsame : pre.foldl f s = pre.foldl f' s := by
        apply foldl_eq_of_steps h hpre
        intro p b hb
        have hlen := hb.length_le
        rw [List.length_append, List.length_singleton] at hlen
        exact ih p.length (by omega) p rfl b (hb.trans hpre)
      have hlast := hlook (pre ++ [a]) ha
      rw [List.foldl_append, List.foldl_append, ← hsame] at hlast
      exact hobs _ a (ha.subset (List.mem_append_right pre (List.mem_singleton_self a))) hlast
  · intro hg pre hpre
    rw [foldl_eq_of_steps h hpre fun p a hp => hg p a (hp.trans hpre)]

end Twin

end Lib
