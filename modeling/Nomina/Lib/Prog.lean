import Mathlib.Order.Defs.Unbundled
import Mathlib.Tactic.Common

/-!
# Programs with state and errors

What a run of a program in `EStateM` leaves behind and returns, how sequences run, and the rule for
relations between the state before and after that hold however the run ends. State changes made
before an error stay.
-/

namespace EStateM

variable {ε σ α β : Type}

/-! ## Runs -/

/-- The state after a run. -/
def after (m : EStateM ε σ α) (s : σ) : σ :=
  match m s with
  | .ok _ s' => s'
  | .error _ s' => s'

/-- What a run returns. -/
def result (m : EStateM ε σ α) (s : σ) : Except ε α :=
  match m s with
  | .ok a _ => .ok a
  | .error e _ => .error e

/-- A run that returns a value does so with the state it leaves. -/
lemma run_of_result {m : EStateM ε σ α} {s : σ} {a : α} (h : m.result s = .ok a) :
    m s = .ok a (m.after s) := by
  unfold result at h
  unfold after
  cases hm : m s with
  | ok b s' =>
    rw [hm] at h
    cases h
    rfl
  | error e s' =>
    rw [hm] at h
    cases h

/-- What a run returns, and the state it leaves. -/
lemma of_run {m : EStateM ε σ α} {s s' : σ} {a : α} (h : m s = .ok a s') :
    m.result s = .ok a ∧ m.after s = s' := by
  unfold result after
  rw [h]
  exact ⟨rfl, rfl⟩

/-- A sequence goes on from the state the first part leaves. -/
lemma after_bind (m : EStateM ε σ α) (f : α → EStateM ε σ β) (s : σ) :
    (m >>= f).after s =
      match m.result s with
      | .ok a => (f a).after (m.after s)
      | .error _ => m.after s := by
  change after (EStateM.bind m f) s = _
  unfold after result EStateM.bind
  cases m s <;> rfl

/-- A sequence returns what the last part reached returns. -/
lemma result_bind (m : EStateM ε σ α) (f : α → EStateM ε σ β) (s : σ) :
    (m >>= f).result s =
      match m.result s with
      | .ok a => (f a).result (m.after s)
      | .error e => .error e := by
  change result (EStateM.bind m f) s = _
  unfold after result EStateM.bind
  cases m s <;> rfl

/-- A sequence that returns a value went through both parts. -/
lemma bind_ok {m : EStateM ε σ α} {f : α → EStateM ε σ β} {s : σ} {b : β}
    (h : (m >>= f).result s = .ok b) :
    ∃ a, m.result s = .ok a ∧ (f a).result (m.after s) = .ok b ∧
      (m >>= f).after s = (f a).after (m.after s) := by
  rw [result_bind] at h
  rw [after_bind]
  cases hm : m.result s with
  | ok a =>
    rw [hm] at h
    exact ⟨a, rfl, h, rfl⟩
  | error e =>
    rw [hm] at h
    cases h

/-- Reading the state first hands it on. -/
lemma run_get_bind (f : σ → EStateM ε σ β) (s : σ) : (get >>= f) s = f s s := rfl

/-- A sequence goes on after a first part that returns. -/
lemma run_bind_ok {m : EStateM ε σ α} {s s' : σ} {a : α} (h : m s = .ok a s')
    (f : α → EStateM ε σ β) : (m >>= f) s = f a s' := by
  change EStateM.bind m f s = _
  unfold EStateM.bind
  rw [h]

/-- A sequence that returns did so in both of its parts. -/
lemma of_run_bind {m : EStateM ε σ α} {f : α → EStateM ε σ β} {s s' : σ} {b : β}
    (h : (m >>= f) s = .ok b s') : ∃ a s₁, m s = .ok a s₁ ∧ f a s₁ = .ok b s' := by
  change EStateM.bind m f s = _ at h
  unfold EStateM.bind at h
  cases hm : m s with
  | ok a s₁ =>
    rw [hm] at h
    exact ⟨a, s₁, rfl, h⟩
  | error e s₁ =>
    rw [hm] at h
    cases h

/-- A sequence ends with a first part that does not return. -/
lemma run_bind_error {m : EStateM ε σ α} {s s' : σ} {e : ε} (h : m s = .error e s')
    (f : α → EStateM ε σ β) : (m >>= f) s = .error e s' := by
  change EStateM.bind m f s = _
  unfold EStateM.bind
  rw [h]

/-- Runs that end alike leave the same state. -/
lemma after_congr {m m' : EStateM ε σ α} {s s' : σ} (h : m s = m' s') : m.after s = m'.after s' := by
  unfold after
  rw [h]

/-- A sequence whose first parts run alike runs alike. -/
lemma run_bind_congr {m m' : EStateM ε σ α} {s s' : σ} (h : m s = m' s') (f : α → EStateM ε σ β) :
    (m >>= f) s = (m' >>= f) s' := by
  change EStateM.bind m f s = EStateM.bind m' f s'
  unfold EStateM.bind
  rw [h]

/-- Runs that end alike return the same. -/
lemma result_congr {m m' : EStateM ε σ α} {s s' : σ} (h : m s = m' s') :
    m.result s = m'.result s' := by
  unfold result
  rw [h]

@[simp] lemma after_pure (a : α) (s : σ) : (pure a : EStateM ε σ α).after s = s := rfl

@[simp] lemma result_pure (a : α) (s : σ) : (pure a : EStateM ε σ α).result s = .ok a := rfl

/-- Returning a value at the end leaves the state alone. -/
@[simp] lemma after_bind_pure (m : EStateM ε σ α) (f : α → β) (s : σ) :
    (m >>= fun a => pure (f a)).after s = m.after s := by
  rw [after_bind]
  cases m.result s <;> rfl

/-! ## Relations kept by every run -/

/-- Whatever happens, the state after a run of `m` is related to the one before. -/
def Keeps (R : σ → σ → Prop) (m : EStateM ε σ α) : Prop :=
  ∀ s, R s (m.after s)

section Keeps

variable {R : σ → σ → Prop} [IsPreorder σ R]

lemma Keeps.pure (a : α) : Keeps R (pure a : EStateM ε σ α) :=
  fun s => refl_of R s

/-- Sequences keep what their parts keep. -/
lemma Keeps.bind {m : EStateM ε σ α} {f : α → EStateM ε σ β} (hm : Keeps R m)
    (hf : ∀ a, Keeps R (f a)) : Keeps R (m >>= f) := by
  intro s
  rw [after_bind]
  cases m.result s with
  | ok a => exact trans_of R (hm s) (hf a _)
  | error e => exact hm s

/-- The error that stops a run leaves the state alone. -/
lemma Keeps.throw (e : ε) : Keeps R (throw e : EStateM ε σ α) :=
  fun s => refl_of R s

lemma Keeps.mapM {F : β → EStateM ε σ α} (hF : ∀ b, Keeps R (F b)) (l : List β) :
    Keeps R (l.mapM F) := by
  induction l with
  | nil => exact Keeps.pure []
  | cons b l ih =>
    rw [List.mapM_cons]
    exact Keeps.bind (hF b) fun _ => Keeps.bind ih fun _ => Keeps.pure _

end Keeps

/-- The relation `R` under a condition that stays true. -/
def Given (P : σ → Prop) (R : σ → σ → Prop) (s s' : σ) : Prop :=
  P s → P s' ∧ R s s'

instance {P : σ → Prop} {R : σ → σ → Prop} [IsPreorder σ R] : IsPreorder σ (Given P R) where
  refl s h := ⟨h, refl_of R s⟩
  trans _ _ _ h h' hP := ⟨(h' (h hP).1).1, trans_of R (h hP).2 (h' (h hP).1).2⟩

/-- A condition that the relation itself keeps. -/
lemma Given.of_stable {P : σ → Prop} {R : σ → σ → Prop} {s s' : σ}
    (hstable : R s s' → P s → P s') (h : P s → R s s') : Given P R s s' :=
  fun hP => ⟨hstable (h hP) hP, h hP⟩

/-! ## Programs that always return -/

/-- `m` never stops with an error. -/
def Returns (m : EStateM ε σ α) : Prop :=
  ∀ s, ∃ a, m.result s = .ok a

lemma Returns.pure (a : α) : Returns (pure a : EStateM ε σ α) :=
  fun _ => ⟨a, rfl⟩

/-- Sequences of programs that return do so. -/
lemma Returns.bind {m : EStateM ε σ α} {f : α → EStateM ε σ β} (hm : Returns m)
    (hf : ∀ a, Returns (f a)) : Returns (m >>= f) := by
  intro s
  obtain ⟨a, ha⟩ := hm s
  obtain ⟨b, hb⟩ := hf a (m.after s)
  exact ⟨b, by rw [result_bind, ha]; exact hb⟩

lemma Returns.mapM {F : β → EStateM ε σ α} (hF : ∀ b, Returns (F b)) (l : List β) :
    Returns (l.mapM F) := by
  induction l with
  | nil => exact Returns.pure []
  | cons b l ih =>
    rw [List.mapM_cons]
    exact Returns.bind (hF b) fun _ => Returns.bind ih fun _ => Returns.pure _

/-! ## What a program can return -/

/-- Whatever `m` returns meets the condition `Q`. -/
def Yields (Q : α → Prop) (m : EStateM ε σ α) : Prop :=
  ∀ s a, m.result s = .ok a → Q a

lemma Yields.pure {Q : α → Prop} {a : α} (h : Q a) : Yields Q (pure a : EStateM ε σ α) := by
  intro s b hb
  cases hb
  exact h

/-- A sequence returns what its last part returns. -/
lemma Yields.bind {Q : β → Prop} {m : EStateM ε σ α} {f : α → EStateM ε σ β}
    (hf : ∀ a, Yields Q (f a)) : Yields Q (m >>= f) := by
  intro s b hb
  obtain ⟨a, -, hlast, -⟩ := bind_ok hb
  exact hf a _ b hlast

end EStateM
