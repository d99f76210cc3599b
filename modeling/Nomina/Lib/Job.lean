import Mathlib.Data.List.Forall2
import Mathlib.Order.Defs.Unbundled
import Nomina.Lib.Lts

/-!
# Jobs that take turns

A job is a program on a shared state that is cut at the points where other jobs may come in between: it
takes a turn, which reads and changes the state at once, goes on with what it read, and at the end it is
done with a value or an error. A pool runs any number of jobs on one state, in whatever order their turns
come.

`Safe` is the triple of rely-guarantee reasoning. From a state, and whatever the other jobs do between the
turns as long as they keep `R`, every turn of the job is one that `G` allows, and it is done in a state of
the postcondition. `G` and the postcondition may speak of a value that the job carries along for the proof
only. The rule for pools puts the triples of the jobs together.
-/

namespace Lib

/-- A program on a shared state, cut into turns. -/
inductive Job (σ ε α : Type)
  | done (r : Except ε α)
  | turn (f : σ → σ) (next : σ → Job σ ε α)

namespace Job

variable {σ ε ε' α β γ : Type}

/-- One job after another; an error ends both. -/
def bind : Job σ ε α → (α → Job σ ε β) → Job σ ε β
  | .done (.ok a), k => k a
  | .done (.error e), _ => .done (.error e)
  | .turn f next, k => .turn f fun s => (next s).bind k

instance : Monad (Job σ ε) where
  pure a := .done (.ok a)
  bind := bind

/-- A job of one turn. -/
def atomically (f : σ → Except ε α × σ) : Job σ ε α :=
  .turn (fun s => (f s).2) fun s => .done (f s).1

/-- A job without a turn. -/
def ofExcept (r : Except ε α) : Job σ ε α :=
  .done r

/-- A job whose error is looked at. -/
def attempt : Job σ ε α → Job σ ε' (Except ε α)
  | .done r => .done (.ok r)
  | .turn f next => .turn f fun s => (next s).attempt

/-- A job on a part of the state. -/
def focus {ω : Type} (get : σ → ω) (set : ω → σ → σ) : Job ω ε α → Job σ ε α
  | .done r => .done r
  | .turn f next => .turn (fun s => set (f (get s)) s) fun s => (next (get s)).focus get set

instance (p : Job σ ε α) : Decidable (∃ r, p = .done r) :=
  match p with
  | .done r => isTrue ⟨r, rfl⟩
  | .turn _ _ => isFalse nofun

/-! ## Rely and guarantee -/

/-- From the state `s`, with the value `g` carried along: while others keep `R`, the job takes only turns
that `G` allows and is done as `Q` says. -/
def Safe (R : σ → σ → Prop) (G : γ → σ → σ → γ → Prop) :
    Job σ ε α → γ → σ → (Except ε α → γ → σ → Prop) → Prop
  | .done r, g, s, Q => ∀ s', R s s' → Q r g s'
  | .turn f next, g, s, Q => ∀ s', R s s' → ∃ g', G g s' (f s') g' ∧ (next s').Safe R G g' (f s') Q

variable {R : σ → σ → Prop} {G : γ → σ → σ → γ → Prop} {g : γ} {s : σ}

/-- What a job is safe from, it is still safe from after others took turns. -/
lemma Safe.rely [IsPreorder σ R] {p : Job σ ε α} {Q : Except ε α → γ → σ → Prop} (h : p.Safe R G g s Q)
    {s' : σ} (hs : R s s') : p.Safe R G g s' Q := by
  cases p with
  | done r => exact fun t ht => h t (trans_of R hs ht)
  | turn f next => exact fun t ht => h t (trans_of R hs ht)

/-- A job is done as any weaker condition says, too. -/
lemma Safe.mono {p : Job σ ε α} {Q Q' : Except ε α → γ → σ → Prop} (h : p.Safe R G g s Q)
    (hQ : ∀ r g' s', Q r g' s' → Q' r g' s') : p.Safe R G g s Q' := by
  induction p generalizing g s with
  | done r => exact fun t ht => hQ r g t (h t ht)
  | turn f next ih =>
    intro t ht
    obtain ⟨g', hG, hnext⟩ := h t ht
    exact ⟨g', hG, ih t hnext⟩

lemma Safe.pure {a : α} {Q : Except ε α → γ → σ → Prop} (h : ∀ s', R s s' → Q (.ok a) g s') :
    (Pure.pure a : Job σ ε α).Safe R G g s Q :=
  h

/-- A sequence: the second job goes on from wherever the first one is done. -/
lemma Safe.bind [IsPreorder σ R] {p : Job σ ε α} {k : α → Job σ ε β} {Q : Except ε β → γ → σ → Prop}
    {P : α → γ → σ → Prop}
    (hp : p.Safe R G g s fun r g' s' => match r with
      | .ok a => P a g' s'
      | .error e => Q (.error e) g' s')
    (hk : ∀ a g' s', P a g' s' → (k a).Safe R G g' s' Q) : (p >>= k).Safe R G g s Q := by
  change (p.bind k).Safe R G g s Q
  induction p generalizing g s with
  | done r =>
    cases r with
    | ok a => exact hk a g s (hp s (refl_of R s))
    | error e => exact fun t ht => hp t ht
  | turn f next ih =>
    intro t ht
    obtain ⟨g', hG, hnext⟩ := hp t ht
    exact ⟨g', hG, ih t hnext⟩

/-- A turn that `G` allows from every state that others may leave. -/
lemma Safe.atomically {f : σ → Except ε α × σ} {Q : Except ε α → γ → σ → Prop}
    (h : ∀ s', R s s' → ∃ g', G g s' (f s').2 g' ∧ ∀ s'', R (f s').2 s'' → Q (f s').1 g' s'') :
    (Job.atomically f).Safe R G g s Q :=
  h

lemma Safe.attempt {p : Job σ ε α} {Q : Except ε' (Except ε α) → γ → σ → Prop}
    (h : p.Safe R G g s fun r => Q (.ok r)) : (p.attempt : Job σ ε' (Except ε α)).Safe R G g s Q := by
  induction p generalizing g s with
  | done r => exact fun t ht => h t ht
  | turn f next ih =>
    intro t ht
    obtain ⟨g', hG, hnext⟩ := h t ht
    exact ⟨g', hG, ih t hnext⟩

/-! ## Jobs whose turns all keep a relation -/

/-- Every turn of the job, from every state, is one that `T` relates. -/
def Keeps (T : σ → σ → Prop) : Job σ ε α → Prop
  | .done _ => True
  | .turn f next => ∀ s, T s (f s) ∧ (next s).Keeps T

variable {T : σ → σ → Prop}

lemma Keeps.focus {ω : Type} {get : σ → ω} {set : ω → σ → σ} (h : ∀ w s, T s (set w s)) (p : Job ω ε α) :
    (p.focus get set).Keeps T := by
  induction p with
  | done r => trivial
  | turn f next ih => exact fun s => ⟨h _ s, ih (get s)⟩

/-- A job whose turns keep what `G` allows is safe, if what it ends with holds at the start and stays. -/
lemma Keeps.safe [IsPreorder σ R] {p : Job σ ε α} {Q : Except ε α → γ → σ → Prop} {P : σ → Prop}
    (hp : p.Keeps T) (hG : ∀ s s', P s → T s s' → G g s s' g ∧ P s') (hR : ∀ s s', P s → R s s' → P s')
    (hQ : ∀ r s', P s' → Q r g s') (hs : P s) : p.Safe R G g s Q := by
  induction p generalizing s with
  | done r => exact fun t ht => hQ r t (hR s t hs ht)
  | turn f next ih =>
    intro t ht
    obtain ⟨hturn, hP⟩ := hG t (f t) (hR s t hs ht) (hp t).1
    exact ⟨g, hturn, ih t (hp t).2 hP⟩

/-! ## Jobs that preserve an invariant -/

/-- What a turn does when the state has the invariant `I`: it keeps `R` and the invariant. -/
def Step (R : σ → σ → Prop) (I : σ → Prop) (s s' : σ) : Prop :=
  R s s' ∧ (I s → I s')

instance {I : σ → Prop} [IsPreorder σ R] : IsPreorder σ (Step R I) where
  refl s := ⟨refl_of R s, id⟩
  trans _ _ _ h h' := ⟨trans_of R h.1 h'.1, fun hs => h'.2 (h.2 hs)⟩

/-- Safety of a job whose turns keep `R` and the invariant, among jobs that do the same. -/
abbrev Holds (R : σ → σ → Prop) (I : σ → Prop) (p : Job σ ε α) (s : σ) (Q : Except ε α → σ → Prop) : Prop :=
  p.Safe (Step R I) (fun (_ : Unit) s s' _ => Step R I s s') () s fun r _ s' => Q r s'

/-- From every state with the invariant, the job keeps it. -/
def Preserves (R : σ → σ → Prop) (I : σ → Prop) (p : Job σ ε α) : Prop :=
  ∀ s, I s → p.Holds R I s fun _ s' => I s'

variable {I : σ → Prop}

lemma Preserves.pure (a : α) : (Pure.pure a : Job σ ε α).Preserves R I :=
  fun _ hs _ ht => ht.2 hs

lemma Preserves.ofExcept (r : Except ε α) : (Job.ofExcept r).Preserves R I :=
  fun _ hs _ ht => ht.2 hs

/-- A turn that keeps the relation and the invariant. -/
lemma Preserves.atomically {f : σ → Except ε α × σ} (h : ∀ s, I s → R s (f s).2 ∧ I (f s).2) :
    (Job.atomically f).Preserves R I := by
  intro s hs t ht
  obtain ⟨hR, hI⟩ := h t (ht.2 hs)
  exact ⟨(), ⟨hR, fun _ => hI⟩, fun t' ht' => ht'.2 hI⟩

/-- A job goes on from what the one before it is known to have done. -/
lemma Holds.bind [IsPreorder σ R] {p : Job σ ε α} {k : α → Job σ ε β} {P : α → σ → Prop}
    (hp : p.Holds R I s fun r s' => I s' ∧ ∀ a, r = .ok a → P a s')
    (hk : ∀ a s', I s' → P a s' → (k a).Holds R I s' fun _ s' => I s') :
    (p >>= k).Holds R I s fun _ s' => I s' := by
  refine Safe.bind (P := fun a _ s' => I s' ∧ P a s') (hp.mono fun r g' s' h => ?_)
    fun a g' s' h => hk a s' h.1 h.2
  cases r with
  | ok a => exact ⟨h.1, h.2 a rfl⟩
  | error e => exact h.1

lemma Preserves.bind [IsPreorder σ R] {p : Job σ ε α} {k : α → Job σ ε β} (hp : p.Preserves R I)
    (hk : ∀ a, (k a).Preserves R I) : (p >>= k).Preserves R I := by
  intro s hs
  refine Holds.bind (P := fun _ _ => True) ((hp s hs).mono fun r _ s' h => ⟨h, fun _ _ => trivial⟩)
    fun a s' h _ => hk a s' h

/-- A job without turns before another: only the value that it returns matters. -/
lemma Preserves.ofExcept_bind {r : Except ε α} {k : α → Job σ ε β}
    (hk : ∀ a, r = .ok a → (k a).Preserves R I) : (Job.ofExcept r >>= k).Preserves R I := by
  cases r with
  | ok a => exact hk a rfl
  | error e => exact fun _ hs _ ht => ht.2 hs

lemma Preserves.attempt {p : Job σ ε α} (hp : p.Preserves R I) :
    (p.attempt : Job σ ε' (Except ε α)).Preserves R I :=
  fun s hs => Safe.attempt (hp s hs)

end Job

/-! ## Pools -/

/-- Jobs on one state. -/
structure Pool (σ ε α : Type) where
  shared : σ
  jobs : List (Job σ ε α)

/-- A request comes in, or a job takes its next turn. -/
inductive PoolStep (ρ : Type)
  | start (request : ρ)
  | turn (i : ℕ)

namespace Pool

variable {σ ε α γ ρ : Type}

/-- A step of a pool in which `handle` is the job of a request. -/
def step (handle : ρ → Job σ ε α) (p : Pool σ ε α) : PoolStep ρ → Option (Pool σ ε α)
  | .start request => some { p with jobs := p.jobs ++ [handle request] }
  | .turn i =>
    match p.jobs[i]? with
    | some (.turn f next) => some ⟨f p.shared, p.jobs.set i (next p.shared)⟩
    | _ => none

/-- No job is under way. -/
def Quiet (p : Pool σ ε α) : Prop :=
  ∀ j ∈ p.jobs, ∃ r, j = .done r

instance (p : Pool σ ε α) : Decidable p.Quiet :=
  inferInstanceAs (Decidable (∀ j ∈ p.jobs, ∃ r, j = .done r))

/-- Every job is safe from the shared state, with its own value carried along; these values and the state
are related by `I`. -/
def Sound (R : σ → σ → Prop) (G : γ → σ → σ → γ → Prop) (I : List γ → σ → Prop)
    (Q : Except ε α → γ → σ → Prop) (p : Pool σ ε α) : Prop :=
  ∃ gs : List γ, I gs p.shared ∧ List.Forall₂ (fun j g => j.Safe R G g p.shared Q) p.jobs gs

variable {R : σ → σ → Prop} {G : γ → σ → σ → γ → Prop} {I : List γ → σ → Prop}
  {Q : Except ε α → γ → σ → Prop}

/-- What the relation says of the shared state. -/
lemma Sound.shared {p : Pool σ ε α} {P : σ → Prop} (hp : p.Sound R G I Q) (hI : ∀ gs s, I gs s → P s) :
    P p.shared := by
  obtain ⟨gs, h, -⟩ := hp
  exact hI gs p.shared h

variable [IsPreorder σ R] {handle : ρ → Job σ ε α}

/-- The condition on the steps of a run that `A` is of the requests that come in, and `C` of the states
before and after a step. -/
def Meets (handle : ρ → Job σ ε α) (A : ρ → Prop) (C : σ → σ → Prop) (p : Pool σ ε α) (a : PoolStep ρ) :
    Prop :=
  (∀ request, a = .start request → A request) ∧ ∀ p', p.step handle a = some p' → C p.shared p'.shared

omit [IsPreorder σ R] in
instance {C : σ → σ → Prop} [DecidableRel C] (p : Pool σ ε α) (a : PoolStep ρ) :
    Decidable (p.Meets handle (fun _ => True) C a) :=
  decidable_of_iff (∀ p' ∈ p.step handle a, C p.shared p'.shared)
    ⟨fun h => ⟨fun _ _ => trivial, fun p' hp' => h p' hp'⟩, fun h p' hp' => h.2 p' hp'⟩

/-- The parallel rule: if new jobs are safe, and turns that `G` allows and `C` admits keep `R` and `I`,
then every step of a pool leaves its jobs safe. -/
theorem Sound.step {A : ρ → Prop} {C : σ → σ → Prop}
    (hstart : ∀ gs s request, A request → I gs s →
      ∃ g, I (gs ++ [g]) s ∧ (handle request).Safe R G g s Q)
    (hturn : ∀ gs s s' i g g', I gs s → gs[i]? = some g → G g s s' g' → C s s' →
      R s s' ∧ I (gs.set i g') s') {p p' : Pool σ ε α} {a : PoolStep ρ} (hp : p.Sound R G I Q)
    (ha : p.Meets handle A C a) (hstep : p.step handle a = some p') : p'.Sound R G I Q := by
  obtain ⟨gs, hI, hjobs⟩ := hp
  obtain ⟨hA, hC⟩ := ha
  replace hC := hC p' hstep
  cases a with
  | start request =>
    cases hstep
    obtain ⟨g, hI', hsafe⟩ := hstart gs p.shared request (hA request rfl) hI
    exact ⟨gs ++ [g], hI', List.rel_append hjobs (.cons hsafe .nil)⟩
  | turn i =>
    unfold Pool.step at hstep
    dsimp only at hstep
    split at hstep
    · rename_i f next hi
      cases hstep
      obtain ⟨hlen, hrel⟩ := List.forall₂_iff_get.mp hjobs
      obtain ⟨hlt, hget⟩ := List.getElem?_eq_some_iff.mp hi
      have hlt' : i < gs.length := hlen ▸ hlt
      have hsafe : (Job.turn f next).Safe R G (gs[i]) p.shared Q := by
        have h := hrel i hlt hlt'
        rw [List.get_eq_getElem, List.get_eq_getElem, hget] at h
        exact h
      obtain ⟨g', hG, hnext⟩ := hsafe p.shared (refl_of R p.shared)
      obtain ⟨hR, hI'⟩ := hturn gs p.shared (f p.shared) i gs[i] g' hI (List.getElem?_eq_getElem hlt') hG hC
      refine ⟨gs.set i g', hI', List.forall₂_iff_get.mpr ⟨?_, fun n h h' => ?_⟩⟩
      · rw [List.length_set, List.length_set, hlen]
      · rw [List.get_eq_getElem, List.get_eq_getElem, List.getElem_set, List.getElem_set]
        rw [List.length_set] at h h'
        split
        · exact hnext
        · exact (hrel n h h').rely hR
    · cases hstep

/-- The parallel rule for runs. -/
theorem Sound.of_run {A : ρ → Prop} {C : σ → σ → Prop}
    (hstart : ∀ gs s request, A request → I gs s →
      ∃ g, I (gs ++ [g]) s ∧ (handle request).Safe R G g s Q)
    (hturn : ∀ gs s s' i g g', I gs s → gs[i]? = some g → G g s s' g' → C s s' →
      R s s' ∧ I (gs.set i g') s') {p p' : Pool σ ε α} {as : List (PoolStep ρ)} (hp : p.Sound R G I Q)
    (hC : Along (Pool.step handle) (Meets handle A C) p as) (hrun : run (Pool.step handle) p as = some p') :
    p'.Sound R G I Q :=
  run_invariant (fun _ _ _ hp ha hstep => hp.step hstart hturn ha hstep) hp hC hrun

/-- When no job is under way, every value that was carried along is one that the job was done with. -/
lemma Sound.quiet {p : Pool σ ε α} (hp : p.Sound R G I Q) (hquiet : p.Quiet) :
    ∃ gs, I gs p.shared ∧ ∀ g ∈ gs, ∃ r, Q r g p.shared := by
  obtain ⟨gs, hI, hjobs⟩ := hp
  refine ⟨gs, hI, fun g hg => ?_⟩
  obtain ⟨n, hn, rfl⟩ := List.mem_iff_getElem.mp hg
  obtain ⟨hlen, hrel⟩ := List.forall₂_iff_get.mp hjobs
  have hn' : n < p.jobs.length := hlen ▸ hn
  obtain ⟨r, hr⟩ := hquiet _ (List.getElem_mem hn')
  have hsafe : p.jobs[n].Safe R G gs[n] p.shared Q := hrel n hn' hn
  rw [hr] at hsafe
  exact ⟨r, hsafe p.shared (refl_of R p.shared)⟩

/-- Jobs that preserve an invariant preserve it in every order of their turns. -/
theorem invariant_of_run {A : ρ → Prop} {I : σ → Prop} (hhandle : ∀ request, A request →
      (handle request).Preserves R I) {s : σ} (hs : I s) {p : Pool σ ε α} {as : List (PoolStep ρ)}
    (hA : ∀ request, .start request ∈ as → A request)
    (hrun : run (Pool.step handle) ⟨s, []⟩ as = some p) : I p.shared := by
  have hsound : p.Sound (Job.Step R I) (fun (_ : Unit) s s' _ => Job.Step R I s s') (fun _ s => I s)
      fun _ _ s' => I s' := by
    refine Sound.of_run (A := A) (C := fun _ _ => True) ?_ ?_ ⟨[], hs, .nil⟩ ?_ hrun
    · exact fun gs s request hA hI => ⟨(), hI, hhandle request hA s hI⟩
    · exact fun gs s s' i g g' hI _ hG _ => ⟨hG, hG.2 hI⟩
    · exact along_of_mem (fun p a ha => ⟨fun request h => hA request (h ▸ ha), fun _ _ => trivial⟩) _
  exact hsound.shared fun _ _ h => h

end Pool

end Lib
