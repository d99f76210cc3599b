import Nomina.Lib.Lts
import Mathlib.Data.Bool.Count

/-!
# Read, modify, write, publish

Two clients change one stored value. Each reads it, changes its copy, writes the copy back and then
publishes the copy; a schedule is the list of the clients in the order of their steps. Nothing keeps
the steps of the two apart.

Which changes the final values have is the same whatever is stored: the system over lists of clients,
where a change appends the client's name, is mapped to any other one. Questions about all schedules
are questions about that system, which can be evaluated.
-/

namespace Lib.Rmw

/-- How far a client is, with its copy of the value. -/
inductive Phase (σ : Type)
  | start
  | read (copy : σ)
  | written (copy : σ)
  | done

/-- The stored value, the value published so far, if any, and the two clients. -/
structure Cells (σ : Type) where
  stored : σ
  published : Option σ
  phase : Bool → Phase σ

variable {σ τ : Type}

/-- Before either client has started. -/
def Cells.initial (stored : σ) : Cells σ :=
  ⟨stored, none, fun _ => .start⟩

/-- The next step of the client `i`, which changes its copy by `f i`. -/
def step (f : Bool → σ → σ) (s : Cells σ) (i : Bool) : Option (Cells σ) :=
  match s.phase i with
  | .start => some { s with phase := Function.update s.phase i (.read s.stored) }
  | .read copy => some { s with
      stored := f i copy
      phase := Function.update s.phase i (.written (f i copy)) }
  | .written copy => some { s with
      published := some copy
      phase := Function.update s.phase i .done }
  | .done => none

/-! ## Schedules -/

/-- A schedule in which each client takes its three steps. -/
def Complete (as : List Bool) : Prop :=
  as.count true = 3 ∧ as.count false = 3

/-- The client `i` reads after the other one has written. -/
def ReadsLate (as : List Bool) (i : Bool) : Prop :=
  2 ≤ (as.takeWhile (· != i)).length

/-- The client that writes last: before its second step the other one has taken two. -/
def lastWriter (as : List Bool) : Bool :=
  2 ≤ ((as.erase true).takeWhile (· != true)).length

/-- The client that publishes last. -/
def lastPublisher (as : List Bool) : Bool :=
  as.getLastD true

instance (as : List Bool) : Decidable (Complete as) :=
  inferInstanceAs (Decidable (_ ∧ _))

instance (as : List Bool) (i : Bool) : Decidable (ReadsLate as i) :=
  inferInstanceAs (Decidable (_ ≤ _))

/-- The changes that the copy of the client `i` has in the end. -/
def changes (as : List Bool) (i : Bool) : List Bool :=
  if ReadsLate as i then [!i, i] else [i]

/-- What a complete schedule leaves, when a change appends the name of the client. -/
lemma run_log {as : List Bool} (h : Complete as) :
    (run (step fun i l => l ++ [i]) (.initial []) as).map (fun s => (s.stored, s.published)) =
      some (changes as (lastWriter as), some (changes as (lastPublisher as))) := by
  have hlen : as.length = 6 := by
    rw [← List.count_false_add_count_true, h.1, h.2]
  match as, hlen with
  | [a, b, c, d, e, f], _ =>
    revert a b c d e f
    decide +kernel

/-! ## Mapping a system -/

/-- A copy of another system. -/
def Phase.map (h : σ → τ) : Phase σ → Phase τ
  | .start => .start
  | .read copy => .read (h copy)
  | .written copy => .written (h copy)
  | .done => .done

/-- The state of another system. -/
def Cells.map (h : σ → τ) (s : Cells σ) : Cells τ :=
  ⟨h s.stored, s.published.map h, fun i => (s.phase i).map h⟩

/-- A step is mapped to a step. -/
lemma step_map {f : Bool → σ → σ} {g : Bool → τ → τ} {h : σ → τ} (hfg : ∀ i x, h (f i x) = g i (h x))
    (s : Cells σ) (i : Bool) : step g (s.map h) i = (step f s i).map (Cells.map h) := by
  have hphase (p : Phase σ) : (fun j => (Function.update s.phase i p j).map h) =
      Function.update (fun j => (s.phase j).map h) i (p.map h) := by
    funext j
    by_cases hj : j = i
    · subst hj
      simp
    · simp [hj]
  have hi : (s.map h).phase i = (s.phase i).map h := rfl
  unfold step
  rw [hi]
  cases s.phase i with
  | start => simp only [Cells.map, Option.map_some, hphase]; rfl
  | read copy =>
    have hcopy : Phase.map h (.written (f i copy)) = .written (g i (h copy)) := by
      rw [← hfg]
      rfl
    simp only [Cells.map, Option.map_some, hphase, hfg, hcopy]
    rfl
  | written copy => simp only [Cells.map, Option.map_some, hphase]; rfl
  | done => rfl

/-- A run is mapped to a run. -/
lemma run_map {f : Bool → σ → σ} {g : Bool → τ → τ} {h : σ → τ} (hfg : ∀ i x, h (f i x) = g i (h x))
    (s : Cells σ) (as : List Bool) :
    run (step g) (s.map h) as = (run (step f) s as).map (Cells.map h) := by
  induction as generalizing s with
  | nil => rfl
  | cons i as ih =>
    rw [run, run, step_map hfg]
    cases step f s i with
    | none => rfl
    | some s' => exact ih s'

/-- What a complete schedule leaves of the value `x`: the last writer's copy is stored and the last
publisher's copy is published, each with the changes it has. -/
theorem run_complete {f : Bool → σ → σ} {as : List Bool} (h : Complete as) (x : σ) :
    ∃ s, run (step f) (.initial x) as = some s ∧
      s.stored = (changes as (lastWriter as)).foldl (fun x i => f i x) x ∧
      s.published = some ((changes as (lastPublisher as)).foldl (fun x i => f i x) x) := by
  have hmap := run_map (f := fun i l => l ++ [i]) (g := f)
    (h := fun l : List Bool => l.foldl (fun x i => f i x) x) (by intro i l; simp) (.initial []) as
  have hlog := run_log h
  cases hrun : run (step fun i l => l ++ [i]) (.initial []) as with
  | none =>
    rw [hrun] at hlog
    cases hlog
  | some s =>
    rw [hrun] at hlog hmap
    obtain ⟨hstored, hpublished⟩ := Prod.mk.inj (Option.some.inj hlog)
    refine ⟨_, hmap, ?_, ?_⟩
    · rw [← hstored]
      rfl
    · exact congrArg (Option.map _) hpublished

end Lib.Rmw
