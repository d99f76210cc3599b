import Nomina.Lib.Refresh
import Nomina.State

/-!
# Concurrent reloads

A mutating request commits to the database and then calls `reload_store`, which loads a store and
afterwards replaces the shared one. Requests run concurrently, and nothing orders the replacements as
the loads were: a store that was loaded early can replace one that was loaded later. In runs in which
that does not happen the shared store is the one of the database as soon as all requests have
completed.
-/

namespace Nomina

open Lib Sql Refresh

variable (K : Crates)

/-- A mutating request: the commit, then the reload. -/
def mutatingRequest (m : Sql Tables Unit) : App Unit := do
  runDb m
  reloadStore K

/-- The requests, the database and the shared store. -/
abbrev ReloadSystem := Refresh.System Tables ZoneStore

/-- The steps of request `i`: its commit, `ZoneStore::load`, and the replacement of the store. -/
inductive ReloadStep
  | commit (i : ℕ) (m : Sql Tables Unit)
  | load (i : ℕ)
  | swap (i : ℕ)

namespace ReloadSystem

/-- One step. Each database call holds the lock of the connection. -/
def step (s : ReloadSystem) : ReloadStep → Option ReloadSystem
  | .commit i m =>
    match s.writers i, m ⟨s.source, [], []⟩ with
    | .idle, .ok _ c => some (s.commit i c.tables)
    | _, _ => none
  | .load i =>
    match s.writers i, load K ⟨s.source, [], []⟩ with
    | .committed, .ok store _ => some (s.enter i (.loaded store s.version))
    | _, _ => none
  | .swap i =>
    match s.writers i with
    | .loaded store version => some (s.swap i store version)
    | _ => none

/-- The condition on the steps: a store replaces the shared one only if it has seen at least the
commits that one has seen. -/
def InOrder (s : ReloadSystem) : ReloadStep → Prop
  | .swap i => (s.writers i).version?.all (s.installed ≤ ·) = true
  | _ => True

variable {K} {s : ReloadSystem}

/-- Every step in order keeps the store fresh: the loads give the store of the database. -/
lemma fresh_step (s : ReloadSystem) (a : ReloadStep) (s' : ReloadSystem)
    (h : s.Fresh (buildFrom K)) (hord : InOrder s a) (hstep : step K s a = some s') :
    s'.Fresh (buildFrom K) := by
  cases a with
  | commit i m =>
    simp only [step] at hstep
    split at hstep
    · cases hstep
      exact h.commit i _
    · cases hstep
  | load i =>
    simp only [step] at hstep
    split at hstep
    · rename_i store c hi hload
      cases hstep
      obtain ⟨hres, -, -⟩ := evals_load (K := K) s.source ⟨s.source, [], []⟩ rfl rfl
      have hstore : store = buildFrom K s.source := by
        unfold EStateM.result at hres
        rw [hload] at hres
        exact Except.ok.inj hres
      subst hstore
      exact h.load hi
    · cases hstep
  | swap i =>
    simp only [step] at hstep
    split at hstep
    · rename_i store version hi
      cases hstep
      have hle : s.installed ≤ version := by simpa [InOrder, hi, Phase.version?] using hord
      exact h.swap hi hle
    · cases hstep

variable (K) in
/-- However many requests commit and reload concurrently: if no store replaces one that has seen more
commits, the shared store is the store of the database once all requests have completed. -/
theorem store_eq_buildFrom (t : Tables) (as : List ReloadStep) (s : ReloadSystem)
    (hord : Along (step K) InOrder (System.initial (buildFrom K) t) as)
    (hrun : run (step K) (System.initial (buildFrom K) t) as = some s)
    (hdone : ∀ i, s.writers i = .idle) : s.derived = buildFrom K s.source := by
  have hfresh : s.Fresh (buildFrom K) :=
    run_invariant fresh_step (System.fresh_initial t) hord hrun
  exact hfresh.derived_eq_of_idle hdone

/-- A commit that succeeds leaves its contents. -/
lemma step_commit {m : Sql Tables Unit} {t t' : Tables} (hm : Evals m t (.ok ()) t')
    {s : ReloadSystem} {i : ℕ} (hs : s.source = t) (hi : s.writers i = .idle) :
    step K s (.commit i m) = some (s.commit i t') := by
  subst hs
  obtain ⟨hres, htables, -⟩ := hm ⟨s.source, [], []⟩ rfl rfl
  simp only [step, hi, EStateM.run_of_result hres, htables]

/-- A request that has committed loads the store of the database. -/
lemma step_load {s : ReloadSystem} {i : ℕ} (hi : s.writers i = .committed) :
    step K s (.load i) = some (s.enter i (.loaded (buildFrom K s.source) s.version)) := by
  have hres := (evals_load (K := K) s.source ⟨s.source, [], []⟩ rfl rfl).1
  simp only [step, hi, EStateM.run_of_result hres]

/-- A request that has loaded replaces the store. -/
lemma step_swap {s : ReloadSystem} {i : ℕ} {store : ZoneStore} {version : ℕ}
    (hi : s.writers i = .loaded store version) :
    step K s (.swap i) = some (s.swap i store version) := by
  simp only [step, hi]

/-- The steps of a request without a break. -/
def handle (i : ℕ) (m : Sql Tables Unit) : List ReloadStep :=
  [.commit i m, .load i, .swap i]

/-- A request alone leaves the database and the store as `mutatingRequest` does. -/
theorem handle_eq_mutatingRequest {t : AppState} {m : Sql Tables Unit} {t' : Tables}
    (hfaults : t.conn.faults = []) (hm : Evals m t.db (.ok ()) t') :
    ∃ s, run (step K) ⟨t.db, t.store, fun _ => .idle, 0, 0⟩ (handle 0 m) = some s ∧
      s.source = ((mutatingRequest K m).after t).db ∧
      s.derived = ((mutatingRequest K m).after t).store := by
  have hrequest : ((mutatingRequest K m).after t).db = t' ∧
      ((mutatingRequest K m).after t).store = buildFrom K t' := by
    unfold mutatingRequest
    obtain ⟨t₁, hdb, hf, -, hafter⟩ := after_runDb_bind (fun _ => reloadStore K) hm hfaults
    obtain ⟨store, hload, -, hreload⟩ := reloadStore_run K t₁
    obtain ⟨hres, htables, -⟩ := evals_load (K := K) t' t₁.conn hdb hf
    rw [hload] at hres
    rw [hafter, hreload]
    exact ⟨htables, Except.ok.inj hres⟩
  rw [hrequest.1, hrequest.2, handle, run_cons (step_commit hm rfl rfl), run_cons (step_load rfl),
    run_cons (step_swap rfl)]
  exact ⟨_, rfl, rfl, rfl⟩

/-- A request that creates an address record in `home.lan`. -/
def createHost (name : Str) : Sql Tables Unit := do
  let _ ← Db.createRecord 1 none name "A" none "192.168.1.10"
  pure ()

lemma evals_createHost (name : Str) (serial : ℕ) (records : List DnsRecord) :
    Evals (createHost name) (homeTables serial records) (.ok ())
      (homeTables (serial + 1) (records ++ [homeHost (freshId (records.map (·.id))) name])) := by
  exact Evals.bind (Db.evals_createRecord rfl) (Evals.pure () _)

/-- The owner names of the zones of a store. -/
def owners (s : ZoneStore) : List (List Str) :=
  s.zones.map fun z => z.records.keys

/-- Two requests that interleave but replace the store in the order of their loads. -/
theorem store_eq_buildFrom_inOrder :
    ∃ s, run (step plainCrates) (System.initial (buildFrom plainCrates) (homeTables 1 []))
        [.commit 0 (createHost "nas"), .load 0, .commit 1 (createHost "pi"), .load 1, .swap 0,
          .swap 1] = some s ∧ (∀ i, s.writers i = .idle) ∧
      s.derived = buildFrom plainCrates s.source := by
  have hnas := evals_createHost "nas" 1 []
  have hpi := evals_createHost "pi" 2 [homeHost 1 "nas"]
  have hord : Along (step plainCrates) InOrder
      (System.initial (buildFrom plainCrates) (homeTables 1 []))
      [.commit 0 (createHost "nas"), .load 0, .commit 1 (createHost "pi"), .load 1, .swap 0,
        .swap 1] :=
    along_cons (step_commit hnas rfl rfl) trivial <| along_cons (step_load rfl) trivial <|
      along_cons (step_commit hpi rfl rfl) trivial <| along_cons (step_load rfl) trivial <|
      along_cons (step_swap rfl) rfl <| along_cons (step_swap rfl) rfl trivial
  obtain ⟨s, hrun, hidle⟩ : ∃ s, run (step plainCrates)
      (System.initial (buildFrom plainCrates) (homeTables 1 []))
      [.commit 0 (createHost "nas"), .load 0, .commit 1 (createHost "pi"), .load 1, .swap 0,
        .swap 1] = some s ∧ ∀ i, s.writers i = .idle := by
    rw [run_cons (step_commit hnas rfl rfl), run_cons (step_load rfl),
      run_cons (step_commit hpi rfl rfl), run_cons (step_load rfl), run_cons (step_swap rfl),
      run_cons (step_swap rfl)]
    refine ⟨_, rfl, fun i => ?_⟩
    simp only [System.swap, System.enter, System.commit, System.initial, Function.update_apply]
    split_ifs <;> rfl
  exact ⟨s, hrun, hidle, store_eq_buildFrom plainCrates (homeTables 1 []) _ s hord hrun hidle⟩

/-- A request that loaded before another one committed replaces the store after it. -/
theorem store_stale :
    ∃ s, run (step plainCrates) (System.initial (buildFrom plainCrates) (homeTables 1 []))
        [.commit 0 (createHost "nas"), .load 0, .commit 1 (createHost "pi"), .load 1, .swap 1,
          .swap 0] = some s ∧ (∀ i, s.writers i = .idle) ∧
      s.derived ≠ buildFrom plainCrates s.source := by
  have hnas := evals_createHost "nas" 1 []
  have hpi := evals_createHost "pi" 2 [homeHost 1 "nas"]
  rw [run_cons (step_commit hnas rfl rfl), run_cons (step_load rfl),
    run_cons (step_commit hpi rfl rfl), run_cons (step_load rfl), run_cons (step_swap rfl),
    run_cons (step_swap rfl)]
  refine ⟨_, rfl, fun i => ?_, fun h => ?_⟩
  · simp only [System.swap, System.enter, System.commit, System.initial, Function.update_apply]
    split_ifs <;> rfl
  · -- The shared store has no entry for the second host.
    have howners := congrArg owners h
    revert howners
    decide +kernel

end ReloadSystem

end Nomina
