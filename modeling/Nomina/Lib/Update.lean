import Nomina.Lib.Sql
import Mathlib.Logic.Function.Conjugate

/-!
# Runs of updates

A program that updates the columns of selected rows one statement at a time. A run that is refused
half-way leaves what the statements before the refused one did; `updates_cases` says which those are.
When the updates are idempotent and commute, as assignments to different columns are, the rows are as
before only if each update that was executed found its values already stored.
-/

namespace Lib

/-! ## Commuting idempotent functions -/

/-- Functions that are idempotent and commute with each other. -/
structure Independent {α : Type} (fs : List (α → α)) : Prop where
  idem : ∀ f ∈ fs, ∀ a, f (f a) = f a
  comm : fs.Pairwise Function.Commute

namespace Independent

variable {α : Type} {fs : List (α → α)}

/-- A part of an independent list is independent. -/
lemma sublist {gs : List (α → α)} (h : Independent fs) (hs : gs.Sublist fs) : Independent gs :=
  ⟨fun f hf => h.idem f (hs.subset hf), h.comm.sublist hs⟩

/-- A function that commutes with all of a list commutes with running it. -/
lemma foldl_comm {f : α → α} (hf : ∀ g ∈ fs, Function.Commute f g) (a : α) :
    fs.foldl (fun a g => g a) (f a) = f (fs.foldl (fun a g => g a) a) := by
  induction fs generalizing a with
  | nil => rfl
  | cons g fs ih =>
    have hstep : g (f a) = f (g a) := (hf g List.mem_cons_self a).symm
    rw [List.foldl_cons, List.foldl_cons, hstep]
    exact ih (fun k hk => hf k (List.mem_cons_of_mem g hk)) (g a)

/-- Running an independent list changes nothing just when none of its functions does. -/
lemma foldl_eq_self_iff (h : Independent fs) (a : α) :
    fs.foldl (fun a f => f a) a = a ↔ ∀ f ∈ fs, f a = a := by
  induction fs generalizing a with
  | nil => simp
  | cons f fs ih =>
    have htail : Independent fs := h.sublist (List.sublist_cons_self f fs)
    have hcomm := (List.pairwise_cons.mp h.comm).1
    rw [List.foldl_cons, foldl_comm hcomm, List.forall_mem_cons]
    constructor
    · intro heq
      -- The whole run fixes `a`, and `f` is its last function, so `f` fixes `a` too.
      have hf : f a = a := by
        have hidem := h.idem f List.mem_cons_self (fs.foldl (fun a g => g a) a)
        rwa [heq] at hidem
      refine ⟨hf, (ih htail a).mp ?_⟩
      rwa [← foldl_comm hcomm, hf] at heq
    · rintro ⟨hf, hfs⟩
      rw [(ih htail a).mpr hfs, hf]

end Independent

/-! ## Tables -/

/-- A table: the part of the contents that holds its rows. -/
structure TableOf (τ ρ : Type) where
  rows : τ → List ρ
  put : List ρ → τ → τ
  rows_put : ∀ l t, rows (put l t) = l
  put_put : ∀ l l' t, put l (put l' t) = put l t
  put_rows : ∀ t, put (rows t) t = t

/-- One `UPDATE … WHERE`: change the rows that `p` selects. -/
def updateRows {ρ : Type} (p : ρ → Prop) [DecidablePred p] (f : ρ → ρ) (l : List ρ) : List ρ :=
  l.map fun r => if p r then f r else r

section Rows

variable {τ ρ : Type} {p : ρ → Prop} [DecidablePred p]

/-- An update that finds its values in the rows that it selects. -/
lemma updateRows_eq_self_iff {f : ρ → ρ} {l : List ρ} :
    updateRows p f l = l ↔ ∀ r ∈ l, p r → f r = r := by
  have hmap : updateRows p f l = l.map id ↔ ∀ r ∈ l, (if p r then f r else r) = id r :=
    List.map_inj_left
  rw [List.map_id] at hmap
  rw [hmap]
  refine forall₂_congr fun r _ => ?_
  by_cases hr : p r <;> simp [hr]

/-- Updates of the same rows run one after the other. -/
lemma updateRows_updateRows {f g : ρ → ρ} (hf : ∀ r, p r → p (f r)) (l : List ρ) :
    updateRows p g (updateRows p f l) = updateRows p (g ∘ f) l := by
  unfold updateRows
  rw [List.map_map]
  refine List.map_congr_left fun r _ => ?_
  by_cases hr : p r
  · simp [hr, hf r hr]
  · simp [hr]

/-- Updates of the selected rows are independent when the changes of a row are. -/
lemma independent_updateRows {fs : List (ρ → ρ)} (h : Independent fs)
    (hp : ∀ f ∈ fs, ∀ r, p r → p (f r)) : Independent (fs.map (updateRows p)) := by
  constructor
  · intro F hF l
    obtain ⟨f, hf, rfl⟩ := List.mem_map.mp hF
    rw [updateRows_updateRows (hp f hf)]
    congr 1
    funext r
    exact h.idem f hf r
  · refine List.pairwise_map.mpr (h.comm.imp_of_mem ?_)
    intro f g hf hg hcomm l
    rw [updateRows_updateRows (hp f hf), updateRows_updateRows (hp g hg)]
    congr 1
    funext r
    exact (hcomm r)

/-- `UPDATE … WHERE` on a table. -/
def TableOf.update (T : TableOf τ ρ) (p : ρ → Prop) [DecidablePred p] (f : ρ → ρ) (t : τ) : τ :=
  T.put (updateRows p f (T.rows t)) t

/-- A run of updates acts on the rows. -/
lemma TableOf.foldl_update (T : TableOf τ ρ) (fs : List (ρ → ρ)) (t : τ) :
    fs.foldl (fun t f => T.update p f t) t =
      T.put (fs.foldl (fun l f => updateRows p f l) (T.rows t)) t := by
  induction fs generalizing t with
  | nil => exact (T.put_rows t).symm
  | cons f fs ih =>
    rw [List.foldl_cons, List.foldl_cons, ih]
    unfold TableOf.update
    rw [T.rows_put, T.put_put]

/-- A run of independent updates changes nothing just when the selected rows hold the values
already. -/
theorem TableOf.foldl_update_eq_self_iff (T : TableOf τ ρ) {fs : List (ρ → ρ)} (h : Independent fs)
    (hp : ∀ f ∈ fs, ∀ r, p r → p (f r)) (t : τ) :
    fs.foldl (fun t f => T.update p f t) t = t ↔
      ∀ f ∈ fs, ∀ r ∈ T.rows t, p r → f r = r := by
  have hput : T.put (fs.foldl (fun l f => updateRows p f l) (T.rows t)) t = t ↔
      fs.foldl (fun l f => updateRows p f l) (T.rows t) = T.rows t := by
    constructor
    · intro heq
      have hrows := congrArg T.rows heq
      rwa [T.rows_put] at hrows
    · intro heq
      rw [heq, T.put_rows]
  have hfold := (independent_updateRows h hp).foldl_eq_self_iff (T.rows t)
  rw [List.foldl_map, List.forall_mem_map] at hfold
  rw [T.foldl_update, hput, hfold]
  exact forall₂_congr fun f _ => updateRows_eq_self_iff

end Rows

/-! ## Refusals half-way -/

namespace Sql

variable {τ α β : Type}

/-- The number of statements before the first one that is refused. -/
def firstRefused (c : Conn τ) : Option ℕ :=
  c.faults.findIdx? fun b => b

/-- The run of `m` stops at a refusal after `k` statements, which left the contents `t`. -/
structure Stops (m : Sql τ α) (c : Conn τ) (k : ℕ) (t : τ) : Prop where
  first : firstRefused c = some k
  error : ∃ e, m.result c = .error e
  tables : (m.after c).tables = t

/-- The run of `m` executes `n` statements, returns `a` and leaves the contents `t`. -/
structure Passes (m : Sql τ α) (c : Conn τ) (n : ℕ) (a : α) (t : τ) : Prop where
  result : m.result c = .ok a
  tables : (m.after c).tables = t
  first : firstRefused c = (firstRefused (m.after c)).map (· + n)

/-- The run of `m` fails without an effect. -/
def Rejected (m : Sql τ α) (c : Conn τ) : Prop :=
  (∃ e, m.result c = .error e) ∧ (m.after c).tables = c.tables

/-- Stopping is a matter of the run. -/
lemma Stops.congr {m m' : Sql τ α} {c : Conn τ} {k : ℕ} {t : τ} (h : Stops m c k t)
    (hrun : m' c = m c) : Stops m' c k t := by
  obtain ⟨hfirst, herror, htables⟩ := h
  rw [← EStateM.result_congr hrun] at herror
  rw [← EStateM.after_congr hrun] at htables
  exact ⟨hfirst, herror, htables⟩

/-- Getting through is a matter of the run. -/
lemma Passes.congr {m m' : Sql τ α} {c : Conn τ} {n : ℕ} {a : α} {t : τ} (h : Passes m c n a t)
    (hrun : m' c = m c) : Passes m' c n a t := by
  obtain ⟨hresult, htables, hfirst⟩ := h
  rw [← EStateM.result_congr hrun] at hresult
  rw [← EStateM.after_congr hrun] at htables hfirst
  exact ⟨hresult, htables, hfirst⟩

/-- A run that is through before the first refusal. -/
lemma Passes.le_of_first {m : Sql τ α} {c : Conn τ} {n k : ℕ} {a : α} {t : τ}
    (h : Passes m c n a t) (hk : firstRefused c = some k) : n ≤ k := by
  obtain ⟨j, -, rfl⟩ := Option.map_eq_some_iff.mp (h.first.symm.trans hk)
  exact Nat.le_add_left n j

lemma Passes.pure (a : α) (c : Conn τ) : Passes (pure a) c 0 a c.tables :=
  ⟨rfl, rfl, by simp⟩

/-- A sequence stops where its first part does. -/
lemma Stops.bind {m : Sql τ α} {c : Conn τ} {k : ℕ} {t : τ} (h : Stops m c k t)
    (f : α → Sql τ β) : Stops (m >>= f) c k t := by
  obtain ⟨e, he⟩ := h.error
  refine ⟨h.first, ⟨e, ?_⟩, ?_⟩
  · rw [EStateM.result_bind, he]
  · rw [EStateM.after_bind, he]
    exact h.tables

/-- A sequence whose first part fails without an effect has none. -/
lemma Rejected.bind {m : Sql τ α} {c : Conn τ} (h : Rejected m c) (f : α → Sql τ β) :
    Rejected (m >>= f) c := by
  obtain ⟨⟨e, he⟩, htables⟩ := h
  refine ⟨⟨e, ?_⟩, ?_⟩
  · rw [EStateM.result_bind, he]
  · rw [EStateM.after_bind, he]
    exact htables

/-- A sequence whose first part gets through stops where the second does. -/
lemma Passes.bind_stops {m : Sql τ α} {f : α → Sql τ β} {c : Conn τ} {n k : ℕ} {a : α} {t t' : τ}
    (hm : Passes m c n a t) (hf : Stops (f a) (m.after c) k t') : Stops (m >>= f) c (k + n) t' := by
  obtain ⟨e, he⟩ := hf.error
  refine ⟨?_, ⟨e, ?_⟩, ?_⟩
  · rw [hm.first, hf.first]
    rfl
  · rw [EStateM.result_bind, hm.result]
    exact he
  · rw [EStateM.after_bind, hm.result]
    exact hf.tables

/-- A sequence gets through when its parts do. -/
lemma Passes.bind {m : Sql τ α} {f : α → Sql τ β} {c : Conn τ} {n n' : ℕ} {a : α} {b : β} {t t' : τ}
    (hm : Passes m c n a t) (hf : Passes (f a) (m.after c) n' b t') :
    Passes (m >>= f) c (n' + n) b t' := by
  refine ⟨?_, ?_, ?_⟩
  · rw [EStateM.result_bind, hm.result]
    exact hf.result
  · rw [EStateM.after_bind, hm.result]
    exact hf.tables
  · rw [EStateM.after_bind, hm.first, hf.first, hm.result, Option.map_map]
    congr 1
    funext j
    exact Nat.add_assoc j n' n

/-- A statement that its function answers with an error has no effect. -/
lemma statement_rejected {e : StmtEvent} {f : τ → Except DbError (α × τ)} {c : Conn τ}
    {err : DbError} (h : f c.tables = .error err) : Rejected (statement e f) c := by
  obtain ⟨e', hres, htables⟩ := statement_error (e := e) h
  exact ⟨⟨e', hres⟩, htables⟩

/-- A statement is refused, or rejected by its function, or leaves what its function gives. -/
lemma statement_stops_or (e : StmtEvent) (f : τ → Except DbError (α × τ)) (c : Conn τ) :
    Stops (statement e f) c 0 c.tables ∨
      (∃ err, f c.tables = .error err ∧ Rejected (statement e f) c) ∨
      ∃ a t, f c.tables = .ok (a, t) ∧ Passes (statement e f) c 1 a t := by
  have hfirst : firstRefused c =
      if refused c then some 0 else (c.faults.tail.findIdx? fun b => b).map (· + 1) := by
    unfold firstRefused refused
    cases c.faults with
    | nil => rfl
    | cons b l => cases b <;> simp [List.findIdx?_cons]
  cases hf : f c.tables with
  | error err => exact .inr (.inl ⟨err, rfl, statement_rejected hf⟩)
  | ok p =>
    rcases statement_cases e f c with ⟨err, hres, hafter⟩ | ⟨a, t, hr, hf', hres, hafter⟩
    · have hr : refused c = true := by
        by_contra hr
        unfold EStateM.result statement at hres
        simp [hr, hf] at hres
      rw [hr, if_pos rfl] at hfirst
      exact .inl ⟨hfirst, ⟨err, hres⟩, by rw [hafter]; rfl⟩
    · rw [hr, if_neg Bool.false_ne_true] at hfirst
      cases hf.symm.trans hf'
      exact .inr (.inr ⟨a, t, rfl, hres, by rw [hafter]; rfl, by rw [hafter]; exact hfirst⟩)

/-- A query for a row is refused, or finds no row, or returns it. -/
lemma selectFirst_stops_or (f : τ → Option α) (c : Conn τ) :
    Stops (selectFirst f) c 0 c.tables ∨
      (f c.tables = none ∧ Rejected (selectFirst f) c) ∨
      ∃ a, f c.tables = some a ∧ Passes (selectFirst f) c 1 a c.tables := by
  have hselect : selectFirst f =
      statement .read fun t => (f t).elim (.error .notFound) fun a => .ok (a, t) := by
    unfold selectFirst
    congr 1
    funext t
    cases f t with
    | none => rfl
    | some a => rfl
  rw [hselect]
  rcases statement_stops_or .read
    (fun t : τ => (f t).elim (.error .notFound) fun a => .ok (a, t)) c with
    hstops | ⟨err, hf, hrejected⟩ | ⟨a, t, hf, hpasses⟩
  · exact .inl hstops
  · cases hfc : f c.tables with
    | none => exact .inr (.inl ⟨rfl, hrejected⟩)
    | some a =>
      rw [hfc] at hf
      cases hf
  · cases hfc : f c.tables with
    | none =>
      rw [hfc] at hf
      cases hf
    | some b =>
      rw [hfc] at hf
      cases hf
      exact .inr (.inr ⟨_, rfl, hpasses⟩)

/-- An update is refused or leaves what its function gives. -/
lemma update_stops_or (f : τ → τ) (c : Conn τ) :
    Stops (update f) c 0 c.tables ∨ Passes (update f) c 1 () (f c.tables) := by
  rcases statement_stops_or .write (fun t => .ok ((), f t)) c with
    hstops | ⟨err, hf, -⟩ | ⟨a, t, hf, hpasses⟩
  · exact .inl hstops
  · cases hf
  · cases hf
    exact .inr hpasses

/-- A write that meets its constraints is an update. -/
lemma execute_eq_update {f : τ → Except DbError (Unit × τ)} {g : τ → τ} {c : Conn τ}
    (h : f c.tables = .ok ((), g c.tables)) : execute f c = update g c := by
  unfold update execute statement
  rw [h]

/-- Updates one after the other. -/
def updates : List (τ → τ) → Sql τ Unit
  | [] => pure ()
  | f :: fs => do
    update f
    updates fs

/-- A run of updates stops at the first refusal, with the effect of the updates before it, or gets
through. -/
theorem updates_stops_or (fs : List (τ → τ)) (c : Conn τ) :
    (∃ k < fs.length, Stops (updates fs) c k ((fs.take k).foldl (fun t f => f t) c.tables)) ∨
      Passes (updates fs) c fs.length () (fs.foldl (fun t f => f t) c.tables) := by
  induction fs generalizing c with
  | nil => exact .inr (Passes.pure () c)
  | cons f fs ih =>
    unfold updates
    rcases update_stops_or f c with hstops | hpasses
    · exact .inl ⟨0, Nat.succ_pos _, hstops.bind _⟩
    · have hrest := ih ((update f).after c)
      rw [hpasses.tables] at hrest
      rcases hrest with ⟨k, hk, hstops⟩ | hpasses'
      · exact .inl ⟨k + 1, Nat.succ_lt_succ hk, hpasses.bind_stops hstops⟩
      · exact .inr (hpasses.bind hpasses')

end Sql

end Lib
