import Nomina.Db.Logs
import Nomina.Lib.Lts

/-!
# The query log

The resolver puts the entries of the query log into a queue and drops them when it is full. A writer takes
them out in batches, inserts each batch in one transaction, and trims the table. An administrator can clear
the table, and reads it page by page while all this goes on.
-/

namespace Nomina

open Lib Sql

/-! ## The writer -/

/-- How many entries the queue holds. -/
abbrev queueSize : ℕ := 10000

/-- How many entries the writer takes at once. -/
abbrev batchSize : ℕ := 500

/-- How many rows the writer leaves. -/
abbrev maxRows : ℕ := 500000

/-- Where the writer is in its loop. -/
inductive Writer
  | waiting
  | inserting (entries : List RecentQuery)
  | pruning
deriving DecidableEq

/-- The entries that the writer holds. -/
def Writer.entries : Writer → List RecentQuery
  | .inserting entries => entries
  | _ => []

/-- The database, the queue and the writer. What was logged, what was committed, and what was committed
since the table was last cleared, together with the rows at the start, are history. -/
structure QueryLogSystem where
  conn : Conn LogTables
  queue : List RecentQuery
  writer : Writer
  logged : List RecentQuery
  committed : List RecentQuery
  since : List RecentQuery

/-- The steps: `log_query`, the turns of the writer, and `clear_query_log`. -/
inductive QueryLogStep
  | log (entry : RecentQuery)
  | receive (n : ℕ)
  | insert
  | prune
  | clear
deriving DecidableEq

namespace QueryLogSystem

/-- The rows of the query log. -/
abbrev rows (s : QueryLogSystem) : List (ℕ × RecentQuery) := s.conn.tables.queries

/-- A step of the system. The writer receives at least one entry, when there is one. -/
def step (s : QueryLogSystem) : QueryLogStep → Option QueryLogSystem
  | .log entry => some { s with
      queue := if s.queue.length < queueSize then s.queue ++ [entry] else s.queue
      logged := s.logged ++ [entry] }
  | .receive n =>
    match s.writer with
    | .waiting =>
      if 0 < n ∧ n ≤ batchSize ∧ n ≤ s.queue.length then
        some { s with queue := s.queue.drop n, writer := .inserting (s.queue.take n) }
      else none
    | _ => none
  | .insert =>
    match s.writer with
    | .inserting entries =>
      let done := match (Db.insertQueries entries).result s.conn with
        | .ok _ => entries
        | .error _ => []
      some { s with
        conn := (Db.insertQueries entries).after s.conn
        writer := .pruning
        committed := s.committed ++ done
        since := s.since ++ done }
    | _ => none
  | .prune =>
    match s.writer with
    | .pruning => some { s with conn := (Db.pruneQueryLog maxRows).after s.conn, writer := .waiting }
    | _ => none
  | .clear => some { s with
      conn := (Db.pruneQueryLog 0).after s.conn
      since := match (Db.pruneQueryLog 0).result s.conn with
        | .ok _ => []
        | .error _ => s.since }

/-- The system as it starts. -/
def initial (t : LogTables) (faults : List Bool) : QueryLogSystem :=
  ⟨⟨t, faults, []⟩, [], .waiting, [], [], t.queries.map Prod.snd⟩

end QueryLogSystem

/-! ## What the statements do -/

namespace Db

lemma foldl_addQuery (entries : List RecentQuery) (t : LogTables) :
    entries.foldl LogTables.addQuery t = { t with queries := entries.foldl Logbook.append t.queries } := by
  induction entries generalizing t with
  | nil => rfl
  | cons e entries ih => exact ih (t.addQuery e)

/-- A batch is inserted as a whole, or not at all. -/
lemma insertQueries_cases (entries : List RecentQuery) (c : Conn LogTables) :
    (∃ e, (insertQueries entries).result c = .error e ∧
      ((insertQueries entries).after c).tables = c.tables) ∨
    (insertQueries entries).result c = .ok () ∧
      ((insertQueries entries).after c).tables = { c.tables with
        queries := entries.foldl Logbook.append c.tables.queries } := by
  unfold insertQueries
  rcases transaction_cases _ c with ⟨e, hres, htables, -⟩ | ⟨u, hinner, hres, htables, -⟩
  · exact .inl ⟨e, hres, htables⟩
  · have hstrict : Strict (entries.forM fun e => update (LogTables.addQuery · e)) := .forM fun _ => .update _
    obtain ⟨-, hafter⟩ := hstrict.evals (Evals.forM_update _ entries c.tables) (c := { c with log := [] }) rfl hinner
    exact .inr ⟨hres, htables.trans (hafter.trans (foldl_addQuery entries c.tables))⟩

/-- In a database that refuses nothing a batch is inserted. -/
lemma insertQueries_ok (entries : List RecentQuery) {c : Conn LogTables} (hc : c.faults = []) :
    (insertQueries entries).result c = .ok () ∧ ((insertQueries entries).after c).faults = [] := by
  obtain ⟨hres, -, hfaults, -⟩ := (Evals.forM_update (fun e t => LogTables.addQuery t e) entries c.tables).transaction
    c rfl hc
  exact ⟨hres, hfaults⟩

/-- A trim is refused or leaves the last rows. -/
lemma pruneQueryLog_cases (n : ℕ) (c : Conn LogTables) :
    (∃ e, (pruneQueryLog n).result c = .error e ∧ ((pruneQueryLog n).after c).tables = c.tables) ∨
    (pruneQueryLog n).result c = .ok () ∧
      ((pruneQueryLog n).after c).tables = { c.tables with queries := Logbook.trim n c.tables.queries } := by
  unfold pruneQueryLog update execute
  rcases statement_cases .write _ c with ⟨e, hres, hafter⟩ | ⟨u, t, -, ht, hres, hafter⟩
  · rw [hafter]
    exact .inl ⟨e, hres, rfl⟩
  · cases ht
    rw [hafter]
    exact .inr ⟨hres, rfl⟩

lemma pruneQueryLog_ok (n : ℕ) {c : Conn LogTables} (hc : c.faults = []) :
    (pruneQueryLog n).result c = .ok () ∧ ((pruneQueryLog n).after c).faults = [] := by
  obtain ⟨hres, -, hfaults, -⟩ := Evals.update (fun t : LogTables =>
    { t with queries := Logbook.trim n t.queries }) c.tables c rfl hc
  exact ⟨hres, hfaults⟩

end Db

namespace QueryLogSystem

open Logbook

/-! ## Steps -/

/-- What a step does. A statement that is refused leaves the tables as they are; in a database that refuses
nothing there is none. -/
inductive Stepped (s : QueryLogSystem) : QueryLogStep → QueryLogSystem → Prop
  | log (entry : RecentQuery) : Stepped s (.log entry) { s with
      queue := if s.queue.length < queueSize then s.queue ++ [entry] else s.queue
      logged := s.logged ++ [entry] }
  | receive (n : ℕ) (hwriter : s.writer = .waiting) (hle : n ≤ batchSize) : Stepped s (.receive n)
      { s with queue := s.queue.drop n, writer := .inserting (s.queue.take n) }
  | insert (entries : List RecentQuery) (c : Conn LogTables) (hwriter : s.writer = .inserting entries)
      (hrows : c.tables.queries = entries.foldl append s.rows) (hfaults : s.conn.faults = [] → c.faults = []) :
      Stepped s .insert { s with
        conn := c
        writer := .pruning
        committed := s.committed ++ entries
        since := s.since ++ entries }
  | prune (c : Conn LogTables) (hwriter : s.writer = .pruning) (hrows : c.tables.queries = trim maxRows s.rows)
      (hfaults : s.conn.faults = [] → c.faults = []) : Stepped s .prune { s with conn := c, writer := .waiting }
  | clear (c : Conn LogTables) (hrows : c.tables.queries = trim 0 s.rows)
      (hfaults : s.conn.faults = [] → c.faults = []) : Stepped s .clear { s with conn := c, since := [] }
  | refused (a : QueryLogStep) (c : Conn LogTables) (writer : Writer) (hrows : c.tables.queries = s.rows)
      (hfaults : s.conn.faults ≠ []) (hwriter : writer = s.writer ∨ writer.entries = []) :
      Stepped s a { s with conn := c, writer }

variable {s s' : QueryLogSystem} {a : QueryLogStep}

lemma stepped (hstep : s.step a = some s') : s.Stepped a s' := by
  cases a with
  | log entry =>
    cases hstep
    exact .log entry
  | receive n =>
    unfold step at hstep
    dsimp only at hstep
    split at hstep
    · rename_i hwriter
      split at hstep
      · rename_i hn
        cases hstep
        exact .receive n hwriter hn.2.1
      · cases hstep
    · cases hstep
  | insert =>
    unfold step at hstep
    dsimp only at hstep
    split at hstep
    · rename_i entries hwriter
      rcases Db.insertQueries_cases entries s.conn with ⟨e, hres, htables⟩ | ⟨hres, htables⟩
      · rw [hres, List.append_nil, List.append_nil] at hstep
        cases hstep
        refine .refused .insert _ .pruning (congrArg LogTables.queries htables) (fun hc => ?_) (.inr rfl)
        rw [(Db.insertQueries_ok entries hc).1] at hres
        cases hres
      · rw [hres] at hstep
        cases hstep
        exact .insert entries _ hwriter (congrArg LogTables.queries htables) fun hc =>
          (Db.insertQueries_ok entries hc).2
    · cases hstep
  | prune =>
    unfold step at hstep
    dsimp only at hstep
    split at hstep
    · rename_i hwriter
      cases hstep
      rcases Db.pruneQueryLog_cases maxRows s.conn with ⟨e, hres, htables⟩ | ⟨-, htables⟩
      · refine .refused .prune _ .waiting (congrArg LogTables.queries htables) (fun hc => ?_) (.inr rfl)
        rw [(Db.pruneQueryLog_ok maxRows hc).1] at hres
        cases hres
      · exact .prune _ hwriter (congrArg LogTables.queries htables) fun hc => (Db.pruneQueryLog_ok maxRows hc).2
    · cases hstep
  | clear =>
    unfold step at hstep
    dsimp only at hstep
    rcases Db.pruneQueryLog_cases 0 s.conn with ⟨e, hres, htables⟩ | ⟨hres, htables⟩
    · rw [hres] at hstep
      cases hstep
      refine .refused .clear _ s.writer (congrArg LogTables.queries htables) (fun hc => ?_) (.inl rfl)
      rw [(Db.pruneQueryLog_ok 0 hc).1] at hres
      cases hres
    · rw [hres] at hstep
      cases hstep
      exact .clear _ (congrArg LogTables.queries htables) fun hc => (Db.pruneQueryLog_ok 0 hc).2

/-! ## Retention -/

/-- What holds in every run: the rows are the last of what was committed since the table was cleared. -/
structure Kept (start : List RecentQuery) (s : QueryLogSystem) : Prop where
  retains : Retains maxRows s.rows s.since
  since : s.since <:+ start ++ s.committed
  committed : (s.committed ++ s.writer.entries ++ s.queue).Sublist s.logged

lemma Kept.step {start : List RecentQuery} (hs : s.Kept start) (hstep : s.Stepped a s') : s'.Kept start := by
  cases hstep with
  | log entry =>
    refine ⟨hs.retains, hs.since, ?_⟩
    dsimp only
    split
    · rw [← List.append_assoc]
      exact hs.committed.append (List.Sublist.refl _)
    · exact hs.committed.trans (List.sublist_append_left _ _)
  | receive n hwriter hle =>
    refine ⟨hs.retains, hs.since, ?_⟩
    have hcommitted : (s.committed ++ [] ++ s.queue).Sublist s.logged := by
      have h := hs.committed
      rwa [hwriter] at h
    change (s.committed ++ s.queue.take n ++ s.queue.drop n).Sublist s.logged
    rwa [List.append_nil, ← List.take_append_drop n s.queue, ← List.append_assoc] at hcommitted
  | insert entries c hwriter hrows hfaults =>
    refine ⟨?_, ?_, ?_⟩
    · change Retains maxRows c.tables.queries (s.since ++ entries)
      rw [hrows]
      exact hs.retains.appendAll entries
    · obtain ⟨t, ht⟩ := hs.since
      refine ⟨t, ?_⟩
      dsimp only
      rw [← List.append_assoc, ht, List.append_assoc]
    · have h := hs.committed
      rw [hwriter] at h
      change (s.committed ++ entries ++ [] ++ s.queue).Sublist s.logged
      rwa [List.append_nil]
  | prune c hwriter hrows hfaults =>
    refine ⟨?_, hs.since, ?_⟩
    · change Retains maxRows c.tables.queries s.since
      rw [hrows]
      exact hs.retains.trim (Nat.le_refl _)
    · have h := hs.committed
      rwa [hwriter] at h
  | clear c hrows hfaults =>
    refine ⟨?_, List.nil_suffix, hs.committed⟩
    change Retains maxRows c.tables.queries []
    rw [hrows, trim_zero hs.retains.numbered]
    exact .of_numbered numbered_nil maxRows
  | refused a c writer hrows hfaults hwriter =>
    refine ⟨?_, hs.since, ?_⟩
    · change Retains maxRows c.tables.queries s.since
      rw [hrows]
      exact hs.retains
    · rcases hwriter with rfl | hwriter
      · exact hs.committed
      · change (s.committed ++ writer.entries ++ s.queue).Sublist s.logged
        rw [hwriter, List.append_nil]
        refine List.Sublist.trans (List.Sublist.append ?_ (List.Sublist.refl _)) hs.committed
        exact List.sublist_append_left _ _

/-- Without a clear nothing that was committed is forgotten. -/
lemma Stepped.since {start : List RecentQuery} (hstep : s.Stepped a s') (ha : a ≠ .clear)
    (hs : s.since = start ++ s.committed) : s'.since = start ++ s'.committed := by
  cases hstep with
  | log entry => exact hs
  | receive n hwriter hle => exact hs
  | insert entries c hwriter hrows hfaults =>
    dsimp only
    rw [hs, List.append_assoc]
  | prune c hwriter hrows hfaults => exact hs
  | clear c hrows hfaults => exact absurd rfl ha
  | refused a c writer hrows hfaults hwriter => exact hs

/-- How many rows there are at most in a database that refuses nothing. -/
def Bounded (n : ℕ) (s : QueryLogSystem) : Prop :=
  s.conn.faults = [] ∧ Numbered s.rows ∧ s.writer.entries.length ≤ batchSize ∧
    s.rows.length ≤ max n maxRows + if s.writer = .pruning then batchSize else 0

lemma Bounded.step {n : ℕ} (hs : s.Bounded n) (hstep : s.Stepped a s') : s'.Bounded n := by
  obtain ⟨hok, hnumbered, hentries, hrows⟩ := hs
  have hle : s.rows.length ≤ max n maxRows + batchSize := by
    refine Nat.le_trans hrows (Nat.add_le_add_left ?_ _)
    split <;> omega
  cases hstep with
  | log entry => exact ⟨hok, hnumbered, hentries, hrows⟩
  | receive m hwriter hm =>
    rw [if_neg (by rw [hwriter]; nofun)] at hrows
    refine ⟨hok, hnumbered, ?_, hrows⟩
    change (s.queue.take m).length ≤ batchSize
    rw [List.length_take]
    omega
  | insert entries c hwriter hc hfaults =>
    rw [if_neg (by rw [hwriter]; nofun)] at hrows
    have hlen : entries.length ≤ batchSize := by rwa [hwriter] at hentries
    refine ⟨hfaults hok, ?_, Nat.zero_le _, ?_⟩
    · change Numbered c.tables.queries
      rw [hc]
      exact ((Retains.of_numbered hnumbered 0).appendAll entries).numbered
    · change c.tables.queries.length ≤ max n maxRows + batchSize
      rw [hc, length_appendAll]
      omega
  | prune c hwriter hc hfaults =>
    refine ⟨hfaults hok, ?_, Nat.zero_le _, ?_⟩
    · change Numbered c.tables.queries
      rw [hc]
      exact ((Retains.of_numbered hnumbered 0).trim (Nat.zero_le _)).numbered
    · change c.tables.queries.length ≤ max n maxRows + 0
      rw [hc, length_trim hnumbered]
      omega
  | clear c hc hfaults =>
    have hnil : c.tables.queries = [] := hc.trans (trim_zero hnumbered)
    refine ⟨hfaults hok, ?_, hentries, ?_⟩
    · change Numbered c.tables.queries
      rw [hnil]
      exact numbered_nil
    · change c.tables.queries.length ≤ _
      rw [hnil]
      exact Nat.zero_le _
  | refused a c writer hc hfaults hwriter => exact absurd hok hfaults

/-- There is room in the queue for what is logged. -/
def Room (s : QueryLogSystem) : QueryLogStep → Prop
  | .log _ => s.queue.length < queueSize
  | _ => True

instance (s : QueryLogSystem) (a : QueryLogStep) : Decidable (s.Room a) :=
  match a with
  | .log _ => inferInstanceAs (Decidable (s.queue.length < queueSize))
  | .receive _ | .insert | .prune | .clear => isTrue trivial

/-- Every entry that was logged is committed, held by the writer, or in the queue. -/
def Complete (s : QueryLogSystem) : Prop :=
  s.conn.faults = [] ∧ s.logged = s.committed ++ s.writer.entries ++ s.queue

lemma Complete.step (hs : s.Complete) (ha : s.Room a) (hstep : s.Stepped a s') : s'.Complete := by
  obtain ⟨hok, hlogged⟩ := hs
  cases hstep with
  | log entry =>
    refine ⟨hok, ?_⟩
    dsimp only
    have hroom : s.queue.length < queueSize := ha
    rw [if_pos hroom, hlogged, List.append_assoc _ s.queue]
  | receive n hwriter hn =>
    refine ⟨hok, ?_⟩
    rw [hwriter] at hlogged
    change s.logged = s.committed ++ s.queue.take n ++ s.queue.drop n
    rw [hlogged, List.append_assoc _ (s.queue.take n), List.take_append_drop]
    exact congrArg (· ++ s.queue) (List.append_nil _)
  | insert entries c hwriter hc hfaults =>
    rw [hwriter] at hlogged
    refine ⟨hfaults hok, ?_⟩
    change s.logged = s.committed ++ entries ++ [] ++ s.queue
    rw [hlogged, List.append_nil]
    rfl
  | prune c hwriter hc hfaults =>
    rw [hwriter] at hlogged
    exact ⟨hfaults hok, hlogged⟩
  | clear c hc hfaults => exact ⟨hfaults hok, hlogged⟩
  | refused a c writer hc hfaults hwriter => exact absurd hok hfaults

/-- In every run: the rows are the last of what was committed since the table was last cleared, all of it or at
least `maxRows`; what was committed are entries that were logged, in order and each once. In a database that
refuses nothing there are never more rows than `maxRows` and one batch, if there were not at the start; and
if the queue is never full, every entry that was logged is committed, held by the writer, or in the queue. -/
theorem retained_of_run (t : LogTables) (ht : Numbered t.queries) (faults : List Bool)
    (as : List QueryLogStep) (s : QueryLogSystem) (hrun : run step (.initial t faults) as = some s) :
    (s.rows.map Prod.snd <:+ s.since ∧ (s.rows.length = s.since.length ∨ maxRows ≤ s.rows.length)) ∧
    s.since <:+ t.queries.map Prod.snd ++ s.committed ∧
    (.clear ∉ as → s.since = t.queries.map Prod.snd ++ s.committed) ∧
    s.committed.Sublist s.logged ∧
    (faults = [] → s.rows.length ≤ max t.queries.length maxRows + batchSize ∧
      (Along step Room (.initial t faults) as → s.logged = s.committed ++ s.writer.entries ++ s.queue)) := by
  have hkept : s.Kept (t.queries.map Prod.snd) := by
    refine run_invariant (g := fun _ _ => True) (fun s a s' hs _ hstep => hs.step (stepped hstep)) ?_
      (along_of_forall (fun _ _ => trivial) _ as) hrun
    exact ⟨.of_numbered ht maxRows, ⟨[], (List.append_nil _).symm⟩, List.nil_sublist _⟩
  refine ⟨⟨hkept.retains.last, hkept.retains.whole⟩, hkept.since, fun hclear => ?_, ?_, fun hfaults => ⟨?_, ?_⟩⟩
  · have halong : Along step (fun _ a => a ≠ .clear) (.initial t faults) as := by
      apply along_of_mem
      intro _ a ha heq
      exact hclear (heq ▸ ha)
    have hstep (s : QueryLogSystem) (a : QueryLogStep) (s' : QueryLogSystem)
        (hs : s.since = t.queries.map Prod.snd ++ s.committed) (ha : a ≠ .clear) (hstep : s.step a = some s') :
        s'.since = t.queries.map Prod.snd ++ s'.committed := (stepped hstep).since ha hs
    exact run_invariant hstep (List.append_nil _).symm halong hrun
  · refine List.Sublist.trans ?_ hkept.committed
    rw [List.append_assoc]
    exact List.sublist_append_left _ _
  · have hbounded : s.Bounded t.queries.length := by
      refine run_invariant (g := fun _ _ => True) (fun s a s' hs _ hstep => hs.step (stepped hstep))
        ⟨hfaults, ht, Nat.zero_le _, ?_⟩ (along_of_forall (fun _ _ => trivial) _ as) hrun
      exact Nat.le_add_right_of_le (Nat.le_max_left _ _)
    refine Nat.le_trans hbounded.2.2.2 (Nat.add_le_add_left ?_ _)
    split <;> omega
  · intro hroom
    have hcomplete : s.Complete :=
      run_invariant (fun s a s' hs ha hstep => hs.step ha (stepped hstep)) ⟨hfaults, rfl⟩ hroom hrun
    exact hcomplete.2

/-- A query of a client. -/
def queryOf (client : Str) (name : Str) : RecentQuery :=
  ⟨"2025-01-01T00:00:00Z", client, none, name, "A", "forwarded", "NOERROR"⟩

/-- Three queries are logged; the first two are written, the table is cleared, and the third is written. -/
def clearedBetween : List QueryLogStep :=
  [.log (queryOf "10.0.0.2" "a.example"), .log (queryOf "10.0.0.2" "b.example"), .receive 2, .insert, .prune,
    .clear, .log (queryOf "10.0.0.3" "c.example"), .receive 1, .insert, .prune]

/-- Only the third query is left, and nothing was lost. -/
theorem retained_clearedBetween :
    ∃ s, run step (.initial ⟨[], []⟩ []) clearedBetween = some s ∧ s.rows.map Prod.snd <:+ s.since ∧
      s.since = [queryOf "10.0.0.3" "c.example"] ∧ s.logged = s.committed ++ s.writer.entries ++ s.queue := by
  obtain ⟨s, hs, hstate⟩ := (Option.any_eq_true _ _).mp (show
    (run step (.initial ⟨[], []⟩ []) clearedBetween).any
      (fun s => decide (s.since = [queryOf "10.0.0.3" "c.example"])) = true by decide +kernel)
  have hretained := retained_of_run ⟨[], []⟩ Logbook.numbered_nil [] clearedBetween s hs
  exact ⟨s, hs, hretained.1.1, of_decide_eq_true hstate, (hretained.2.2.2.2 rfl).2 (by decide +kernel)⟩

end QueryLogSystem

/-! ## Pages -/

/-- The parameters of `query_log`. -/
structure QueryLogParams where
  page : Option ℤ
  perPage : Option ℤ
  filter : QueryFilter
  sort : Option Str
  desc : Option Bool

/-- How many rows a page has. -/
def QueryLogParams.limit (p : QueryLogParams) : ℕ :=
  (max 1 (min (p.perPage.getD 50) 500)).toNat

/-- What `query_log` returns. -/
structure QueryLogPage where
  queries : List RecentQuery
  total : ℕ
  page : ℤ
  perPage : ℕ

/-- The value of a 64-bit integer after an overflow. -/
def wrapI64 (n : ℤ) : ℤ :=
  n.bmod (2 ^ 64)

namespace Api

/-- `query_log`. -/
def queryLog (ties : IterationOrder (ℕ × RecentQuery)) (p : QueryLogParams) : Sql LogTables QueryLogPage := do
  let page := max (p.page.getD 1) 1
  let (queries, total) ← Db.queryLogPage ties p.filter (p.sort.getD "at") (p.desc.getD true) p.limit
    (wrapI64 ((page - 1) * p.limit))
  pure ⟨queries, total, page, p.limit⟩

end Api

namespace QueryLogSystem

open Logbook

/-- The pages that a client reads one after the other, from page `k` on, each after some steps of the system,
together with the rows that it was read from. A page that is refused ends it. -/
def readPages (ties : IterationOrder (ℕ × RecentQuery)) (p : QueryLogParams) :
    QueryLogSystem → ℕ → List (List QueryLogStep) → Option (List (List (ℕ × RecentQuery) × QueryLogPage))
  | _, _, [] => some []
  | s, k, as :: rest => do
    let s' ← run step s as
    let m := Api.queryLog ties { p with page := some k }
    let page ← (m.result s'.conn).toOption
    let pages ← readPages ties p { s' with conn := m.after s'.conn } (k + 1) rest
    pure ((s'.rows, page) :: pages)

variable {ties : IterationOrder (ℕ × RecentQuery)} {p : QueryLogParams}

/-- The rows that the parameters ask for, the newest first. -/
def asked (p : QueryLogParams) (rows : List (ℕ × RecentQuery)) : List (ℕ × RecentQuery) :=
  newest (fun r => p.filter.accepts r.2) rows

/-- An offset that is not too large. -/
lemma toNat_wrapI64 {n : ℕ} (hn : n < 2 ^ 63) : (wrapI64 n).toNat = n := by
  unfold wrapI64
  rw [Int.bmod_eq_of_le_mul_two (by omega) (by omega), Int.toNat_natCast]

/-- A page of the default order. -/
lemma queryLog_ok (hsort : sortColumn (p.sort.getD "at") = none) (hdesc : p.desc.getD true = true) {k : ℕ}
    (hk : 0 < k) (hsize : (k - 1) * p.limit < 2 ^ 63) {c : Conn LogTables} {result : QueryLogPage}
    (hres : (Api.queryLog ties { p with page := some (k : ℤ) }).result c = .ok result) :
    result.queries = (page p.limit k (asked p c.tables.queries)).map Prod.snd ∧
      result.total = (asked p c.tables.queries).length ∧ result.perPage = p.limit ∧
      ((Api.queryLog ties { p with page := some (k : ℤ) }).after c).tables = c.tables := by
  have hoffset : (wrapI64 ((max ((some (k : ℤ)).getD 1) 1 - 1) * p.limit)).toNat = (k - 1) * p.limit := by
    have hpage : max ((some (k : ℤ)).getD 1) 1 - 1 = ((k - 1 : ℕ) : ℤ) := by
      rw [Option.getD_some]
      omega
    rw [hpage, ← Int.natCast_mul]
    exact toNat_wrapI64 hsize
  have hstrict : Strict (Api.queryLog ties { p with page := some (k : ℤ) }) :=
    .bind (.bind (.select _) fun _ => .bind (.select _) fun _ => .pure _) fun _ => .pure _
  have hevals := hstrict.evals (Evals.bind (.bind (.select _ _) (.bind (.select _ _) (.pure _ _))) (.pure _ _))
    rfl hres
  obtain ⟨hresult, htables⟩ := hevals
  cases hresult
  refine ⟨?_, ?_, rfl, htables⟩
  · have horder (rows : List (ℕ × RecentQuery)) :
        orderRows ties (p.sort.getD "at") (p.desc.getD true) rows = rows.reverse := by
      unfold orderRows
      rw [hsort, hdesc]
      rfl
    change (((orderRows ties (p.sort.getD "at") (p.desc.getD true) (c.tables.queries.filter _)).drop
      (wrapI64 ((max ((some (k : ℤ)).getD 1) 1 - 1) * p.limit)).toNat).take p.limit).map Prod.snd = _
    rw [hoffset, horder]
    rfl
  · exact List.length_reverse.symm

/-- A step other than a clear only adds rows and trims old ones. -/
lemma Stepped.grown {s s' : QueryLogSystem} {a : QueryLogStep} (hstep : s.Stepped a s') (ha : a ≠ .clear)
    (hs : Numbered s.rows) : Grown s.rows s'.rows := by
  cases hstep with
  | log entry => exact .refl hs
  | receive n hwriter hle => exact .refl hs
  | insert entries c hwriter hrows hfaults =>
    change Grown s.rows c.tables.queries
    rw [hrows]
    exact .appendAll hs entries
  | prune c hwriter hrows hfaults =>
    change Grown s.rows c.tables.queries
    rw [hrows]
    exact .trim hs (by decide)
  | clear c hrows hfaults => exact absurd rfl ha
  | refused a c writer hrows hfaults hwriter =>
    change Grown s.rows c.tables.queries
    rw [hrows]
    exact .refl hs

lemma grown_of_run {s s' : QueryLogSystem} {as : List QueryLogStep} (has : .clear ∉ as)
    (hs : Numbered s.rows) (hrun : run step s as = some s') : Grown s.rows s'.rows := by
  have halong : Along step (fun _ a => a ≠ .clear) s as := by
    apply along_of_mem
    intro _ a ha heq
    exact has (heq ▸ ha)
  have hstep (t : QueryLogSystem) (a : QueryLogStep) (t' : QueryLogSystem) (ht : Grown s.rows t.rows)
      (ha : a ≠ .clear) (hstep : t.step a = some t') : Grown s.rows t'.rows :=
    ht.trans ((stepped hstep).grown ha ht.numbered)
  exact run_invariant hstep (.refl hs) halong hrun

/-- The pages that are read are those of the rows that were there at the time. -/
lemma readPages_spec (hsort : sortColumn (p.sort.getD "at") = none) (hdesc : p.desc.getD true = true)
    {segments : List (List QueryLogStep)} (hclear : ∀ as ∈ segments, .clear ∉ as) {s : QueryLogSystem} {k : ℕ}
    (hk : 0 < k) (hs : Numbered s.rows) (hsize : (k + segments.length) * p.limit < 2 ^ 63)
    {read : List (List (ℕ × RecentQuery) × QueryLogPage)} (hread : readPages ties p s k segments = some read) :
    read.length = segments.length ∧ List.IsChain Grown (s.rows :: read.map Prod.fst) ∧
      (∀ r ∈ read, Numbered r.1 ∧ r.2.total = (asked p r.1).length ∧ r.2.perPage = p.limit) ∧
      read.map (·.2.queries) =
        (pages p.limit k (read.map fun r => asked p r.1)).map (List.map Prod.snd) := by
  induction segments generalizing s k read with
  | nil =>
    cases hread
    exact ⟨rfl, List.isChain_singleton _, nofun, rfl⟩
  | cons as segments ih =>
    unfold readPages at hread
    obtain ⟨s', hrun, hread⟩ := Option.bind_eq_some_iff.mp hread
    obtain ⟨result, hresult, hread⟩ := Option.bind_eq_some_iff.mp hread
    obtain ⟨rest, hrest, hread⟩ := Option.bind_eq_some_iff.mp hread
    cases hread
    have hgrown := grown_of_run (hclear as List.mem_cons_self) hs hrun
    have hle : (k - 1) * p.limit ≤ (k + (as :: segments).length) * p.limit := Nat.mul_le_mul_right _ (by omega)
    have hok : (Api.queryLog ties { p with page := some (k : ℤ) }).result s'.conn = .ok result := by
      cases hres : (Api.queryLog ties { p with page := some (k : ℤ) }).result s'.conn with
      | ok page =>
        rw [hres] at hresult
        exact congrArg Except.ok (Option.some.inj hresult)
      | error e =>
        rw [hres] at hresult
        cases hresult
    obtain ⟨hqueries, htotal, hperPage, htables⟩ := queryLog_ok hsort hdesc hk (Nat.lt_of_le_of_lt hle hsize) hok
    have hrows : QueryLogSystem.rows { s' with
        conn := (Api.queryLog ties { p with page := some (k : ℤ) }).after s'.conn } = s'.rows :=
      congrArg LogTables.queries htables
    have hsize' : (k + 1 + segments.length) * p.limit < 2 ^ 63 := by
      rwa [List.length_cons, ← Nat.add_assoc, Nat.add_right_comm] at hsize
    obtain ⟨hlen, hchain, hall, hpages⟩ := ih (fun as has => hclear as (List.mem_cons_of_mem _ has))
      (Nat.succ_pos k) (hrows ▸ hgrown.numbered) hsize' hrest
    rw [hrows] at hchain
    refine ⟨congrArg (· + 1) hlen, List.isChain_cons_cons.mpr ⟨hgrown, hchain⟩, fun r hr => ?_, ?_⟩
    · rcases List.mem_cons.mp hr with rfl | hr
      · exact ⟨hgrown.numbered, htotal, hperPage⟩
      · exact hall r hr
    · rw [List.map_cons, List.map_cons, pages, List.map_cons, hpages]
      exact congrArg (· :: _) hqueries

/-- A client reads the query log from the first page on, the newest rows first, while queries are logged and
old rows are trimmed. If its last page is the last one that there is, it has seen every row that meets its
conditions and was there from the first page to the last one. -/
theorem readPages_complete (ties : IterationOrder (ℕ × RecentQuery)) (p : QueryLogParams)
    (hsort : sortColumn (p.sort.getD "at") = none) (hdesc : p.desc.getD true = true) (s : QueryLogSystem)
    (hs : Numbered s.rows) (segments : List (List QueryLogStep)) (hclear : ∀ as ∈ segments, .clear ∉ as)
    (hsize : (1 + segments.length) * p.limit < 2 ^ 63) (first last : List (ℕ × RecentQuery) × QueryLogPage)
    (read : List (List (ℕ × RecentQuery) × QueryLogPage)) (hread : readPages ties p s 1 segments = some read)
    (hfirst : read.head? = some first) (hlast : read.getLast? = some last)
    (hend : last.2.total ≤ read.length * last.2.perPage) (r : ℕ × RecentQuery) (hr : r ∈ first.1)
    (hr' : r ∈ last.1) (hasked : p.filter.accepts r.2 = true) : ∃ page ∈ read, r.2 ∈ page.2.queries := by
  obtain ⟨-, hchain, hall, hpages⟩ := readPages_spec hsort hdesc hclear Nat.one_pos hs hsize hread
  obtain ⟨rest, rfl⟩ := List.head?_eq_some_iff.mp hfirst
  rw [List.getLast?_eq_some_getLast (List.cons_ne_nil first rest)] at hlast
  have hlast := Option.some.inj hlast
  have hasked' {rows : List (ℕ × RecentQuery)} (h : r ∈ rows) : r ∈ asked p rows :=
    List.mem_reverse.mpr (List.mem_filter.mpr ⟨h, hasked⟩)
  rw [List.map_cons, List.isChain_cons_cons] at hchain
  have hstays := mem_of_mem_getLast hchain.2 (le_maxId hr) (by
    have hget : ((first :: rest).map Prod.fst).getLast (List.cons_ne_nil _ _) = last.1 := by
      rw [List.getLast_map, hlast]
    exact hget.symm ▸ hr')
  have hshifts : List.IsChain Shifts ((first :: rest).map fun r => asked p r.1) := by
    rw [List.isChain_map]
    exact ((List.isChain_map Prod.fst).mp hchain.2).imp fun _ _ h => h.shifts _
  have hnodup : ∀ l ∈ (first :: rest).map fun r => asked p r.1, l.Nodup := by
    intro l hl
    obtain ⟨r', hr', rfl⟩ := List.mem_map.mp hl
    exact nodup_newest (hall r' hr').1 _
  have hstays' : ∀ l ∈ (first :: rest).map fun r => asked p r.1, r ∈ l := by
    intro l hl
    obtain ⟨r', hr', rfl⟩ := List.mem_map.mp hl
    exact hasked' (hstays r'.1 (List.mem_map_of_mem hr'))
  have hlen : (((first :: rest).map fun r => asked p r.1).getLast (List.cons_ne_nil _ _)).length ≤
      (1 + (rest.map fun r => asked p r.1).length) * p.limit := by
    obtain ⟨-, htotal, hperPage⟩ := hall last (hlast ▸ List.getLast_mem _)
    rw [List.getLast_map, hlast, ← htotal, List.length_map, Nat.add_comm]
    rwa [hperPage] at hend
  obtain ⟨i, hi⟩ := List.getElem?_of_mem (hasked' hr)
  obtain ⟨found, hfound, hmem⟩ := mem_pages (n := p.limit) Nat.one_pos hshifts hnodup hstays' hi
    (by rw [Nat.sub_self, Nat.zero_mul]; exact Nat.zero_le i) hlen
  have hqueries : found.map Prod.snd ∈ (first :: rest).map (·.2.queries) :=
    hpages ▸ List.mem_map_of_mem hfound
  obtain ⟨result, hresult, heq⟩ := List.mem_map.mp hqueries
  exact ⟨result, hresult, heq ▸ List.mem_map_of_mem hmem⟩

/-- A client that reads two rows at once. -/
def twoAtOnce : QueryLogParams :=
  ⟨none, some 2, ⟨none, none, none⟩, none, none⟩

/-- Queries are logged and written. -/
def written (names : List Str) : List QueryLogStep :=
  names.map (fun name => .log (queryOf "10.0.0.2" name)) ++ [.receive names.length, .insert, .prune]

/-- After the first page another query is logged, and the second page begins with a row of the first one. The
oldest row is on it all the same. -/
theorem readPages_shifted :
    ∃ read, readPages .plain twoAtOnce (.initial ⟨[], []⟩ []) 1
        [written ["a.example", "b.example", "c.example"], written ["d.example"]] = some read ∧
      read.map (fun r => r.2.queries.map fun q => String.ofList q.name) =
        [["c.example", "b.example"], ["b.example", "a.example"]] ∧
      ∃ page ∈ read, queryOf "10.0.0.2" "a.example" ∈ page.2.queries := by
  obtain ⟨read, hread, hstate⟩ := (Option.any_eq_true _ _).mp (show
    (readPages .plain twoAtOnce (.initial ⟨[], []⟩ []) 1
      [written ["a.example", "b.example", "c.example"], written ["d.example"]]).any
      (fun read => decide (read.map (fun r => r.2.queries.map fun q => String.ofList q.name) =
          [["c.example", "b.example"], ["b.example", "a.example"]] ∧
        (1, queryOf "10.0.0.2" "a.example") ∈ (read.headD ([], ⟨[], 0, 1, 2⟩)).1 ∧
        (1, queryOf "10.0.0.2" "a.example") ∈ (read.getLastD ([], ⟨[], 0, 1, 2⟩)).1 ∧
        (read.getLastD ([], ⟨[], 0, 1, 2⟩)).2.total ≤
          read.length * (read.getLastD ([], ⟨[], 0, 1, 2⟩)).2.perPage ∧ read.length = 2)) = true by
    decide +kernel)
  obtain ⟨hnames, hr, hr', hend, hlen⟩ := of_decide_eq_true hstate
  obtain ⟨first, last, rfl⟩ := List.length_eq_two.mp hlen
  exact ⟨_, hread, hnames, readPages_complete .plain twoAtOnce (by decide) rfl (.initial ⟨[], []⟩ [])
    numbered_nil _ (by decide) (by decide) first last _ hread rfl rfl hend
    (1, queryOf "10.0.0.2" "a.example") hr hr' (by decide)⟩

end QueryLogSystem

end Nomina
