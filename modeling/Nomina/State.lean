import Nomina.Dhcp.Messages
import Nomina.Store.Build

/-!
# Application state

The shared state of the server as far as the modelled handlers change it: the database connection,
the in-memory store and the datagrams sent. Handlers are programs on this state that may stop with
an error; what they did before stays.
-/

namespace Nomina

open Lib

/-- The shared state. Sending may fail; which of the coming sends fail is not under the program's
control. -/
structure AppState where
  conn : Conn Tables
  store : ZoneStore
  sendFaults : List Bool
  sent : List Packet

/-- The database contents. -/
abbrev AppState.db (s : AppState) : Tables := s.conn.tables

/-- Why a handler stopped: an error, or a panic. The errors of the API carry the message of the
response; a validation error also names the field. -/
inductive AppError
  | panic
  | db (e : DbError)
  | send
  | notFound (message : Str)
  | conflict (message : Str)
  | validation (field reason : Str)
  | internal (message : Str)
  | transfer (message : Str)
deriving DecidableEq

/-- `Display` of an error: the message and the code. -/
def errorText (K : Crates) : AppError → Str
  | .db .constraint => "Resource already exists or violates a constraint (conflict)"
  | .db .notFound => "Record not found (internal)"
  | .db .unavailable => K.refusedText ++ " (internal)".toList
  | .notFound message => message ++ " (not_found)".toList
  | .conflict message => message ++ " (conflict)".toList
  | .validation _ _ => "Validation failed (validation)"
  | .internal message => message ++ " (internal)".toList
  | .transfer message => message
  | .send => []
  | .panic => []

/-- A handler. -/
abbrev App (α : Type) := EStateM AppError AppState α

/-- `state.db.run(..).await?`: run a program on the connection; an error stops the handler. -/
def runDb {α : Type} (m : Sql Tables α) : App α := fun s =>
  match m s.conn with
  | .ok a c => .ok a { s with conn := c }
  | .error e c => .error (.db e) { s with conn := c }

/-- `state.db.run(..).await`: run a program on the connection and look at its result. -/
def tryDb {α : Type} (m : Sql Tables α) : App (Except DbError α) := fun s =>
  match m s.conn with
  | .ok a c => .ok (.ok a) { s with conn := c }
  | .error e c => .ok (.error e) { s with conn := c }

/-- Run a handler and look at its result. -/
def observing {α : Type} (m : App α) : App (Except AppError α) := fun s =>
  match m s with
  | .ok a s' => .ok (.ok a) s'
  | .error e s' => .ok (.error e) s'

/-- Send a datagram. -/
def send (p : Packet) : App Unit := fun s =>
  if s.sendFaults.headD false then .error .send { s with sendFaults := s.sendFaults.tail }
  else .ok () { s with sendFaults := s.sendFaults.tail, sent := s.sent ++ [p] }

/-- Replace the shared store. -/
def swapStore (store : ZoneStore) : App Unit :=
  modify fun s => { s with store }

/-- `AppState::reload_store`: load the store from the database, then swap it in. -/
def reloadStore (K : Crates) : App Unit := do
  let store ← runDb (load K)
  swapStore store

/-- A state of a database that refuses nothing, with its store. -/
def freshState (t : Tables) : AppState :=
  ⟨⟨t, [], []⟩, buildFrom plainCrates t, [], []⟩

/-! ## Runs -/

section

variable {α : Type} (m : Sql Tables α) (s : AppState)

@[simp] lemma after_runDb : (runDb m).after s = { s with conn := m.after s.conn } := by
  unfold runDb EStateM.after
  cases h : m s.conn <;> simp only [h]

@[simp] lemma result_runDb : (runDb m).result s =
    match m.result s.conn with
    | .ok a => .ok a
    | .error e => .error (.db e) := by
  unfold runDb EStateM.result
  cases h : m s.conn <;> simp only [h]

@[simp] lemma after_tryDb : (tryDb m).after s = { s with conn := m.after s.conn } := by
  unfold tryDb EStateM.after
  cases h : m s.conn <;> simp only [h]

@[simp] lemma result_tryDb : (tryDb m).result s = .ok (m.result s.conn) := by
  unfold tryDb EStateM.result
  cases h : m s.conn <;> simp only [h]

end

@[simp] lemma after_observing {α : Type} (m : App α) (s : AppState) :
    (observing m).after s = m.after s := by
  unfold observing EStateM.after
  cases h : m s <;> simp only [h]

/-- Loading never stops with an error: failed reads are taken to have found nothing. -/
lemma returns_load (K : Crates) : (load K).Returns := by
  unfold load
  refine .bind (Sql.returns_unwrapOr _ _) fun views => .bind (Sql.returns_unwrapOr _ _) fun zones =>
    .bind (.mapM (fun z => ?_) zones) fun stored => .pure _
  unfold loadZone
  split
  · exact .pure _
  · split
    · exact .pure _
    · exact .bind (Sql.returns_unwrapOr _ _) fun key => .bind (Sql.returns_unwrapOr _ _) fun records =>
        .pure _

/-- Reloading leaves the connection as loading does and swaps in what was loaded. -/
lemma reloadStore_run (K : Crates) (s : AppState) : ∃ store, (load K).result s.conn = .ok store ∧
    (reloadStore K).result s = .ok () ∧
    (reloadStore K).after s = { s with conn := (load K).after s.conn, store } := by
  obtain ⟨store, hload⟩ := returns_load K s.conn
  refine ⟨store, hload, ?_, ?_⟩
  · unfold reloadStore
    rw [EStateM.result_bind, result_runDb, hload]
    rfl
  · unfold reloadStore
    rw [EStateM.after_bind, result_runDb, hload, after_runDb]
    rfl

/-- In a database that refuses nothing, reloading swaps in the store the tables define. -/
lemma run_reloadStore (K : Crates) {s : AppState} (hfaults : s.conn.faults = []) :
    ∃ s' : AppState, reloadStore K s = .ok () s' ∧ s'.db = s.db ∧ s'.store = buildFrom K s.db := by
  obtain ⟨store, hload, hresult, hafter⟩ := reloadStore_run K s
  obtain ⟨hres, htables, -⟩ := evals_load (K := K) s.db s.conn rfl hfaults
  refine ⟨(reloadStore K).after s, EStateM.run_of_result hresult, ?_, ?_⟩
  · rw [hafter]
    exact htables
  · rw [hafter]
    rw [hres] at hload
    exact (Except.ok.inj hload).symm

/-- In a database that refuses nothing, a database call returns what it evaluates to. -/
lemma run_runDb {α : Type} {m : Sql Tables α} {s : AppState} {a : α} {t : Tables}
    (h : Sql.Evals m s.db (.ok a) t) (hfaults : s.conn.faults = []) :
    ∃ s' : AppState, runDb m s = .ok a s' ∧ s'.db = t ∧ s'.conn.faults = [] := by
  obtain ⟨hres, htables, hfaults', -⟩ := h s.conn rfl hfaults
  have hrun : (runDb m).result s = .ok a := by rw [result_runDb, hres]
  refine ⟨(runDb m).after s, EStateM.run_of_result hrun, ?_, ?_⟩
  · rw [after_runDb]
    exact htables
  · rw [after_runDb]
    exact hfaults'

/-- In a database that refuses nothing, a handler goes on with what a database call returns. -/
lemma after_runDb_bind_conn {α β : Type} {m : Sql Tables α} (k : α → App β) {s : AppState} {a : α}
    {t : Tables} (h : Sql.Evals m s.db (.ok a) t) (hfaults : s.conn.faults = []) :
    ∃ c : Conn Tables, c.tables = t ∧ c.faults = [] ∧
      (runDb m >>= k).after s = (k a).after { s with conn := c } := by
  obtain ⟨hres, htables, hfaults', -⟩ := h s.conn rfl hfaults
  refine ⟨m.after s.conn, htables, hfaults', ?_⟩
  rw [EStateM.after_bind, result_runDb, hres, after_runDb]

/-- The same, with the parts of the state that the handler goes on from. -/
lemma after_runDb_bind {α β : Type} {m : Sql Tables α} (k : α → App β) {s : AppState} {a : α}
    {t : Tables} (h : Sql.Evals m s.db (.ok a) t) (hfaults : s.conn.faults = []) :
    ∃ s' : AppState, s'.db = t ∧ s'.conn.faults = [] ∧ s'.sendFaults = s.sendFaults ∧
      (runDb m >>= k).after s = (k a).after s' := by
  obtain ⟨c, htables, hfaults', hafter⟩ := after_runDb_bind_conn k h hfaults
  exact ⟨{ s with conn := c }, htables, hfaults', rfl, hafter⟩

/-- A database call that fails ends the handler. -/
lemma after_runDb_bind_error {α β : Type} {m : Sql Tables α} (k : α → App β) {s : AppState}
    {e : DbError} (h : m.result s.conn = .error e) :
    (runDb m >>= k).after s = { s with conn := m.after s.conn } := by
  rw [EStateM.after_bind, result_runDb, h, after_runDb]

/-- A database call whose failure is looked at, in a database that refuses nothing. -/
lemma tryDb_of_evals {α : Type} {m : Sql Tables α} {s : AppState} {r : Except DbError α} {t : Tables}
    (h : Sql.Evals m s.db r t) (hfaults : s.conn.faults = []) :
    (tryDb m).result s = .ok r ∧ ((tryDb m).after s).db = t ∧ ((tryDb m).after s).conn.faults = [] := by
  obtain ⟨hres, htables, hfaults', -⟩ := h s.conn rfl hfaults
  rw [result_tryDb, after_tryDb, hres]
  exact ⟨rfl, htables, hfaults'⟩

/-- A query in a database that refuses nothing. -/
lemma after_select_bind {α β : Type} {f : Tables → α} (k : α → App β) {s : AppState}
    (hfaults : s.conn.faults = []) :
    ∃ s' : AppState, s'.db = s.db ∧ s'.conn.faults = [] ∧ s'.sendFaults = s.sendFaults ∧
      (runDb (Sql.select f) >>= k).after s = (k (f s.db)).after s' :=
  after_runDb_bind k (Sql.Evals.select f s.db) hfaults

/-! ## Relations between the connection before and after -/

/-- Whatever happens, the connection after a run of the handler is related to the one before. -/
def KeepsConn {α : Type} (Q : Conn Tables → Conn Tables → Prop) (m : App α) : Prop :=
  EStateM.Keeps (fun s s' : AppState => Q s.conn s'.conn) m

section KeepsConn

variable {α β : Type} {Q : Conn Tables → Conn Tables → Prop} [Sql.Frame Q]

instance : IsPreorder AppState (fun s s' => Q s.conn s'.conn) where
  refl s := refl_of Q s.conn
  trans _ _ _ h h' := trans_of Q h h'

lemma KeepsConn.pure (a : α) : KeepsConn Q (pure a : App α) :=
  EStateM.Keeps.pure a

lemma KeepsConn.bind {m : App α} {f : α → App β} (hm : KeepsConn Q m) (hf : ∀ a, KeepsConn Q (f a)) :
    KeepsConn Q (m >>= f) :=
  EStateM.Keeps.bind hm hf

lemma KeepsConn.throw (e : AppError) : KeepsConn Q (throw e : App α) :=
  EStateM.Keeps.throw e

omit [Sql.Frame Q] in
/-- A database call keeps what its statements keep. -/
lemma KeepsConn.runDb {m : Sql Tables α} (h : EStateM.Keeps Q m) : KeepsConn Q (runDb m) := by
  intro s
  rw [after_runDb]
  exact h s.conn

omit [Sql.Frame Q] in
/-- The same for a call whose result is looked at. -/
lemma KeepsConn.tryDb {m : Sql Tables α} (h : EStateM.Keeps Q m) : KeepsConn Q (tryDb m) := by
  intro s
  rw [after_tryDb]
  exact h s.conn

/-- Sending leaves the connection alone. -/
lemma KeepsConn.send (p : Packet) : KeepsConn Q (send p) := by
  intro s
  have hconn : ((Nomina.send p).after s).conn = s.conn := by
    unfold Nomina.send EStateM.after
    cases h : s.sendFaults.headD false <;> simp only [h, Bool.false_eq_true, if_false, if_true]
  rw [hconn]
  exact refl_of Q s.conn

/-- Loading only reads. -/
lemma keeps_load (K : Crates) : EStateM.Keeps Q (load K) := by
  unfold load
  refine .bind (Sql.Frame.unwrapOr _ (Sql.Frame.select _)) fun views =>
    .bind (Sql.Frame.unwrapOr _ (Sql.Frame.select _)) fun zones =>
    .bind (.mapM (fun z => ?_) zones) fun stored => .pure _
  unfold loadZone
  split
  · exact .pure _
  · split
    · exact .pure _
    · exact .bind (Sql.Frame.unwrapOr _ (Sql.Frame.select _)) fun key =>
        .bind (Sql.Frame.unwrapOr _ (.bind (Sql.Frame.selectFirst _) fun _ => Sql.Frame.select _))
          fun records => .pure _

/-- Reloading leaves the contents of the database alone. -/
lemma KeepsConn.reloadStore (K : Crates) : KeepsConn Q (reloadStore K) := by
  intro s
  obtain ⟨store, -, -, hafter⟩ := reloadStore_run K s
  rw [hafter]
  exact keeps_load K s.conn

/-- A handler that goes on with what a query returns: the query either fails or returns what the
database holds. -/
lemma after_select_bind_cases {f : Tables → α} {k : α → App β} {s : AppState} {P : AppState → Prop}
    (herr : P { s with conn := Sql.step s.conn .failed s.conn.tables })
    (h : P ((k (f s.db)).after { s with conn := Sql.step s.conn .read s.conn.tables })) :
    P ((Nomina.runDb (Sql.select f) >>= k).after s) := by
  rw [EStateM.after_bind, result_runDb, after_runDb]
  unfold Sql.select
  rcases Sql.statement_cases .read (fun t => .ok (f t, t)) s.conn with
    ⟨err, hres, hafter⟩ | ⟨a, t, -, hf, hres, hafter⟩
  · rw [hres, hafter]
    exact herr
  · cases hf
    rw [hres, hafter]
    exact h

/-- Whether the query fails or not, the connection is kept when the rest of the handler keeps it. -/
lemma keepsConn_select_bind {f : Tables → α} {k : α → App β} {s : AppState}
    (h : ∀ s' : AppState, s'.db = s.db → Q s'.conn ((k (f s.db)).after s').conn) :
    Q s.conn ((Nomina.runDb (Sql.select f) >>= k).after s).conn := by
  refine after_select_bind_cases (P := fun s' => Q s.conn s'.conn) (Sql.Frame.idle s.conn .failed) ?_
  exact trans_of Q (Sql.Frame.idle s.conn .read)
    (h { s with conn := Sql.step s.conn .read s.conn.tables } rfl)

/-- The same for a query whose failure is looked at. -/
lemma keepsConn_trySelect_bind {f : Tables → α} {k : Except DbError α → App β} {s : AppState}
    (herr : ∀ e, ∀ s' : AppState, s'.db = s.db → Q s'.conn ((k (.error e)).after s').conn)
    (h : ∀ s' : AppState, s'.db = s.db → Q s'.conn ((k (.ok (f s.db))).after s').conn) :
    Q s.conn ((Nomina.tryDb (Sql.select f) >>= k).after s).conn := by
  rw [EStateM.after_bind, result_tryDb, after_tryDb]
  unfold Sql.select
  rcases Sql.statement_cases .read (fun t => .ok (f t, t)) s.conn with
    ⟨err, hres, hafter⟩ | ⟨a, t, -, hf, hres, hafter⟩
  · rw [hres, hafter]
    exact trans_of Q (Sql.Frame.idle s.conn .failed)
      (herr err { s with conn := Sql.step s.conn .failed s.conn.tables } rfl)
  · cases hf
    rw [hres, hafter]
    exact trans_of Q (Sql.Frame.idle s.conn .read)
      (h { s with conn := Sql.step s.conn .read s.conn.tables } rfl)

/-- A relation with the contents unchanged. -/
def Idle (Q : Conn Tables → Conn Tables → Prop) (c c' : Conn Tables) : Prop :=
  c'.tables = c.tables ∧ Q c c'

instance : Sql.Frame (Idle Q) where
  refl c := ⟨rfl, refl_of Q c⟩
  trans _ _ _ h h' := ⟨h'.1.trans h.1, trans_of Q h.2 h'.2⟩
  idle c e := ⟨rfl, Sql.Frame.idle c e⟩

/-- A handler that goes on after checks. -/
lemma keepsConn_idle_bind {m : App α} {k : α → App β} {s : AppState} (hm : KeepsConn (Idle Q) m)
    (h : ∀ a, ∀ s' : AppState, s'.db = s.db → Q s'.conn ((k a).after s').conn) :
    Q s.conn ((m >>= k).after s).conn := by
  obtain ⟨htables, hQ⟩ := hm s
  rw [EStateM.after_bind]
  split
  · exact trans_of Q hQ (h _ _ htables)
  · exact hQ

/-- A handler that goes on with what a database call returns. -/
lemma keepsConn_runDb_bind {m : Sql Tables α} {k : α → App β} {s : AppState}
    (hm : Q s.conn (m.after s.conn)) (hk : ∀ a, KeepsConn Q (k a)) :
    Q s.conn ((Nomina.runDb m >>= k).after s).conn := by
  rw [EStateM.after_bind, after_runDb]
  split
  · exact trans_of Q hm (hk _ { s with conn := m.after s.conn })
  · exact hm

end KeepsConn

/-! ## Relations between the database before and after -/

/-- Whatever happens, the database after a run of the handler is related to the one before. -/
abbrev KeepsDb {α : Type} (R : Tables → Tables → Prop) (m : App α) : Prop :=
  KeepsConn (fun c c' => R c.tables c'.tables) m

/-- A handler that goes on with what a query returns. -/
lemma keepsDb_select_bind {α β : Type} {R : Tables → Tables → Prop} [IsPreorder Tables R]
    {f : Tables → α} {k : α → App β} {s : AppState}
    (h : ∀ s' : AppState, s'.db = s.db → R s'.db ((k (f s.db)).after s').db) :
    R s.db ((runDb (Sql.select f) >>= k).after s).db :=
  keepsConn_select_bind (Q := fun c c' => R c.tables c'.tables) h

/-- A change that there is none of. -/
def SameTables (t t' : Tables) : Prop :=
  t' = t

instance : IsPreorder Tables SameTables where
  refl _ := rfl
  trans _ _ _ h h' := h'.trans h

/-- A handler that returns goes on after checks with the database that it found. -/
lemma ok_of_idle_bind {α β : Type} {m : App α} {k : α → App β} {s : AppState} {b : β}
    (hm : KeepsDb SameTables m) (h : (m >>= k).result s = .ok b) :
    ∃ (a : α) (s' : AppState), m.result s = .ok a ∧ s'.db = s.db ∧ (k a).result s' = .ok b ∧
      (m >>= k).after s = (k a).after s' := by
  obtain ⟨a, ha, hresult, hafter⟩ := EStateM.bind_ok h
  exact ⟨a, m.after s, ha, hm s, hresult, hafter⟩

/-- A handler that returns and writes nothing after a database call leaves what the call leaves. -/
lemma db_of_call {α β : Type} {m : Sql Tables α} {k : α → App β} {s : AppState} {b : β}
    (hk : ∀ a, KeepsDb SameTables (k a)) (h : (runDb m >>= k).result s = .ok b) :
    ∃ a, m.result s.conn = .ok a ∧ ((runDb m >>= k).after s).db = (m.after s.conn).tables := by
  obtain ⟨a, hm, -, hafter⟩ := EStateM.bind_ok h
  rw [result_runDb] at hm
  split at hm
  · rename_i v hv
    cases hm
    refine ⟨a, hv, ?_⟩
    have hrest : ((k a).after ((runDb m).after s)).db = ((runDb m).after s).db := hk a _
    rw [hafter, hrest, after_runDb]
  · cases hm

end Nomina
