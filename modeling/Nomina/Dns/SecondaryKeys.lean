import Mathlib.Data.List.Infix
import Nomina.Dns.Transfer
import Nomina.Lib.Lts
import Nomina.Operations

/-!
# The keys of secondary zones

A secondary zone is stored with the name of a TSIG key, and the key itself is in the settings, which are
changed apart from the zones. Whoever asks the primary looks the key up right before, and asks without a
signature when there is none to be found.

The operations on secondary zones are cut where they wait for the network, so that changes of the settings
and other operations can come in between. The main result says exactly which runs sign all queries for a
zone with its key.
-/

namespace Nomina

open Lib Sql EStateM

/-- `Db::list_secondaries`. -/
def Db.listSecondaries : Sql Tables (List SecondaryZone) :=
  select fun t => (Db.zonesByName t).filterMap fun z => (t.secondary? z.id).map fun row =>
    ⟨z.id, z.name, row.primaryAddr, z.serial, row.tsigKey⟩

variable (K : Crates) (X : TransferCrates)

/-! ## Queries to a primary -/

/-- `tsig_signer`. -/
def tsigSigner (settings : Settings) (keyName : Str) : Option TSigner :=
  (settings.tsigKeys.find? (·.name == keyName)).bind fun key => (buildSigner K X key).toOption

/-- A query to a primary, and the zone it is for. -/
structure PrimaryQuery where
  zoneId : ℕ
  primary : SocketAddr
  origin : Name
  qtype : RecordType
  signer : Option TSigner
deriving DecidableEq

/-- What a query meets with: whether its signature can be made, whether the primary is reached, and what
it answers. -/
structure Network where
  finalize : TSigner → Except Str Unit
  connect : SocketAddr → Except Str Unit
  serial : PrimaryQuery → Except Str ℕ
  records : PrimaryQuery → Except Str (List Record)

/-- `encode`, as far as it can fail. -/
def encode (N : Network) : Option TSigner → Except Str Unit
  | some signer => (N.finalize signer).mapError ("TSIG sign: ".toList ++ ·)
  | none => .ok ()

/-- A query and its answer: what is sent, and how it ends. -/
def exchange {α : Type} (N : Network) (answer : PrimaryQuery → Except Str α) (q : PrimaryQuery) :
    List PrimaryQuery × Except Str α :=
  match encode N q.signer with
  | .error e => ([], .error e)
  | .ok () =>
    match N.connect q.primary with
    | .error e => ([], .error e)
    | .ok () => ([q], answer q)

/-- `soa_serial`. -/
def soaSerial (N : Network) (zoneId : ℕ) (primary : SocketAddr) (zone : Name) (signer : Option TSigner) :
    List PrimaryQuery × Except Str ℕ :=
  exchange N N.serial ⟨zoneId, primary, zone, .SOA, signer⟩

/-- `axfr_transfer`. -/
def axfrTransfer (N : Network) (zoneId : ℕ) (primary : SocketAddr) (zone : Name) (signer : Option TSigner) :
    List PrimaryQuery × Except Str (List Record) :=
  exchange N N.records ⟨zoneId, primary, zone, .AXFR, signer⟩

/-! ## Operations on secondary zones -/

/-- What is left to do of an operation: to ask for the serial of a zone that is due, to ask for a transfer,
or to store one. The failure of a transfer is noted, or returned. -/
inductive SecondaryTask
  | poll (sec : SecondaryZone)
  | transfer (target : TransferTarget) (noted : Bool)
  | store (target : TransferTarget) (noted : Bool) (records : List Record)

/-- What a part of an operation does: its effect, what is left to do, and what it sends. -/
structure TaskStep where
  app : AppState
  rest : Option SecondaryTask
  sent : List PrimaryQuery

/-- A transfer whose failure is noted, or returned. -/
def runTransfer (fetch : Fetch) (target : TransferTarget) (noted : Bool) : App Unit :=
  if noted then transferOrNote K fetch target
  else do
    let _ ← observing (target.transfer K fetch)
    pure ()

/-- The end of a transfer once it is answered. -/
def finishTransfer (target : TransferTarget) (noted : Bool) (reply : Except Str (List Record)) : App Unit :=
  runTransfer K (fun _ _ _ => reply) target noted

/-- `poll_loop` for a zone that is due, up to the answer to its query. -/
def pollStep (settings : Settings) (N : Network) (sec : SecondaryZone) (app : AppState) : TaskStep :=
  match parsePrimary sec.primaryAddr with
  | .error e => ⟨(recordError sec.zoneId e).after app, none, []⟩
  | .ok primary =>
    match K.fromUtf8 (sec.name ++ ['.']) with
    | .error _ => ⟨app, none, []⟩
    | .ok origin =>
      let signer := sec.tsigKey.bind (tsigSigner K X settings)
      match soaSerial N sec.zoneId primary origin signer with
      | (sent, .error e) => ⟨(recordError sec.zoneId e).after app, none, sent⟩
      | (sent, .ok serial) =>
        if serial ≠ sec.serial then
          ⟨app, some (.transfer ⟨sec.zoneId, sec.name, primary, sec.tsigKey⟩ true), sent⟩
        else ⟨(tryDb (Db.setSecondaryStatus sec.zoneId none none)).after app, none, sent⟩

/-- `transfer`, up to the answer to its query. -/
def transferStep (settings : Settings) (N : Network) (target : TransferTarget) (noted : Bool)
    (app : AppState) : TaskStep :=
  match K.fromUtf8 (target.name ++ ['.']) with
  | .error e => ⟨(finishTransfer K target noted (.error e)).after app, none, []⟩
  | .ok origin =>
    let signer := target.tsigKey.bind (tsigSigner K X settings)
    match axfrTransfer N target.zoneId target.primary origin signer with
    | (sent, .error e) => ⟨(finishTransfer K target noted (.error e)).after app, none, sent⟩
    | (sent, .ok records) => ⟨app, some (.store target noted records), sent⟩

/-- The next part of an operation. -/
def taskStep (settings : Settings) (N : Network) : SecondaryTask → AppState → TaskStep
  | .poll sec, app => pollStep K X settings N sec app
  | .transfer target noted, app => transferStep K X settings N target noted app
  | .store target noted records, app =>
    ⟨(finishTransfer K target noted (.ok records)).after app, none, []⟩

/-- The parts of an operation, one right after the other; there are three at most. -/
def runTask (settings : Settings) (N : Network) : ℕ → SecondaryTask → AppState → AppState
  | 0, _, app => app
  | n + 1, task, app =>
    let r := taskStep K X settings N task app
    r.rest.elim r.app fun rest => runTask settings N n rest r.app

/-- What a transfer is answered, with the key looked up in the settings. -/
def fetchWith (settings : Settings) (N : Network) (zoneId : ℕ) : Fetch := fun primary origin tsigKey =>
  (axfrTransfer N zoneId primary origin (tsigKey.bind (tsigSigner K X settings))).2

/-- What a query for the serial is answered. -/
def serialWith (settings : Settings) (N : Network) (zoneId : ℕ) : RemoteSerial :=
  fun primary origin tsigKey =>
    (soaSerial N zoneId primary origin (tsigKey.bind (tsigSigner K X settings))).2

variable {K X}

section

variable {settings : Settings} {N : Network} {target : TransferTarget} {noted : Bool} {app : AppState}

variable (K X) in
/-- How the first part of the work of `poll_loop` for a zone goes. -/
lemma pollStep_cases (settings : Settings) (N : Network) (sec : SecondaryZone) (app : AppState) :
    (∃ e, parsePrimary sec.primaryAddr = .error e ∧
      pollStep K X settings N sec app = ⟨(recordError sec.zoneId e).after app, none, []⟩) ∨
    ∃ primary, parsePrimary sec.primaryAddr = .ok primary ∧
      ((∃ e, K.fromUtf8 (sec.name ++ ['.']) = .error e ∧ pollStep K X settings N sec app = ⟨app, none, []⟩) ∨
      ∃ origin sent, K.fromUtf8 (sec.name ++ ['.']) = .ok origin ∧
        ((∃ e, soaSerial N sec.zoneId primary origin (sec.tsigKey.bind (tsigSigner K X settings)) =
            (sent, .error e) ∧
          pollStep K X settings N sec app = ⟨(recordError sec.zoneId e).after app, none, sent⟩) ∨
        ∃ serial, soaSerial N sec.zoneId primary origin (sec.tsigKey.bind (tsigSigner K X settings)) =
            (sent, .ok serial) ∧
          pollStep K X settings N sec app = if serial ≠ sec.serial then
            ⟨app, some (.transfer ⟨sec.zoneId, sec.name, primary, sec.tsigKey⟩ true), sent⟩
          else ⟨(tryDb (Db.setSecondaryStatus sec.zoneId none none)).after app, none, sent⟩)) := by
  unfold pollStep
  cases parsePrimary sec.primaryAddr with
  | error e => exact .inl ⟨e, rfl, rfl⟩
  | ok primary =>
    refine .inr ⟨primary, rfl, ?_⟩
    cases K.fromUtf8 (sec.name ++ ['.']) with
    | error e => exact .inl ⟨e, rfl, rfl⟩
    | ok origin =>
      dsimp only
      cases hreply : soaSerial N sec.zoneId primary origin (sec.tsigKey.bind (tsigSigner K X settings)) with
      | mk sent reply =>
        cases reply with
        | error e => exact .inr ⟨origin, sent, rfl, .inl ⟨e, hreply, rfl⟩⟩
        | ok serial => exact .inr ⟨origin, sent, rfl, .inr ⟨serial, hreply, rfl⟩⟩

variable (K X) in
/-- How the first part of a transfer goes. -/
lemma transferStep_cases (settings : Settings) (N : Network) (target : TransferTarget) (noted : Bool)
    (app : AppState) :
    (∃ e, K.fromUtf8 (target.name ++ ['.']) = .error e ∧ transferStep K X settings N target noted app =
      ⟨(finishTransfer K target noted (.error e)).after app, none, []⟩) ∨
    ∃ origin sent, K.fromUtf8 (target.name ++ ['.']) = .ok origin ∧
      ((∃ e, axfrTransfer N target.zoneId target.primary origin
            (target.tsigKey.bind (tsigSigner K X settings)) = (sent, .error e) ∧
          transferStep K X settings N target noted app =
            ⟨(finishTransfer K target noted (.error e)).after app, none, sent⟩) ∨
        ∃ records, axfrTransfer N target.zoneId target.primary origin
            (target.tsigKey.bind (tsigSigner K X settings)) = (sent, .ok records) ∧
          transferStep K X settings N target noted app = ⟨app, some (.store target noted records), sent⟩) := by
  unfold transferStep
  cases K.fromUtf8 (target.name ++ ['.']) with
  | error e => exact .inl ⟨e, rfl, rfl⟩
  | ok origin =>
    dsimp only
    cases hreply : axfrTransfer N target.zoneId target.primary origin
        (target.tsigKey.bind (tsigSigner K X settings)) with
    | mk sent reply =>
      cases reply with
      | error e => exact .inr ⟨origin, sent, rfl, .inl ⟨e, hreply, rfl⟩⟩
      | ok records => exact .inr ⟨origin, sent, rfl, .inr ⟨records, hreply, rfl⟩⟩

/-- A transfer asks once. -/
lemma runTransfer_congr {fetch fetch' : Fetch}
    (h : ∀ origin, K.fromUtf8 (target.name ++ ['.']) = .ok origin →
      fetch target.primary origin target.tsigKey = fetch' target.primary origin target.tsigKey) :
    runTransfer K fetch target noted = runTransfer K fetch' target noted := by
  have hsame : target.transfer K fetch = target.transfer K fetch' := by
    unfold TransferTarget.transfer transfer
    cases horigin : K.fromUtf8 (target.name ++ ['.']) with
    | error e => rfl
    | ok origin => simp only [h origin horigin]
  unfold runTransfer transferOrNote
  rw [hsame]

/-- The end of a transfer with the answer that its query got. -/
lemma finishTransfer_eq {origin : Name} {sent : List PrimaryQuery} {reply : Except Str (List Record)}
    (horigin : K.fromUtf8 (target.name ++ ['.']) = .ok origin)
    (hreply : axfrTransfer N target.zoneId target.primary origin
      (target.tsigKey.bind (tsigSigner K X settings)) = (sent, reply)) :
    finishTransfer K target noted reply =
      runTransfer K (fetchWith K X settings N target.zoneId) target noted := by
  refine runTransfer_congr fun origin' h => ?_
  cases horigin.symm.trans h
  unfold fetchWith
  rw [hreply]

/-- The parts of a transfer with nothing in between are the transfer. -/
lemma runTask_transfer : runTask K X settings N 2 (.transfer target noted) app =
    (runTransfer K (fetchWith K X settings N target.zoneId) target noted).after app := by
  rcases transferStep_cases K X settings N target noted app with ⟨e, horigin, hstep⟩ |
    ⟨origin, sent, horigin, ⟨e, hreply, hstep⟩ | ⟨records, hreply, hstep⟩⟩
  · simp only [runTask, taskStep, hstep, Option.elim_none]
    refine congrArg (EStateM.after · app) (runTransfer_congr fun origin h => ?_)
    rw [horigin] at h
    cases h
  · simp only [runTask, taskStep, hstep, Option.elim_none, finishTransfer_eq horigin hreply]
  · simp only [runTask, taskStep, hstep, Option.elim_some, Option.elim_none, finishTransfer_eq horigin hreply]

/-- The parts of the work of `poll_loop` for a zone with nothing in between are that work. -/
theorem runTask_poll (sec : SecondaryZone) : runTask K X settings N 3 (.poll sec) app =
    (pollZone K (fetchWith K X settings N sec.zoneId) (serialWith K X settings N sec.zoneId) sec).after
      app := by
  unfold pollZone pollAction serialWith
  rcases pollStep_cases K X settings N sec app with ⟨e, hprimary, hstep⟩ |
    ⟨primary, hprimary, ⟨e, horigin, hstep⟩ | ⟨origin, sent, horigin, ⟨e, hreply, hstep⟩ |
      ⟨serial, hreply, hstep⟩⟩⟩
  · simp only [runTask, taskStep, hstep, hprimary, Option.elim_none]
  · simp only [runTask, taskStep, hstep, hprimary, horigin, Option.elim_none]
    rfl
  · simp only [runTask, taskStep, hstep, hprimary, horigin, hreply, Option.elim_none]
  · rw [runTask, taskStep, hstep]
    simp only [hprimary, horigin, hreply]
    split
    · exact runTask_transfer
    · exact (EStateM.after_bind_pure _ _ _).symm

end

/-! ## The system -/

/-- The server with its settings, and the operations on secondary zones that are under way. -/
structure SecondarySystem where
  app : AppState
  settings : Api.SettingsState
  tasks : List SecondaryTask

/-- What happens: the settings are changed, the poll loop finds zones that are due, a secondary zone is
created or is to be refreshed, some other handler runs, or an operation goes on. -/
inductive SecondaryAction
  | putSettings (u : SettingsUpdate)
  | pollDue (due : SecondaryZone → Bool)
  | createSecondary (req : Api.SecondaryCreate)
  | refreshSecondary (id : ℕ)
  | elsewhere (handler : App Unit)
  | resume (i : ℕ) (N : Network)

namespace SecondarySystem

/-- A handler up to where it waits, and what is left to do then. -/
def start {α : Type} (s : SecondarySystem) (m : App α) (tasks : α → List SecondaryTask) :
    SecondarySystem :=
  { s with app := m.after s.app, tasks := s.tasks ++ (m.result s.app).toOption.elim [] tasks }

variable (K X)

/-- The operation at an index goes on. -/
def resume (s : SecondarySystem) (i : ℕ) (N : Network) : SecondarySystem × List PrimaryQuery :=
  match s.tasks[i]? with
  | none => (s, [])
  | some task =>
    let r := taskStep K X s.settings.applied N task s.app
    ({ s with app := r.app, tasks := s.tasks.eraseIdx i ++ r.rest.toList }, r.sent)

/-- The system after an action, and the queries that the action sends. -/
def next (s : SecondarySystem) : SecondaryAction → SecondarySystem × List PrimaryQuery
  | .putSettings u => ({ s with settings := (Api.putSettings K X.toTsigCrates u s.settings).2 }, [])
  | .pollDue due => (s.start (runDb Db.listSecondaries) fun secs => (secs.filter due).map .poll, [])
  | .createSecondary req => (s.start (Api.newSecondary K req) fun target => [.transfer target true], [])
  | .refreshSecondary id => (s.start (Api.refreshTarget id) fun target => [.transfer target false], [])
  | .elsewhere handler => (s.start handler fun _ => [], [])
  | .resume i N => s.resume K X i N

/-- The system after an action. -/
def after (s : SecondarySystem) (a : SecondaryAction) : SecondarySystem :=
  (s.next K X a).1

/-- The queries that an action sends. -/
def sends (s : SecondarySystem) (a : SecondaryAction) : List PrimaryQuery :=
  (s.next K X a).2

end SecondarySystem

namespace SecondaryTask

/-- The zone of an operation. -/
def zoneId : SecondaryTask → ℕ
  | .poll sec => sec.zoneId
  | .transfer target _ => target.zoneId
  | .store target _ _ => target.zoneId

/-- The key that an operation asks with. -/
def tsigKey : SecondaryTask → Option Str
  | .poll sec => sec.tsigKey
  | .transfer target _ => target.tsigKey
  | .store target _ _ => target.tsigKey

/-- Whether an operation is about to ask the primary. -/
def asks : SecondaryTask → Bool
  | .poll _ | .transfer _ _ => true
  | .store _ _ _ => false

variable (K) in
/-- The query that an operation is about to ask, without a signature, if its texts are read. -/
def query? : SecondaryTask → Option PrimaryQuery
  | .poll sec =>
    match parsePrimary sec.primaryAddr, K.fromUtf8 (sec.name ++ ['.']) with
    | .ok primary, .ok origin => some ⟨sec.zoneId, primary, origin, .SOA, none⟩
    | _, _ => none
  | .transfer target _ =>
    match K.fromUtf8 (target.name ++ ['.']) with
    | .ok origin => some ⟨target.zoneId, target.primary, origin, .AXFR, none⟩
    | .error _ => none
  | .store _ _ _ => none

end SecondaryTask

section

variable {α : Type} {settings : Settings} {N : Network} {app : AppState} {task : SecondaryTask}
  {q q' : PrimaryQuery}

/-- What is sent: the query, when it can be signed and the primary is reached. -/
lemma mem_exchange (q q' : PrimaryQuery) (answer : PrimaryQuery → Except Str α) :
    q' ∈ (exchange N answer q).1 ↔
      q' = q ∧ (encode N q.signer).isOk = true ∧ (N.connect q.primary).isOk = true := by
  unfold exchange
  cases encode N q.signer with
  | error e => simp [Except.isOk, Except.toBool]
  | ok u =>
    cases N.connect q.primary with
    | error e => simp [Except.isOk, Except.toBool]
    | ok u => simp [Except.isOk, Except.toBool]

/-- An answer is one to a query. -/
lemma exchange_ok {answer : PrimaryQuery → Except Str α} {sent : List PrimaryQuery} {a : α}
    (h : exchange N answer q = (sent, .ok a)) : sent = [q] := by
  unfold exchange at h
  split at h
  · cases h
  · split at h
    · cases h
    · exact (congrArg Prod.fst h).symm

/-- What a part of an operation sends: its query, signed as its key says. -/
lemma mem_sent_taskStep : q ∈ (taskStep K X settings N task app).sent ↔
    ∃ q₀, task.query? K = some q₀ ∧
      q = { q₀ with signer := task.tsigKey.bind (tsigSigner K X settings) } ∧
      (encode N q.signer).isOk = true ∧ (N.connect q.primary).isOk = true := by
  have hsent : ∀ {β : Type} {answer : PrimaryQuery → Except Str β} {q₀ : PrimaryQuery}
      {signer : Option TSigner} {sent : List PrimaryQuery} {reply : Except Str β},
      exchange N answer { q₀ with signer } = (sent, reply) →
      (q ∈ sent ↔ ∃ q₁, some q₀ = some q₁ ∧ q = { q₁ with signer } ∧ (encode N q.signer).isOk = true ∧
        (N.connect q.primary).isOk = true) := by
    intro β answer q₀ signer sent reply h
    have hmem := mem_exchange (N := N) { q₀ with signer } q answer
    rw [h] at hmem
    rw [hmem]
    constructor
    · rintro ⟨rfl, hencode, hconnect⟩
      exact ⟨q₀, rfl, rfl, hencode, hconnect⟩
    · rintro ⟨q₁, hq₁, rfl, hencode, hconnect⟩
      cases hq₁
      exact ⟨rfl, hencode, hconnect⟩
  cases task with
  | poll sec =>
    change q ∈ (pollStep K X settings N sec app).sent ↔ _
    rcases pollStep_cases K X settings N sec app with ⟨e, hprimary, hstep⟩ |
      ⟨primary, hprimary, ⟨e, horigin, hstep⟩ | ⟨origin, sent, horigin, hreply⟩⟩
    · simp [hstep, SecondaryTask.query?, hprimary]
    · simp [hstep, SecondaryTask.query?, hprimary, horigin]
    · have hquery : SecondaryTask.query? K (.poll sec) =
          some ⟨sec.zoneId, primary, origin, .SOA, none⟩ := by
        simp only [SecondaryTask.query?, hprimary, horigin]
      rw [hquery]
      rcases hreply with ⟨e, hreply, hstep⟩ | ⟨serial, hreply, hstep⟩
      · rw [hstep]
        exact hsent hreply
      · have hfield : (pollStep K X settings N sec app).sent = sent := by
          rw [hstep]
          split <;> rfl
        rw [hfield]
        exact hsent hreply
  | transfer target noted =>
    change q ∈ (transferStep K X settings N target noted app).sent ↔ _
    rcases transferStep_cases K X settings N target noted app with ⟨e, horigin, hstep⟩ |
      ⟨origin, sent, horigin, hreply⟩
    · simp [hstep, SecondaryTask.query?, horigin]
    · have hquery : SecondaryTask.query? K (.transfer target noted) =
          some ⟨target.zoneId, target.primary, origin, .AXFR, none⟩ := by
        simp only [SecondaryTask.query?, horigin]
      rw [hquery]
      rcases hreply with ⟨e, hreply, hstep⟩ | ⟨records, hreply, hstep⟩
      · rw [hstep]
        exact hsent hreply
      · rw [hstep]
        exact hsent hreply
  | store target noted records => simp [taskStep, SecondaryTask.query?]

/-- Noting the outcome of an operation leaves the records alone. -/
lemma keeps_setSecondaryStatus (zoneId : ℕ) (lastError : Option Str) :
    KeepsDb SameRecords (tryDb (Db.setSecondaryStatus zoneId lastError none)) :=
  .tryDb (.bind (Sql.Keeps.update fun _ => rfl) fun _ => .pure ())

/-- A transfer that is answered with an error leaves the records alone. -/
lemma keeps_finishTransfer_error (target : TransferTarget) (noted : Bool) (e : Str) :
    KeepsDb SameRecords (finishTransfer K target noted (.error e)) := by
  have htransfer : KeepsDb SameRecords (target.transfer K fun _ _ _ => .error e) := by
    unfold TransferTarget.transfer transfer
    split
    · exact .throw _
    · exact .throw _
  have hobserving : KeepsDb SameRecords (observing (target.transfer K fun _ _ _ => .error e)) := by
    intro s
    rw [after_observing]
    exact htransfer s
  unfold finishTransfer runTransfer
  split
  · refine .bind hobserving fun r => ?_
    split
    · exact .pure ()
    · exact .bind (keeps_setSecondaryStatus _ _) fun _ => .pure ()
  · exact .bind hobserving fun _ => .pure ()

/-- An operation that is about to ask and sends nothing ends, and leaves the records alone. -/
lemma taskStep_of_silent (hasks : task.asks = true) (h : (taskStep K X settings N task app).sent = []) :
    (taskStep K X settings N task app).rest = none ∧
      (taskStep K X settings N task app).app.db.records = app.db.records := by
  have hnoted : ∀ zoneId e, ((recordError zoneId e).after app).db.records = app.db.records := by
    intro zoneId e
    have hkeeps : KeepsDb SameRecords (recordError zoneId e) :=
      .bind (keeps_setSecondaryStatus zoneId (some e)) fun _ => .pure ()
    exact hkeeps app
  cases task with
  | poll sec =>
    change (pollStep K X settings N sec app).sent = [] at h
    change (pollStep K X settings N sec app).rest = none ∧
      (pollStep K X settings N sec app).app.db.records = app.db.records
    rcases pollStep_cases K X settings N sec app with ⟨e, hprimary, hstep⟩ |
      ⟨primary, hprimary, ⟨e, horigin, hstep⟩ | ⟨origin, sent, horigin, ⟨e, hreply, hstep⟩ |
        ⟨serial, hreply, hstep⟩⟩⟩
    · rw [hstep]
      exact ⟨rfl, hnoted _ _⟩
    · rw [hstep]
      exact ⟨rfl, rfl⟩
    · rw [hstep]
      exact ⟨rfl, hnoted _ _⟩
    · have hfields : (pollStep K X settings N sec app).sent = sent := by
        rw [hstep]
        split <;> rfl
      rw [hfields, exchange_ok hreply] at h
      cases h
  | transfer target noted =>
    change (transferStep K X settings N target noted app).sent = [] at h
    change (transferStep K X settings N target noted app).rest = none ∧
      (transferStep K X settings N target noted app).app.db.records = app.db.records
    rcases transferStep_cases K X settings N target noted app with ⟨e, horigin, hstep⟩ |
      ⟨origin, sent, horigin, ⟨e, hreply, hstep⟩ | ⟨records, hreply, hstep⟩⟩
    · rw [hstep]
      exact ⟨rfl, keeps_finishTransfer_error target noted e app⟩
    · rw [hstep]
      exact ⟨rfl, keeps_finishTransfer_error target noted e app⟩
    · rw [hstep] at h
      dsimp only at h
      rw [exchange_ok hreply] at h
      cases h
  | store target noted records => cases hasks

end

/-! ## Keys that are in force -/

/-- A query is signed with a key of the settings that has the name. -/
def SignedWith (K : Crates) (X : TransferCrates) (settings : Settings) (keyName : Str) (q : PrimaryQuery) :
    Prop :=
  ∃ key ∈ settings.tsigKeys, key.name = keyName ∧
    ∃ signer, buildSigner K X key = .ok signer ∧ q.signer = some signer

/-- An action upholds the key of a zone: the queries it sends for the zone are signed with the key. When the
key is not found, an operation that is about to ask for the zone ends, sends nothing and leaves the records
of the zone alone. -/
structure Upholds (K : Crates) (X : TransferCrates) (zoneId : ℕ) (keyName : Str) (s : SecondarySystem)
    (a : SecondaryAction) : Prop where
  signed : ∀ q ∈ s.sends K X a, q.zoneId = zoneId → SignedWith K X s.settings.applied keyName q
  ends : ∀ i N task, a = .resume i N → s.tasks[i]? = some task → task.zoneId = zoneId →
    task.asks = true → tsigSigner K X s.settings.applied keyName = none →
    s.sends K X a = [] ∧ (s.after K X a).tasks = s.tasks.eraseIdx i ∧
      (s.after K X a).app.db.zoneRecords zoneId = s.app.db.zoneRecords zoneId

/-- The key of a zone is found whenever an operation is about to ask for the zone, can read the texts of
its query and reaches the primary. -/
def Resolves (K : Crates) (X : TransferCrates) (zoneId : ℕ) (keyName : Str) (s : SecondarySystem)
    (a : SecondaryAction) : Prop :=
  ∀ i N task q, a = .resume i N → s.tasks[i]? = some task → task.zoneId = zoneId → task.query? K = some q →
    (N.connect q.primary).isOk = true → (tsigSigner K X s.settings.applied keyName).isSome = true

/-- The zone is configured with the key, as long as it is there. -/
def ConfiguredWith (zoneId : ℕ) (keyName : Str) (t : Tables) : Prop :=
  ∀ row ∈ t.secondaries, row.zoneId = zoneId → row.tsigKey = some keyName

/-- The operations for a zone have its key. -/
def TasksHaveKey (zoneId : ℕ) (keyName : Str) (s : SecondarySystem) : Prop :=
  ∀ task ∈ s.tasks, task.zoneId = zoneId → task.tsigKey = some keyName

section

variable {zoneId : ℕ} {keyName : Str} {s : SecondarySystem} {a : SecondaryAction} {settings : Settings}
  {task : SecondaryTask}

/-- The signer of a key is made from a key of the settings. -/
lemma of_tsigSigner {signer : TSigner} (h : tsigSigner K X settings keyName = some signer) :
    ∃ key ∈ settings.tsigKeys, key.name = keyName ∧ buildSigner K X key = .ok signer := by
  unfold tsigSigner at h
  obtain ⟨key, hfound, hbuilt⟩ := Option.bind_eq_some_iff.mp h
  refine ⟨key, List.mem_of_find?_eq_some hfound, by simpa using List.find?_some hfound, ?_⟩
  cases hsigner : buildSigner K X key with
  | error e =>
    rw [hsigner] at hbuilt
    cases hbuilt
  | ok signer' =>
    rw [hsigner] at hbuilt
    exact congrArg Except.ok (Option.some.inj hbuilt)

/-- The query of an operation is for its zone. -/
lemma zoneId_of_query? {q : PrimaryQuery} (h : task.query? K = some q) : q.zoneId = task.zoneId := by
  cases task with
  | poll sec =>
    unfold SecondaryTask.query? at h
    dsimp only at h
    split at h
    · obtain rfl := Option.some.inj h
      rfl
    · cases h
  | transfer target noted =>
    unfold SecondaryTask.query? at h
    dsimp only at h
    split at h
    · obtain rfl := Option.some.inj h
      rfl
    · cases h
  | store target noted records => cases h

/-- An operation that goes on. -/
lemma next_resume {i : ℕ} {N : Network} (h : s.tasks[i]? = some task) :
    s.next K X (.resume i N) =
      ({ s with
          app := (taskStep K X s.settings.applied N task s.app).app
          tasks := s.tasks.eraseIdx i ++ (taskStep K X s.settings.applied N task s.app).rest.toList },
        (taskStep K X s.settings.applied N task s.app).sent) := by
  change s.resume K X i N = _
  unfold SecondarySystem.resume
  rw [h]

/-- What an action sends is the query of the operation that goes on, signed as its key says. -/
lemma mem_sends {q : PrimaryQuery} : q ∈ s.sends K X a ↔
    ∃ i N task q₀, a = .resume i N ∧ s.tasks[i]? = some task ∧ task.query? K = some q₀ ∧
      q = { q₀ with signer := task.tsigKey.bind (tsigSigner K X s.settings.applied) } ∧
      (encode N q.signer).isOk = true ∧ (N.connect q.primary).isOk = true := by
  unfold SecondarySystem.sends
  constructor
  · intro hq
    cases a with
    | resume i N =>
      cases hi : s.tasks[i]? with
      | none =>
        change q ∈ (s.resume K X i N).2 at hq
        unfold SecondarySystem.resume at hq
        rw [hi] at hq
        cases hq
      | some task =>
        rw [next_resume hi] at hq
        obtain ⟨q₀, hsent⟩ := mem_sent_taskStep.mp hq
        exact ⟨i, N, task, q₀, rfl, hi, hsent⟩
    | putSettings u => cases hq
    | pollDue due => cases hq
    | createSecondary req => cases hq
    | refreshSecondary id => cases hq
    | elsewhere handler => cases hq
  · rintro ⟨i, N, task, q₀, rfl, hi, hsent⟩
    rw [next_resume hi]
    exact mem_sent_taskStep.mpr ⟨q₀, hsent⟩

/-- When the queries for a zone are signed with its key, the key is found where it is needed. -/
lemma resolves_of_signed (hkeys : TasksHaveKey zoneId keyName s)
    (hsigned : ∀ q ∈ s.sends K X a, q.zoneId = zoneId → SignedWith K X s.settings.applied keyName q) :
    Resolves K X zoneId keyName s a := by
  rintro i N task q rfl hi hzone hquery hconnect
  have hkey := hkeys task (List.mem_of_getElem? hi) hzone
  cases hsigner : tsigSigner K X s.settings.applied keyName with
  | some signer => rfl
  | none =>
    -- Without a signer there is nothing to be signed, so the query is sent as it is.
    have hsent : { q with signer := none } ∈ s.sends K X (.resume i N) := by
      refine mem_sends.mpr ⟨i, N, task, q, rfl, hi, hquery, ?_, rfl, hconnect⟩
      rw [hkey, Option.bind_some, hsigner]
    obtain ⟨-, -, -, signer, -, hnone⟩ := hsigned _ hsent ((zoneId_of_query? hquery).trans hzone)
    cases hnone

/-- When the key is found where it is needed, the queries for the zone are signed with it. -/
lemma signed_of_resolves (hkeys : TasksHaveKey zoneId keyName s) (h : Resolves K X zoneId keyName s a)
    {q : PrimaryQuery} (hq : q ∈ s.sends K X a) (hzone : q.zoneId = zoneId) :
    SignedWith K X s.settings.applied keyName q := by
  obtain ⟨i, N, task, q₀, ha, hi, hquery, rfl, -, hconnect⟩ := mem_sends.mp hq
  have htask : task.zoneId = zoneId := (zoneId_of_query? hquery).symm.trans hzone
  have hkey := hkeys task (List.mem_of_getElem? hi) htask
  obtain ⟨signer, hsigner⟩ := Option.isSome_iff_exists.mp (h i N task q₀ ha hi htask hquery hconnect)
  obtain ⟨key, hmem, hname, hbuilt⟩ := of_tsigSigner hsigner
  refine ⟨key, hmem, hname, signer, hbuilt, ?_⟩
  rw [hkey, Option.bind_some, hsigner]

/-- When the key is found where it is needed, an operation that would need it in vain ends in silence. -/
lemma ends_of_resolves {i : ℕ} {N : Network} (h : Resolves K X zoneId keyName s (.resume i N))
    (hi : s.tasks[i]? = some task) (hzone : task.zoneId = zoneId) (hasks : task.asks = true)
    (hnone : tsigSigner K X s.settings.applied keyName = none) :
    s.sends K X (.resume i N) = [] ∧ (s.after K X (.resume i N)).tasks = s.tasks.eraseIdx i ∧
      (s.after K X (.resume i N)).app.db.zoneRecords zoneId = s.app.db.zoneRecords zoneId := by
  have hsilent : (taskStep K X s.settings.applied N task s.app).sent = [] := by
    refine List.eq_nil_iff_forall_not_mem.mpr fun q hq => ?_
    obtain ⟨q₀, hquery, rfl, -, hconnect⟩ := mem_sent_taskStep.mp hq
    have hsome := h i N task q₀ rfl hi hzone hquery hconnect
    rw [hnone] at hsome
    cases hsome
  obtain ⟨hrest, hrecords⟩ := taskStep_of_silent hasks hsilent
  unfold SecondarySystem.sends SecondarySystem.after
  rw [next_resume hi]
  refine ⟨hsilent, ?_, ?_⟩
  · dsimp only
    rw [hrest]
    exact List.append_nil _
  · exact congrArg (List.filter _) hrecords

/-- An action upholds the key of a zone exactly when the key is found where it is needed. -/
lemma upholds_iff_resolves (hkeys : TasksHaveKey zoneId keyName s) :
    Upholds K X zoneId keyName s a ↔ Resolves K X zoneId keyName s a := by
  refine ⟨fun h => resolves_of_signed hkeys h.signed, fun h => ⟨?_, ?_⟩⟩
  · exact fun q hq hzone => signed_of_resolves hkeys h hq hzone
  · rintro i N task rfl hi hzone hasks hnone
    exact ends_of_resolves h hi hzone hasks hnone

end

/-! ## Where the keys of operations come from -/

/-- The database has an entry for a zone with a key. -/
def EntryHasKey (t : Tables) (zoneId : ℕ) (tsigKey : Option Str) : Prop :=
  ∃ row ∈ t.secondaries, row.zoneId = zoneId ∧ row.tsigKey = tsigKey

section

variable {s : AppState}

/-- What a query returns. -/
lemma result_select {α : Type} {f : Tables → α} {a : α} (h : (runDb (select f)).result s = .ok a) :
    a = f s.db ∧ ((runDb (select f)).after s).db = s.db := by
  rw [result_runDb] at h
  rw [after_runDb]
  cases hres : (select f).result s.conn with
  | error e =>
    rw [hres] at h
    cases h
  | ok b =>
    rw [hres] at h
    obtain ⟨t, hf, hafter⟩ := statement_ok hres
    cases hf
    refine ⟨(Except.ok.inj h).symm, ?_⟩
    unfold select AppState.db
    rw [hafter]
    rfl

/-- The zones that the poll loop finds have the keys of their entries. -/
lemma entryHasKey_of_listSecondaries {secs : List SecondaryZone}
    (h : (runDb Db.listSecondaries).result s = .ok secs) :
    ∀ sec ∈ secs, EntryHasKey s.db sec.zoneId sec.tsigKey := by
  obtain ⟨rfl, -⟩ := result_select h
  intro sec hsec
  obtain ⟨z, -, hz⟩ := List.mem_filterMap.mp hsec
  obtain ⟨row, hrow, rfl⟩ := Option.map_eq_some_iff.mp hz
  exact ⟨row, List.mem_of_find?_eq_some hrow, by simpa using List.find?_some hrow, rfl⟩

/-- The zone of a request, with its entry, is that of the database. -/
lemma secondary?_of_zoneOf {id : ℕ} {zone : Zone × Option SecondaryRow}
    (h : (Api.zoneOf id).result s = .ok zone) :
    zone.2 = s.db.secondary? id ∧ ((Api.zoneOf id).after s).db = s.db := by
  unfold Api.zoneOf Db.zone at h ⊢
  obtain ⟨found, hfound, hzone, hafter⟩ := bind_ok h
  obtain ⟨rfl, hdb⟩ := result_select hfound
  rw [hafter]
  cases hz : s.db.zone? id with
  | none =>
    rw [hz] at hzone
    cases hzone
  | some z =>
    rw [hz] at hzone
    obtain rfl := Except.ok.inj hzone
    exact ⟨rfl, hdb⟩

/-- A zone that is to be refreshed has the key of its entry. -/
lemma entryHasKey_of_refreshTarget {id : ℕ} {target : TransferTarget}
    (h : (Api.refreshTarget id).result s = .ok target) : EntryHasKey s.db target.zoneId target.tsigKey := by
  unfold Api.refreshTarget at h
  obtain ⟨zone, hzone, h, -⟩ := bind_ok h
  obtain ⟨hentry, hdb⟩ := secondary?_of_zoneOf hzone
  cases hrow : zone.2 with
  | none =>
    rw [hrow] at h
    cases h
  | some row =>
    rw [hrow] at h
    dsimp only at h
    split at h
    · cases h
    · obtain ⟨tsigKey, hkey, hpure, -⟩ := bind_ok h
      obtain ⟨rfl, -⟩ := result_select hkey
      obtain rfl := Except.ok.inj hpure
      have hfound : s.db.secondary? id = some row := hentry.symm.trans hrow
      refine ⟨row, List.mem_of_find?_eq_some hfound, by simpa using List.find?_some hfound, ?_⟩
      rw [hdb, hfound]
      rfl

/-- The entry of a new secondary zone has its key. -/
lemma entryHasKey_of_insertSecondary {name primary : Str} {tsigKey : Option Str} {id : ℕ} {c : Conn Tables}
    (h : (Api.insertSecondary name primary tsigKey).result c = .ok id) :
    EntryHasKey ((Api.insertSecondary name primary tsigKey).after c).tables id tsigKey := by
  unfold Api.insertSecondary Db.createSecondary execute at h ⊢
  obtain ⟨i, -, h, hafter⟩ := bind_ok h
  obtain ⟨u, hinsert, hpure, hafter'⟩ := bind_ok h
  obtain rfl := Except.ok.inj hpure
  obtain ⟨t, hf, hstep⟩ := statement_ok hinsert
  rw [hafter, hafter', after_pure, hstep]
  split at hf
  · cases hf
  · cases hf
    exact ⟨_, List.mem_append_right _ (List.mem_singleton_self _), rfl, rfl⟩

/-- A new secondary zone has the key of its entry. -/
lemma entryHasKey_of_newSecondary {req : Api.SecondaryCreate} {target : TransferTarget}
    (h : (Api.newSecondary K req).result s = .ok target) :
    EntryHasKey ((Api.newSecondary K req).after s).db target.zoneId target.tsigKey := by
  unfold Api.newSecondary at h ⊢
  cases hname : canonicalZoneName K req.name with
  | error e =>
    rw [hname] at h
    cases h
  | ok name =>
    rw [hname] at h
    dsimp only at h ⊢
    cases hprimary : parsePrimary (trim req.primary) with
    | error e =>
      rw [hprimary] at h
      cases h
    | ok primary =>
      rw [hprimary] at h
      dsimp only at h ⊢
      obtain ⟨id, hid, hpure, hafter⟩ := bind_ok h
      obtain rfl := Except.ok.inj hpure
      rw [hafter, after_pure, after_runDb]
      rw [result_runDb] at hid
      cases hres : (Api.insertSecondary name (fmtSocketAddr primary) req.tsigKey).result s.conn with
      | error e =>
        rw [hres] at hid
        cases hid
      | ok i =>
        rw [hres] at hid
        obtain rfl := Except.ok.inj hid
        exact entryHasKey_of_insertSecondary hres

end

/-! ## Runs -/

section

variable {zoneId : ℕ} {keyName : Str} {s : SecondarySystem}

/-- The operations that a handler leaves to be done have the key of the zone when their own is that of the
entry. -/
lemma TasksHaveKey.start {α : Type} {m : App α} {tasks : α → List SecondaryTask} {t : Tables}
    (h : TasksHaveKey zoneId keyName s) (hconfigured : ConfiguredWith zoneId keyName t)
    (htasks : ∀ a, m.result s.app = .ok a → ∀ task ∈ tasks a, EntryHasKey t task.zoneId task.tsigKey) :
    TasksHaveKey zoneId keyName (s.start m tasks) := by
  intro task htask hzone
  unfold SecondarySystem.start at htask
  rcases List.mem_append.mp htask with hold | hnew
  · exact h task hold hzone
  · cases hres : m.result s.app with
    | error e =>
      rw [hres] at hnew
      cases hnew
    | ok a =>
      rw [hres] at hnew
      obtain ⟨row, hrow, hid, hkey⟩ := htasks a hres task hnew
      rw [← hkey]
      exact hconfigured row hrow (hid.trans hzone)

/-- The rest of an operation is for the same zone and has the same key. -/
lemma rest_taskStep {settings : Settings} {N : Network} {task rest : SecondaryTask} {app : AppState}
    (h : (taskStep K X settings N task app).rest = some rest) :
    rest.zoneId = task.zoneId ∧ rest.tsigKey = task.tsigKey := by
  cases task with
  | poll sec =>
    change (pollStep K X settings N sec app).rest = some rest at h
    rcases pollStep_cases K X settings N sec app with ⟨e, -, hstep⟩ |
      ⟨primary, -, ⟨e, -, hstep⟩ | ⟨origin, sent, -, ⟨e, -, hstep⟩ | ⟨serial, -, hstep⟩⟩⟩
    · rw [hstep] at h
      cases h
    · rw [hstep] at h
      cases h
    · rw [hstep] at h
      cases h
    · rw [hstep] at h
      split at h
      · obtain rfl := Option.some.inj h
        exact ⟨rfl, rfl⟩
      · cases h
  | transfer target noted =>
    change (transferStep K X settings N target noted app).rest = some rest at h
    rcases transferStep_cases K X settings N target noted app with ⟨e, -, hstep⟩ |
      ⟨origin, sent, -, ⟨e, -, hstep⟩ | ⟨records, -, hstep⟩⟩
    · rw [hstep] at h
      cases h
    · rw [hstep] at h
      cases h
    · rw [hstep] at h
      obtain rfl := Option.some.inj h
      exact ⟨rfl, rfl⟩
  | store target noted records => cases h

/-- Operations keep the key of their zone, as long as the zone is configured with it. -/
lemma TasksHaveKey.after {a : SecondaryAction} (h : TasksHaveKey zoneId keyName s)
    (hbefore : ConfiguredWith zoneId keyName s.app.db)
    (hafter : ConfiguredWith zoneId keyName (s.after K X a).app.db) :
    TasksHaveKey zoneId keyName (s.after K X a) := by
  cases a with
  | putSettings u => exact h
  | pollDue due =>
    refine h.start hbefore fun secs hsecs task htask => ?_
    obtain ⟨sec, hsec, rfl⟩ := List.mem_map.mp htask
    exact entryHasKey_of_listSecondaries hsecs sec (List.mem_of_mem_filter hsec)
  | createSecondary req =>
    refine h.start hafter fun target htarget task htask => ?_
    obtain rfl := List.mem_singleton.mp htask
    exact entryHasKey_of_newSecondary htarget
  | refreshSecondary id =>
    refine h.start hbefore fun target htarget task htask => ?_
    obtain rfl := List.mem_singleton.mp htask
    exact entryHasKey_of_refreshTarget htarget
  | elsewhere handler => exact h.start hbefore fun u _ task htask => absurd htask List.not_mem_nil
  | resume i N =>
    cases hi : s.tasks[i]? with
    | none =>
      change TasksHaveKey zoneId keyName (s.resume K X i N).1
      unfold SecondarySystem.resume
      rw [hi]
      exact h
    | some task =>
      unfold SecondarySystem.after
      rw [next_resume hi]
      intro task' htask' hzone
      rcases List.mem_append.mp htask' with hold | hrest
      · exact h task' (List.mem_of_mem_eraseIdx hold) hzone
      · obtain ⟨hid, hkey⟩ := rest_taskStep (Option.mem_toList.mp hrest)
        rw [hkey]
        exact h task (List.mem_of_getElem? hi) (hid.symm.trans hzone)

end

/-- In every run in which a zone is configured with a key as long as it is there, all actions uphold the key
exactly when it is found whenever an operation is about to ask for the zone. -/
theorem upholds_along_iff (K : Crates) (X : TransferCrates) (s : SecondarySystem) (hidle : s.tasks = [])
    (zoneId : ℕ) (keyName : Str) (actions : List SecondaryAction)
    (hconfigured : ∀ pre, pre <+: actions →
      ConfiguredWith zoneId keyName (pre.foldl (SecondarySystem.after K X) s).app.db) :
    (∀ pre a, pre ++ [a] <+: actions →
        Upholds K X zoneId keyName (pre.foldl (SecondarySystem.after K X) s) a) ↔
      ∀ pre a, pre ++ [a] <+: actions →
        Resolves K X zoneId keyName (pre.foldl (SecondarySystem.after K X) s) a := by
  have hinit : TasksHaveKey zoneId keyName s := by
    intro task htask
    rw [hidle] at htask
    cases htask
  have hstep : ∀ pre a, pre ++ [a] <+: actions →
      TasksHaveKey zoneId keyName (pre.foldl (SecondarySystem.after K X) s) →
      TasksHaveKey zoneId keyName ((pre ++ [a]).foldl (SecondarySystem.after K X) s) := by
    intro pre a ha hkeys
    have hafter := hconfigured (pre ++ [a]) ha
    rw [List.foldl_append] at hafter ⊢
    exact hkeys.after (hconfigured pre ((List.prefix_append pre [a]).trans ha)) hafter
  refine forall₃_congr fun pre a ha => upholds_iff_resolves ?_
  exact foldl_invariant hinit hstep ((List.prefix_append pre [a]).trans ha)

/-- The server with a key in its settings. -/
def keyedSystem : SecondarySystem :=
  ⟨freshState Tables.empty, ⟨some xferSettings, xferSettings⟩, []⟩

/-- A network with a primary that has another serial and refuses transfers. -/
def refusingNetwork : Network :=
  ⟨fun _ => .ok (), fun _ => .ok (), fun _ => .ok 7, fun _ => .error "transfer refused?"⟩

/-- The primary of `home.lan`. -/
def homePrimary : SocketAddr :=
  ⟨.v4 0xc0a80101, 53, 0⟩

/-- A secondary zone is created with the key, and its first transfer is asked for. -/
def createKeyed : List SecondaryAction :=
  [.createSecondary ⟨"home.lan", "192.168.1.1", some "xfer.key."⟩, .resume 0 refusingNetwork]

/-- Then the keys are removed from the settings, and the zone is due. -/
def removeKey : List SecondaryAction :=
  createKeyed ++ [.putSettings { tsigKeys := some [] }, .pollDue fun _ => true]

/-- The first transfer of a zone is signed with a key of the settings. -/
theorem upholds_createKeyed :
    ((createKeyed.take 1).foldl (SecondarySystem.after xferCrates xferSigners) keyedSystem).sends xferCrates
        xferSigners (.resume 0 refusingNetwork) =
      [⟨1, homePrimary, .ofPlain "home.lan", .AXFR,
        some ⟨List.replicate 32 0, "hmac-sha256", .ofPlain "xfer.key", fudge⟩⟩] ∧
    ∀ pre a, pre ++ [a] <+: createKeyed →
      Upholds xferCrates xferSigners 1 "xfer.key."
        (pre.foldl (SecondarySystem.after xferCrates xferSigners) keyedSystem) a := by
  have hstates : ∀ pre ∈ createKeyed.inits,
      (∀ row ∈ (pre.foldl (SecondarySystem.after xferCrates xferSigners) keyedSystem).app.db.secondaries,
        row.zoneId = 1 → row.tsigKey = some "xfer.key.".toList) ∧
      (tsigSigner xferCrates xferSigners
        (pre.foldl (SecondarySystem.after xferCrates xferSigners) keyedSystem).settings.applied
        "xfer.key.").isSome = true := by decide +kernel
  refine ⟨by decide +kernel, ?_⟩
  refine (upholds_along_iff xferCrates xferSigners keyedSystem rfl 1 "xfer.key." createKeyed
    fun pre hpre => (hstates pre ((List.mem_inits _ _).mpr hpre)).1).mpr ?_
  intro pre a ha i N task q _ _ _ _ _
  exact (hstates pre ((List.mem_inits _ _).mpr ((List.prefix_append pre [a]).trans ha))).2

/-- Once the key is removed, the primary is asked for the serial without a signature. -/
theorem not_upholds_removeKey :
    (∀ pre ∈ removeKey.inits, ConfiguredWith 1 "xfer.key."
      (pre.foldl (SecondarySystem.after xferCrates xferSigners) keyedSystem).app.db) ∧
    (removeKey.foldl (SecondarySystem.after xferCrates xferSigners) keyedSystem).sends xferCrates xferSigners
        (.resume 0 refusingNetwork) = [⟨1, homePrimary, .ofPlain "home.lan", .SOA, none⟩] ∧
    ¬Upholds xferCrates xferSigners 1 "xfer.key."
      (removeKey.foldl (SecondarySystem.after xferCrates xferSigners) keyedSystem)
      (.resume 0 refusingNetwork) := by
  have hsent : (removeKey.foldl (SecondarySystem.after xferCrates xferSigners) keyedSystem).sends xferCrates
      xferSigners (.resume 0 refusingNetwork) = [⟨1, homePrimary, .ofPlain "home.lan", .SOA, none⟩] := by
    decide +kernel
  refine ⟨?_, hsent, fun h => ?_⟩
  · unfold ConfiguredWith
    decide +kernel
  · obtain ⟨-, -, -, signer, -, hnone⟩ := h.signed ⟨1, homePrimary, .ofPlain "home.lan", .SOA, none⟩
      (by rw [hsent]; exact List.mem_singleton_self _) rfl
    cases hnone

end Nomina
