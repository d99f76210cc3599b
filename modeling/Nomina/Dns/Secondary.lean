import Nomina.State

/-!
# Secondary zones

`dns/secondary.rs`: how the records of a zone transfer become rows, and the transfer itself, which
replaces the contents of a secondary zone, notes the success and reloads the store.
-/

namespace Nomina

open Lib

variable (K : Crates)

/-! ## Records to rows -/

/-- The name of a record relative to the folded zone name `zoneLc`; names outside the zone stay as
they are. -/
def relativeOwner (zoneLc : Str) (name : Name) : Str :=
  let f := toAsciiLowercase (trimEndMatches '.' (name.toText K))
  if f == zoneLc then ['@']
  else (stripSuffix f ('.' :: zoneLc)).getD f

/-- Whether rows of a type may be stored. -/
def isSupported (t : RecordType) : Bool :=
  (supportedRecordTypes.map RecordType.toText).contains t.toText

/-- The row of a record of a supported type. -/
def recordTuple (zoneLc : Str) (rec : Record) : Option Db.RecordTuple :=
  if isSupported rec.data.recordType then
    some (relativeOwner K zoneLc rec.name, rec.data.recordType.toText, rec.ttl, K.rdataText rec.data)
  else none

/-- The configured SOA fields and the serial of the first SOA record of a transfer. -/
def transferSoa (records : List Record) : Option (Soa × ℕ) :=
  records.findSome? fun rec =>
    match rec.data with
    | .soa d => some (⟨d.mname.toText K, d.rname.toText K, d.refresh, d.retry, d.expire, d.minimum⟩,
        d.serial)
    | _ => none

/-- The rows of a transfer. SOA records are kept with the zone. -/
def transferTuples (zoneName : Str) (records : List Record) : List Db.RecordTuple :=
  let zoneLc := toAsciiLowercase (trimEndMatches '.' zoneName)
  records.filterMap fun rec =>
    match rec.data with
    | .soa _ => none
    | _ => recordTuple K zoneLc rec

/-! ## The transfer -/

/-- `parse_primary`: `ip` or `ip:port`. -/
def parsePrimary (addr : Str) : Except Str SocketAddr :=
  match parseSocketAddr addr with
  | some a => .ok a
  | none =>
    match parseIpAddr addr with
    | some ip => .ok ⟨ip, 53, 0⟩
    | none => .error ("invalid primary address: ".toList ++ addr)

/-- The network side of a transfer: the records that the primary sends for a zone, or an error. -/
abbrev Fetch := SocketAddr → Name → Option Str → Except Str (List Record)

/-- The database side of `transfer`: replace the zone, note the success, reload. -/
def storeTransfer (zoneId : ℕ) (soa : Soa) (serial : ℕ) (tuples : List Db.RecordTuple) : App ℕ := do
  let count ← runDb (Db.replaceSecondaryZone zoneId soa serial tuples)
  runDb (Db.setSecondaryStatus zoneId none (some (max soa.refresh 60)))
  reloadStore K
  pure count

/-- `transfer`. -/
def transfer (fetch : Fetch) (zoneId : ℕ) (zoneName : Str) (primary : SocketAddr)
    (tsigKey : Option Str) : App ℕ :=
  match K.fromUtf8 (zoneName ++ ['.']) with
  | .error e => throw (.transfer e)
  | .ok origin =>
    match fetch primary origin tsigKey with
    | .error e => throw (.transfer e)
    | .ok records =>
      match transferSoa K records with
      | none => throw (.transfer "transfer contained no SOA")
      | some (soa, serial) => storeTransfer K zoneId soa serial (transferTuples K zoneName records)

/-- What is transferred: a zone, and where from. -/
structure TransferTarget where
  zoneId : ℕ
  name : Str
  primary : SocketAddr
  tsigKey : Option Str
deriving DecidableEq

/-- The transfer to a target. -/
abbrev TransferTarget.transfer (target : TransferTarget) (fetch : Fetch) : App ℕ :=
  Nomina.transfer K fetch target.zoneId target.name target.primary target.tsigKey

/-! ## Refreshing -/

/-- `record_error`, whatever comes of it. -/
def recordError (zoneId : ℕ) (message : Str) : App Unit := do
  let _ ← tryDb (Db.setSecondaryStatus zoneId (some message) none)
  pure ()

/-- A transfer whose failure is noted in the entry of the zone. -/
def transferOrNote (fetch : Fetch) (target : TransferTarget) : App Unit := do
  match ← observing (target.transfer K fetch) with
  | .ok _ => pure ()
  | .error e => recordError target.zoneId (errorText K e)

/-- A secondary zone as `list_secondaries` returns it. -/
structure SecondaryZone where
  zoneId : ℕ
  name : Str
  primaryAddr : Str
  serial : ℕ
  tsigKey : Option Str
deriving DecidableEq

/-- The network side of `soa_serial`: the serial that the primary has for a zone, or an error. -/
abbrev RemoteSerial := SocketAddr → Name → Option Str → Except Str ℕ

/-- What `poll_loop` does for a zone that is due: nothing, an error to note, a check to note, or a
transfer. -/
inductive PollAction
  | skip
  | error (message : Str)
  | upToDate
  | transfer (target : TransferTarget)
deriving DecidableEq

/-- The decision of `poll_loop` for a zone that is due. -/
def pollAction (remote : RemoteSerial) (sec : SecondaryZone) : PollAction :=
  match parsePrimary sec.primaryAddr with
  | .error e => .error e
  | .ok primary =>
    match K.fromUtf8 (sec.name ++ ['.']) with
    | .error _ => .skip
    | .ok origin =>
      match remote primary origin sec.tsigKey with
      | .error e => .error e
      | .ok serial =>
        if serial ≠ sec.serial then .transfer ⟨sec.zoneId, sec.name, primary, sec.tsigKey⟩
        else .upToDate

/-- The body of `poll_loop` for a zone that is due. -/
def pollZone (fetch : Fetch) (remote : RemoteSerial) (sec : SecondaryZone) : App Unit :=
  match pollAction K remote sec with
  | .skip => pure ()
  | .error message => recordError sec.zoneId message
  | .upToDate => do
    let _ ← tryDb (Db.setSecondaryStatus sec.zoneId none none)
    pure ()
  | .transfer target => transferOrNote K fetch target

end Nomina
