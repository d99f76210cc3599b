import Nomina.Dns.Secondary

/-!
# The management API

The handlers of `web/api.rs` on views, zones, records, secondary zones, signing keys and DynDNS tokens,
with the checks they make before they write. A request that fails a check is answered with an error that names
what is wrong, and writes nothing. Authentication comes before the handlers and is not modelled.
-/

namespace Nomina

open Lib

namespace Api

variable (K : Crates)

/-! ## Checks -/

/-- A check of a field: a failure is a validation error of that field. -/
def checked {α : Type} (field : Str) : Except Str α → App Unit
  | .ok _ => pure ()
  | .error e => throw (.validation field e)

/-- A check of a field that may be absent. -/
def checkedWhen {α β : Type} (field : Str) (v : Option α) (f : α → Except Str β) : App Unit :=
  match v with
  | some a => checked field (f a)
  | none => pure ()

/-- The row that was looked up, or an error. -/
def orNotFound {α : Type} (message : Str) : Option α → App α
  | some a => pure a
  | none => throw (.notFound message)

/-- Refuse with a conflict. -/
def refuseIf (b : Bool) (message : Str) : App Unit :=
  if b then throw (.conflict message) else pure ()

/-- A view that is referred to must exist. -/
def checkView : Option ℕ → App Unit
  | none => pure ()
  | some vid => do
    let view ← runDb (Db.view vid)
    checked "view_id" (match view with
      | some _ => .ok ()
      | none => .error "view not found")

/-- The zone of a request. -/
def zoneOf (id : ℕ) : App (Zone × Option SecondaryRow) := do
  let zone ← runDb (Db.zone id)
  orNotFound "zone not found" zone

/-- The message for writes to a secondary zone. -/
def managedByTransfer : Str := "zone is a secondary; its records are managed by transfer"

/-! ## Views -/

/-- `valid_view_name`. -/
def validViewName (name : Str) : Bool :=
  !name.isEmpty && name.length ≤ 40 && name.all fun c => c.isAlphanum || c == '_' || c == '-'

/-- The check of a view name. -/
def viewName (name : Str) : Except Str Unit :=
  if validViewName name then .ok () else .error "1-40 chars, alphanumeric/_/- only"

/-- `upper`: country and continent codes in uppercase, without blanks. -/
def upper (codes : List Str) : List Str :=
  (codes.map fun c => toAsciiUppercase (trim c)).filter fun c => !c.isEmpty

/-- `validate_networks`: the first network that is none is named. -/
def validateNetworks : List Str → Except Str Unit
  | [] => .ok ()
  | n :: rest =>
    if (K.parseIpNet n).isSome then validateNetworks rest
    else .error ("invalid CIDR: ".toList ++ n)

/-- Body of a request that creates a view. -/
structure ViewCreate where
  name : Str
  networks : List Str
  priority : ℤ
  countries : List Str
  continents : List Str
  asns : List ℕ
deriving DecidableEq

/-- Body of a request that updates a view. -/
structure ViewUpdate where
  name : Option Str
  networks : Option (List Str)
  priority : Option ℤ
  countries : Option (List Str)
  continents : Option (List Str)
  asns : Option (List ℕ)
deriving DecidableEq

/-- `create_view`. -/
def createView (req : ViewCreate) : App (Option View) := do
  checked "name" (viewName req.name)
  checked "networks" (validateNetworks K req.networks)
  let id ← runDb (Db.createView req.name req.networks req.priority (upper req.countries)
    (upper req.continents) req.asns)
  reloadStore K
  runDb (Db.view id)

/-- `update_view`. The networks of the default view stay. -/
def updateView (id : ℕ) (req : ViewUpdate) : App (Option View) := do
  let found ← runDb (Db.view id)
  let existing ← orNotFound "view not found" found
  checkedWhen "name" req.name viewName
  refuseIf (req.networks.isSome && existing.isDefault) "cannot change networks of the default view"
  checkedWhen "networks" req.networks (validateNetworks K)
  runDb (Db.updateView id req.name req.networks req.priority (req.countries.map upper)
    (req.continents.map upper) req.asns)
  reloadStore K
  runDb (Db.view id)

/-- `delete_view`. -/
def deleteView (id : ℕ) : App Unit := do
  let found ← runDb (Db.view id)
  let view ← orNotFound "view not found" found
  refuseIf view.isDefault "cannot delete the default view"
  runDb (Db.deleteView id)
  reloadStore K

/-! ## Zones -/

/-- Body of a request that creates a zone. -/
structure ZoneCreate where
  name : Str
  defaultTtl : Option ℕ
  soa : Option Soa
deriving DecidableEq

/-- Body of a request that updates a zone. -/
structure ZoneUpdate where
  enabled : Option Bool
  defaultTtl : Option ℕ
  soa : Option Soa
deriving DecidableEq

/-- The database call of `create_zone`: the zone and its NS record. -/
def insertZone (name : Str) (soa : Soa) (ttl : ℕ) : Sql Tables ℕ := do
  let id ← Db.createZone name soa ttl
  let _ ← Db.createRecord id none ['@'] "NS" none soa.primaryNs
  pure id

/-- `create_zone`. -/
def createZone (req : ZoneCreate) : App (Option (Zone × Option SecondaryRow)) :=
  match canonicalZoneName K req.name with
  | .error e => throw (.validation "name" e)
  | .ok name => do
    let id ← runDb (insertZone name (req.soa.getD (.defaultFor name)) (req.defaultTtl.getD 300))
    reloadStore K
    runDb (Db.zone id)

/-- `update_zone`. -/
def updateZone (id : ℕ) (req : ZoneUpdate) : App (Option (Zone × Option SecondaryRow)) := do
  let _ ← zoneOf id
  runDb (Db.updateZone id req.enabled req.soa req.defaultTtl)
  reloadStore K
  runDb (Db.zone id)

/-- `delete_zone`. -/
def deleteZone (id : ℕ) : App Unit := do
  runDb (Db.deleteZone id)
  reloadStore K

/-- `{}` of an `i32`. -/
def fmtInt (n : ℤ) : Str :=
  if n < 0 then '-' :: Nat.toDigits 10 n.natAbs else Nat.toDigits 10 n.natAbs

/-- The directives and the SOA entry of an exported zone. -/
def exportHead (zone : Zone) : Str :=
  "$ORIGIN ".toList ++ zone.name ++ ".\n".toList ++
  "$TTL ".toList ++ Nat.toDigits 10 zone.defaultTtl ++ "\n".toList ++
  "@\tIN\tSOA\t".toList ++ zone.soa.primaryNs ++ " ".toList ++ zone.soa.adminEmail ++ " (\n\t\t".toList ++
  Nat.toDigits 10 zone.serial ++ " ; serial\n\t\t".toList ++
  fmtInt zone.soa.refresh ++ " ; refresh\n\t\t".toList ++
  fmtInt zone.soa.retry ++ " ; retry\n\t\t".toList ++
  fmtInt zone.soa.expire ++ " ; expire\n\t\t".toList ++
  Nat.toDigits 10 zone.soa.minimum ++ " ; minimum\n\t\t)\n".toList

/-- The line of a record in an exported zone. -/
def exportLine (r : DnsRecord) : Str :=
  let owner := if r.name == ['@'] || r.name.isEmpty then ['@'] else r.name
  let ttl := match r.ttl with
    | some t => Nat.toDigits 10 t
    | none => []
  let viewComment := match r.viewId with
    | some v => "\t; view ".toList ++ Nat.toDigits 10 v
    | none => []
  let enabled := if r.enabled then [] else "; (disabled) ".toList
  enabled ++ owner ++ "\t".toList ++ ttl ++ "\tIN\t".toList ++ r.rtype ++ "\t".toList ++ r.data ++
    viewComment ++ "\n".toList

/-- The text of an exported zone. -/
def exportText (zone : Zone) (records : List DnsRecord) : Str :=
  exportHead zone ++ records.flatMap fun r => if r.rtype == "SOA".toList then [] else exportLine r

/-- `export_zone`. -/
def exportZone (id : ℕ) : App Str := do
  let zone ← zoneOf id
  let records ← runDb (Db.listRecords id)
  pure (exportText zone.1 records)

/-- Body of a request that imports a zone file. -/
structure ZoneImport where
  zonefile : Str
  replace : Bool
deriving DecidableEq

/-- `parse_zonefile`: the rows of the supported types, and the number of records skipped. -/
def parseZonefile (text : Str) (origin : Name) (zone : Str) :
    Except Str (List Db.RecordTuple × ℕ) :=
  match K.parseZonefile text origin with
  | .error e => .error ("parse error: ".toList ++ e)
  | .ok records =>
    let zoneLc := toAsciiLowercase (trimEndMatches '.' zone)
    let tuples := records.filterMap (recordTuple K zoneLc)
    .ok (tuples, records.length - tuples.length)

/-- `import_zone`: the numbers of records imported and skipped. -/
def importZone (id : ℕ) (req : ZoneImport) : App (ℕ × ℕ) := do
  let zone ← zoneOf id
  match K.fromUtf8 (zone.1.name ++ ['.']) with
  | .error e => throw (.validation "zonefile" ("bad origin: ".toList ++ e))
  | .ok origin => do
    refuseIf zone.2.isSome managedByTransfer
    match parseZonefile K req.zonefile origin zone.1.name with
    | .error e => throw (.validation "zonefile" e)
    | .ok (records, skipped) => do
      let imported ← runDb (Db.importRecords id req.replace records)
      reloadStore K
      pure (imported, skipped)

/-! ## Secondary zones -/

/-- Body of a request that creates a secondary zone. -/
structure SecondaryCreate where
  name : Str
  primary : Str
  tsigKey : Option Str
deriving DecidableEq

/-- The database call of `create_secondary`: the zone and its marker. -/
def insertSecondary (name primary : Str) (tsigKey : Option Str) : Sql Tables ℕ := do
  let id ← Db.createZone name (.defaultFor name) 300
  Db.createSecondary id primary 3600 tsigKey
  pure id

/-- The part of `create_secondary` before the first transfer. -/
def newSecondary (req : SecondaryCreate) : App TransferTarget :=
  match canonicalZoneName K req.name with
  | .error e => throw (.validation "name" e)
  | .ok name =>
    match parsePrimary (trim req.primary) with
    | .error e => throw (.validation "primary" e)
    | .ok primary => do
      let id ← runDb (insertSecondary name (fmtSocketAddr primary) req.tsigKey)
      pure ⟨id, name, primary, req.tsigKey⟩

/-- `create_secondary`, with the first transfer. -/
def createSecondary (fetch : Fetch) (req : SecondaryCreate) :
    App (Option (Zone × Option SecondaryRow)) := do
  let target ← newSecondary K req
  transferOrNote K fetch target
  runDb (Db.zone target.zoneId)

/-- The part of `refresh_secondary` before the transfer. -/
def refreshTarget (id : ℕ) : App TransferTarget := do
  let zone ← zoneOf id
  match zone.2 with
  | none => throw (.conflict "not a secondary zone")
  | some row =>
    match parsePrimary row.primaryAddr with
    | .error e => throw (.internal e)
    | .ok primary => do
      let tsigKey ← runDb (Db.secondary id)
      pure ⟨id, zone.1.name, primary, tsigKey⟩

/-- `refresh_secondary`. -/
def refreshSecondary (fetch : Fetch) (id : ℕ) : App (Option (Zone × Option SecondaryRow)) := do
  let target ← refreshTarget id
  let _ ← target.transfer K fetch
  runDb (Db.zone id)

/-! ## Signing keys -/

/-- `enable_dnssec`, with the secret and the salt it generates. -/
def enableDnssec (id : ℕ) (nsec3 : Bool) (secret salt : Str) : App Unit := do
  let zone ← zoneOf id
  refuseIf zone.2.isSome "cannot sign a secondary zone"
  runDb (Db.createDnssecKey ⟨id, secret, nsec3, if nsec3 then some salt else none, 0⟩)
  reloadStore K

/-- `disable_dnssec`. -/
def disableDnssec (id : ℕ) : App Unit := do
  runDb (Db.deleteDnssecKey id)
  reloadStore K

/-! ## Records -/

/-- Body of a request that creates a record. -/
structure RecordCreate where
  name : Str
  rtype : Str
  data : Str
  ttl : Option ℕ
  viewId : Option ℕ
deriving DecidableEq

/-- Body of a request that updates a record. -/
structure RecordUpdate where
  name : Option Str
  data : Option Str
  ttl : Option (Option ℕ)
  viewId : Option (Option ℕ)
  enabled : Option Bool
deriving DecidableEq

/-- The check of record data of a type. -/
def recordData (rtype : Str) (zone data : Str) : Except Str RData :=
  match parseRecordType rtype with
  | .error e => .error e
  | .ok t => parseRdata K t data zone

/-- `create_record`. -/
def createRecord (zoneId : ℕ) (req : RecordCreate) : App (Option DnsRecord) := do
  let zone ← zoneOf zoneId
  refuseIf zone.2.isSome managedByTransfer
  checked "type" (parseRecordType req.rtype)
  checked "data" (recordData K req.rtype zone.1.name req.data)
  checked "name" (recordFqdnName K req.name zone.1.name)
  checkView req.viewId
  let id ← runDb (Db.createRecord zoneId req.viewId (trim req.name)
    (toAsciiUppercase (trim req.rtype)) req.ttl (trim req.data))
  reloadStore K
  runDb (Db.record id)

/-- `update_record`. -/
def updateRecord (id : ℕ) (req : RecordUpdate) : App (Option DnsRecord) := do
  let found ← runDb (Db.record id)
  let existing ← orNotFound "record not found" found
  let zone ← zoneOf existing.zoneId
  checked "type" (parseRecordType existing.rtype)
  checkedWhen "data" req.data (recordData K existing.rtype zone.1.name)
  checkedWhen "name" req.name fun name => recordFqdnName K name zone.1.name
  checkView req.viewId.join
  runDb (Db.updateRecord id req.viewId (req.name.map trim) req.ttl (req.data.map trim) req.enabled)
  reloadStore K
  runDb (Db.record id)

/-- `delete_record`. -/
def deleteRecord (id : ℕ) : App Unit := do
  let _ ← runDb (Db.deleteRecord id)
  reloadStore K

/-! ## DynDNS tokens -/

/-- Body of a request that creates a token. -/
structure DynDnsTokenCreate where
  label : Str
  username : Str
  secret : Option Str
  hostnames : List Str
  viewId : Option ℕ
  ttl : Option ℕ
deriving DecidableEq

/-- The check of the user name of a token. -/
def tokenUsername (username : Str) : Except Str Unit :=
  if username.isEmpty || 64 < (username.map Char.utf8Size).sum || username.contains ':' then
    .error "must be 1-64 chars and contain no colon"
  else .ok ()

/-- The check of a part of a request that must not be empty. -/
def nonempty {α : Type} (l : List α) (message : Str) : Except Str Unit :=
  if l.isEmpty then .error message else .ok ()

/-- The host names of a token, folded: each must be a name in one of the zones. -/
def tokenHosts (zones : List Zone) : List Str → Except Str (List Str)
  | [] => .ok []
  | h :: rest =>
    let host := Db.foldHost (trim h)
    if host.isEmpty then tokenHosts zones rest
    else if (K.fromUtf8 (host ++ ['.'])).isOk then
      if zones.any fun z => host == Db.foldHost z.name || endsWith host ('.' :: Db.foldHost z.name) then
        (tokenHosts zones rest).map (host :: ·)
      else .error ("no local zone covers ".toList ++ host)
    else .error ("invalid hostname: ".toList ++ host)

/-- The answer to a new token: its id, label and user name, and the secret in plain text. -/
structure DynDnsTokenCreated where
  id : ℕ
  label : Str
  username : Str
  secret : Str
deriving DecidableEq

/-- `create_dyndns_token`, with the secret that is generated when none is given and the hash of the
secret. -/
def createDyndnsToken (generated : Str) (hashPassword : Str → Except Str Str)
    (req : DynDnsTokenCreate) : App DynDnsTokenCreated := do
  let label := trim req.label
  checked "label" (nonempty label "must not be empty")
  let username := trim req.username
  checked "username" (tokenUsername username)
  checked "hostnames" (nonempty req.hostnames "at least one hostname is required")
  let zones ← runDb Db.listZones
  match tokenHosts K zones req.hostnames with
  | .error e => throw (.validation "hostnames" e)
  | .ok hostnames => do
    checked "hostnames" (nonempty hostnames "at least one hostname is required")
    checkView req.viewId
    let existing ← runDb (Db.dyndnsAuth username)
    refuseIf existing.isSome "a token with this username already exists"
    let secret := (req.secret.filter fun s => !(trim s).isEmpty).getD generated
    match hashPassword secret with
    | .error e => throw (.internal ("password hashing failed: ".toList ++ e))
    | .ok secretHash => do
      let id ← runDb (Db.createDyndnsToken label username secretHash hostnames req.viewId
        (max (req.ttl.getD 60) 1))
      pure ⟨id, label, username, secret⟩

/-- `delete_dyndns_token`. -/
def deleteDyndnsToken (id : ℕ) : App Unit :=
  runDb (Db.deleteDyndnsToken id)

end Api

end Nomina
