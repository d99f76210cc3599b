import Nomina.Db.Tables

/-!
# Database operations for DNS

The operations of `db.rs` on views, zones, records, DynDNS tokens, secondary zones and signing keys,
statement by statement. An operation that is not wrapped in a transaction keeps the effect of the
statements before one that fails.
-/

namespace Nomina

open Lib Sql

namespace Db

/-! ## Views -/

/-- The views by priority, then by id. -/
def viewsByPriority (t : Tables) : List View :=
  (t.views.insertionSort fun v w => v.id ≤ w.id).insertionSort fun v w => v.priority ≤ w.priority

/-- `Db::list_views`. -/
def listViews : Sql Tables (List View) :=
  select viewsByPriority

/-- `Db::view`. -/
def view (id : ℕ) : Sql Tables (Option View) :=
  select (·.view? id)

/-- `Db::create_view`. View names are unique. -/
def createView (name : Str) (networks : List Str) (priority : ℤ) (countries continents : List Str)
    (asns : List ℕ) : Sql Tables ℕ :=
  execute fun t =>
    if t.views.any (·.name == name) then .error .constraint
    else
      let id := freshId (t.views.map View.id)
      .ok (id, { t with
        views := t.views ++ [⟨id, name, networks, countries, continents, asns, priority, false⟩] })

/-- One `if let Some(..)` of an update: the statement runs when the value is given. -/
def whenSome {α : Type} (v : Option α) (f : α → Sql Tables Unit) : Sql Tables Unit :=
  match v with
  | some a => f a
  | none => pure ()

/-- `UPDATE views SET name = ?`, with the uniqueness of view names checked. -/
def setViewName (id : ℕ) (name : Str) : Sql Tables Unit :=
  execute fun t =>
    if (t.view? id).isSome && t.views.any (fun v => v.id != id && v.name == name) then
      .error .constraint
    else .ok ((), t.mapView id fun v => { v with name })

/-- `Db::update_view`. -/
def updateView (id : ℕ) (name : Option Str) (networks : Option (List Str)) (priority : Option ℤ)
    (countries continents : Option (List Str)) (asns : Option (List ℕ)) : Sql Tables Unit := do
  whenSome name (setViewName id)
  whenSome networks fun networks => update (·.mapView id fun v => { v with networks })
  whenSome priority fun priority => update (·.mapView id fun v => { v with priority })
  whenSome countries fun countries => update (·.mapView id fun v => { v with countries })
  whenSome continents fun continents => update (·.mapView id fun v => { v with continents })
  whenSome asns fun asns => update (·.mapView id fun v => { v with asns })

/-- `Db::delete_view`. -/
def deleteView (id : ℕ) : Sql Tables Unit :=
  update (·.removeView id)

/-- The row of the default view: it has all clients, and a low precedence. -/
def defaultView (id : ℕ) : View :=
  ⟨id, "default", ["0.0.0.0/0", "::/0"], [], [], [], 1000, true⟩

/-- `Db::ensure_default_view`. -/
def ensureDefaultView : Sql Tables Unit := do
  let count ← select fun t => t.views.countP View.isDefault
  if count == 0 then
    execute fun t =>
      if t.views.any (·.name == "default".toList) then .error .constraint
      else .ok ((), { t with views := t.views ++ [defaultView (freshId (t.views.map View.id))] })
  else pure ()

/-! ## Zones -/

/-- A zone row as it is read: the serial is cut to 32 bits. -/
def readZone (z : Zone) : Zone :=
  { z with serial := z.serial % 2 ^ 32 }

/-- The zones by name, as they are read. -/
def zonesByName (t : Tables) : List Zone :=
  (t.zones.insertionSort fun z w => z.name ≤ w.name).map readZone

/-- `Db::list_zones`. -/
def listZones : Sql Tables (List Zone) :=
  select zonesByName

/-- `Db::zone`, with the entry of a secondary zone joined in. -/
def zone (id : ℕ) : Sql Tables (Option (Zone × Option SecondaryRow)) :=
  select fun t => (t.zone? id).map fun z => (readZone z, t.secondary? id)

/-- `Db::create_zone`. Zone names are unique. -/
def createZone (name : Str) (soa : Soa) (defaultTtl : ℕ) : Sql Tables ℕ :=
  execute fun t =>
    if t.zones.any (·.name == name) then .error .constraint
    else
      let id := freshId (t.zones.map Zone.id)
      .ok (id, { t with zones := t.zones ++ [⟨id, name, true, soa, defaultTtl, 1⟩] })

/-- `Db::bump_serial`. -/
def bumpSerial (id : ℕ) : Sql Tables Unit :=
  update (·.bump id)

/-- `Db::update_zone`. -/
def updateZone (id : ℕ) (enabled : Option Bool) (soa : Option Soa) (defaultTtl : Option ℕ) :
    Sql Tables Unit := do
  whenSome enabled fun enabled => update (·.mapZone id fun z => { z with enabled })
  whenSome soa fun soa => update (·.mapZone id fun z => { z with soa })
  whenSome defaultTtl fun defaultTtl => update (·.mapZone id fun z => { z with defaultTtl })
  bumpSerial id

/-- `Db::delete_zone`. -/
def deleteZone (id : ℕ) : Sql Tables Unit :=
  update (·.removeZone id)

/-! ## Records -/

/-- The rows of a zone in the order they are listed: by name, then by type. -/
def sortRecords (rows : List DnsRecord) : List DnsRecord :=
  (rows.insertionSort fun r s => r.rtype ≤ s.rtype).insertionSort fun r s => r.name ≤ s.name

/-- Listing rows keeps them. -/
lemma perm_sortRecords (rows : List DnsRecord) : (sortRecords rows).Perm rows :=
  (List.perm_insertionSort _ _).trans (List.perm_insertionSort _ _)

/-- `Db::list_records`. The zone is looked up first, and its absence is an error. -/
def listRecords (zoneId : ℕ) : Sql Tables (List DnsRecord) := do
  let _ ← selectFirst fun t => (t.zone? zoneId).map Zone.name
  select fun t => sortRecords (t.zoneRecords zoneId)

/-- `Db::record`. -/
def record (id : ℕ) : Sql Tables (Option DnsRecord) := do
  let zoneId ← select fun t => (t.record? id).map DnsRecord.zoneId
  match zoneId with
  | none => pure none
  | some zoneId =>
    let _ ← selectFirst fun t => (t.zone? zoneId).map Zone.name
    select (·.record? id)

/-- `Db::create_record`. -/
def createRecord (zoneId : ℕ) (viewId : Option ℕ) (name rtype : Str) (ttl : Option ℕ)
    (data : Str) : Sql Tables ℕ := do
  let id ← execute (·.insertRecord ⟨0, zoneId, viewId, name, rtype, ttl, data, true⟩)
  bumpSerial zoneId
  pure id

/-- `UPDATE records SET view_id = ?`, with the foreign key to the view checked. -/
def setRecordView (id : ℕ) (viewId : Option ℕ) : Sql Tables Unit :=
  execute fun t =>
    if (t.record? id).isSome && !t.viewRefOk viewId then .error .constraint
    else .ok ((), t.mapRecord id fun r => { r with viewId })

/-- `Db::update_record`. -/
def updateRecord (id : ℕ) (viewId : Option (Option ℕ)) (name : Option Str)
    (ttl : Option (Option ℕ)) (data : Option Str) (enabled : Option Bool) : Sql Tables Unit := do
  whenSome viewId (setRecordView id)
  whenSome name fun name => update (·.mapRecord id fun r => { r with name })
  whenSome ttl fun ttl => update (·.mapRecord id fun r => { r with ttl })
  whenSome data fun data => update (·.mapRecord id fun r => { r with data })
  whenSome enabled fun enabled => update (·.mapRecord id fun r => { r with enabled })
  -- `updated_at`, which is not modelled.
  update fun t => t
  let zoneId ← selectFirst fun t => (t.record? id).map DnsRecord.zoneId
  bumpSerial zoneId

/-- `Db::delete_record`. -/
def deleteRecord (id : ℕ) : Sql Tables (Option ℕ) := do
  let zoneId ← select fun t => (t.record? id).map DnsRecord.zoneId
  match zoneId with
  | none => pure none
  | some zid =>
    update fun t => { t with records := t.records.filter (·.id != id) }
    bumpSerial zid
    pure (some zid)

/-- The rows that an import or a transfer inserts: name, type, TTL and data. -/
abbrev RecordTuple := Str × Str × ℕ × Str

/-- The inserts of an import or a transfer, one statement for each row; returns their number. -/
def insertRecords (zoneId : ℕ) : List RecordTuple → Sql Tables ℕ
  | [] => pure 0
  | (name, rtype, ttl, data) :: rest => do
    let _ ← execute (·.insertRecord ⟨0, zoneId, none, name, rtype, some ttl, data, true⟩)
    let count ← insertRecords zoneId rest
    pure (count + 1)

/-- `DELETE FROM records WHERE zone_id = ?`. -/
def clearRecords (zoneId : ℕ) : Sql Tables Unit :=
  update fun t => { t with records := t.records.filter (·.zoneId != zoneId) }

/-- The delete of an import that replaces the records. -/
def clearWhen (replace : Bool) (zoneId : ℕ) : Sql Tables Unit :=
  if replace then clearRecords zoneId else pure ()

/-- `Db::import_records`. -/
def importRecords (zoneId : ℕ) (replace : Bool) (records : List RecordTuple) : Sql Tables ℕ :=
  transaction do
    clearWhen replace zoneId
    let count ← insertRecords zoneId records
    bumpSerial zoneId
    pure count

/-! ## DynDNS -/

/-- Outcome of one DynDNS address update. -/
inductive DynUpdate
  | Created | Updated | Unchanged | NoZone
deriving DecidableEq

/-- A host name without trailing dots, lowercase. -/
def foldHost (s : Str) : Str :=
  toAsciiLowercase (trimEndMatches '.' s)

/-- The zone with the longest name that `host` is equal to or ends with after a dot, among the
zones `eligible` accepts; of several such zones the first. Gives its id and folded name. -/
def longestSuffixZone (eligible : Str → Bool) (host : Str) (zones : List Zone) :
    Option (ℕ × Str) :=
  zones.foldl (fun best z =>
    let zn := foldHost z.name
    if eligible zn && (host == zn || endsWith host ('.' :: zn)) &&
        best.all (fun b => b.2.length < zn.length) then some (z.id, zn) else best) none

/-- Sorting zones by name commutes with a change that keeps the names. -/
lemma map_sortZones {f : Zone → Zone} (hf : ∀ z, (f z).name = z.name) (zones : List Zone) :
    (zones.insertionSort fun z w => z.name ≤ w.name).map f =
      (zones.map f).insertionSort fun z w => z.name ≤ w.name :=
  List.map_insertionSort _ _ f zones fun z _ w _ => by rw [hf z, hf w]

/-- The choice of a zone looks at ids and names only. -/
lemma longestSuffixZone_map {f : Zone → Zone} (hf : ∀ z, (f z).id = z.id ∧ (f z).name = z.name)
    (eligible : Str → Bool) (host : Str) (zones : List Zone) :
    longestSuffixZone eligible host (zones.map f) = longestSuffixZone eligible host zones := by
  unfold longestSuffixZone
  rw [List.foldl_map]
  simp only [(hf _).1, (hf _).2]

/-- The choice of a zone is the same when the zones agree in a part that has the ids and names. -/
lemma longestSuffixZone_congr {f : Zone → Zone} (hf : ∀ z, (f z).id = z.id ∧ (f z).name = z.name)
    {t t' : Tables} (h : t'.zones.map f = t.zones.map f) (eligible : Str → Bool) (host : Str) :
    longestSuffixZone eligible host (zonesByName t') =
      longestSuffixZone eligible host (zonesByName t) := by
  have hchoice : ∀ u : Tables, longestSuffixZone eligible host (zonesByName u) =
      longestSuffixZone eligible host
        ((u.zones.map f).insertionSort fun z w => z.name ≤ w.name) := by
    intro u
    rw [← map_sortZones fun z => (hf z).2, longestSuffixZone_map hf]
    exact longestSuffixZone_map (f := readZone) (fun _ => ⟨rfl, rfl⟩) eligible host _
  rw [hchoice t', hchoice t, h]

/-- Whether the choice is among zones with this one: it is accepted, and the host is its name or ends
with it after a dot. -/
def covers (eligible : Str → Bool) (host : Str) (z : Zone) : Bool :=
  eligible (foldHost z.name) && (host == foldHost z.name || endsWith host ('.' :: foldHost z.name))

/-- The choice with one zone more. -/
lemma longestSuffixZone_concat (eligible : Str → Bool) (host : Str) (zones : List Zone) (z : Zone) :
    longestSuffixZone eligible host (zones ++ [z]) =
      if covers eligible host z &&
          (longestSuffixZone eligible host zones).all (fun b => b.2.length < (foldHost z.name).length) then
        some (z.id, foldHost z.name)
      else longestSuffixZone eligible host zones := by
  unfold longestSuffixZone
  rw [List.foldl_append]
  rfl

/-- The zone that is chosen is one that covers the host. -/
lemma exists_of_longestSuffixZone {eligible : Str → Bool} {host : Str} {zones : List Zone} {p : ℕ × Str}
    (h : longestSuffixZone eligible host zones = some p) :
    ∃ z ∈ zones, covers eligible host z = true ∧ (z.id, foldHost z.name) = p := by
  induction zones using List.reverseRecOn with
  | nil => cases h
  | append_singleton zones z ih =>
    rw [longestSuffixZone_concat] at h
    split at h
    · rename_i hz
      rw [Bool.and_eq_true] at hz
      exact ⟨z, List.mem_append_right _ (List.mem_singleton_self z), hz.1, Option.some.inj h⟩
    · obtain ⟨w, hw, hcovers, hp⟩ := ih h
      exact ⟨w, List.mem_append_left _ hw, hcovers, hp⟩

/-- A zone that covers the host is chosen, or one with a name that is as long. -/
lemma exists_longestSuffixZone {eligible : Str → Bool} {host : Str} {zones : List Zone} {z : Zone}
    (hz : z ∈ zones) (hcovers : covers eligible host z = true) :
    ∃ p, longestSuffixZone eligible host zones = some p ∧ (foldHost z.name).length ≤ p.2.length := by
  induction zones using List.reverseRecOn with
  | nil => cases hz
  | append_singleton zones w ih =>
    rw [longestSuffixZone_concat]
    rcases List.mem_append.mp hz with hz | hz
    · obtain ⟨p, hp, hlength⟩ := ih hz
      split
      · rename_i hw
        rw [hp, Bool.and_eq_true, Option.all_some, decide_eq_true_eq] at hw
        exact ⟨_, rfl, hlength.trans hw.2.le⟩
      · exact ⟨p, hp, hlength⟩
    · obtain rfl := List.mem_singleton.mp hz
      split
      · exact ⟨_, rfl, le_rfl⟩
      · rename_i hlonger
        rw [hcovers, Bool.true_and] at hlonger
        cases hbest : longestSuffixZone eligible host zones with
        | none =>
          rw [hbest] at hlonger
          exact absurd rfl hlonger
        | some p =>
          rw [hbest, Option.all_some, decide_eq_true_eq, not_lt] at hlonger
          exact ⟨p, rfl, hlonger⟩

/-- The zone that is chosen has a row. -/
lemma zone?_of_longestSuffixZone {t : Tables} {eligible : Str → Bool} {host : Str} {id : ℕ}
    {name : Str} (h : longestSuffixZone eligible host (zonesByName t) = some (id, name)) :
    ∃ z, t.zone? id = some z := by
  obtain ⟨z, hz, -, hp⟩ := exists_of_longestSuffixZone h
  obtain ⟨w, hw, rfl⟩ := List.mem_map.mp hz
  have hid : w.id = id := congrArg Prod.fst hp
  have hmem : w ∈ t.zones := (List.perm_insertionSort _ _).mem_iff.mp hw
  refine Option.isSome_iff_exists.mp ?_
  unfold Tables.zone?
  rw [List.find?_isSome]
  exact ⟨w, hmem, by simp [hid]⟩

/-- The name of `host` relative to the zone `zn` that it ends with. -/
def relativeTo (host zn : Str) : Str :=
  if host == zn then ['@'] else host.take (host.length - zn.length - 1)

/-- The type of an address record. -/
def addressType : IpAddr → Str
  | .v4 _ => "A"
  | .v6 _ => "AAAA"

/-- `Db::dyndns_set_address`. -/
def dyndnsSetAddress (hostFqdn : Str) (ip : IpAddr) (viewId : Option ℕ) (ttl : ℕ) :
    Sql Tables DynUpdate := do
  let host := foldHost (trim hostFqdn)
  let zones ← listZones
  match longestSuffixZone (fun _ => true) host zones with
  | none => pure .NoZone
  | some (zoneId, zoneName) =>
    let rel := relativeTo host zoneName
    let rtype := addressType ip
    let data := fmtIpAddr ip
    let rows ← select fun t => (t.zoneRecords zoneId).filter fun r =>
      eqIgnoreAsciiCase r.name rel && r.rtype == rtype
    match rows.find? (·.viewId == viewId) with
    | some r =>
      if r.data == data then pure .Unchanged
      else do
        updateRecord r.id none none none (some data) none
        pure .Updated
    | none => do
      let _ ← createRecord zoneId viewId rel rtype (some ttl) data
      pure .Created

/-- `split_hostnames`: the names of a stored comma-separated list. -/
def splitHostnames (csv : Str) : List Str :=
  ((split ',' csv).map fun h => foldHost (trim h)).filter fun h => !h.isEmpty

/-- `join_hostnames`: the list as it is stored. -/
def joinHostnames (hostnames : List Str) : Str :=
  join [','] ((hostnames.map fun h => foldHost (trim h)).filter fun h => !h.isEmpty)

/-- `Db::create_dyndns_token`. User names are unique. -/
def createDyndnsToken (label username secretHash : Str) (hostnames : List Str) (viewId : Option ℕ)
    (ttl : ℕ) : Sql Tables ℕ :=
  execute fun t =>
    if t.dyndnsTokens.any (·.username == username) || !t.viewRefOk viewId then .error .constraint
    else
      let id := freshId (t.dyndnsTokens.map DynDnsToken.id)
      .ok (id, { t with
        dyndnsTokens := t.dyndnsTokens ++
          [⟨id, label, username, secretHash, joinHostnames hostnames, viewId, ttl, true, none⟩] })

/-- `Db::delete_dyndns_token`. -/
def deleteDyndnsToken (id : ℕ) : Sql Tables Unit :=
  update fun t => { t with dyndnsTokens := t.dyndnsTokens.filter (·.id != id) }

/-- `Db::dyndns_auth`: a token by its user name. -/
def dyndnsAuth (username : Str) : Sql Tables (Option DynDnsToken) :=
  select fun t => t.dyndnsTokens.find? (·.username == username)

/-- `Db::touch_dyndns_token`. -/
def touchDyndnsToken (id : ℕ) (ip : Str) : Sql Tables Unit :=
  update fun t => { t with
    dyndnsTokens := t.dyndnsTokens.map fun k =>
      if k.id = id then { k with lastIp := some ip } else k }

/-! ## Signing keys -/

/-- `Db::dnssec_config`. -/
def dnssecConfig (zoneId : ℕ) : Sql Tables (Option DnssecKey) :=
  select (·.dnssecKey? zoneId)

/-- `Db::create_dnssec_key`: insert, or replace the key of the zone. -/
def createDnssecKey (key : DnssecKey) : Sql Tables Unit :=
  execute fun t =>
    if (t.zone? key.zoneId).isNone then .error .constraint
    else .ok ((), { t with
      dnssecKeys := t.dnssecKeys.filter (·.zoneId != key.zoneId) ++ [key] })

/-- `Db::delete_dnssec_key`. -/
def deleteDnssecKey (zoneId : ℕ) : Sql Tables Unit :=
  update fun t => { t with dnssecKeys := t.dnssecKeys.filter (·.zoneId != zoneId) }

/-! ## Secondary zones -/

/-- `Db::create_secondary`. -/
def createSecondary (zoneId : ℕ) (primaryAddr : Str) (refreshSecs : ℤ) (tsigKey : Option Str) :
    Sql Tables Unit :=
  execute fun t =>
    if t.isSecondary zoneId || (t.zone? zoneId).isNone then .error .constraint
    else .ok ((), { t with
      secondaries := t.secondaries ++ [⟨zoneId, primaryAddr, refreshSecs, none, tsigKey⟩] })

/-- `Db::secondary`: the TSIG key of a secondary zone. -/
def secondary (zoneId : ℕ) : Sql Tables (Option Str) :=
  select fun t => (t.secondary? zoneId).bind SecondaryRow.tsigKey

/-- `Db::set_secondary_status`. -/
def setSecondaryStatus (zoneId : ℕ) (lastError : Option Str) (refreshSecs : Option ℤ) :
    Sql Tables Unit := do
  update (·.mapSecondary zoneId fun s => { s with lastError })
  whenSome refreshSecs fun refreshSecs =>
    update (·.mapSecondary zoneId fun s => { s with refreshSecs })

/-- `Db::replace_secondary_zone`. -/
def replaceSecondaryZone (zoneId : ℕ) (soa : Soa) (serial : ℕ) (records : List RecordTuple) :
    Sql Tables ℕ :=
  transaction do
    update (·.mapZone zoneId fun z => { z with soa, serial })
    clearRecords zoneId
    insertRecords zoneId records

/-! ## Relations the operations keep

An operation keeps a relation between the tables before and after when its statements do. -/

section Keeps

variable {R : Tables → Tables → Prop} [IsPreorder Tables R]

lemma keeps_whenSome {α : Type} {v : Option α} {f : α → Sql Tables Unit}
    (h : ∀ a, Keeps R (f a)) : Keeps R (whenSome v f) := by
  cases v with
  | none => exact .pure ()
  | some a => exact h a

lemma keeps_bumpSerial {id : ℕ} (h : ∀ t, R t (t.bump id)) : Keeps R (bumpSerial id) :=
  .update h

/-- Creating a record inserts a row of the zone and bumps its serial. -/
lemma keeps_createRecord {zoneId : ℕ} {viewId : Option ℕ} {name rtype : Str} {ttl : Option ℕ}
    {data : Str}
    (hinsert : ∀ t r i t', r.zoneId = zoneId → t.insertRecord r = .ok (i, t') → R t t')
    (hbump : ∀ t, R t (t.bump zoneId)) :
    Keeps R (createRecord zoneId viewId name rtype ttl data) := by
  unfold createRecord
  refine .bind (.execute ?_) fun id => .bind (keeps_bumpSerial hbump) fun _ => .pure id
  intro t i t' h
  exact hinsert t _ i t' rfl h

/-- Updating a record changes its row and bumps a serial. -/
lemma keeps_updateRecord {id : ℕ} {viewId : Option (Option ℕ)} {name : Option Str}
    {ttl : Option (Option ℕ)} {data : Option Str} {enabled : Option Bool}
    (hrow : ∀ t f, (∀ r : DnsRecord, (f r).id = r.id ∧ (f r).zoneId = r.zoneId) →
      R t (t.mapRecord id f))
    (hbump : ∀ t zoneId, R t (t.bump zoneId)) :
    Keeps R (updateRecord id viewId name ttl data enabled) := by
  have hview : ∀ v, Keeps R (setRecordView id v) := by
    intro v
    unfold setRecordView
    refine .execute ?_
    intro t a t' h
    split at h
    · cases h
    · cases h
      exact hrow t _ fun _ => ⟨rfl, rfl⟩
  unfold updateRecord
  exact .bind (keeps_whenSome hview) fun _ =>
    .bind (keeps_whenSome fun _ => .update fun t => hrow t _ fun _ => ⟨rfl, rfl⟩) fun _ =>
    .bind (keeps_whenSome fun _ => .update fun t => hrow t _ fun _ => ⟨rfl, rfl⟩) fun _ =>
    .bind (keeps_whenSome fun _ => .update fun t => hrow t _ fun _ => ⟨rfl, rfl⟩) fun _ =>
    .bind (keeps_whenSome fun _ => .update fun t => hrow t _ fun _ => ⟨rfl, rfl⟩) fun _ =>
    .bind (.update fun t => refl_of R t) fun _ =>
    .bind (.selectFirst _) fun zoneId => keeps_bumpSerial fun t => hbump t zoneId

/-- A DynDNS update creates or updates a record. -/
lemma keeps_dyndnsSetAddress {host : Str} {ip : IpAddr} {viewId : Option ℕ} {ttl : ℕ}
    (hinsert : ∀ t r i t', t.insertRecord r = .ok (i, t') → R t t')
    (hrow : ∀ t id f, (∀ r : DnsRecord, (f r).id = r.id ∧ (f r).zoneId = r.zoneId) →
      R t (t.mapRecord id f))
    (hbump : ∀ t zoneId, R t (t.bump zoneId)) :
    Keeps R (dyndnsSetAddress host ip viewId ttl) := by
  unfold dyndnsSetAddress
  refine .bind (.select _) fun zones => ?_
  split
  · exact .pure _
  · refine .bind (.select _) fun rows => ?_
    split
    · split
      · exact .pure _
      · exact .bind (keeps_updateRecord (fun t f hf => hrow t _ f hf) hbump) fun _ => .pure _
    · exact .bind (keeps_createRecord (fun t r i t' _ h => hinsert t r i t' h)
        fun t => hbump t _) fun _ => .pure _

end Keeps

/-! ## A database that refuses nothing -/

section Evals

variable {t t' : Tables}

/-- A record that can be inserted is, and the serial of its zone is bumped. -/
lemma evals_createRecord {zoneId i : ℕ} {viewId : Option ℕ} {name rtype : Str} {ttl : Option ℕ}
    {data : Str}
    (h : t.insertRecord ⟨0, zoneId, viewId, name, rtype, ttl, data, true⟩ = .ok (i, t')) :
    Evals (createRecord zoneId viewId name rtype ttl data) t (.ok i) (t'.bump zoneId) := by
  unfold createRecord bumpSerial
  exact Evals.bind (Evals.execute h) (Evals.bind (Evals.update _ t') (Evals.pure i _))

/-- The name, type and data of the record that a DynDNS update sets. -/
lemma evals_dyndnsSetAddress_created {host zoneName : Str} {ip : IpAddr} {viewId : Option ℕ}
    {ttl zoneId i : ℕ}
    (hzone : longestSuffixZone (fun _ => true) (foldHost (trim host)) (zonesByName t) =
      some (zoneId, zoneName))
    (hrow : ((t.zoneRecords zoneId).filter fun r =>
      eqIgnoreAsciiCase r.name (relativeTo (foldHost (trim host)) zoneName) &&
        r.rtype == addressType ip).find? (·.viewId == viewId) = none)
    (hinsert : t.insertRecord ⟨0, zoneId, viewId, relativeTo (foldHost (trim host)) zoneName,
      addressType ip, some ttl, fmtIpAddr ip, true⟩ = .ok (i, t')) :
    Evals (dyndnsSetAddress host ip viewId ttl) t (.ok .Created) (t'.bump zoneId) := by
  unfold dyndnsSetAddress listZones
  refine Evals.bind (Evals.select _ t) ?_
  rw [hzone]
  refine Evals.bind (Evals.select _ t) ?_
  rw [hrow]
  exact Evals.bind (evals_createRecord hinsert) (Evals.pure _ _)

end Evals

end Db

end Nomina
