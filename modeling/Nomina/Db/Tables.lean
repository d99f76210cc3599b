import Nomina.Models
import Nomina.Lib.Sql
import Mathlib.Data.List.Nodup
import Mathlib.Data.List.Sort

/-!
# The tables

The tables of the management database that the modelled functions use, with the effects of single
statements on them: inserts with their uniqueness and foreign-key checks, updates, and deletes with
their cascades. Row ids are those SQLite assigns (one more than the largest in use). JSON columns
are given by the values they hold. Creation and update timestamps, which no modelled function reads,
are left out.
-/

namespace Nomina

open Lib

/-! ## Rows -/

/-- A zone replicated from a primary. -/
structure SecondaryRow where
  zoneId : ℕ
  primaryAddr : Str
  refreshSecs : ℤ
  lastError : Option Str
  tsigKey : Option Str
deriving DecidableEq

/-- The signing key of a zone. -/
structure DnssecKey where
  zoneId : ℕ
  secret : Str
  nsec3 : Bool
  salt : Option Str
  iterations : ℕ
deriving DecidableEq

/-- DynDNS credentials. -/
structure DynDnsToken where
  id : ℕ
  label : Str
  username : Str
  secretHash : Str
  hostnames : Str
  viewId : Option ℕ
  ttl : ℕ
  enabled : Bool
  lastIp : Option Str
deriving DecidableEq

/-- Address family of a DHCP scope or lease. -/
inductive IpFamily
  | V4 | V6
deriving DecidableEq

/-- Lifecycle state of a lease. -/
inductive LeaseState
  | Offered | Active | Declined | Released | Expired
deriving DecidableEq

/-- How the value of a DHCP option is encoded. -/
inductive DhcpOptionKind
  | Ip | IpList | U8 | U16 | U32 | Bool | Text | Hex
deriving DecidableEq

/-- A DHCP option as entered. -/
structure DhcpOption where
  code : ℕ
  name : Option Str
  value : Str
  kind : DhcpOptionKind
deriving DecidableEq

/-- A DHCP address pool. -/
structure DhcpScope where
  id : ℕ
  name : Str
  enabled : Bool
  family : IpFamily
  subnet : Str
  rangeStart : Str
  rangeEnd : Str
  leaseSecs : ℕ
  dnsRegister : Bool
  dnsZone : Option Str
  serverId : Option Str
  interface : Option Str
  options : List DhcpOption
deriving DecidableEq

/-- A fixed address for a client. -/
structure DhcpReservation where
  id : ℕ
  scopeId : ℕ
  identifier : Str
  ip : Str
  hostname : Option Str
  options : List DhcpOption
deriving DecidableEq

/-- A lease. -/
structure DhcpLease where
  id : ℕ
  scopeId : ℕ
  family : IpFamily
  ip : Str
  identifier : Str
  hostname : Option Str
  startsAt : Str
  expiresAt : Str
  state : LeaseState
deriving DecidableEq

/-! ## Row ids -/

/-- The id SQLite gives a new row. -/
def freshId (ids : List ℕ) : ℕ :=
  ids.foldr max 0 + 1

/-- A new id is larger than those in use. -/
lemma lt_freshId {ids : List ℕ} {i : ℕ} (h : i ∈ ids) : i < freshId ids := by
  unfold freshId
  induction ids with
  | nil => cases h
  | cons j ids ih =>
    rcases List.mem_cons.mp h with rfl | h
    · simp only [List.foldr_cons]
      omega
    · have := ih h
      simp only [List.foldr_cons]
      omega

/-- A new id is not in use. -/
lemma freshId_notMem (ids : List ℕ) : freshId ids ∉ ids :=
  fun h => Nat.lt_irrefl _ (lt_freshId h)

/-- The ids stay unique when a row is added. -/
lemma nodup_append_freshId {ids : List ℕ} (h : ids.Nodup) : (ids ++ [freshId ids]).Nodup := by
  refine List.Nodup.append h (List.nodup_singleton _) ?_
  simpa [List.disjoint_singleton] using freshId_notMem ids

/-! ## Leases -/

/-- The leases: ids are unique, and a scope has at most one row for an address text. -/
structure LeaseTable where
  rows : List DhcpLease
  uniqueId : (rows.map DhcpLease.id).Nodup
  uniqueAddr : (rows.map fun l => (l.scopeId, l.ip)).Nodup

namespace LeaseTable

instance : EmptyCollection LeaseTable := ⟨⟨[], by simp, by simp⟩⟩

/-- The columns an upsert sets. -/
def setColumns (new l : DhcpLease) : DhcpLease :=
  { new with id := l.id, scopeId := l.scopeId, ip := l.ip }

/-- The update of an upsert: it sets the columns of the rows with the scope and address of `new`. -/
def conflictUpdate (new l : DhcpLease) : DhcpLease :=
  if l.scopeId = new.scopeId ∧ l.ip = new.ip then setColumns new l else l

/-- An upsert's update changes no key column. -/
lemma conflictUpdate_keys (new l : DhcpLease) :
    (conflictUpdate new l).id = l.id ∧ (conflictUpdate new l).scopeId = l.scopeId ∧
      (conflictUpdate new l).ip = l.ip := by
  unfold conflictUpdate setColumns
  split <;> simp

/-- `INSERT … ON CONFLICT (scope_id, ip) DO UPDATE`. The id of `new` is ignored. -/
def upsert (t : LeaseTable) (new : DhcpLease) : LeaseTable :=
  if h : (new.scopeId, new.ip) ∈ t.rows.map fun l => (l.scopeId, l.ip) then
    { rows := t.rows.map (conflictUpdate new)
      uniqueId := by
        have hid : DhcpLease.id ∘ conflictUpdate new = DhcpLease.id :=
          funext fun l => (conflictUpdate_keys new l).1
        rw [List.map_map, hid]
        exact t.uniqueId
      uniqueAddr := by
        have hkey : (fun l : DhcpLease => (l.scopeId, l.ip)) ∘ conflictUpdate new =
            fun l => (l.scopeId, l.ip) := by
          funext l
          simp [conflictUpdate_keys new l]
        rw [List.map_map, hkey]
        exact t.uniqueAddr }
  else
    { rows := t.rows ++ [{ new with id := freshId (t.rows.map DhcpLease.id) }]
      uniqueId := by
        rw [List.map_append]
        exact nodup_append_freshId t.uniqueId
      uniqueAddr := by
        rw [List.map_append]
        refine List.Nodup.append t.uniqueAddr (by simp) ?_
        simpa [List.disjoint_singleton] using h }

/-- Delete the rows that `p` does not keep. -/
def filter (t : LeaseTable) (p : DhcpLease → Bool) : LeaseTable where
  rows := t.rows.filter p
  uniqueId := t.uniqueId.sublist (List.filter_sublist.map _)
  uniqueAddr := t.uniqueAddr.sublist (List.filter_sublist.map _)

/-- An upsert leaves the rows of other addresses and other scopes as they are. -/
lemma mem_upsert_of_ne {t : LeaseTable} {new l : DhcpLease} (hl : l ∈ t.rows)
    (hne : ¬ (l.scopeId = new.scopeId ∧ l.ip = new.ip)) : l ∈ (t.upsert new).rows := by
  unfold upsert
  split
  · refine List.mem_map.mpr ⟨l, hl, ?_⟩
    unfold conflictUpdate
    rw [if_neg hne]
  · exact List.mem_append_left _ hl

/-- An upsert leaves a row with the columns of `new`. -/
lemma exists_mem_upsert (t : LeaseTable) (new : DhcpLease) :
    ∃ i, { new with id := i } ∈ (t.upsert new).rows := by
  unfold upsert
  split
  · rename_i h
    obtain ⟨l, hl, hkey⟩ := List.mem_map.mp h
    simp only [Prod.mk.injEq] at hkey
    refine ⟨l.id, List.mem_map.mpr ⟨l, hl, ?_⟩⟩
    unfold conflictUpdate setColumns
    rw [if_pos hkey, hkey.1, hkey.2]
  · exact ⟨_, List.mem_append_right _ (List.mem_singleton_self _)⟩

/-- A row after an upsert is one from before, or has the columns of `new`. -/
lemma mem_upsert {t : LeaseTable} {new l : DhcpLease} (hl : l ∈ (t.upsert new).rows) :
    l ∈ t.rows ∨ ∃ i, l = { new with id := i } := by
  unfold upsert at hl
  split at hl
  · obtain ⟨m, hm, rfl⟩ := List.mem_map.mp hl
    unfold conflictUpdate setColumns
    split
    · rename_i hkey
      exact .inr ⟨m.id, by rw [hkey.1, hkey.2]⟩
    · exact .inl hm
  · rcases List.mem_append.mp hl with hl | hl
    · exact .inl hl
    · exact .inr ⟨_, List.mem_singleton.mp hl⟩

/-- Rows with the same id are the same row. -/
lemma eq_of_id_eq {t : LeaseTable} {l l' : DhcpLease} (hl : l ∈ t.rows) (hl' : l' ∈ t.rows)
    (h : l.id = l'.id) : l = l' :=
  List.inj_on_of_nodup_map t.uniqueId hl hl' h

/-- Rows of the same scope and address are the same row. -/
lemma eq_of_addr_eq {t : LeaseTable} {l l' : DhcpLease} (hl : l ∈ t.rows) (hl' : l' ∈ t.rows)
    (hs : l.scopeId = l'.scopeId) (hip : l.ip = l'.ip) : l = l' :=
  List.inj_on_of_nodup_map t.uniqueAddr hl hl' (by simp [hs, hip])

end LeaseTable

/-! ## The database -/

/-- The contents of the database. -/
structure Tables where
  views : List View
  zones : List Zone
  records : List DnsRecord
  secondaries : List SecondaryRow
  dnssecKeys : List DnssecKey
  dyndnsTokens : List DynDnsToken
  scopes : List DhcpScope
  reservations : List DhcpReservation
  leases : LeaseTable

namespace Tables

/-- An empty database. -/
def empty : Tables := ⟨[], [], [], [], [], [], [], [], ∅⟩

/-- The row of a zone. -/
def zone? (t : Tables) (id : ℕ) : Option Zone :=
  t.zones.find? (·.id == id)

/-- The row of a record. -/
def record? (t : Tables) (id : ℕ) : Option DnsRecord :=
  t.records.find? (·.id == id)

/-- The row of a view. -/
def view? (t : Tables) (id : ℕ) : Option View :=
  t.views.find? (·.id == id)

/-- The signing key of a zone. -/
def dnssecKey? (t : Tables) (zoneId : ℕ) : Option DnssecKey :=
  t.dnssecKeys.find? (·.zoneId == zoneId)

/-- The record rows of a zone. -/
def zoneRecords (t : Tables) (zoneId : ℕ) : List DnsRecord :=
  t.records.filter (·.zoneId == zoneId)

/-- The `secondary_zones` entry of a zone. -/
def secondary? (t : Tables) (zoneId : ℕ) : Option SecondaryRow :=
  t.secondaries.find? (·.zoneId == zoneId)

/-- Whether a zone has a `secondary_zones` entry. -/
def isSecondary (t : Tables) (zoneId : ℕ) : Bool :=
  (t.secondary? zoneId).isSome

/-- Whether a nullable view reference is satisfied. -/
def viewRefOk (t : Tables) (viewId : Option ℕ) : Bool :=
  viewId.all fun v => (t.view? v).isSome

/-- `UPDATE zones SET … WHERE id = ?`. -/
def mapZone (t : Tables) (id : ℕ) (f : Zone → Zone) : Tables :=
  { t with zones := t.zones.map fun z => if z.id = id then f z else z }

/-- `UPDATE zones SET serial = serial + 1 WHERE id = ?`. -/
def bump (t : Tables) (id : ℕ) : Tables :=
  t.mapZone id fun z => { z with serial := z.serial + 1 }

/-- `UPDATE records SET … WHERE id = ?`. -/
def mapRecord (t : Tables) (id : ℕ) (f : DnsRecord → DnsRecord) : Tables :=
  { t with records := t.records.map fun r => if r.id = id then f r else r }

/-- `UPDATE views SET … WHERE id = ?`. -/
def mapView (t : Tables) (id : ℕ) (f : View → View) : Tables :=
  { t with views := t.views.map fun v => if v.id = id then f v else v }

/-- `UPDATE secondary_zones SET … WHERE zone_id = ?`. -/
def mapSecondary (t : Tables) (zoneId : ℕ) (f : SecondaryRow → SecondaryRow) : Tables :=
  { t with secondaries := t.secondaries.map fun s => if s.zoneId = zoneId then f s else s }

/-- `UPDATE dhcp_scopes SET … WHERE id = ?`. -/
def mapScope (t : Tables) (id : ℕ) (f : DhcpScope → DhcpScope) : Tables :=
  { t with scopes := t.scopes.map fun s => if s.id = id then f s else s }

/-- `INSERT INTO records`, with the foreign keys to the zone and the view checked. -/
def insertRecord (t : Tables) (r : DnsRecord) : Except DbError (ℕ × Tables) :=
  if (t.zone? r.zoneId).isSome && t.viewRefOk r.viewId then
    let id := freshId (t.records.map DnsRecord.id)
    .ok (id, { t with records := t.records ++ [{ r with id }] })
  else .error .constraint

/-- `DELETE FROM zones WHERE id = ?`, which takes the records, the secondary entry and the signing
key of the zone with it. -/
def removeZone (t : Tables) (id : ℕ) : Tables :=
  if (t.zone? id).isSome then
    { t with
      zones := t.zones.filter (·.id != id)
      records := t.records.filter (·.zoneId != id)
      secondaries := t.secondaries.filter (·.zoneId != id)
      dnssecKeys := t.dnssecKeys.filter (·.zoneId != id) }
  else t

/-- `DELETE FROM views WHERE id = ?`, which takes the records pinned to the view with it and unpins
the tokens. -/
def removeView (t : Tables) (id : ℕ) : Tables :=
  if (t.view? id).isSome then
    { t with
      views := t.views.filter (·.id != id)
      records := t.records.filter (·.viewId != some id)
      dyndnsTokens := t.dyndnsTokens.map fun k =>
        if k.viewId = some id then { k with viewId := none } else k }
  else t

/-! ### Rows after a statement -/

section Rows

variable {t : Tables} {i zoneId : ℕ}

/-- Updating the row of a zone that keeps its id. -/
lemma zone?_mapZone {f : Zone → Zone} (hf : ∀ z, (f z).id = z.id) :
    (t.mapZone zoneId f).zone? i = (t.zone? i).map fun z => if z.id = zoneId then f z else z := by
  unfold zone? mapZone
  have hid : (fun z : Zone => z.id == i) ∘ (fun z => if z.id = zoneId then f z else z) =
      fun z => z.id == i := by
    funext z
    simp only [Function.comp_apply]
    split
    · rw [hf z]
    · rfl
  rw [List.find?_map, hid]

lemma id_of_zone? {z : Zone} (h : t.zone? i = some z) : z.id = i := by
  simpa using List.find?_some h

lemma zone?_mapZone_self {f : Zone → Zone} (hf : ∀ z, (f z).id = z.id) {z : Zone}
    (h : t.zone? i = some z) : (t.mapZone i f).zone? i = some (f z) := by
  rw [zone?_mapZone hf, h, Option.map_some, if_pos (id_of_zone? h)]

/-- Updating one zone leaves the others alone. -/
lemma zone?_mapZone_of_ne {f : Zone → Zone} (hf : ∀ z, (f z).id = z.id) (hne : i ≠ zoneId) :
    (t.mapZone zoneId f).zone? i = t.zone? i := by
  rw [zone?_mapZone hf]
  cases hz : t.zone? i with
  | none => rfl
  | some z => rw [Option.map_some, if_neg fun h => hne ((id_of_zone? hz).symm.trans h)]

lemma zone?_bump_self {z : Zone} (h : t.zone? i = some z) :
    (t.bump i).zone? i = some { z with serial := z.serial + 1 } :=
  zone?_mapZone_self (f := fun z => { z with serial := z.serial + 1 }) (fun _ => rfl) h

lemma zone?_bump_of_ne (hne : i ≠ zoneId) : (t.bump zoneId).zone? i = t.zone? i :=
  zone?_mapZone_of_ne (f := fun z => { z with serial := z.serial + 1 }) (fun _ => rfl) hne

/-- The row with an id is the one that is looked up. -/
lemma eq_of_record? (hkeys : (t.records.map DnsRecord.id).Nodup) {r r' : DnsRecord}
    (h : t.record? i = some r) (hr' : r' ∈ t.records) (hid : r'.id = i) : r' = r := by
  have hr : r.id = i := by simpa using List.find?_some h
  exact List.inj_on_of_nodup_map hkeys hr' (List.mem_of_find?_eq_some h) (hid.trans hr.symm)

/-- Updating a row that is not there changes nothing. -/
lemma mapRecord_of_none {f : DnsRecord → DnsRecord} (h : t.record? i = none) :
    t.mapRecord i f = t := by
  unfold mapRecord
  have hrows : (t.records.map fun r => if r.id = i then f r else r) = t.records := by
    refine (List.map_congr_left fun r hr => ?_).trans (List.map_id _)
    have := List.find?_eq_none.mp h r hr
    rw [if_neg (by simpa using this), id]
  rw [hrows]

/-- Updating a row that keeps its id. -/
lemma record?_mapRecord {f : DnsRecord → DnsRecord} (hf : ∀ r, (f r).id = r.id) :
    (t.mapRecord i f).record? i = (t.record? i).map f := by
  unfold record? mapRecord
  have hid : (fun r : DnsRecord => r.id == i) ∘ (fun r => if r.id = i then f r else r) =
      fun r => r.id == i := by
    funext r
    simp only [Function.comp_apply]
    split
    · rw [hf r]
    · rfl
  rw [List.find?_map, hid]
  cases hr : t.records.find? (·.id == i) with
  | none => rfl
  | some r => rw [Option.map_some, Option.map_some, if_pos (by simpa using List.find?_some hr)]

/-- Updating a row that keeps its id leaves the ids alone. -/
lemma ids_mapRecord {f : DnsRecord → DnsRecord} (hf : ∀ r, (f r).id = r.id) :
    (t.mapRecord i f).records.map DnsRecord.id = t.records.map DnsRecord.id := by
  unfold mapRecord
  dsimp only
  rw [List.map_map]
  refine List.map_congr_left fun r _ => ?_
  simp only [Function.comp_apply]
  split
  · exact hf r
  · rfl

/-- Updating a row leaves the rows of other zones alone. -/
lemma zoneRecords_mapRecord_of_ne {f : DnsRecord → DnsRecord} {j : ℕ}
    (hf : ∀ r, (f r).zoneId = r.zoneId) (h : ∀ r ∈ t.records, r.id = j → r.zoneId ≠ i) :
    (t.mapRecord j f).zoneRecords i = t.zoneRecords i := by
  unfold zoneRecords mapRecord
  dsimp only
  have hzone : (fun r : DnsRecord => r.zoneId == i) ∘ (fun r => if r.id = j then f r else r) =
      fun r => r.zoneId == i := by
    funext r
    simp only [Function.comp_apply]
    split
    · rw [hf r]
    · rfl
  rw [List.filter_map, hzone]
  refine (List.map_congr_left fun r hr => ?_).trans (List.map_id _)
  obtain ⟨hr, hid⟩ := List.mem_filter.mp hr
  rw [if_neg fun hj => h r hr hj (by simpa using hid), id]

end Rows

end Tables

end Nomina
