import Nomina.Lib.Assoc
import Nomina.Models

/-!
# The in-memory store

The query path of `store.rs`: views and zones as they are kept in memory, the choice of a view and
of a zone, the owner entry that answers a name (exact or wildcard), the split-horizon choice of
records, the lookup itself with its CNAME chase, and the zone transfer stream.
-/

namespace Nomina

open Lib

/-! ## Views -/

/-- The geographic attributes of a client that views match on. -/
structure ClientGeo where
  country : Option Str := none
  continent : Option Str := none
  asn : Option ℕ := none
deriving DecidableEq

/-- A view with its parsed networks. -/
structure ViewMatch where
  id : ℕ
  name : Str
  nets : List IpNet
  countries : List Str
  continents : List Str
  asns : List ℕ
  priority : ℤ
deriving DecidableEq

/-- `ViewMatch::matches`: by network, or by country, continent or AS number. -/
def ViewMatch.matches (v : ViewMatch) (ip : IpAddr) (geo : ClientGeo) : Bool :=
  v.nets.any (·.contains ip) ||
    geo.country.any (fun c => v.countries.any (eqIgnoreAsciiCase · c)) ||
    geo.continent.any (fun c => v.continents.any (eqIgnoreAsciiCase · c)) ||
    geo.asn.any (fun a => v.asns.contains a)

/-! ## Zones and the store -/

/-- A record ready to serve. Its data is data of its type. -/
structure StoredRecord where
  rtype : RecordType
  ttl : ℕ
  viewId : Option ℕ
  rdata : RData
  typed : rdata.recordType = rtype
deriving DecidableEq

/-- NSEC3 parameters of a signed zone. -/
structure Nsec3Params where
  salt : List UInt8
  iterations : ℕ
deriving DecidableEq

/-- The signer of a zone, given by what it is built from. -/
structure ZoneSigner where
  apex : Name
  defaultTtl : ℕ
  secret : Str
  nsec3 : Option Nsec3Params
deriving DecidableEq

/-- A zone with its records grouped by owner name (lowercase text without trailing dot). -/
structure StoredZone where
  apex : Name
  labelCount : ℕ
  soa : SOA
  soaTtl : ℕ
  records : Grouped Str StoredRecord
  signer : Option ZoneSigner
  counted : labelCount = apex.numLabels

/-- The store: views by ascending priority, zones by descending number of labels. -/
structure ZoneStore where
  views : List ViewMatch
  zones : List StoredZone
  viewsSorted : views.Pairwise (fun v w => v.priority ≤ w.priority)
  zonesSorted : zones.Pairwise (fun z w => w.labelCount ≤ z.labelCount)

variable (K : Crates)

/-- `name_key`: the lowercase text of a name without trailing dots. -/
def nameKey (n : Name) : Str :=
  toAsciiLowercase (trimEndMatches '.' (n.toText K))

/-- `ZoneStore::view_for`. -/
def ZoneStore.viewFor (s : ZoneStore) (ip : IpAddr) (geo : ClientGeo) : Option (ℕ × Str) :=
  (s.views.find? (·.matches ip geo)).map fun v => (v.id, v.name)

/-- The id of no view: `i64::MIN`. -/
def noView : ℤ := -2 ^ 63

/-- The view id a client's records are chosen for. -/
def ZoneStore.clientView (s : ZoneStore) (ip : IpAddr) (geo : ClientGeo) : ℤ :=
  match s.viewFor ip geo with
  | some (id, _) => id
  | none => noView

/-- `ZoneStore::zone_for`: the first zone whose apex is a suffix of the name. -/
def ZoneStore.zoneFor (s : ZoneStore) (qname : Name) : Option StoredZone :=
  s.zones.find? (·.apex.zoneOf qname)

/-! ## Records at a name -/

/-- Whether a record is pinned to the view `viewId`. -/
def StoredRecord.pinnedTo (r : StoredRecord) (viewId : ℤ) : Bool :=
  r.viewId.any (fun w => (w : ℤ) == viewId)

/-- `ZoneStore::resolve`: the records of a type pinned to the view or, when there are none, those
of all views. -/
def resolve (recs : List StoredRecord) (viewId : ℤ) (rtype : RecordType) : List StoredRecord :=
  let specific := recs.filter (fun r => r.rtype == rtype && r.pinnedTo viewId)
  if specific.isEmpty then recs.filter (fun r => r.rtype == rtype && r.viewId.isNone)
  else specific

/-- `ZoneStore::records_at`: the entry of the name itself, else of the nearest wildcard above. -/
def recordsAt (zone : StoredZone) (key : Str) : Option (List StoredRecord) :=
  match zone.records.lookup key with
  | some v => some v
  | none => (dotParents key).findSome? fun rest => zone.records.lookup ('*' :: '.' :: rest)

/-- The distinct types among some records, in the order of a `BTreeSet`. -/
def recordTypes (recs : List StoredRecord) : List RecordType :=
  btreeSet RecordType.code (recs.map StoredRecord.rtype)

/-! ## Lookup -/

/-- How a lookup ended. -/
inductive Outcome
  | Authoritative | NxDomain | NoData | NotAuthoritative
deriving DecidableEq

/-- The result of an authoritative lookup. -/
structure LookupResult where
  answers : List Record
  authority : List Record
  rcode : ResponseCode
  outcome : Outcome
  viewName : Option Str
deriving DecidableEq

/-- `ZoneStore::ok`. -/
def LookupResult.ok (answers : List Record) (viewName : Option Str) : LookupResult :=
  ⟨answers, [], .NoError, .Authoritative, viewName⟩

/-- `ZoneStore::nodata`. -/
def LookupResult.nodata (soa : Record) (viewName : Option Str) : LookupResult :=
  ⟨[], [soa], .NoError, .NoData, viewName⟩

/-- A stored record as an answer for `owner`. -/
def StoredRecord.toRecord (owner : Name) (r : StoredRecord) : Record :=
  ⟨owner, r.ttl, r.rdata⟩

/-- The SOA record of a zone. -/
def StoredZone.soaRecord (zone : StoredZone) : Record :=
  ⟨zone.apex, zone.soaTtl, .soa zone.soa⟩

/-- The target the chase goes on with: that of the last CNAME emitted. -/
def nextTarget (chase : List StoredRecord) : Option Name :=
  chase.foldl (fun t r => match r.rdata with
    | .cname target => some target
    | _ => t) none

/-- The CNAME loop of `lookup`, from the CNAME records `cnames` found at `current`. The counter
`remaining` is 8 less the source's `depth`: the ninth set of CNAMEs is the last one emitted. -/
def chase (zone : StoredZone) (viewId : ℤ) (qtype : RecordType) :
    (remaining : ℕ) → (current : Name) → (cnames : List StoredRecord) → List Record
  | 0, current, cnames => cnames.map (·.toRecord current)
  | remaining + 1, current, cnames =>
    cnames.map (·.toRecord current) ++
      match nextTarget cnames with
      | none => []
      | some target =>
        -- Only targets inside the same zone are followed.
        if !zone.apex.zoneOf target then []
        else match recordsAt zone (nameKey K target) with
          | none => []
          | some trecs =>
            let direct := resolve trecs viewId qtype
            if !direct.isEmpty then direct.map (·.toRecord target)
            else
              let nextc := resolve trecs viewId .CNAME
              if nextc.isEmpty then [] else chase zone viewId qtype remaining target nextc

/-- The part of `lookup` after the owner entry `recs` was found. -/
def answer (zone : StoredZone) (viewId : ℤ) (viewName : Option Str) (qname : Name)
    (qtype : RecordType) (recs : List StoredRecord) : LookupResult :=
  if qtype == .ANY then
    let answers := ((recordTypes recs).flatMap (resolve recs viewId)).map (·.toRecord qname)
    if answers.isEmpty then .nodata zone.soaRecord viewName else .ok answers viewName
  else
    let direct := resolve recs viewId qtype
    if !direct.isEmpty then .ok (direct.map (·.toRecord qname)) viewName
    else
      let cnames := resolve recs viewId .CNAME
      if !cnames.isEmpty then .ok (chase K zone viewId qtype 8 qname cnames) viewName
      else .nodata zone.soaRecord viewName

/-- The part of `lookup` after the zone was chosen. -/
def lookupIn (zone : StoredZone) (viewId : ℤ) (viewName : Option Str) (qname : Name)
    (qtype : RecordType) : LookupResult :=
  if qtype == .SOA && nameKey K qname == nameKey K zone.apex then .ok [zone.soaRecord] viewName
  else match recordsAt zone (nameKey K qname) with
    | none => ⟨[], [zone.soaRecord], .NXDomain, .NxDomain, viewName⟩
    | some recs => answer K zone viewId viewName qname qtype recs

/-- `ZoneStore::lookup`. -/
def ZoneStore.lookup (s : ZoneStore) (qname : Name) (qtype : RecordType) (client : IpAddr)
    (geo : ClientGeo) : LookupResult :=
  let viewName := (s.viewFor client geo).map Prod.snd
  match s.zoneFor qname with
  | none => ⟨[], [], .NoError, .NotAuthoritative, viewName⟩
  | some zone => lookupIn K zone (s.clientView client geo) viewName qname qtype

/-! ## Zone transfer and types present -/

/-- The records one owner entry contributes to a transfer stream; an entry whose key is not a name
contributes none. -/
def axfrEntry (viewId : ℤ) (key : Str) (recs : List StoredRecord) : List Record :=
  match K.fromUtf8 (key ++ ['.']) with
  | .error _ => []
  | .ok owner => ((recordTypes recs).flatMap (resolve recs viewId)).map (·.toRecord owner)

/-- `ZoneStore::axfr`. The map of records is iterated in some order `entries` of its entries, which
the hash map chooses. -/
def ZoneStore.axfr (s : ZoneStore) (entries : StoredZone → List (Str × List StoredRecord))
    (qname : Name) (client : IpAddr) : Option (List Record) :=
  (s.zones.find? fun z => nameKey K z.apex == nameKey K qname).map fun zone =>
    zone.soaRecord ::
      ((entries zone).flatMap fun e => axfrEntry K (s.clientView client {}) e.1 e.2) ++
      [zone.soaRecord]

/-- `ZoneStore::present_types`. -/
def ZoneStore.presentTypes (s : ZoneStore) (qname : Name) : List RecordType :=
  match s.zoneFor qname with
  | none => []
  | some zone => recordTypes ((recordsAt zone (nameKey K qname)).getD [])

/-! ## The owner entry chosen for a name -/

/-- The keys tried for a name, in order: the name itself and the wildcards above it. -/
def candidateKeys (key : Str) : List Str :=
  key :: (dotParents key).map fun rest => '*' :: '.' :: rest

/-- The key of the owner entry `recordsAt` answers from. -/
def ownerKey (zone : StoredZone) (key : Str) : Option Str :=
  (candidateKeys key).find? (fun k => decide (k ∈ zone.records))

/-- `recordsAt` gives the records of the chosen owner entry. -/
lemma recordsAt_eq (zone : StoredZone) (key : Str) :
    recordsAt zone key = (ownerKey zone key).map zone.records.at := by
  unfold recordsAt ownerKey
  rw [← findSome?_lookup]
  unfold candidateKeys
  cases h : zone.records.lookup key with
  | some v => simp [h]
  | none => simp [h, List.findSome?_map, Function.comp_def]

/-- An owner that is stored is found under its own key. -/
lemma recordsAt_of_mem {zone : StoredZone} {key : Str} (h : key ∈ zone.records) :
    recordsAt zone key = some (zone.records.at key) := by
  unfold recordsAt
  rw [lookup_eq_some_at h]

/-- What is found for a name is stored under some key. -/
lemma exists_key_of_mem_recordsAt {zone : StoredZone} {key : Str} {r : StoredRecord}
    (h : r ∈ (recordsAt zone key).getD []) : ∃ owner, r ∈ zone.records.at owner := by
  rw [recordsAt_eq] at h
  cases howner : ownerKey zone key with
  | none =>
    rw [howner] at h
    cases h
  | some owner =>
    rw [howner] at h
    exact ⟨owner, h⟩

section LookupIn

variable {K} {zone : StoredZone} {viewId : ℤ} {viewName : Option Str} {qname : Name}
  {qtype : RecordType}

/-- A lookup is one in the zone of the name. -/
lemma lookup_of_zoneFor {s : ZoneStore} (h : s.zoneFor qname = some zone) (client : IpAddr)
    (geo : ClientGeo) :
    s.lookup K qname qtype client geo =
      lookupIn K zone (s.clientView client geo) ((s.viewFor client geo).map Prod.snd) qname qtype := by
  unfold ZoneStore.lookup
  rw [h]

/-- No local zone answers for a name outside all of them. -/
lemma lookup_of_zoneFor_none {s : ZoneStore} (h : s.zoneFor qname = none) (client : IpAddr)
    (geo : ClientGeo) :
    s.lookup K qname qtype client geo =
      ⟨[], [], .NoError, .NotAuthoritative, (s.viewFor client geo).map Prod.snd⟩ := by
  unfold ZoneStore.lookup
  rw [h]

/-- The apex is asked for the SOA record of the zone. -/
lemma lookupIn_soa (h : qtype = .SOA ∧ nameKey K qname = nameKey K zone.apex) :
    lookupIn K zone viewId viewName qname qtype = .ok [zone.soaRecord] viewName := by
  unfold lookupIn
  rw [if_pos]
  rwa [Bool.and_eq_true, beq_iff_eq, beq_iff_eq]

/-- Every other question is answered from the owner entry of the name. -/
lemma lookupIn_entry (h : ¬(qtype = .SOA ∧ nameKey K qname = nameKey K zone.apex)) :
    lookupIn K zone viewId viewName qname qtype =
      (recordsAt zone (nameKey K qname)).elim
        ⟨[], [zone.soaRecord], .NXDomain, .NxDomain, viewName⟩
        (answer K zone viewId viewName qname qtype) := by
  unfold lookupIn
  rw [if_neg]
  · cases recordsAt zone (nameKey K qname) <;> rfl
  · rwa [Bool.and_eq_true, beq_iff_eq, beq_iff_eq]

/-- ANY is answered with all records chosen at the owner entry, or with NODATA. -/
lemma lookupIn_any {recs : List StoredRecord} (h : recordsAt zone (nameKey K qname) = some recs) :
    (lookupIn K zone viewId viewName qname .ANY).answers =
        ((recordTypes recs).flatMap (resolve recs viewId)).map (·.toRecord qname) ∧
      ((lookupIn K zone viewId viewName qname .ANY).answers = [] →
        (lookupIn K zone viewId viewName qname .ANY).outcome = .NoData) := by
  rw [lookupIn_entry (by simp), h, Option.elim_some]
  unfold answer
  dsimp only
  rw [if_pos (beq_self_eq_true _)]
  split
  · rename_i hempty
    exact ⟨(List.isEmpty_iff.mp hempty).symm, fun _ => rfl⟩
  · rename_i hne
    exact ⟨rfl, fun hnil => absurd (List.isEmpty_iff.mpr hnil) hne⟩

end LookupIn

/-- A found name is answered with NOERROR, authoritatively or with NODATA. -/
lemma answer_outcome {K : Crates} (zone : StoredZone) (viewId : ℤ) (viewName : Option Str)
    (qname : Name) (qtype : RecordType) (recs : List StoredRecord) :
    (answer K zone viewId viewName qname qtype recs).rcode = .NoError ∧
      ((answer K zone viewId viewName qname qtype recs).outcome = .Authoritative ∨
        (answer K zone viewId viewName qname qtype recs).outcome = .NoData) := by
  unfold answer
  dsimp only
  repeat' split
  all_goals simp [LookupResult.ok, LookupResult.nodata]

/-- The zone chosen for a name covers it, and no zone that covers it has more labels. -/
lemma zoneFor_longest {s : ZoneStore} {qname : Name} {zone : StoredZone}
    (h : s.zoneFor qname = some zone) :
    zone.apex.zoneOf qname = true ∧
      ∀ w ∈ s.zones, w.apex.zoneOf qname = true → w.labelCount ≤ zone.labelCount := by
  unfold ZoneStore.zoneFor at h
  obtain ⟨hcovers, before, after, hzones, hbefore⟩ := List.find?_eq_some_iff_append.mp h
  refine ⟨hcovers, ?_⟩
  intro w hw hwcovers
  have hsorted := s.zonesSorted
  rw [hzones] at hw hsorted
  rcases List.mem_append.mp hw with hin | hin
  · have := hbefore w hin
    simp [hwcovers] at this
  · rcases List.mem_cons.mp hin with rfl | hafter
    · exact Nat.le_refl _
    · exact List.rel_of_pairwise_cons (List.pairwise_append.mp hsorted).2.1 hafter

/-! ## A small store -/

/-- An address record. -/
def StoredRecord.ofIpv4 (viewId : Option ℕ) (ip : Ipv4Addr) : StoredRecord :=
  ⟨.A, 300, viewId, .a ip, rfl⟩

/-- The zone `home.lan` with the given records. -/
def homeLan (recs : List (Str × StoredRecord)) : StoredZone where
  apex := .ofPlain "home.lan"
  labelCount := 2
  soa := ⟨.ofPlain "home.lan", .ofPlain "hostmaster.home.lan", 1, 3600, 600, 604800, 60⟩
  soaTtl := 60
  records := collect recs
  signer := none
  counted := by decide

/-- A store with the zone `home.lan` and one view, of the clients in `10.0.0.0/8`. -/
def homeStore (recs : List (Str × StoredRecord)) : ZoneStore where
  views := [⟨1, "internal", [⟨.v4 0x0a000000, 8⟩], [], [], [], 10⟩]
  zones := [homeLan recs]
  viewsSorted := by simp
  zonesSorted := by simp

end Nomina
