import Nomina.Db.Dns
import Nomina.Store.Lookup

/-!
# Building the store

`ZoneStore::build_from`: how the store is built from the tables. `buildFrom` gives the store that
the tables define; `load` is the program that reads them with single statements, each of which may
fail and is then taken to have returned nothing. The two agree when no statement fails.
-/

namespace Nomina

open Lib Sql

variable (K : Crates)

/-! ## Rows to stored values -/

/-- A view with its networks parsed; those that are not networks are skipped. -/
def viewMatch (v : View) : ViewMatch where
  id := v.id
  name := v.name
  nets := v.networks.filterMap K.parseIpNet
  countries := v.countries
  continents := v.continents
  asns := v.asns
  priority := v.priority

variable {K} in
/-- Parsed record data has the type it was parsed for. -/
lemma parseRdata_recordType {t : RecordType} {data zone : Str} {d : RData}
    (h : parseRdata K t data zone = .ok d) : d.recordType = t := by
  unfold parseRdata at h
  split at h
  · cases h
  · cases h
    exact K.tryFromStr_recordType ‹_›

/-- The owner key and the stored form of a record row; `none` for rows that are disabled or cannot
be parsed. -/
def storedRecord (z : Zone) (r : DnsRecord) : Option (Str × StoredRecord) :=
  if !r.enabled then none
  else match parseRecordType r.rtype with
    | .error _ => none
    | .ok rtype =>
      match h : parseRdata K rtype r.data z.name with
      | .error _ => none
      | .ok rdata =>
        match recordFqdnName K r.name z.name with
        | .error _ => none
        | .ok owner =>
          some (nameKey K owner,
            ⟨rtype, r.ttl.getD z.defaultTtl, r.viewId, rdata, parseRdata_recordType h⟩)

/-- The SOA data of a zone. -/
def zoneSoa (z : Zone) (apex : Name) : SOA where
  mname := match recordFqdnName K (trimEndMatches '.' z.soa.primaryNs) [] with
    | .ok n => n
    | .error _ => apex
  rname := match soaRname K z.soa.adminEmail with
    | .ok n => n
    | .error _ => apex
  serial := z.serial
  refresh := z.soa.refresh
  retry := z.soa.retry
  expire := z.soa.expire
  minimum := z.soa.minimum

/-- The signer of a zone with a key that loads. -/
def zoneSigner (z : Zone) (apex : Name) (key : DnssecKey) : Option ZoneSigner :=
  if K.loadsKey key.secret then
    some ⟨apex, z.defaultTtl, key.secret,
      if key.nsec3 then some ⟨(key.salt.bind K.decodeHex).getD [], key.iterations⟩ else none⟩
  else none

/-- The stored form of an enabled zone. -/
def storedZone (z : Zone) (apex : Name) (key : Option DnssecKey) (records : List DnsRecord) :
    StoredZone where
  apex := apex
  labelCount := apex.numLabels
  soa := zoneSoa K z apex
  soaTtl := max z.soa.minimum 1
  records := collect (records.filterMap (storedRecord K z))
  signer := key.bind (zoneSigner K z apex)
  counted := rfl

/-- The store of some views and zones, sorted. -/
def mkStore (views : List ViewMatch) (zones : List StoredZone) : ZoneStore where
  views := views.insertionSort fun v w => v.priority ≤ w.priority
  zones := zones.insertionSort fun z w => w.labelCount ≤ z.labelCount
  viewsSorted := by
    have : Std.Total (fun v w : ViewMatch => v.priority ≤ w.priority) :=
      ⟨fun v w => Int.le_total _ _⟩
    have : IsTrans ViewMatch (fun v w => v.priority ≤ w.priority) :=
      ⟨fun _ _ _ h h' => Int.le_trans h h'⟩
    exact List.pairwise_insertionSort _ _
  zonesSorted := by
    have : Std.Total (fun z w : StoredZone => w.labelCount ≤ z.labelCount) :=
      ⟨fun z w => Nat.le_total _ _⟩
    have : IsTrans StoredZone (fun z w => w.labelCount ≤ z.labelCount) :=
      ⟨fun _ _ _ h h' => Nat.le_trans h' h⟩
    exact List.pairwise_insertionSort _ _

/-! ## The store the tables define -/

/-- The stored form of a zone of the database; `none` for disabled zones and for zones whose name
is not a DNS name. -/
def servedZone (t : Tables) (z : Zone) : Option StoredZone :=
  if !z.enabled then none
  else match recordFqdnName K ['@'] z.name with
    | .error _ => none
    | .ok apex =>
      some (storedZone K z apex (t.dnssecKey? z.id) (Db.sortRecords (t.zoneRecords z.id)))

/-- `ZoneStore::build_from`. -/
def buildFrom (t : Tables) : ZoneStore :=
  mkStore ((Db.viewsByPriority t).map (viewMatch K)) ((Db.zonesByName t).filterMap (servedZone K t))

/-- The store depends on the views, zones, records and signing keys only. -/
lemma buildFrom_congr {t t' : Tables} (hviews : t'.views = t.views) (hzones : t'.zones = t.zones)
    (hrecords : t'.records = t.records) (hkeys : t'.dnssecKeys = t.dnssecKeys) :
    buildFrom K t' = buildFrom K t := by
  have hserved : servedZone K t' = servedZone K t := by
    unfold servedZone Tables.dnssecKey? Tables.zoneRecords
    rw [hrecords, hkeys]
  unfold buildFrom Db.viewsByPriority Db.zonesByName
  rw [hserved, hviews, hzones]

/-! ## The program that loads it -/

/-- The turn of the zone loop of `build_from`. -/
def loadZone (z : Zone) : Sql Tables (Option StoredZone) :=
  if !z.enabled then pure none
  else match recordFqdnName K ['@'] z.name with
    | .error _ => pure none
    | .ok apex => do
      let key ← unwrapOr none (Db.dnssecConfig z.id)
      let records ← unwrapOr [] (Db.listRecords z.id)
      pure (some (storedZone K z apex key records))

/-- `ZoneStore::load`. -/
def load : Sql Tables ZoneStore := do
  let views ← unwrapOr [] Db.listViews
  let zones ← unwrapOr [] Db.listZones
  let stored ← zones.mapM (loadZone K)
  pure (mkStore (views.map (viewMatch K)) (stored.filterMap id))

/-- Listing the records of a zone reads its rows. -/
lemma reads_listRecords (zoneId : ℕ) :
    Reads (Db.listRecords zoneId) (fun t => Db.sortRecords (t.zoneRecords zoneId)) := by
  unfold Db.listRecords
  refine Reads.bind (Reads.selectFirst (fun t => ((t.zone? zoneId).map Zone.name).getD []) ?_)
    fun _ => Reads.select _
  intro t name h
  rw [h]
  rfl

variable {K}

/-- Loading a zone reads its stored form. -/
lemma reads_loadZone (z : Zone) : Reads (loadZone K z) (fun t => servedZone K t z) := by
  unfold loadZone servedZone
  split
  · exact Reads.pure none
  · split
    · exact Reads.pure none
    · rename_i apex _
      exact Reads.bind (Reads.unwrapOr none (Reads.select _)) fun key =>
        Reads.bind (Reads.unwrapOr [] (reads_listRecords z.id)) fun records =>
          Reads.pure (some (storedZone K z apex key records))

/-- Loading writes nothing and, unless a statement fails, gives the store the tables define. -/
theorem reads_load : Reads (load K) (buildFrom K) := by
  unfold load
  have hread : Reads (load K) (fun t => mkStore ((Db.viewsByPriority t).map (viewMatch K))
      (((Db.zonesByName t).map (servedZone K t)).filterMap id)) :=
    Reads.bind (Reads.unwrapOr [] (Reads.select _)) fun views =>
      Reads.bind (Reads.unwrapOr [] (Reads.select _)) fun zones =>
        Reads.bind (Reads.mapM reads_loadZone zones) fun stored =>
          Reads.pure (mkStore (views.map (viewMatch K)) (stored.filterMap id))
  have hbuild : buildFrom K = fun t => mkStore ((Db.viewsByPriority t).map (viewMatch K))
      (((Db.zonesByName t).map (servedZone K t)).filterMap id) := by
    funext t
    unfold buildFrom
    rw [List.filterMap_map]
    rfl
  rw [hbuild]
  exact hread

/-- A zone that is listed is in the table. -/
lemma zone?_of_mem_zonesByName {t : Tables} {z : Zone} (hz : z ∈ Db.zonesByName t) :
    ∃ w, t.zone? z.id = some w := by
  unfold Db.zonesByName at hz
  obtain ⟨w, hw, rfl⟩ := List.mem_map.mp hz
  rw [(List.perm_insertionSort _ _).mem_iff] at hw
  have : (t.zone? w.id).isSome := by
    unfold Tables.zone?
    rw [List.find?_isSome]
    exact ⟨w, hw, by simp⟩
  exact Option.isSome_iff_exists.mp this

/-- A database that refuses nothing lists the records of a zone that exists. -/
lemma evals_listRecords {t : Tables} {zoneId : ℕ} {z : Zone} (hz : t.zone? zoneId = some z) :
    Evals (Db.listRecords zoneId) t (.ok (Db.sortRecords (t.zoneRecords zoneId))) t := by
  unfold Db.listRecords
  refine Evals.bind (Evals.selectFirst (a := z.name) ?_) (Evals.select _ t)
  rw [hz]
  rfl

/-- A database that refuses nothing loads the store the tables define. -/
theorem evals_load (t : Tables) : Evals (load K) t (.ok (buildFrom K t)) t := by
  have hzone : ∀ z ∈ Db.zonesByName t, Evals (loadZone K z) t (.ok (servedZone K t z)) t := by
    intro z hz
    obtain ⟨w, hw⟩ := zone?_of_mem_zonesByName hz
    unfold loadZone servedZone
    split
    · exact Evals.pure none t
    · split
      · exact Evals.pure none t
      · exact Evals.bind (Evals.unwrapOr none (Evals.select _ t))
          (Evals.bind (Evals.unwrapOr [] (evals_listRecords hw)) (Evals.pure _ t))
  have hload : Evals (load K) t (.ok (mkStore ((Db.viewsByPriority t).map (viewMatch K))
      (((Db.zonesByName t).map (servedZone K t)).filterMap id))) t :=
    Evals.bind (Evals.unwrapOr [] (Evals.select _ t))
      (Evals.bind (Evals.unwrapOr [] (Evals.select _ t))
        (Evals.bind (Evals.mapM hzone) (Evals.pure _ t)))
  unfold buildFrom
  rw [List.filterMap_map] at hload
  exact hload

/-! ## Zones that were built -/

section Built

variable {z : Zone} {apex : Name} {signingKey : Option DnssecKey} {rows : List DnsRecord} {key : Str}
  {t : Tables} {zone : StoredZone}

/-- The records of a built zone are those of its rows. -/
lemma mem_at_storedZone {r : StoredRecord}
    (h : r ∈ (storedZone K z apex signingKey rows).records.at key) :
    ∃ row ∈ rows, storedRecord K z row = some (key, r) := by
  unfold storedZone at h
  dsimp only at h
  rw [at_collect] at h
  obtain ⟨⟨key', r'⟩, hp, rfl⟩ := List.mem_map.mp h
  obtain ⟨hrow, hkey⟩ := List.mem_filter.mp hp
  obtain rfl : key' = key := by simpa using hkey
  exact List.mem_filterMap.mp hrow

/-- A row that is stored has a supported type. -/
lemma rtype_of_storedRecord {row : DnsRecord} {r : StoredRecord}
    (h : storedRecord K z row = some (key, r)) : r.rtype ∈ supportedRecordTypes := by
  unfold storedRecord at h
  split at h
  · cases h
  · split at h
    · cases h
    · rename_i rtype hrtype
      split at h
      · cases h
      · split at h
        · cases h
        · cases h
          unfold parseRecordType at hrtype
          dsimp only at hrtype
          split at hrtype
          · rename_i t hfind
            cases hrtype
            exact List.mem_of_find?_eq_some hfind
          · cases hrtype

/-- A key of a built zone has records. -/
lemma at_ne_nil_of_mem (h : key ∈ (storedZone K z apex signingKey rows).records) :
    (storedZone K z apex signingKey rows).records.at key ≠ [] := by
  unfold storedZone at h ⊢
  dsimp only at h ⊢
  obtain ⟨p, hp, rfl⟩ := List.mem_map.mp (mem_collect.mp h)
  rw [at_collect]
  refine List.ne_nil_of_mem (a := p.2) (List.mem_map_of_mem (List.mem_filter.mpr ⟨hp, ?_⟩))
  simp

/-- The zone of a store that was built comes from an enabled row whose name is read as its apex. -/
lemma exists_of_mem_buildFrom (h : zone ∈ (buildFrom K t).zones) :
    ∃ z ∈ Db.zonesByName t, z.enabled = true ∧ ∃ apex, recordFqdnName K ['@'] z.name = .ok apex ∧
      zone = storedZone K z apex (t.dnssecKey? z.id) (Db.sortRecords (t.zoneRecords z.id)) := by
  unfold buildFrom mkStore at h
  dsimp only at h
  rw [(List.perm_insertionSort _ _).mem_iff] at h
  obtain ⟨z, hz, hserved⟩ := List.mem_filterMap.mp h
  unfold servedZone at hserved
  split at hserved
  · cases hserved
  · rename_i henabled
    split at hserved
    · cases hserved
    · rename_i apex hapex
      cases hserved
      exact ⟨z, hz, by simpa using henabled, apex, hapex, rfl⟩

/-- The records of a store that was built are of supported types. -/
lemma rtype_of_mem_buildFrom (h : zone ∈ (buildFrom K t).zones) {r : StoredRecord}
    (hr : r ∈ zone.records.at key) : r.rtype ∈ supportedRecordTypes := by
  obtain ⟨z, -, -, apex, -, rfl⟩ := exists_of_mem_buildFrom h
  obtain ⟨row, -, hrow⟩ := mem_at_storedZone hr
  exact rtype_of_storedRecord hrow

end Built

/-- A database with the zone `home.lan` at a serial and the given records. -/
def homeTables (serial : ℕ) (records : List DnsRecord) : Tables :=
  { Tables.empty with
    zones := [⟨1, "home.lan", true, .defaultFor "home.lan", 300, serial⟩]
    records }

/-- An address record of `home.lan`. -/
def homeHost (id : ℕ) (name : Str) : DnsRecord :=
  ⟨id, 1, none, name, "A", none, "192.168.1.10", true⟩

end Nomina
