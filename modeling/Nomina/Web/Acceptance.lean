import Nomina.Dhcp.Registration
import Nomina.Dns.Printing
import Nomina.Views
import Nomina.Web.RecordBody

/-!
# What is accepted is served

The requests that write zones and records are checked before anything is stored, and the loader reads
the rows again and leaves out the ones it cannot read. The two agree on names and on types. They differ in
two places: the primary name server of a new zone becomes the data of an NS record without a check, and
record data is checked as it was sent but stored without the blanks around it.
-/

namespace Nomina

open Lib Sql

variable {K : Crates}

/-! ## Requests -/

/-- The requests that write zones and records. -/
inductive ZoneRequest
  | createZone (req : Api.ZoneCreate)
  | updateZone (id : ℕ) (req : Api.ZoneUpdate)
  | createRecord (zoneId : ℕ) (req : Api.RecordCreate)
  | updateRecord (id : ℕ) (req : Api.RecordUpdate)

/-- Data that passes the check of `create_record` and `update_record` also passes it as it is stored. -/
def StaysValid (K : Crates) (rtype zone data : Str) : Prop :=
  (Api.recordData K rtype zone data).isOk = true → (Api.recordData K rtype zone (trim data)).isOk = true

namespace ZoneRequest

/-- The handler of a request. -/
def handle (K : Crates) : ZoneRequest → App Unit
  | .createZone req => do
    let _ ← Api.createZone K req
    pure ()
  | .updateZone id req => do
    let _ ← Api.updateZone K id req
    pure ()
  | .createRecord zoneId req => do
    let _ ← Api.createRecord K zoneId req
    pure ()
  | .updateRecord id req => do
    let _ ← Api.updateRecord K id req
    pure ()

/-- The state after a request that is accepted. A request that is refused is no step. -/
def accept (K : Crates) (s : AppState) (req : ZoneRequest) : Option AppState :=
  match req.handle K s with
  | .ok _ s' => some s'
  | .error _ _ => none

/-- What the request stores as record data can be read: the primary name server of a new zone is a name,
and data that is given stays valid when the blanks around it are removed. The latter is a condition on the
parser, which the handlers rely on when they check data as it is sent and store it trimmed. -/
def StoresValid (K : Crates) (s : AppState) : ZoneRequest → Prop
  | .createZone req => ∀ name, canonicalZoneName K req.name = .ok name →
      (parseRdata K .NS (req.soa.getD (.defaultFor name)).primaryNs name).isOk = true
  | .updateZone _ _ => True
  | .createRecord zoneId req => ∀ z, s.db.zone? zoneId = some z → StaysValid K req.rtype z.name req.data
  | .updateRecord id req => ∀ data ∈ req.data, ∀ r, s.db.record? id = some r →
      ∀ z, s.db.zone? r.zoneId = some z → StaysValid K r.rtype z.name data

/-- An accepted request ran to its end. -/
lemma handle_ok {req : ZoneRequest} {s s' : AppState} (h : req.accept K s = some s') :
    (req.handle K).result s = .ok () ∧ (req.handle K).after s = s' := by
  unfold accept at h
  unfold EStateM.result EStateM.after
  cases hrun : req.handle K s with
  | ok u t =>
    rw [hrun] at h
    cases h
    exact ⟨rfl, rfl⟩
  | error e t =>
    rw [hrun] at h
    cases h

variable (K) in
/-- A request that runs to its end is accepted. -/
lemma accept_of_ok (req : ZoneRequest) (s : AppState) (h : (req.handle K).result s = .ok ()) :
    req.accept K s = some ((req.handle K).after s) := by
  unfold accept
  rw [EStateM.run_of_result h]

end ZoneRequest

/-! ## What is served -/

/-- The row of the zone is in the store that the tables define: in the zone, at the owner name, with the
type, the data, the TTL and the view of the row. -/
def InStore (K : Crates) (t : Tables) (z : Zone) (r : DnsRecord) : Prop :=
  ∃ zone ∈ (buildFrom K t).zones, servedZone K t (Db.readZone z) = some zone ∧
    ∃ owner, recordFqdnName K r.name z.name = .ok owner ∧
      ∃ stored ∈ zone.records.at (nameKey K owner),
        parseRecordType r.rtype = .ok stored.rtype ∧
        parseRdata K stored.rtype r.data z.name = .ok stored.rdata ∧
        stored.ttl = r.ttl.getD z.defaultTtl ∧ stored.viewId = r.viewId

/-- Every enabled row of every enabled zone is served. -/
def AllServed (K : Crates) (t : Tables) : Prop :=
  ∀ z ∈ t.zones, z.enabled = true → ∀ r ∈ t.records, r.zoneId = z.id → r.enabled = true → InStore K t z r

/-- The loader can read a row of a zone with the name. -/
def ReadsIn (K : Crates) (zone : Str) (r : DnsRecord) : Prop :=
  (Api.recordData K r.rtype zone r.data).isOk = true ∧ (recordFqdnName K r.name zone).isOk = true

/-- The loader can read every zone and every row, enabled or not, and rows belong to zones. -/
structure Readable (K : Crates) (t : Tables) : Prop where
  zoneKeys : (t.zones.map Zone.id).Nodup
  recordKeys : (t.records.map DnsRecord.id).Nodup
  homed : ∀ r ∈ t.records, ∃ z ∈ t.zones, z.id = r.zoneId
  apexes : ∀ z ∈ t.zones, (recordFqdnName K ['@'] z.name).isOk = true
  rows : ∀ z ∈ t.zones, ∀ r ∈ t.records, r.zoneId = z.id → ReadsIn K z.name r

/-- A check that passes has a value. -/
lemma exists_of_isOk {ε α : Type} {x : Except ε α} (h : x.isOk = true) : ∃ a, x = .ok a := by
  cases x with
  | error e => cases h
  | ok a => exact ⟨a, rfl⟩

section Loading

variable {t : Tables} {z : Zone} {r : DnsRecord}

/-- An enabled row that the loader can read is stored. -/
lemma storedRecord_of_readsIn (hr : ReadsIn K z.name r) (henabled : r.enabled = true) :
    ∃ owner, recordFqdnName K r.name z.name = .ok owner ∧
      ∃ stored, storedRecord K z r = some (nameKey K owner, stored) ∧
        parseRecordType r.rtype = .ok stored.rtype ∧
        parseRdata K stored.rtype r.data z.name = .ok stored.rdata ∧
        stored.ttl = r.ttl.getD z.defaultTtl ∧ stored.viewId = r.viewId := by
  obtain ⟨owner, howner⟩ := exists_of_isOk hr.2
  refine ⟨owner, howner, ?_⟩
  have hdata := hr.1
  unfold Api.recordData at hdata
  unfold storedRecord
  rw [henabled, if_neg (by simp)]
  cases hrtype : parseRecordType r.rtype with
  | error e =>
    rw [hrtype] at hdata
    cases hdata
  | ok rtype =>
    rw [hrtype] at hdata
    dsimp only at hdata ⊢
    split
    · rename_i heq
      rw [heq] at hdata
      cases hdata
    · rename_i rdata heq
      rw [howner]
      exact ⟨_, rfl, rfl, heq, rfl, rfl⟩

/-- A record that is stored is in the stored form of its zone. -/
lemma mem_at_storedZone_of_mem {apex : Name} {signingKey : Option DnssecKey} {rows : List DnsRecord}
    {key : Str} {stored : StoredRecord} (hr : r ∈ rows) (h : storedRecord K z r = some (key, stored)) :
    stored ∈ (storedZone K z apex signingKey rows).records.at key := by
  unfold storedZone
  dsimp only
  rw [at_collect]
  refine List.mem_map.mpr ⟨(key, stored), List.mem_filter.mpr ⟨?_, by simp⟩, rfl⟩
  exact List.mem_filterMap.mpr ⟨r, hr, h⟩

/-- When the loader can read everything, everything that is enabled is served. -/
lemma Readable.allServed (h : Readable K t) : AllServed K t := by
  intro z hz hzone r hr hid henabled
  obtain ⟨apex, hapex⟩ := exists_of_isOk (h.apexes z hz)
  obtain ⟨owner, howner, stored, hstored, hfields⟩ :=
    storedRecord_of_readsIn (z := Db.readZone z) (h.rows z hz r hr hid) henabled
  have hserved : servedZone K t (Db.readZone z) = some (storedZone K (Db.readZone z) apex
      (t.dnssecKey? z.id) (Db.sortRecords (t.zoneRecords z.id))) := by
    unfold servedZone
    have hread : recordFqdnName K ['@'] (Db.readZone z).name = .ok apex := hapex
    have hon : (Db.readZone z).enabled = true := hzone
    rw [hon, if_neg (by simp), hread]
    rfl
  refine ⟨_, ?_, hserved, owner, howner, stored, ?_, hfields⟩
  · unfold buildFrom mkStore
    dsimp only
    rw [(List.perm_insertionSort _ _).mem_iff]
    exact List.mem_filterMap.mpr ⟨_, mem_zonesByName.mpr ⟨z, hz, rfl⟩, hserved⟩
  · refine mem_at_storedZone_of_mem ?_ hstored
    rw [(Db.perm_sortRecords _).mem_iff]
    exact List.mem_filter.mpr ⟨hr, by simpa using hid⟩

end Loading

/-! ## What statements leave readable -/

section Statements

variable {t t' : Tables} {i : ℕ}

/-- Updating a zone that keeps its name. -/
lemma Readable.mapZone (h : Readable K t) {f : Zone → Zone}
    (hf : ∀ z, (f z).id = z.id ∧ (f z).name = z.name) : Readable K (t.mapZone i f) := by
  have hsame : ∀ z ∈ (t.mapZone i f).zones, ∃ w ∈ t.zones, w.id = z.id ∧ w.name = z.name := by
    intro z hz
    obtain ⟨w, hw, rfl⟩ := List.mem_map.mp hz
    refine ⟨w, hw, ?_⟩
    split
    · exact ⟨(hf w).1.symm, (hf w).2.symm⟩
    · exact ⟨rfl, rfl⟩
  have hids : (t.mapZone i f).zones.map Zone.id = t.zones.map Zone.id := by
    unfold Tables.mapZone
    dsimp only
    rw [List.map_map]
    refine List.map_congr_left fun z _ => ?_
    simp only [Function.comp_apply]
    split
    · exact (hf z).1
    · rfl
  refine ⟨by rw [hids]; exact h.zoneKeys, h.recordKeys, fun r hr => ?_, fun z hz => ?_, fun z hz r hr hid => ?_⟩
  · have hmem : r.zoneId ∈ (t.mapZone i f).zones.map Zone.id := by
      rw [hids]
      exact List.mem_map.mpr (h.homed r hr)
    exact List.mem_map.mp hmem
  · obtain ⟨w, hw, -, hname⟩ := hsame z hz
    rw [← hname]
    exact h.apexes w hw
  · obtain ⟨w, hw, hwid, hname⟩ := hsame z hz
    rw [← hname]
    exact h.rows w hw r hr (hid.trans hwid.symm)

/-- Inserting a row that the loader can read in its zone. -/
lemma Readable.insertRecord (h : Readable K t) {r : DnsRecord} (hins : t.insertRecord r = .ok (i, t'))
    (hreads : ∀ z ∈ t.zones, z.id = r.zoneId → ReadsIn K z.name r) : Readable K t' := by
  unfold Tables.insertRecord at hins
  split at hins
  · rename_i href
    cases hins
    refine ⟨h.zoneKeys, ?_, fun r' hr' => ?_, h.apexes, fun z hz r' hr' hid => ?_⟩
    · rw [List.map_append]
      exact nodup_append_freshId h.recordKeys
    · rcases List.mem_append.mp hr' with hr' | hr'
      · exact h.homed r' hr'
      · rw [List.mem_singleton.mp hr']
        obtain ⟨z, hz⟩ := Option.isSome_iff_exists.mp (Bool.and_eq_true_iff.mp href).1
        exact ⟨z, List.mem_of_find?_eq_some hz, Tables.id_of_zone? hz⟩
    · rcases List.mem_append.mp hr' with hr' | hr'
      · exact h.rows z hz r' hr' hid
      · rw [List.mem_singleton.mp hr'] at hid ⊢
        exact hreads z hz hid.symm
  · cases hins

/-- Inserting a zone whose name can be read. -/
lemma Readable.addZone (h : Readable K t) {z : Zone} (hfresh : z.id = freshId (t.zones.map Zone.id))
    (hapex : (recordFqdnName K ['@'] z.name).isOk = true) :
    Readable K { t with zones := t.zones ++ [z] } := by
  refine ⟨?_, h.recordKeys, fun r hr => ?_, fun w hw => ?_, fun w hw r hr hid => ?_⟩
  · rw [List.map_append, List.map_singleton, hfresh]
    exact nodup_append_freshId h.zoneKeys
  · obtain ⟨w, hw, hid⟩ := h.homed r hr
    exact ⟨w, List.mem_append_left _ hw, hid⟩
  · rcases List.mem_append.mp hw with hw | hw
    · exact h.apexes w hw
    · rw [List.mem_singleton.mp hw]
      exact hapex
  · rcases List.mem_append.mp hw with hw | hw
    · exact h.rows w hw r hr hid
    · -- No row belongs to a zone that was not there.
      rw [List.mem_singleton.mp hw, hfresh] at hid
      obtain ⟨v, hv, hvid⟩ := h.homed r hr
      exact absurd (hid ▸ hvid ▸ List.mem_map_of_mem hv) (freshId_notMem (t.zones.map Zone.id))

/-- Where the loader can read everything, and could read the row with the id with the name and the data
that are given. -/
def Admits (K : Crates) (i : ℕ) (name data : Option Str) (t : Tables) : Prop :=
  Readable K t ∧ ∀ z ∈ t.zones, ∀ r ∈ t.records, r.id = i → r.zoneId = z.id →
    (∀ n ∈ name, (recordFqdnName K n z.name).isOk = true) ∧
      ∀ d ∈ data, (Api.recordData K r.rtype z.name d).isOk = true

variable {name data : Option Str}

/-- Updating the row with the given name or data, or with neither. -/
lemma stays_mapRow {f : DnsRecord → DnsRecord}
    (hf : ∀ r, (f r).id = r.id ∧ (f r).zoneId = r.zoneId ∧ (f r).rtype = r.rtype)
    (hname : ∀ r, (f r).name = r.name ∨ (f r).name ∈ name)
    (hdata : ∀ r, (f r).data = r.data ∨ (f r).data ∈ data) :
    Stays (Admits K i name data) t (t.mapRecord i f) := by
  rintro ⟨h, hadmits⟩
  have hsame : ∀ r ∈ (t.mapRecord i f).records, ∃ w ∈ t.records, w.id = r.id ∧ w.zoneId = r.zoneId ∧
      w.rtype = r.rtype ∧ (r = w ∨ w.id = i ∧ r = f w) := by
    intro r hr
    obtain ⟨w, hw, rfl⟩ := List.mem_map.mp hr
    obtain ⟨hid, hzone, hrtype⟩ := hf w
    refine ⟨w, hw, ?_⟩
    split
    · rename_i hi
      exact ⟨hid.symm, hzone.symm, hrtype.symm, .inr ⟨hi, rfl⟩⟩
    · exact ⟨rfl, rfl, rfl, .inl rfl⟩
  refine ⟨⟨h.zoneKeys, ?_, fun r hr => ?_, h.apexes, fun z hz r hr hid => ?_⟩, fun z hz r hr hi hid => ?_⟩
  · rw [Tables.ids_mapRecord fun r => (hf r).1]
    exact h.recordKeys
  · obtain ⟨w, hw, -, hzone, -⟩ := hsame r hr
    rw [← hzone]
    exact h.homed w hw
  · obtain ⟨w, hw, -, hzone, -, rfl | ⟨hi, rfl⟩⟩ := hsame r hr
    · exact h.rows z hz r hw hid
    · obtain ⟨hnames, hdatas⟩ := hadmits z hz w hw hi (hzone.trans hid)
      obtain ⟨hwdata, hwname⟩ := h.rows z hz w hw (hzone.trans hid)
      constructor
      · rw [(hf w).2.2]
        rcases hdata w with hkept | hgiven
        · rw [hkept]
          exact hwdata
        · exact hdatas _ hgiven
      · rcases hname w with hkept | hgiven
        · rw [hkept]
          exact hwname
        · exact hnames _ hgiven
  · obtain ⟨w, hw, hwid, hzone, hrtype, -⟩ := hsame r hr
    rw [← hrtype]
    exact hadmits z hz w hw (hwid.trans hi) (hzone.trans hid)

/-- Updating a zone that keeps its name. -/
lemma stays_mapNamedZone {j : ℕ} {f : Zone → Zone} (hf : ∀ z, (f z).id = z.id ∧ (f z).name = z.name) :
    Stays (Admits K i name data) t (t.mapZone j f) := by
  rintro ⟨h, hadmits⟩
  refine ⟨h.mapZone hf, fun z hz r hr hi hid => ?_⟩
  obtain ⟨w, hw, rfl⟩ := List.mem_map.mp hz
  revert hid
  split
  · intro hid
    rw [(hf w).1] at hid
    rw [(hf w).2]
    exact hadmits w hw r hr hi hid
  · exact hadmits w hw r hr hi

/-- An update of a record with a name and data that can be read. -/
lemma keeps_admits_updateRecord {viewId : Option (Option ℕ)} {ttl : Option (Option ℕ)}
    {enabled : Option Bool} :
    Sql.Keeps (Stays (Admits K i name data)) (Db.updateRecord i viewId name ttl data enabled) := by
  have hview : ∀ v, Sql.Keeps (Stays (Admits K i name data)) (Db.setRecordView i v) := by
    intro v
    refine .execute fun t u t' h => ?_
    split at h
    · cases h
    · cases h
      exact stays_mapRow (fun _ => ⟨rfl, rfl, rfl⟩) (fun _ => .inl rfl) fun _ => .inl rfl
  have hname : Sql.Keeps (Stays (Admits K i name data))
      (Db.whenSome name fun name => update (·.mapRecord i fun r => { r with name })) := by
    cases name with
    | none => exact .pure ()
    | some n =>
      exact .update fun t => stays_mapRow (fun _ => ⟨rfl, rfl, rfl⟩) (fun _ => .inr rfl) fun _ => .inl rfl
  have hdata : Sql.Keeps (Stays (Admits K i name data))
      (Db.whenSome data fun data => update (·.mapRecord i fun r => { r with data })) := by
    cases data with
    | none => exact .pure ()
    | some d =>
      exact .update fun t => stays_mapRow (fun _ => ⟨rfl, rfl, rfl⟩) (fun _ => .inl rfl) fun _ => .inr rfl
  unfold Db.updateRecord
  exact .bind (Db.keeps_whenSome hview) fun _ => .bind hname fun _ =>
    .bind (Db.keeps_whenSome fun _ => .update fun t =>
      stays_mapRow (fun _ => ⟨rfl, rfl, rfl⟩) (fun _ => .inl rfl) fun _ => .inl rfl) fun _ =>
    .bind hdata fun _ =>
    .bind (Db.keeps_whenSome fun _ => .update fun t =>
      stays_mapRow (fun _ => ⟨rfl, rfl, rfl⟩) (fun _ => .inl rfl) fun _ => .inl rfl) fun _ =>
    .bind (.update fun t => refl_of (Stays (Admits K i name data)) t) fun _ =>
    .bind (.selectFirst _) fun zoneId =>
      .update fun t => stays_mapNamedZone (fun _ => ⟨rfl, rfl⟩)

/-- An update of a zone. -/
lemma keeps_readable_updateZone {enabled : Option Bool} {soa : Option Soa} {defaultTtl : Option ℕ} :
    Sql.Keeps (Stays (Readable K)) (Db.updateZone i enabled soa defaultTtl) :=
  .bind (Db.keeps_whenSome fun _ => .update fun _ h => h.mapZone fun _ => ⟨rfl, rfl⟩) fun _ =>
    .bind (Db.keeps_whenSome fun _ => .update fun _ h => h.mapZone fun _ => ⟨rfl, rfl⟩) fun _ =>
    .bind (Db.keeps_whenSome fun _ => .update fun _ h => h.mapZone fun _ => ⟨rfl, rfl⟩) fun _ =>
    .update fun _ h => h.mapZone fun _ => ⟨rfl, rfl⟩

end Statements

/-! ## What accepted requests leave readable -/

/-- The name of a zone that is created is read as its apex. -/
lemma apex_of_canonicalZoneName {raw name : Str} (h : canonicalZoneName K raw = .ok name) :
    (recordFqdnName K ['@'] name).isOk = true := by
  have hat : trimEndMatches '.' (trim ['@']) = ['@'] := by decide
  unfold canonicalZoneName at h
  dsimp only at h
  split at h
  · cases h
  · split at h
    · cases h
    · rename_i apex hapex
      cases h
      unfold recordFqdnName
      dsimp only
      rw [hat]
      simp only [beq_self_eq_true, Bool.or_true, if_true, hapex]
      rfl

/-- Names are read without regard to the blanks around them. -/
lemma recordFqdnName_trim (name zone : Str) : recordFqdnName K (trim name) zone = recordFqdnName K name zone := by
  unfold recordFqdnName
  rw [trim_trim]

/-- The type of a record is read as it is stored. -/
lemma recordData_stored {rtype : Str} (h : (parseRecordType rtype).isOk = true) (zone data : Str) :
    Api.recordData K (toAsciiUppercase (trim rtype)) zone data = Api.recordData K rtype zone data := by
  obtain ⟨t, ht⟩ := exists_of_isOk h
  have hstored : parseRecordType (toAsciiUppercase (trim rtype)) = .ok t := by
    unfold parseRecordType at ht
    dsimp only at ht
    split at ht
    · rename_i t' hfind
      cases ht
      have htext := List.find?_some hfind
      rw [beq_iff_eq] at htext
      rw [← htext]
      exact parseRecordType_toText (List.mem_of_find?_eq_some hfind)
    · cases ht
  unfold Api.recordData
  rw [ht, hstored]

namespace Api

section Steps

variable {s : AppState}

/-- The rows of a new zone. -/
lemma readable_insertZone {c : Conn Tables} {name : Str} {soa : Soa} {ttl id : ℕ}
    (h : Readable K c.tables) (hapex : (recordFqdnName K ['@'] name).isOk = true)
    (hns : (parseRdata K .NS soa.primaryNs name).isOk = true)
    (hok : (insertZone name soa ttl).result c = .ok id) :
    Readable K ((insertZone name soa ttl).after c).tables := by
  unfold insertZone Db.createZone execute at hok ⊢
  obtain ⟨zoneId, hzone, hok, hafter⟩ := EStateM.bind_ok hok
  obtain ⟨i, hrecord, -, hafter'⟩ := EStateM.bind_ok hok
  rw [hafter, hafter', EStateM.after_pure]
  obtain ⟨t, hinsert, hstep⟩ := statement_ok hzone
  obtain ⟨t', hins, hbump⟩ := createRecord_ok hrecord
  rw [hbump]
  rw [hstep] at hins
  change t.insertRecord _ = _ at hins
  split at hinsert
  · cases hinsert
  · cases hinsert
    have hadded := h.addZone (z := ⟨freshId (c.tables.zones.map Zone.id), name, true, soa, ttl, 1⟩) rfl hapex
    refine (hadded.insertRecord hins fun z hz hid => ?_).mapZone fun _ => ⟨rfl, rfl⟩
    have hname : z.name = name := by
      have heq := List.inj_on_of_nodup_map hadded.zoneKeys hz
        (List.mem_append_right _ (List.mem_singleton_self _)) hid
      rw [heq]
    rw [hname]
    exact ⟨hns, hapex⟩

lemma readable_createZone {req : ZoneCreate} {out : Option (Zone × Option SecondaryRow)}
    (h : Readable K s.db) (hvalid : (ZoneRequest.createZone req).StoresValid K s)
    (hok : (createZone K req).result s = .ok out) : Readable K ((createZone K req).after s).db := by
  unfold createZone at hok ⊢
  cases hname : canonicalZoneName K req.name with
  | error e =>
    rw [hname] at hok
    cases hok
  | ok name =>
    rw [hname] at hok
    dsimp only at hok ⊢
    have hrest : ∀ id, KeepsDb SameTables (reloadStore K >>= fun _ => runDb (Db.zone id)) :=
      fun _ => .bind (.reloadStore K) fun _ => .runDb (Frame.select _)
    obtain ⟨id, hrun, hdb⟩ := db_of_call hrest hok
    rw [hdb]
    exact readable_insertZone h (apex_of_canonicalZoneName hname) (hvalid name hname) hrun

lemma readable_updateZone {id : ℕ} {req : ZoneUpdate} (h : Readable K s.db) :
    Readable K ((updateZone K id req).after s).db :=
  keeps_updateZone (Q := fun c c' => Stays (Readable K) c.tables c'.tables) keeps_readable_updateZone s h

lemma readable_createRecord {zoneId : ℕ} {req : RecordCreate} {out : Option DnsRecord}
    (h : Readable K s.db) (hvalid : (ZoneRequest.createRecord zoneId req).StoresValid K s)
    (hok : (createRecord K zoneId req).result s = .ok out) :
    Readable K ((createRecord K zoneId req).after s).db := by
  unfold createRecord at hok ⊢
  obtain ⟨zone, s₁, hzone, hdb₁, hok, hafter⟩ := ok_of_idle_bind (keeps_zoneOf zoneId) hok
  rw [hafter]
  obtain ⟨_, s₂, -, hdb₂, hok, hafter⟩ := ok_of_idle_bind (keeps_refuseIf _ _) hok
  rw [hafter]
  obtain ⟨_, s₃, htype, hdb₃, hok, hafter⟩ := ok_of_idle_bind (keeps_checked _ _) hok
  rw [hafter]
  obtain ⟨_, s₄, hdata, hdb₄, hok, hafter⟩ := ok_of_idle_bind (keeps_checked _ _) hok
  rw [hafter]
  obtain ⟨_, s₅, hname, hdb₅, hok, hafter⟩ := ok_of_idle_bind (keeps_checked _ _) hok
  rw [hafter]
  obtain ⟨_, s₆, -, hdb₆, hok, hafter⟩ := ok_of_idle_bind (keeps_checkView _) hok
  rw [hafter]
  have hdb : s₆.db = s.db := by
    rw [hdb₆, hdb₅, hdb₄, hdb₃, hdb₂, hdb₁]
  obtain ⟨z, hz, hread⟩ := zone?_of_zoneOf hzone
  rw [hread] at hdata hname
  obtain ⟨id, hrun, hwritten⟩ := db_of_call
    (fun _ => .bind (.reloadStore K) fun _ => .runDb (keeps_record _)) hok
  rw [hwritten]
  obtain ⟨t, hins, hbump⟩ := createRecord_ok hrun
  rw [hbump]
  have hs₆ : Readable K s₆.conn.tables := by
    rw [show s₆.conn.tables = s.db from hdb]
    exact h
  refine (hs₆.insertRecord hins fun w hw hid => ?_).mapZone fun _ => ⟨rfl, rfl⟩
  -- The zone of the row is the one that the checks looked at.
  have hwz : w = z := by
    rw [show s₆.conn.tables = s.db from hdb] at hw
    exact List.inj_on_of_nodup_map h.zoneKeys hw (List.mem_of_find?_eq_some hz)
      (hid.trans (Tables.id_of_zone? hz).symm)
  rw [hwz]
  refine ⟨?_, ?_⟩
  · dsimp only
    rw [recordData_stored (isOk_of_checked htype)]
    exact hvalid z hz (isOk_of_checked hdata)
  · dsimp only
    rw [recordFqdnName_trim]
    exact isOk_of_checked hname

lemma readable_updateRecord {id : ℕ} {req : RecordUpdate} {out : Option DnsRecord}
    (h : Readable K s.db) (hvalid : (ZoneRequest.updateRecord id req).StoresValid K s)
    (hok : (updateRecord K id req).result s = .ok out) :
    Readable K ((updateRecord K id req).after s).db := by
  obtain ⟨existing, z, hr, hz, hdata, hname, c, htables, -, hdb⟩ := updateRecord_ok hok
  rw [hdb]
  refine (keeps_admits_updateRecord (K := K) c ?_).1
  rw [htables]
  refine ⟨h, fun w hw r hr' hid hzoneId => ?_⟩
  -- The row and its zone are those that the checks looked at.
  obtain rfl := Tables.eq_of_record? h.recordKeys hr hr' hid
  obtain rfl : w = z := List.inj_on_of_nodup_map h.zoneKeys hw (List.mem_of_find?_eq_some hz)
    (hzoneId.symm.trans (Tables.id_of_zone? hz).symm)
  constructor
  · intro n hn
    obtain ⟨given, hgiven, rfl⟩ := Option.mem_map.mp hn
    rw [recordFqdnName_trim]
    exact hname given hgiven
  · intro d hd
    obtain ⟨given, hgiven, rfl⟩ := Option.mem_map.mp hd
    exact hvalid given hgiven _ hr _ hz (hdata given hgiven)

end Steps

end Api

/-! ## Sequences of requests -/

/-- The loader can read an empty database. -/
lemma readable_empty : Readable K .empty :=
  ⟨List.nodup_nil, List.nodup_nil, by simp [Tables.empty], by simp [Tables.empty], by simp [Tables.empty]⟩

namespace ZoneRequest

/-- An accepted request that stores valid data leaves a database that the loader can read. -/
lemma readable_accept {s s' : AppState} {req : ZoneRequest} (h : Readable K s.db)
    (hvalid : req.StoresValid K s) (hstep : accept K s req = some s') : Readable K s'.db := by
  obtain ⟨hok, rfl⟩ := handle_ok hstep
  cases req with
  | createZone req =>
    unfold handle at hok ⊢
    obtain ⟨out, hok, -, hafter⟩ := EStateM.bind_ok hok
    rw [hafter]
    exact Api.readable_createZone h hvalid hok
  | updateZone id req =>
    unfold handle at hok ⊢
    obtain ⟨out, hok, -, hafter⟩ := EStateM.bind_ok hok
    rw [hafter]
    exact Api.readable_updateZone h
  | createRecord zoneId req =>
    unfold handle at hok ⊢
    obtain ⟨out, hok, -, hafter⟩ := EStateM.bind_ok hok
    rw [hafter]
    exact Api.readable_createRecord h hvalid hok
  | updateRecord id req =>
    unfold handle at hok ⊢
    obtain ⟨out, hok, -, hafter⟩ := EStateM.bind_ok hok
    rw [hafter]
    exact Api.readable_updateRecord h hvalid hok

/-- After every sequence of accepted requests that store valid data, every enabled row of every enabled
zone is served. At the beginning the loader can read the database. -/
theorem allServed_run (K : Crates) (s : AppState) (hs : Readable K s.db) (reqs : List ZoneRequest)
    (hvalid : Along (accept K) (StoresValid K) s reqs) (s' : AppState)
    (hrun : run (accept K) s reqs = some s') : AllServed K s'.db := by
  have hstep : ∀ (s : AppState) (req : ZoneRequest) (s' : AppState), Readable K s.db →
      StoresValid K s req → accept K s req = some s' → Readable K s'.db := by
    intro s req s' h hreq haccept
    exact readable_accept h hreq haccept
  exact (run_invariant hstep hs hvalid hrun).allServed

/-- A new zone with the usual primary name server. -/
def createHome : ZoneRequest :=
  .createZone ⟨"Home.lan.", none, none⟩

/-- A new host in the first zone. -/
def newHost : ZoneRequest :=
  .createRecord 1 ⟨" pi ", "a", "192.168.1.10", none, none⟩

/-- A new zone and a host in it are served. -/
theorem allServed_newHost :
    ∃ s', run (accept plainCrates) (freshState .empty) [createHome, newHost] = some s' ∧
      s'.db.records.map DnsRecord.name = ["@".toList, "pi".toList] ∧ AllServed plainCrates s'.db := by
  have hzone := accept_of_ok plainCrates createHome (freshState .empty) (by decide +kernel)
  have hhost := accept_of_ok plainCrates newHost ((createHome.handle plainCrates).after (freshState .empty))
    (by decide +kernel)
  have hrun : run (accept plainCrates) (freshState .empty) [createHome, newHost] =
      some ((newHost.handle plainCrates).after ((createHome.handle plainCrates).after (freshState .empty))) := by
    rw [run_cons hzone, run_cons hhost]
    rfl
  refine ⟨_, hrun, by decide +kernel, ?_⟩
  refine allServed_run plainCrates (freshState .empty) readable_empty [createHome, newHost] ?_ _ hrun
  refine ⟨fun name hname => ?_, fun s' _ => ⟨fun z _ => ?_, fun _ _ => trivial⟩⟩
  · have hcanonical : canonicalZoneName plainCrates "Home.lan.".toList = .ok "home.lan".toList := by decide
    obtain rfl := Except.ok.inj (hcanonical.symm.trans hname)
    decide
  · have htrim : trim "192.168.1.10".toList = "192.168.1.10".toList := by decide
    unfold StaysValid
    rw [htrim]
    exact id

/-- A new zone with a primary name server that is no name. -/
def badPrimary : ZoneRequest :=
  .createZone ⟨"home.lan", none, some { Soa.defaultFor "home.lan" with primaryNs := "ns1!home.lan." }⟩

/-- The zone is accepted and served, but its NS record is left out of the store. -/
theorem not_allServed_badPrimary :
    ∃ s', run (accept plainCrates) (freshState .empty) [badPrimary] = some s' ∧
      s'.db.records = [⟨1, 1, none, "@", "NS", none, "ns1!home.lan.", true⟩] ∧
      (buildFrom plainCrates s'.db).zones.map (fun zone => zone.records.keys) = [[]] ∧
      ¬ AllServed plainCrates s'.db := by
  have hzone := accept_of_ok plainCrates badPrimary (freshState .empty) (by decide +kernel)
  generalize hs' : (badPrimary.handle plainCrates).after (freshState .empty) = s' at hzone
  have hzones : s'.db.zones.map Zone.id = [1] ∧ ∀ z ∈ s'.db.zones, z.enabled = true := by
    rw [← hs']
    decide +kernel
  have hrecords : s'.db.records = [⟨1, 1, none, "@", "NS", none, "ns1!home.lan.", true⟩] := by
    rw [← hs']
    decide +kernel
  have hkeys : (buildFrom plainCrates s'.db).zones.map (fun zone => zone.records.keys) = [[]] := by
    rw [← hs']
    decide +kernel
  have hrun : run (accept plainCrates) (freshState .empty) [badPrimary] = some s' := by
    rw [run_cons hzone]
    rfl
  refine ⟨s', hrun, hrecords, hkeys, fun h => ?_⟩
  obtain ⟨z, hz, hid⟩ : ∃ z ∈ s'.db.zones, z.id = 1 := List.mem_map.mp (by rw [hzones.1]; simp)
  have hr : ⟨1, 1, none, "@", "NS", none, "ns1!home.lan.", true⟩ ∈ s'.db.records := by
    rw [hrecords]
    exact List.mem_singleton_self _
  obtain ⟨zone, hzone, -, owner, -, stored, hstored, -⟩ := h z hz (hzones.2 z hz) _ hr hid.symm rfl
  have hnone : zone.records.keys = [] := by
    have hmem := List.mem_map_of_mem (f := fun zone => zone.records.keys) hzone
    rw [hkeys] at hmem
    exact List.mem_singleton.mp hmem
  have habsent : nameKey plainCrates owner ∉ zone.records := by
    rw [AList.mem_keys, hnone]
    exact List.not_mem_nil
  rw [at_of_notMem habsent] at hstored
  cases hstored

end ZoneRequest

end Nomina
