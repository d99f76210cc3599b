import Mathlib.Data.List.Find
import Nomina.Dns.Zonefile
import Nomina.Replication

/-!
# Backups

A zone that is exported and imported again, with `replace` set: `export_zone` prints its rows,
`import_zone` reads the text and writes the rows anew. The main result is that the store answers as
before, but for the serial that the import raises, when the rows mean the same to the store and in a
zone file (`Backup.Portable`). Rows that do not are changed by the way through the file, or lost.
-/

namespace Nomina

open Lib Sql MasterFile

variable {K : Crates}

/-! ## Stores with corresponding zones -/

/-- Two zones of one apex that answer alike but for the serial. -/
structure Corresponds (K : Crates) (zone zone' : StoredZone) : Prop where
  apex : zone'.apex = zone.apex
  lookupIn : ∀ viewId viewName qname qtype,
    SameButSerial (lookupIn K zone viewId viewName qname qtype)
      (lookupIn K zone' viewId viewName qname qtype)

/-- Stores of corresponding zones answer alike but for serials. -/
lemma lookup_mkStore (views : List ViewMatch) {pairs : List (StoredZone × StoredZone)}
    (h : ∀ p ∈ pairs, Corresponds K p.1 p.2) (qname : Name) (qtype : RecordType) (client : IpAddr)
    (geo : ClientGeo) :
    SameButSerial ((mkStore views (pairs.map Prod.fst)).lookup K qname qtype client geo)
      ((mkStore views (pairs.map Prod.snd)).lookup K qname qtype client geo) := by
  have hcount : ∀ p ∈ pairs, p.2.labelCount = p.1.labelCount := by
    intro p hp
    rw [p.2.counted, p.1.counted, (h p hp).apex]
  -- The pairs, sorted as the zones of both stores are.
  generalize hsorted : pairs.insertionSort (fun p q => q.1.labelCount ≤ p.1.labelCount) = sorted
  have hfst : (mkStore views (pairs.map Prod.fst)).zones = sorted.map Prod.fst := by
    rw [← hsorted]
    exact (List.map_insertionSort (fun p q : StoredZone × StoredZone => q.1.labelCount ≤ p.1.labelCount)
      (fun z w : StoredZone => w.labelCount ≤ z.labelCount) _ _ fun _ _ _ _ => Iff.rfl).symm
  have hsnd : (mkStore views (pairs.map Prod.snd)).zones = sorted.map Prod.snd := by
    rw [← hsorted]
    refine (List.map_insertionSort (fun p q : StoredZone × StoredZone => q.1.labelCount ≤ p.1.labelCount)
      (fun z w : StoredZone => w.labelCount ≤ z.labelCount) _ _ fun p hp q hq => ?_).symm
    rw [hcount p hp, hcount q hq]
  have hmem : ∀ p ∈ sorted, Corresponds K p.1 p.2 := by
    intro p hp
    rw [← hsorted] at hp
    exact h p ((List.perm_insertionSort _ _).mem_iff.mp hp)
  have hfind : sorted.find? (fun p => p.2.apex.zoneOf qname) =
      sorted.find? (fun p => p.1.apex.zoneOf qname) :=
    List.find?_congr fun p hp => by rw [(hmem p hp).apex]
  have hzone : (mkStore views (pairs.map Prod.fst)).zoneFor qname =
      (sorted.find? fun p => p.1.apex.zoneOf qname).map Prod.fst := by
    unfold ZoneStore.zoneFor
    rw [hfst, List.find?_map]
    rfl
  have hzone' : (mkStore views (pairs.map Prod.snd)).zoneFor qname =
      (sorted.find? fun p => p.1.apex.zoneOf qname).map Prod.snd := by
    unfold ZoneStore.zoneFor
    rw [hsnd, List.find?_map, ← hfind]
    rfl
  unfold ZoneStore.lookup
  rw [hzone, hzone']
  cases hp : sorted.find? (fun p => p.1.apex.zoneOf qname) with
  | none => exact .refl _
  | some p => exact (hmem p (List.mem_of_find?_eq_some hp)).lookupIn _ _ qname qtype

/-- Stores that are built from corresponding rows answer alike but for serials: for every row there is
a zone in neither store, or there are corresponding zones. -/
lemma lookup_buildFrom {t t' : Tables} (hviews : t'.views = t.views) {rows : List Zone} {f g : Zone → Zone}
    (hbefore : Db.zonesByName t = rows.map f) (hafter : Db.zonesByName t' = rows.map g)
    (h : ∀ z ∈ rows, (servedZone K t (f z) = none ∧ servedZone K t' (g z) = none) ∨
      ∃ zone zone', servedZone K t (f z) = some zone ∧ servedZone K t' (g z) = some zone' ∧
        Corresponds K zone zone')
    (qname : Name) (qtype : RecordType) (client : IpAddr) (geo : ClientGeo) :
    SameButSerial ((buildFrom K t).lookup K qname qtype client geo)
      ((buildFrom K t').lookup K qname qtype client geo) := by
  generalize hpair : (fun z => (servedZone K t (f z)).bind fun zone =>
    (servedZone K t' (g z)).map fun zone' => (zone, zone')) = pair
  have hfst : (Db.zonesByName t).filterMap (servedZone K t) = (rows.filterMap pair).map Prod.fst := by
    rw [hbefore, List.filterMap_map, List.map_filterMap, ← hpair]
    refine List.filterMap_congr fun z hz => ?_
    dsimp only [Function.comp_apply]
    rcases h z hz with ⟨hnone, -⟩ | ⟨zone, zone', hzone, hzone', -⟩
    · rw [hnone]
      rfl
    · rw [hzone, hzone']
      rfl
  have hsnd : (Db.zonesByName t').filterMap (servedZone K t') = (rows.filterMap pair).map Prod.snd := by
    rw [hafter, List.filterMap_map, List.map_filterMap, ← hpair]
    refine List.filterMap_congr fun z hz => ?_
    dsimp only [Function.comp_apply]
    rcases h z hz with ⟨hnone, hnone'⟩ | ⟨zone, zone', hzone, hzone', -⟩
    · rw [hnone, hnone']
      rfl
    · rw [hzone, hzone']
      rfl
  have hpriority : Db.viewsByPriority t' = Db.viewsByPriority t := by
    unfold Db.viewsByPriority
    rw [hviews]
  unfold buildFrom
  rw [hpriority, hfst, hsnd]
  refine lookup_mkStore _ ?_ qname qtype client geo
  intro p hp
  obtain ⟨z, hz, hpz⟩ := List.mem_filterMap.mp hp
  rw [← hpair] at hpz
  obtain ⟨zone, hzone, hrest⟩ := Option.bind_eq_some_iff.mp hpz
  obtain ⟨zone', hzone', rfl⟩ := Option.map_eq_some_iff.mp hrest
  rcases h z hz with ⟨hnone, -⟩ | ⟨w, w', hw, hw', hcorresponds⟩
  · rw [hzone] at hnone
    cases hnone
  · rw [hzone] at hw
    rw [hzone'] at hw'
    cases hw
    cases hw'
    exact hcorresponds

/-! ## The tables after an import -/

/-- The tables with the rows of one zone replaced and its serial raised. -/
def importedTables (t : Tables) (zoneId : ℕ) (rows : List DnsRecord) : Tables :=
  ({ t with records := t.records.filter (·.zoneId != zoneId) ++ rows } : Tables).bump zoneId

/-- A row of a zone, with the serial raised when it is the zone with the id. -/
def raiseSerial (zoneId : ℕ) (z : Zone) : Zone :=
  if z.id = zoneId then { z with serial := z.serial + 1 } else z

section Imported

variable {t : Tables} {zoneId : ℕ} {rows : List DnsRecord}

/-- An import into a zone that exists, with its records replaced. -/
lemma evals_importRecords (tuples : List Db.RecordTuple) (hzone : (t.zone? zoneId).isSome = true) :
    ∃ rows, Evals (Db.importRecords zoneId true tuples) t (.ok tuples.length)
        (importedTables t zoneId rows) ∧
      rows.map unnumbered = tuples.map (replicaRow zoneId) := by
  obtain ⟨rows, hrows, hreplica⟩ := evals_insertReplica tuples
    { t with records := t.records.filter (·.zoneId != zoneId) } hzone
  have hclear : Evals (Db.clearWhen true zoneId) t (.ok ())
      { t with records := t.records.filter (·.zoneId != zoneId) } := by
    unfold Db.clearWhen Db.clearRecords
    rw [if_pos rfl]
    exact Evals.update (fun t : Tables => { t with records := t.records.filter (·.zoneId != zoneId) }) t
  exact ⟨rows, Evals.transaction (Evals.bind hclear
    (Evals.bind hrows (Evals.bind (Evals.update _ _) (Evals.pure _ _)))), hreplica⟩

/-- The rows of the zone are those that were imported. -/
lemma zoneRecords_importedTables (hrows : ∀ r ∈ rows, r.zoneId = zoneId) :
    (importedTables t zoneId rows).zoneRecords zoneId = rows := by
  unfold Tables.zoneRecords importedTables Tables.bump Tables.mapZone
  dsimp only
  have hold : (t.records.filter (·.zoneId != zoneId)).filter (·.zoneId == zoneId) = [] := by
    refine List.filter_eq_nil_iff.mpr fun r hr => ?_
    have := (List.mem_filter.mp hr).2
    simpa using this
  have hnew : rows.filter (·.zoneId == zoneId) = rows :=
    List.filter_eq_self.mpr fun r hr => by simp [hrows r hr]
  rw [List.filter_append, hold, hnew, List.nil_append]

/-- The rows of the other zones stay. -/
lemma zoneRecords_importedTables_of_ne (hrows : ∀ r ∈ rows, r.zoneId = zoneId) {i : ℕ}
    (hi : i ≠ zoneId) : (importedTables t zoneId rows).zoneRecords i = t.zoneRecords i := by
  unfold Tables.zoneRecords importedTables Tables.bump Tables.mapZone
  dsimp only
  have hold : (t.records.filter (·.zoneId != zoneId)).filter (·.zoneId == i) =
      t.records.filter (·.zoneId == i) := by
    rw [List.filter_filter]
    refine List.filter_congr fun r _ => ?_
    by_cases hr : r.zoneId = i
    · simp [hr, hi]
    · simp [hr]
  have hnew : rows.filter (·.zoneId == i) = [] :=
    List.filter_eq_nil_iff.mpr fun r hr => by simp [hrows r hr, hi.symm]
  rw [List.filter_append, hold, hnew, List.append_nil]

/-- The zones are listed in the same order. -/
lemma zonesByName_importedTables : Db.zonesByName (importedTables t zoneId rows) =
    (t.zones.insertionSort fun z w => z.name ≤ w.name).map
      fun z => Db.readZone (raiseSerial zoneId z) := by
  have hname : ∀ z, (raiseSerial zoneId z).name = z.name := by
    intro z
    unfold raiseSerial
    split <;> rfl
  have hsort : (t.zones.map (raiseSerial zoneId)).insertionSort (fun z w => z.name ≤ w.name) =
      (t.zones.insertionSort fun z w => z.name ≤ w.name).map (raiseSerial zoneId) := by
    refine (List.map_insertionSort (fun z w : Zone => z.name ≤ w.name)
      (fun z w : Zone => z.name ≤ w.name) _ _ fun z _ w _ => ?_).symm
    rw [hname, hname]
  change ((t.zones.map (raiseSerial zoneId)).insertionSort fun z w => z.name ≤ w.name).map Db.readZone = _
  rw [hsort, List.map_map]
  rfl

/-- Two rows of one zone are both served, under the same apex, or neither is. -/
lemma servedZone_cases (t t' : Tables) (z z' : Zone) (henabled : z'.enabled = z.enabled)
    (hname : z'.name = z.name) :
    (servedZone K t z = none ∧ servedZone K t' z' = none) ∨
      ∃ apex, recordFqdnName K ['@'] z.name = .ok apex ∧
        servedZone K t z =
          some (storedZone K z apex (t.dnssecKey? z.id) (Db.sortRecords (t.zoneRecords z.id))) ∧
        servedZone K t' z' =
          some (storedZone K z' apex (t'.dnssecKey? z'.id) (Db.sortRecords (t'.zoneRecords z'.id))) := by
  unfold servedZone
  rw [henabled, hname]
  cases z.enabled with
  | false => exact .inl ⟨rfl, rfl⟩
  | true =>
    cases recordFqdnName K ['@'] z.name with
    | error e => exact .inl ⟨rfl, rfl⟩
    | ok apex => exact .inr ⟨apex, rfl, rfl, rfl⟩

/-- A zone is served from its signing key and its rows. -/
lemma servedZone_congr {t' : Tables} {z : Zone} (hkey : t'.dnssecKey? z.id = t.dnssecKey? z.id)
    (hrecords : t'.zoneRecords z.id = t.zoneRecords z.id) : servedZone K t' z = servedZone K t z := by
  unfold servedZone
  rw [hkey, hrecords]

/-- A store that is built after an import answers as before but for serials, when the zone that was
imported into corresponds to what it was. -/
lemma lookup_importedTables (hids : (t.zones.map Zone.id).Nodup) {row : Zone} (hrow : row ∈ t.zones)
    (hrows : ∀ r ∈ rows, r.zoneId = row.id)
    (h : ∀ apex, recordFqdnName K ['@'] row.name = .ok apex →
      Corresponds K
        (storedZone K (Db.readZone row) apex (t.dnssecKey? row.id)
          (Db.sortRecords (t.zoneRecords row.id)))
        (storedZone K (Db.readZone { row with serial := row.serial + 1 }) apex (t.dnssecKey? row.id)
          (Db.sortRecords rows)))
    (qname : Name) (qtype : RecordType) (client : IpAddr) (geo : ClientGeo) :
    SameButSerial ((buildFrom K t).lookup K qname qtype client geo)
      ((buildFrom K (importedTables t row.id rows)).lookup K qname qtype client geo) := by
  have hbefore : Db.zonesByName t =
      (t.zones.insertionSort fun z w => z.name ≤ w.name).map Db.readZone := rfl
  have hviews : (importedTables t row.id rows).views = t.views := rfl
  refine lookup_buildFrom hviews hbefore zonesByName_importedTables ?_ qname qtype client geo
  intro z hz
  have hmem : z ∈ t.zones := (List.perm_insertionSort _ _).mem_iff.mp hz
  by_cases hid : z.id = row.id
  · -- The zone that was imported into.
    obtain rfl : z = row := List.inj_on_of_nodup_map hids hmem hrow hid
    have hraised : raiseSerial z.id z = { z with serial := z.serial + 1 } := if_pos rfl
    rw [hraised]
    rcases servedZone_cases (K := K) t (importedTables t z.id rows) (Db.readZone z)
      (Db.readZone { z with serial := z.serial + 1 }) rfl rfl with hnone | ⟨apex, hapex, hz, hz'⟩
    · exact .inl hnone
    · refine .inr ⟨_, _, hz, hz', ?_⟩
      change Corresponds K _ (storedZone K _ apex (t.dnssecKey? z.id)
        (Db.sortRecords ((importedTables t z.id rows).zoneRecords z.id)))
      rw [zoneRecords_importedTables hrows]
      exact h apex hapex
  · have hraised : raiseSerial row.id z = z := if_neg hid
    have hsame : servedZone K (importedTables t row.id rows) (Db.readZone z) =
        servedZone K t (Db.readZone z) :=
      servedZone_congr rfl (zoneRecords_importedTables_of_ne hrows hid)
    rw [hraised, hsame]
    cases servedZone K t (Db.readZone z) with
    | none => exact .inl ⟨rfl, rfl⟩
    | some zone => exact .inr ⟨zone, zone, rfl, rfl, rfl, fun _ _ _ _ => .refl _⟩

end Imported

/-! ## Export and import -/

/-- Export a zone and import the text into it, with its records replaced. -/
def restore (K : Crates) (zoneId : ℕ) : App (ℕ × ℕ) := do
  let text ← Api.exportZone zoneId
  Api.importZone K zoneId ⟨text, true⟩

section Runs

variable {s : AppState} {zoneId : ℕ} {z : Zone}

/-- The zone of a request that exists. -/
lemma run_zoneOf (hz : s.db.zone? zoneId = some z) (hfaults : s.conn.faults = []) :
    ∃ s', Api.zoneOf zoneId s = .ok (Db.readZone z, s.db.secondary? zoneId) s' ∧ s'.db = s.db ∧
      s'.conn.faults = [] := by
  have hevals : Evals (Db.zone zoneId) s.db (.ok (some (Db.readZone z, s.db.secondary? zoneId))) s.db := by
    have hselect := Evals.select (fun t : Tables =>
      (t.zone? zoneId).map fun z => (Db.readZone z, t.secondary? zoneId)) s.db
    rw [hz] at hselect
    exact hselect
  obtain ⟨s', hrun, hdb, hfaults'⟩ := run_runDb hevals hfaults
  refine ⟨s', ?_, hdb, hfaults'⟩
  unfold Api.zoneOf
  rw [EStateM.run_bind_ok hrun]
  rfl

/-- The export of a zone that exists. -/
lemma run_exportZone (hz : s.db.zone? zoneId = some z) (hfaults : s.conn.faults = []) :
    ∃ s', Api.exportZone zoneId s =
        .ok (Api.exportText (Db.readZone z) (Db.sortRecords (s.db.zoneRecords zoneId))) s' ∧
      s'.db = s.db ∧ s'.conn.faults = [] := by
  obtain ⟨s₁, hrun₁, hdb₁, hfaults₁⟩ := run_zoneOf hz hfaults
  rw [← hdb₁] at hz
  obtain ⟨s₂, hrun₂, hdb₂, hfaults₂⟩ := run_runDb (evals_listRecords hz) hfaults₁
  refine ⟨s₂, ?_, hdb₂.trans hdb₁, hfaults₂⟩
  unfold Api.exportZone
  rw [EStateM.run_bind_ok hrun₁, EStateM.run_bind_ok hrun₂, hdb₁]
  rfl

/-- The import of a text that is read, into a primary zone. -/
lemma run_importZone (hz : s.db.zone? zoneId = some z) (hprimary : s.db.secondary? zoneId = none)
    (hfaults : s.conn.faults = []) {apex : Name} (hapex : K.fromUtf8 (z.name ++ ['.']) = .ok apex)
    {text : Str} {records : List Record} (hparse : K.parseZonefile text apex = .ok records)
    {tuples : List Db.RecordTuple}
    (htuples : tuples = records.filterMap
      (recordTuple K (toAsciiLowercase (trimEndMatches '.' z.name)))) :
    ∃ rows s', Api.importZone K zoneId ⟨text, true⟩ s =
        .ok (tuples.length, records.length - tuples.length) s' ∧
      s'.db = importedTables s.db zoneId rows ∧ s'.store = buildFrom K s'.db ∧
      rows.map unnumbered = tuples.map (replicaRow zoneId) := by
  obtain ⟨s₁, hrun₁, hdb₁, hfaults₁⟩ := run_zoneOf hz hfaults
  have hsome : (s₁.db.zone? zoneId).isSome = true := by
    rw [hdb₁, hz]
    rfl
  obtain ⟨rows, hevals, hrows⟩ := evals_importRecords tuples hsome
  obtain ⟨s₂, hrun₂, hdb₂, hfaults₂⟩ := run_runDb hevals hfaults₁
  obtain ⟨s₃, hrun₃, hdb₃, hstore⟩ := run_reloadStore K hfaults₂
  refine ⟨rows, s₃, ?_, ?_, ?_, hrows⟩
  · have horigin : K.fromUtf8 ((Db.readZone z).name ++ ['.']) = .ok apex := hapex
    have hread : Api.parseZonefile K text apex (Db.readZone z).name =
        .ok (tuples, records.length - tuples.length) := by
      unfold Api.parseZonefile
      rw [hparse, htuples]
      rfl
    unfold Api.importZone
    rw [EStateM.run_bind_ok hrun₁, hprimary]
    simp only [horigin, hread, Api.refuseIf, Option.isSome_none, Bool.false_eq_true, if_false, pure_bind]
    rw [EStateM.run_bind_ok hrun₂, EStateM.run_bind_ok hrun₃]
    rfl
  · rw [hdb₃, hdb₂, hdb₁]
  · rw [hstore, hdb₃]

end Runs

/-! ## Rows that are written anew -/

section Rows

variable {z : Zone} {rows : List DnsRecord} {records : List Record}

/-- What the store has for a row is imported as a row that the store has the same for. -/
lemma IsServed.restored (h : K.PrintsNames) {r : DnsRecord} {record : Record}
    (hserved : IsServed K z r record)
    (hunder : ∀ owner, recordFqdnName K r.name z.name = .ok owner → DisplayedUnder z.name (nameKey K owner))
    (hdata : ∀ key sr, storedRecord K z r = some (key, sr) → Printed K sr.rdata) (zoneId : ℕ) :
    ∃ tuple, recordTuple K z.name record = some tuple ∧
      storedRecord K z (replicaRow zoneId tuple) = storedRecord K z r := by
  obtain ⟨owner, sr, howner, hstored, hview, rfl⟩ := hserved
  have hkey := isOwnerKey_of_storedRecord hstored
  have htype := rtype_of_storedRecord hstored
  refine ⟨replicaTuple K z.name (nameKey K owner) sr, ?_, ?_⟩
  · have hsupported : isSupported sr.rdata.recordType = true := by
      rw [sr.typed]
      exact isSupported_of_mem htype
    have hrelative : relativeOwner K z.name (ownerName K (nameKey K owner)) =
        relativeOwner K z.name owner := by
      have hname : toAsciiLowercase (trimEndMatches '.' ((ownerName K (nameKey K owner)).toText K)) =
          toAsciiLowercase (trimEndMatches '.' (owner.toText K)) := (hkey.read h).2
      unfold relativeOwner
      rw [hname]
    unfold recordTuple StoredRecord.toRecord replicaTuple
    dsimp only
    rw [if_pos hsupported, hrelative, sr.typed]
  · rw [hstored]
    exact storedRecord_replicaRow h hkey zoneId (hunder owner howner) hview htype (hdata _ _ hstored)

/-- The rows of an import are read as what the store has for the rows before. -/
lemma storedRecords_restored (h : K.PrintsNames) (hserved : List.Forall₂ (IsServed K z) rows records)
    (hunder : ∀ r ∈ rows, ∀ owner, recordFqdnName K r.name z.name = .ok owner →
      DisplayedUnder z.name (nameKey K owner))
    (hdata : ∀ r ∈ rows, ∀ key sr, storedRecord K z r = some (key, sr) → Printed K sr.rdata)
    (zoneId : ℕ) :
    ((records.filterMap (recordTuple K z.name)).map (replicaRow zoneId)).filterMap (storedRecord K z) =
      rows.filterMap (storedRecord K z) := by
  induction hserved with
  | nil => rfl
  | @cons r record rows records hr _ ih =>
    obtain ⟨tuple, htuple, hstored⟩ := hr.restored h (hunder r List.mem_cons_self)
      (hdata r List.mem_cons_self) zoneId
    have hrest := ih (fun r hr => hunder r (List.mem_cons_of_mem _ hr))
      fun r hr => hdata r (List.mem_cons_of_mem _ hr)
    rw [List.filterMap_cons_some htuple, List.map_cons, List.filterMap_cons, hstored, hrest,
      List.filterMap_cons]

/-- The owners and the data of the records are those that the store has. -/
lemma ownerData_of_served (hserved : List.Forall₂ (IsServed K z) rows records) :
    ownerData K records = (rows.filterMap (storedRecord K z)).map fun p => (p.1, p.2.rdata) := by
  induction hserved with
  | nil => rfl
  | @cons r record rows records hr _ ih =>
    obtain ⟨owner, sr, -, hstored, -, rfl⟩ := hr
    unfold ownerData at ih ⊢
    rw [List.filterMap_cons_some hstored, List.map_cons, List.map_cons, ih]
    rfl

/-- An SOA record is another one than the records of the rows. -/
lemma DistinctData.cons_soa {l : List (Str × RData)} (h : DistinctData l)
    (htypes : ∀ p ∈ l, p.2.recordType ∈ supportedRecordTypes) {key : Str} {d : RData}
    (hd : d.recordType = .SOA) : DistinctData ((key, d) :: l) := by
  have hnot : ∀ p ∈ l, p.2.recordType ≠ .SOA := by
    intro p hp hsoa
    have htype := htypes p hp
    rw [hsoa] at htype
    exact absurd htype (by decide)
  constructor
  · refine List.nodup_cons.mpr ⟨?_, h.nodup⟩
    intro hmem
    exact hnot _ hmem hd
  · have hsingle : isSingleton d.recordType = true := by
      rw [hd]
      rfl
    rw [List.filter_cons_of_pos (by exact hsingle), List.map_cons]
    refine List.nodup_cons.mpr ⟨?_, h.single⟩
    intro hmem
    obtain ⟨p, hp, heq⟩ := List.mem_map.mp hmem
    have htype := congrArg Prod.snd heq
    dsimp only at htype
    exact hnot p (List.mem_filter.mp hp).1 (htype.trans hd)

end Rows

/-- Zones that were built from rows that are read alike, in some order, correspond when no row is pinned
to a view and no owner has two CNAMEs. -/
lemma corresponds_of_perm {z z' : Zone} {apex : Name} {signingKey : Option DnssecKey}
    {rows rows' : List DnsRecord} (hsoa : z'.soa = z.soa)
    (hperm : (rows'.filterMap (storedRecord K z')).Perm (rows.filterMap (storedRecord K z)))
    (hviews : (storedZone K z apex signingKey rows).Unpinned)
    (hcname : (storedZone K z apex signingKey rows).OneCname) :
    Corresponds K (storedZone K z apex signingKey rows) (storedZone K z' apex signingKey rows') := by
  refine ⟨rfl, fun viewId viewName qname qtype => ?_⟩
  refine Mirrors.lookupIn_serial ?_ ?_ hviews hcname viewName viewName qname qtype
  · refine ⟨rfl, rfl, ?_, ?_, ?_⟩
    · change max z'.soa.minimum 1 = max z.soa.minimum 1
      rw [hsoa]
    · intro key
      change key ∈ collect _ ↔ key ∈ collect _
      rw [mem_collect, mem_collect, (hperm.map Prod.fst).mem_iff]
    · intro key
      change ((collect _).at key).Perm ((collect _).at key)
      rw [at_collect, at_collect]
      exact (hperm.filter _).map _
  · change ({ zoneSoa K z apex with serial := 0 } : SOA) = { zoneSoa K z' apex with serial := 0 }
    unfold zoneSoa
    rw [hsoa]

/-! ## Backups of a zone -/

/-- A primary zone whose rows were accepted by the API, in a database that refuses nothing. -/
structure Backup (K : Crates) where
  state : AppState
  row : Zone
  mem : row ∈ state.db.zones
  ids : (state.db.zones.map Zone.id).Nodup
  primary : state.db.secondary? row.id = none
  canonical : canonicalZoneName K row.name = .ok row.name
  accepted : ∀ r ∈ state.db.zoneRecords row.id, Accepted K (Db.readZone row) r
  accepts : state.conn.faults = []

namespace Backup

variable (B : Backup K)

/-- The zone, as it is read. -/
def zone : Zone := Db.readZone B.row

/-- The rows of the zone, as they are listed. -/
def rows : List DnsRecord := Db.sortRecords (B.state.db.zoneRecords B.row.id)

/-- The state after the export and the import. -/
def after : AppState := (restore K B.row.id).after B.state

/-- The import succeeds, the serial of the zone is raised by one, and every lookup on the rebuilt store
returns what it returned before, but for the serial. -/
structure Restored : Prop where
  succeeds : ∃ counts, (restore K B.row.id).result B.state = .ok counts
  serial : B.after.db.zone? B.row.id = some { B.row with serial := B.row.serial + 1 }
  lookup : ∀ qname qtype client geo,
    SameButSerial ((buildFrom K B.state.db).lookup K qname qtype client geo)
      (B.after.store.lookup K qname qtype client geo)

/-- The import succeeds, and every lookup on the rebuilt store returns the records that it returned
before, in some order. -/
structure Preserved : Prop where
  succeeds : ∃ counts, (restore K B.row.id).result B.state = .ok counts
  lookup : ∀ qname qtype client geo,
    (B.after.store.lookup K qname qtype client geo).answers.Perm
      ((buildFrom K B.state.db).lookup K qname qtype client geo).answers

/-- What the store has for the rows. -/
def stored : List (Str × StoredRecord) := B.rows.filterMap (storedRecord K B.zone)

/-- The zone means the same to the store and in a zone file. -/
structure Portable : Prop where
  head : PortableHead K B.zone
  rows : ∀ r ∈ B.rows, PortableRow K B.zone r
  /-- Rows without a TTL come before another TTL than that of the zone is stated. -/
  ttls : TtlsKept B.zone.defaultTtl B.zone.defaultTtl B.rows
  distinct : DistinctData (B.stored.map fun p => (p.1, p.2.rdata))

/-- The data of the zone is printed faithfully. -/
def DataPrinted : Prop :=
  ∀ p ∈ B.stored, Printed K p.2.rdata

/-- The row of the zone is the one with its id. -/
lemma zone?_row : B.state.db.zone? B.row.id = some B.row :=
  find?_of_nodup_map B.ids B.mem

variable {B}

lemma mem_rows {r : DnsRecord} : r ∈ B.rows ↔ r ∈ B.state.db.zoneRecords B.row.id :=
  ((List.perm_insertionSort _ _).trans (List.perm_insertionSort _ _)).mem_iff

/-- What the store has for a row: a supported type, and no view. -/
lemma of_mem_stored {p : Str × StoredRecord} (hp : p ∈ B.stored) :
    p.2.rtype ∈ supportedRecordTypes ∧ p.2.viewId = none := by
  obtain ⟨r, hr, hstored⟩ := List.mem_filterMap.mp hp
  obtain ⟨t, d, owner, htype, -, -, -, -, typed, hstored'⟩ :=
    (B.accepted r (mem_rows.mp hr)).stored
  obtain rfl : _ = p := Option.some.inj (hstored'.symm.trans hstored)
  exact ⟨htype, rfl⟩

/-- The records of an owner are those of its pairs. -/
lemma mem_at_stored {apex : Name} {signingKey : Option DnssecKey} {key : Str} {sr : StoredRecord}
    (h : sr ∈ (storedZone K B.zone apex signingKey B.rows).records.at key) : (key, sr) ∈ B.stored := by
  obtain ⟨row, hrow, hstored⟩ := mem_at_storedZone h
  exact List.mem_filterMap.mpr ⟨row, hrow, hstored⟩

lemma unpinned (apex : Name) (signingKey : Option DnssecKey) :
    (storedZone K B.zone apex signingKey B.rows).Unpinned :=
  fun _ _ hr => (of_mem_stored (mem_at_stored hr)).2

/-- Distinct data has one CNAME at most for an owner. -/
lemma oneCname (hdistinct : DistinctData (B.stored.map fun p => (p.1, p.2.rdata))) (apex : Name)
    (signingKey : Option DnssecKey) :
    (storedZone K B.zone apex signingKey B.rows).OneCname := by
  intro key
  have hcount := List.nodup_iff_count_le_one.mp hdistinct.single (key, .CNAME)
  have hat : (storedZone K B.zone apex signingKey B.rows).records.at key =
      (B.stored.filter (·.1 = key)).map Prod.snd := at_collect _ _
  rw [hat, ← List.countP_eq_length_filter, List.countP_map, List.countP_filter]
  rw [List.count, List.countP_map, List.countP_filter, List.countP_map] at hcount
  refine le_trans (le_of_eq (List.countP_congr fun p _ => ?_)) hcount
  simp only [Function.comp_apply, Bool.and_eq_true, beq_iff_eq, decide_eq_true_eq, Prod.mk.injEq,
    p.2.typed]
  constructor
  · rintro ⟨htype, rfl⟩
    refine ⟨⟨rfl, htype⟩, ?_⟩
    rw [htype]
    rfl
  · rintro ⟨⟨rfl, htype⟩, -⟩
    exact ⟨htype, rfl⟩

/-- The export is read as the records that the store has, with an SOA record before them. -/
lemma Portable.exists_records (hfiles : K.ReadsZonefiles) (h : B.Portable) {apex : Name}
    (hapex : K.fromUtf8 (B.row.name ++ ['.']) = .ok apex) :
    ∃ soa records, soa.data.recordType = .SOA ∧ List.Forall₂ (IsServed K B.zone) B.rows records ∧
      ∃ rs, K.parseZonefile (Api.exportText B.zone B.rows) apex = .ok rs ∧ rs.Perm (soa :: records) := by
  have hzone : B.zone.name ≠ [] := (canonicalZoneName_spec B.canonical).1
  obtain ⟨soa, records, hsoa, hserved, hread⟩ := readZonefile_exportText hfiles h.head hzone hapex
    (fun r hr => B.accepted r (mem_rows.mp hr)) h.rows h.ttls apex
  have hdistinct : DistinctData (ownerData K (soa :: records)) := by
    unfold ownerData
    rw [List.map_cons]
    have hrecords : DistinctData (ownerData K records) := by
      rw [ownerData_of_served hserved]
      exact h.distinct
    refine hrecords.cons_soa ?_ hsoa
    rw [ownerData_of_served hserved]
    intro p hp
    obtain ⟨q, hq, rfl⟩ := List.mem_map.mp hp
    dsimp only
    rw [q.2.typed]
    exact (of_mem_stored hq).1
  obtain ⟨rs, hparse, hperm⟩ := hfiles.zonefile hread hdistinct
  exact ⟨soa, records, hsoa, hserved, rs, hparse, hperm⟩

/-- The rows that are written for the records, in any order and with the SOA record among them, are
read as those before. -/
lemma Portable.stored_perm (hnames : K.PrintsNames) (hdata : B.DataPrinted) (h : B.Portable)
    {soa : Record} {records rs : List Record} (hsoa : soa.data.recordType = .SOA)
    (hserved : List.Forall₂ (IsServed K B.zone) B.rows records) (hperm : rs.Perm (soa :: records))
    {rows : List DnsRecord}
    (hrows : rows.map unnumbered =
      (rs.filterMap (recordTuple K B.zone.name)).map (replicaRow B.row.id)) :
    (rows.filterMap (storedRecord K B.zone)).Perm B.stored := by
  have hunnumbered : rows.filterMap (storedRecord K B.zone) =
      (rows.map unnumbered).filterMap (storedRecord K B.zone) := by
    rw [List.filterMap_map]
    rfl
  have hnone : recordTuple K B.zone.name soa = none := by
    unfold recordTuple
    rw [hsoa, if_neg (by decide)]
  have htuples : (rs.filterMap (recordTuple K B.zone.name)).Perm
      (records.filterMap (recordTuple K B.zone.name)) := by
    have hcons := hperm.filterMap (recordTuple K B.zone.name)
    rwa [List.filterMap_cons_none hnone] at hcons
  have hprinted : ∀ r ∈ B.rows, ∀ key sr, storedRecord K B.zone r = some (key, sr) →
      Printed K sr.rdata :=
    fun r hr key sr hsr => hdata (key, sr) (List.mem_filterMap.mpr ⟨r, hr, hsr⟩)
  have hread := storedRecords_restored hnames hserved (fun r hr => (h.rows r hr).displayed) hprinted
    B.row.id
  unfold stored
  rw [hunnumbered, hrows, ← hread]
  exact (htuples.map _).filterMap _

/-- An exported zone that means the same to the store and in a zone file is imported again, and the
store answers as before but for the serial of the zone, which is raised by one. -/
theorem restored_of_portable (hnames : K.PrintsNames) (hfiles : K.ReadsZonefiles) (B : Backup K)
    (hdata : B.DataPrinted) (h : B.Portable) : B.Restored := by
  obtain ⟨-, hfolded, apex, hapex⟩ := canonicalZoneName_spec B.canonical
  obtain ⟨soa, records, hsoa, hserved, rs, hparse, hperm⟩ := h.exists_records hfiles hapex
  -- The runs of the export and of the import.
  obtain ⟨s₁, hexport, hdb₁, hfaults₁⟩ := run_exportZone B.zone?_row B.accepts
  obtain ⟨rows, s₂, himport, hdb₂, hstore, hrows⟩ := run_importZone (s := s₁) (z := B.row)
    (by rw [hdb₁]; exact B.zone?_row) (by rw [hdb₁]; exact B.primary) hfaults₁ hapex hparse rfl
  rw [hfolded] at hrows
  have hrun := (EStateM.run_bind_ok hexport fun text =>
    Api.importZone K B.row.id ⟨text, true⟩).trans himport
  obtain ⟨hresult, hafter⟩ := EStateM.of_run hrun
  change B.after = s₂ at hafter
  constructor
  case succeeds => exact ⟨_, hresult⟩
  case serial =>
    rw [hafter, hdb₂, hdb₁]
    exact Tables.zone?_bump_self B.zone?_row
  case lookup =>
    intro qname qtype client geo
    rw [hafter, hstore, hdb₂, hdb₁]
    refine lookup_importedTables B.ids B.mem (fun r hr => zoneId_of_replicaRows hrows hr) ?_ qname qtype
      client geo
    intro apex _
    have hstored := h.stored_perm hnames hdata hsoa hserved hperm hrows
    exact corresponds_of_perm rfl (((Db.perm_sortRecords rows).filterMap _).trans hstored) (unpinned apex _)
      (oneCname h.distinct apex _)

/-! ### A home zone -/

/-- The backup of a zone that is alone in its database. -/
def alone (z : Zone) (rows : List DnsRecord) (hcanonical : canonicalZoneName fileCrates z.name = .ok z.name)
    (haccepted : ∀ r ∈ rows, Accepted fileCrates (Db.readZone z) r) : Backup fileCrates where
  state := ⟨⟨{ Tables.empty with zones := [z], records := rows }, [], []⟩,
    buildFrom fileCrates { Tables.empty with zones := [z], records := rows }, [], []⟩
  row := z
  mem := List.mem_singleton_self _
  ids := List.nodup_singleton _
  primary := rfl
  canonical := hcanonical
  accepted r hr := haccepted r (List.mem_filter.mp hr).1
  accepts := rfl

/-- A zone with the SOA that it is created with. -/
def newZone (name : Str) : Zone :=
  ⟨1, name, true, .defaultFor name, 300, 1⟩

/-- A row of the zone. -/
def newRow (id : ℕ) (name rtype : Str) (ttl : Option ℕ) (data : Str) : DnsRecord :=
  ⟨id, 1, none, name, rtype, ttl, data, true⟩

/-- The rows of a zone with a mail server, a name server, a text with a delimiter in it, an alias and an
address. -/
def homeRows : List DnsRecord :=
  [newRow 1 "@" "MX" none "10 mail", newRow 2 "@" "NS" none "ns1.home.lan.",
    newRow 3 "@" "TXT" none "\"v=spf1 mx; -all\"", newRow 4 "blog" "CNAME" none "www",
    newRow 5 "www" "A" (some 60) "192.0.2.1"]

lemma homeRows_accepted : ∀ r ∈ homeRows, Accepted fileCrates (Db.readZone (newZone "home.lan")) r := by
  decide +kernel

/-- The backup of the zone. -/
def home : Backup fileCrates :=
  alone (newZone "home.lan") homeRows rfl homeRows_accepted

/-- What the store has for the rows of the zone. -/
lemma home_stored : home.stored =
    [("home.lan".toList, ⟨.MX, 300, none, .other .MX "10 mail.home.lan.", rfl⟩),
      ("home.lan".toList, ⟨.NS, 300, none, .ns (.ofPlain "ns1.home.lan"), rfl⟩),
      ("home.lan".toList, ⟨.TXT, 300, none, .other .TXT "\"v=spf1 mx; -all\"", rfl⟩),
      ("blog.home.lan".toList, ⟨.CNAME, 300, none, .cname (.ofPlain "www.home.lan"), rfl⟩),
      ("www.home.lan".toList, ⟨.A, 60, none, .a 0xc0000201, rfl⟩)] := by
  decide +kernel

/-- A text without blanks is a field. -/
lemma isField_of_all {s : Str} (hne : s ≠ []) (hblank : (s.all fun c => isWhitespace c == false) = true) :
    IsField s :=
  ⟨hne, fun c hc => beq_iff_eq.mp (List.all_eq_true.mp hblank c hc)⟩

lemma home_dataPrinted : home.DataPrinted := by
  unfold DataPrinted
  rw [home_stored]
  simp only [List.mem_cons, List.not_mem_nil, or_false]
  rintro p (rfl | rfl | rfl | rfl | rfl)
  case inl =>
    refine ⟨by decide +kernel, "10", "mail.home.lan.", rfl, ?_, ?_⟩
    · exact isField_of_all (by decide) (by decide +kernel)
    · exact ⟨isField_of_all (by decide) (by decide +kernel), by decide +kernel⟩
  case inr.inl =>
    exact ⟨by decide +kernel, isField_of_all (by decide) (by decide +kernel), by decide +kernel⟩
  case inr.inr.inl => exact ⟨by decide +kernel, trivial⟩
  case inr.inr.inr.inl =>
    exact ⟨by decide +kernel, isField_of_all (by decide) (by decide +kernel), by decide +kernel⟩
  case inr.inr.inr.inr => exact ⟨by decide +kernel, trivial⟩

/-- A row of the zone that means the same in a zone file, from its type, its fields and its owner. -/
lemma portableRow_of_fields {z : Zone} {r : DnsRecord} {t : RecordType} {fs : List Str} {owner : Name}
    (htype : parseRecordType r.rtype = .ok t) (hdata : PortableData t r.data fs)
    (howner : recordFqdnName fileCrates r.name z.name = .ok owner)
    (hdisplayed : DisplayedUnder z.name (nameKey fileCrates owner))
    (hname : IsOne (ownerField r) ∧ endsWith r.name ['.'] = false ∧ r.name.head? ≠ some '$') :
    PortableRow fileCrates z r where
  owner := hname.1
  dot := hname.2.1
  directive := hname.2.2
  displayed owner' howner' := by
    rw [howner] at howner'
    cases howner'
    exact hdisplayed
  data t' htype' := by
    rw [htype] at htype'
    cases htype'
    exact ⟨fs, hdata⟩

/-- Data whose names are portable, from its fields with their positions. -/
lemma portableData_of_all {t : RecordType} {data : Str} {fs : List Str} (hfields : fields data = some fs)
    (hne : fs ≠ []) (hpieces : match t with
      | .CNAME | .NS | .PTR => fs = [data]
      | .MX | .SRV => splitWhitespace data = fs
      | _ => True)
    (hnames : ∀ p ∈ fs.zipIdx, p.2 ∈ nameFields t → PortableName (qualifies t fs.length) p.1) :
    PortableData t data fs :=
  ⟨hfields, hne, hpieces, fun _ _ hf => hnames _ (List.mk_mem_zipIdx_iff_getElem?.mpr hf)⟩

lemma homeRows_portable : ∀ r ∈ homeRows, PortableRow fileCrates (newZone "home.lan") r := by
  unfold homeRows
  simp only [List.mem_cons, List.not_mem_nil, or_false]
  rintro r (rfl | rfl | rfl | rfl | rfl)
  case inl =>
    have hdata : PortableData .MX "10 mail".toList ["10".toList, "mail".toList] :=
      portableData_of_all (by decide) (by decide) (by decide +kernel) (by decide)
    exact portableRow_of_fields rfl hdata rfl (.inl rfl) (by decide)
  case inr.inl =>
    have hdata : PortableData .NS "ns1.home.lan.".toList ["ns1.home.lan.".toList] :=
      portableData_of_all (by decide) (by decide) rfl (by decide)
    exact portableRow_of_fields rfl hdata rfl (.inl rfl) (by decide)
  case inr.inr.inl =>
    have hdata : PortableData .TXT "\"v=spf1 mx; -all\"".toList ["\"v=spf1 mx; -all\"".toList] :=
      portableData_of_all (by decide) (by decide) trivial (by decide)
    exact portableRow_of_fields rfl hdata rfl (.inl rfl) (by decide)
  case inr.inr.inr.inl =>
    have hdata : PortableData .CNAME "www".toList ["www".toList] :=
      portableData_of_all (by decide) (by decide) rfl (by decide)
    exact portableRow_of_fields rfl hdata rfl (.inr ⟨"blog", by decide, by decide, by decide⟩) (by decide)
  case inr.inr.inr.inr =>
    have hdata : PortableData .A "192.0.2.1".toList ["192.0.2.1".toList] :=
      portableData_of_all (by decide) (by decide) trivial (by decide)
    exact portableRow_of_fields rfl hdata rfl (.inr ⟨"www", by decide, by decide, by decide⟩) (by decide)

lemma home_portable : home.Portable where
  head := by
    refine ⟨by decide, by decide, by decide, by decide, ?_, by decide⟩
    exact (exists_ok_iff _).mpr (by decide +kernel)
  rows := by
    have hrows : home.rows = homeRows := by decide +kernel
    rw [hrows]
    exact homeRows_portable
  ttls := by decide +kernel
  distinct := ⟨by decide +kernel, by decide +kernel⟩

/-- The backup of the zone is restored. -/
theorem restored_home : home.Restored :=
  restored_of_portable file_printsNames file_readsZonefiles home home_dataPrinted home_portable

/-! ### Zones that are not restored -/

/-- A lookup on the rebuilt store returns other records than before, also without the serial. -/
def Changed (B : Backup K) (qname : Name) (qtype : RecordType) : Prop :=
  ¬ ((B.after.store.lookup K qname qtype (.v4 0) {}).answers.map Record.unserialed).Perm
    (((buildFrom K B.state.db).lookup K qname qtype (.v4 0) {}).answers.map Record.unserialed)

instance (B : Backup K) (qname : Name) (qtype : RecordType) : Decidable (B.Changed qname qtype) :=
  inferInstanceAs (Decidable (¬ _))

lemma Changed.not_restored {B : Backup K} {qname : Name} {qtype : RecordType}
    (h : B.Changed qname qtype) : ¬ B.Restored :=
  fun hrestored => h (hrestored.lookup qname qtype (.v4 0) {}).answers

/-- Address data is printed faithfully. -/
lemma dataPrinted_of_addresses {B : Backup fileCrates} (h : ∀ p ∈ B.stored, p.2.rdata = .a 0xc0000201) :
    B.DataPrinted := by
  intro p hp
  rw [h p hp]
  exact ⟨by decide +kernel, trivial⟩

/-- The rows of a new zone are accepted. -/
def AcceptedIn (name : Str) (rows : List DnsRecord) : Prop :=
  ∀ r ∈ rows, Accepted fileCrates (Db.readZone (newZone name)) r

instance (name : Str) (rows : List DnsRecord) : Decidable (AcceptedIn name rows) :=
  inferInstanceAs (Decidable (∀ r ∈ rows, _))

/-- An alias for a name with dots in it, and none at its end. -/
def relativeRows : List DnsRecord :=
  [newRow 1 "mail" "CNAME" none "mail.example.org"]

/-- An address of a name with a dot at its end. -/
def dottedRows : List DnsRecord :=
  [newRow 1 "www.home.lan." "A" none "192.0.2.1"]

/-- An address without a TTL behind one with another TTL than that of the zone. -/
def behindRows : List DnsRecord :=
  [newRow 1 "nas" "A" (some 60) "192.0.2.1", newRow 2 "www" "A" none "192.0.2.1"]

/-- The same address twice. -/
def twiceRows : List DnsRecord :=
  [newRow 1 "www" "A" none "192.0.2.1", newRow 2 "www" "A" none "192.0.2.1"]

/-- A zone with a mail address in its SOA. -/
def mailZone : Zone :=
  { newZone "home.lan" with soa := { Soa.defaultFor "home.lan" with adminEmail := "admin@home.lan" } }

lemma relativeRows_accepted : AcceptedIn "home.lan" relativeRows := by decide +kernel

lemma dottedRows_accepted : AcceptedIn "home.lan" dottedRows := by decide +kernel

lemma behindRows_accepted : AcceptedIn "home.lan" behindRows := by decide +kernel

lemma twiceRows_accepted : AcceptedIn "home.lan" twiceRows := by decide +kernel

lemma wwwRow_accepted : AcceptedIn "xn--bcher-kva.example" [wwwRow] := by decide +kernel

/-- The backups of zones with these rows. -/
def relative : Backup fileCrates :=
  alone (newZone "home.lan") relativeRows rfl relativeRows_accepted

def dotted : Backup fileCrates :=
  alone (newZone "home.lan") dottedRows rfl dottedRows_accepted

def behind : Backup fileCrates :=
  alone (newZone "home.lan") behindRows rfl behindRows_accepted

def twice : Backup fileCrates :=
  alone (newZone "home.lan") twiceRows rfl twiceRows_accepted

/-- The zone is configured in its ASCII form. -/
def ascii : Backup fileCrates :=
  alone (newZone "xn--bcher-kva.example") [wwwRow] rfl wwwRow_accepted

/-- No rows, and a mail address in the SOA. -/
def mailed : Backup fileCrates :=
  alone mailZone [] rfl nofun

lemma relative_dataPrinted : relative.DataPrinted := by
  have hstored : relative.stored =
      [("mail.home.lan".toList, ⟨.CNAME, 300, none, .cname (.ofPlain "mail.example.org"), rfl⟩)] := by
    decide +kernel
  intro p hp
  rw [hstored] at hp
  rw [List.mem_singleton.mp hp]
  exact ⟨by decide +kernel, isField_of_all (by decide) (by decide +kernel), by decide +kernel⟩

/-- The import into a zone with a mail address in its SOA fails. -/
lemma mailed_not_restored : ¬ mailed.Restored := by
  intro hrestored
  obtain ⟨counts, hcounts⟩ := hrestored.succeeds
  have hnone : ((restore fileCrates mailed.row.id).result mailed.state).toOption = none := by
    decide +kernel
  rw [hcounts] at hnone
  cases hnone

/-- The serial of a zone is raised by the import, also where all else is restored. Data with dots but
none at its end is read behind the origin, and an owner with a dot at its end is not; a record without
a TTL gets the one stated last; a mail address is no name, and the import fails; a record that is there
twice is there once; and owners below a zone in its ASCII form are written in full. -/
theorem not_preserved_home :
    fileCrates.PrintsNames ∧ fileCrates.ReadsZonefiles ∧
      (home.DataPrinted ∧ ¬ home.Preserved) ∧
      (relative.DataPrinted ∧ ¬ relative.Restored) ∧
      (dotted.DataPrinted ∧ ¬ dotted.Restored) ∧
      (behind.DataPrinted ∧ ¬ behind.Restored) ∧
      (mailed.DataPrinted ∧ ¬ mailed.Restored) ∧
      (twice.DataPrinted ∧ ¬ twice.Restored) ∧
      (ascii.DataPrinted ∧ ¬ ascii.Restored) := by
  have hserial : ¬ home.Preserved := by
    intro hpreserved
    have hperm := hpreserved.lookup (.ofPlain "home.lan") .SOA (.v4 0) {}
    revert hperm
    decide +kernel
  have hrelative : relative.Changed (.ofPlain "mail.home.lan") .CNAME := by decide +kernel
  have hdotted : dotted.Changed (.ofPlain "www.home.lan") .A := by decide +kernel
  have hbehind : behind.Changed (.ofPlain "www.home.lan") .A := by decide +kernel
  have htwice : twice.Changed (.ofPlain "www.home.lan") .A := by decide +kernel
  have hascii : ascii.Changed wwwBucher .A := by decide +kernel
  exact ⟨file_printsNames, file_readsZonefiles, ⟨home_dataPrinted, hserial⟩,
    ⟨relative_dataPrinted, hrelative.not_restored⟩,
    ⟨dataPrinted_of_addresses (by decide +kernel), hdotted.not_restored⟩,
    ⟨dataPrinted_of_addresses (by decide +kernel), hbehind.not_restored⟩,
    ⟨dataPrinted_of_addresses (by decide +kernel), mailed_not_restored⟩,
    ⟨dataPrinted_of_addresses (by decide +kernel), htwice.not_restored⟩,
    ⟨dataPrinted_of_addresses (by decide +kernel), hascii.not_restored⟩⟩

end Backup

end Nomina
