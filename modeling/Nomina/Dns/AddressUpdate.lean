import Nomina.Coherence
import Nomina.Confinement
import Nomina.Dns.Answers

/-!
# Updates of an address and the answers after them

A dynamic update chooses a zone and a row by their texts, among all zones and rows, while the store
serves enabled zones and rows under the names they are read as. The main result says exactly when every
update of an address is what a query for the host is answered with afterwards.
-/

namespace Nomina

open Lib Sql EStateM

variable {K : Crates}

/-! ## What an owner entry shows -/

/-- The type of the records of an address. -/
def addressRecordType : IpAddr → RecordType
  | .v4 _ => .A
  | .v6 _ => .AAAA

/-- The data of the records of an address. -/
def addressRData : IpAddr → RData
  | .v4 ip => .a ip
  | .v6 ip => .aaaa ip

/-- Address texts are read back as record data. -/
def Crates.ReadsAddresses (K : Crates) : Prop :=
  ∀ ip, K.tryFromStr (addressRecordType ip) (fmtIpAddr ip) = .ok (addressRData ip)

/-- The rows of a zone that are read. -/
def parsedRows (K : Crates) (t : Tables) (z : Zone) : List ParsedRow :=
  (t.zoneRecords z.id).filterMap (parseRow K z)

/-- The rows that a name is answered from: of the keys tried for it, those with the first that is the key
of some owner. -/
def entryRows (K : Crates) (rows : List ParsedRow) (qname : Name) : List ParsedRow :=
  ((candidateKeys (nameKey K qname)).find? fun key =>
    rows.any fun p => nameKey K p.owner == key).elim [] fun key =>
      rows.filter fun p => nameKey K p.owner == key

section

variable {t : Tables} {z : Zone} {apex qname : Name} {rtype : RecordType} {view : Option ℕ}
  {rows rows' : List ParsedRow}

/-- The rows that a name is answered from do not depend on the order. -/
lemma entryRows_perm (h : rows'.Perm rows) : (entryRows K rows' qname).Perm (entryRows K rows qname) := by
  have hany : ∀ key : Str, (rows'.any fun p => nameKey K p.owner == key) =
      rows.any fun p => nameKey K p.owner == key := fun key => h.any_eq
  unfold entryRows
  simp only [hany]
  cases (candidateKeys (nameKey K qname)).find? fun key => rows.any fun p => nameKey K p.owner == key with
  | none => exact .refl _
  | some key => exact h.filter _

/-- What a built zone shows at a name is chosen among the rows that the name is answered from. -/
lemma shown_storedZone (signingKey : Option DnssecKey) :
    ((shown K (storedZone K z apex signingKey (Db.sortRecords (t.zoneRecords z.id))) (viewIdOf view) qname
      rtype).map StoredRecord.served).Perm
      ((ParsedRow.select view rtype (entryRows K (parsedRows K t z) qname)).map ParsedRow.served) := by
  have hkey : ∀ key : Str, decide (key ∈ (storedZone K z apex signingKey
      (Db.sortRecords (t.zoneRecords z.id))).records) =
      (parsedRows K t z).any fun p => nameKey K p.owner == key := by
    intro key
    rw [Bool.eq_iff_iff, decide_eq_true_eq, List.any_eq_true, mem_storedZone]
    simp only [beq_iff_eq]
    rfl
  have hstored : ∀ recs : List StoredRecord,
      (rowsFor StoredRecord.rtype StoredRecord.viewId view rtype recs).map StoredRecord.served =
        rowsFor Prod.fst (fun x : Served => x.2.1) view rtype (recs.map StoredRecord.served) := by
    intro recs
    rw [rowsFor_map]
    rfl
  have hparsed : ∀ rows : List ParsedRow, (ParsedRow.select view rtype rows).map ParsedRow.served =
      rowsFor Prod.fst (fun x : Served => x.2.1) view rtype (rows.map ParsedRow.served) := by
    intro rows
    rw [rowsFor_map]
    rfl
  unfold shown entryRows
  rw [recordsAt_eq, resolve_eq_rowsFor, hstored, hparsed]
  unfold ownerKey
  simp only [hkey]
  cases (candidateKeys (nameKey K qname)).find? fun key =>
    (parsedRows K t z).any fun p => nameKey K p.owner == key with
  | none => exact .refl _
  | some key =>
    refine rowsFor_perm ((at_storedZone z apex signingKey t key).trans (.of_eq ?_))
    refine congrArg (List.map ParsedRow.served) (List.filter_congr fun p _ => ?_)
    rw [Bool.eq_iff_iff, decide_eq_true_eq, beq_iff_eq]

/-- An address is what a name is answered with when it is what the zone of the name shows there. -/
lemma answers_eq_singleton_iff {s : ZoneStore} {zone : StoredZone} {client : IpAddr} {geo : ClientGeo}
    {ip : IpAddr} (hz : s.zoneFor qname = some zone) :
    (∃ x, (s.lookup K qname (addressRecordType ip) client geo).answers = [x] ∧ x.data = addressRData ip) ↔
      ∃ r, shown K zone (s.clientView client geo) qname (addressRecordType ip) = [r] ∧
        r.rdata = addressRData ip := by
  have htype : (addressRData ip).recordType = addressRecordType ip := by
    cases ip <;> rfl
  have hlookup : ∀ x : Record, x.data = addressRData ip →
      ((s.lookup K qname (addressRecordType ip) client geo).answers = [x] ↔
        (shown K zone (s.clientView client geo) qname (addressRecordType ip)).map (·.toRecord qname) = [x]) := by
    intro x hx
    rw [lookup_of_zoneFor hz]
    refine lookupIn_answers_eq_iff ?_ ?_ ?_ (List.cons_ne_nil _ _) ?_
    · cases ip <;> simp [addressRecordType]
    · cases ip <;> simp [addressRecordType]
    · cases ip <;> simp [addressRecordType]
    · intro r hr
      rw [List.mem_singleton.mp hr, hx]
      exact htype
  constructor
  · rintro ⟨x, hanswers, hx⟩
    obtain ⟨r, hr, rfl⟩ := List.map_eq_singleton_iff.mp ((hlookup x hx).mp hanswers)
    exact ⟨r, hr, hx⟩
  · rintro ⟨r, hr, hdata⟩
    refine ⟨r.toRecord qname, (hlookup _ hdata).mpr ?_, hdata⟩
    rw [hr]
    rfl

end

/-! ## One row among others -/

/-- A row with the given owner, among others, is at the entry that the name is answered from. -/
def Nearest (K : Crates) (others : List ParsedRow) (owner qname : Name) : Prop :=
  ((candidateKeys (nameKey K qname)).find? fun key =>
    nameKey K owner == key || others.any fun p => nameKey K p.owner == key) = some (nameKey K owner)

/-- No other row at the owner has the type and the view of a row, or the view of the client. -/
def Alone (K : Crates) (others : List ParsedRow) (owner : Name) (rtype : RecordType)
    (viewId view : Option ℕ) : Prop :=
  ∀ p ∈ others, nameKey K p.owner = nameKey K owner → p.rtype = rtype →
    p.viewId ≠ viewId ∧ ∀ v, view = some v → p.viewId ≠ some v

section

variable {qname : Name} {view : Option ℕ} {others : List ParsedRow} {w w' p p' : ParsedRow}

/-- The entry of a row that is the nearest. -/
lemma entryRows_cons_of_nearest (h : Nearest K others w.owner qname) :
    entryRows K (w :: others) qname =
      w :: others.filter fun p => nameKey K p.owner == nameKey K w.owner := by
  unfold Nearest at h
  unfold entryRows
  simp only [List.any_cons]
  rw [h, Option.elim_some, List.filter_cons, if_pos (beq_self_eq_true _)]

/-- The entry when a row is not the nearest does not have the row. -/
lemma entryRows_cons_of_not_nearest (h : ¬Nearest K others w.owner qname) (howner : w'.owner = w.owner) :
    entryRows K (w :: others) qname = entryRows K (w' :: others) qname := by
  unfold Nearest at h
  unfold entryRows
  simp only [List.any_cons, howner]
  cases hkey : (candidateKeys (nameKey K qname)).find? fun key =>
      nameKey K w.owner == key || others.any fun p => nameKey K p.owner == key with
  | none => rfl
  | some key =>
    have hne : ¬(nameKey K w.owner == key) = true := by
      intro heq
      rw [beq_iff_eq] at heq
      exact h (heq ▸ hkey)
    rw [Option.elim_some, Option.elim_some, List.filter_cons, if_neg hne, List.filter_cons, howner,
      if_neg hne]

/-- The choice with a row of the client's view. -/
lemma select_cons_pinned {v : ℕ} (hw : w.viewId = some v) :
    ParsedRow.select (some v) w.rtype (w :: others) =
      w :: others.filter fun p => p.rtype == w.rtype && p.viewId == some v := by
  have hown : (w.rtype == w.rtype && ((some v).isSome && w.viewId == some v)) = true := by
    simp [hw]
  unfold ParsedRow.select rowsFor
  rw [List.filter_cons, if_pos hown]
  rfl

/-- The choice with a row of all views. -/
lemma select_cons_shared (hw : w.viewId = none) :
    ParsedRow.select view w.rtype (w :: others) =
      if (others.filter fun p => p.rtype == w.rtype && (view.isSome && p.viewId == view)).isEmpty then
        w :: others.filter fun p => p.rtype == w.rtype && p.viewId.isNone
      else others.filter fun p => p.rtype == w.rtype && (view.isSome && p.viewId == view) := by
  have hown : ¬(w.rtype == w.rtype && (view.isSome && w.viewId == view)) = true := by
    rw [hw]
    cases view <;> simp
  have hshared : (w.rtype == w.rtype && w.viewId.isNone) = true := by
    simp [hw]
  unfold ParsedRow.select rowsFor
  dsimp only
  rw [List.filter_cons, if_neg hown, List.filter_cons, if_pos hshared]

/-- A row that is alone is chosen alone. -/
lemma select_cons_of_alone (hview : ∀ v, w.viewId = some v → view = some v)
    (h : ∀ p ∈ others, p.rtype = w.rtype → p.viewId ≠ w.viewId ∧ ∀ v, view = some v → p.viewId ≠ some v) :
    ParsedRow.select view w.rtype (w :: others) = [w] := by
  cases hw : w.viewId with
  | some v =>
    obtain rfl := hview v hw
    rw [select_cons_pinned hw, List.filter_eq_nil_iff.mpr]
    intro p hp hpinned
    rw [Bool.and_eq_true, beq_iff_eq, beq_iff_eq] at hpinned
    exact (h p hp hpinned.1).2 v rfl hpinned.2
  | none =>
    have hown : (others.filter fun p => p.rtype == w.rtype && (view.isSome && p.viewId == view)) = [] := by
      refine List.filter_eq_nil_iff.mpr fun p hp hpinned => ?_
      rw [Bool.and_eq_true, Bool.and_eq_true, beq_iff_eq, beq_iff_eq] at hpinned
      obtain ⟨v, hv⟩ := Option.isSome_iff_exists.mp hpinned.2.1
      exact (h p hp hpinned.1).2 v hv (hpinned.2.2.trans hv)
    rw [select_cons_shared hw, hown, if_pos List.isEmpty_nil, List.filter_eq_nil_iff.mpr]
    intro p hp hshared
    rw [Bool.and_eq_true, beq_iff_eq, Option.isNone_iff_eq_none] at hshared
    exact (h p hp hshared.1).1 (hshared.2.trans hw.symm)

/-- Of two rows that differ in their data, each chosen as the only one, no other one is in the way. -/
lemma alone_of_select (w w' : ParsedRow) (hview : ∀ v, w.viewId = some v → view = some v) (htype : w'.rtype = w.rtype)
    (hsame : w'.viewId = w.viewId) (h : ParsedRow.select view w.rtype (w :: others) = [p])
    (h' : ParsedRow.select view w.rtype (w' :: others) = [p']) (hne : p ≠ p') :
    ∀ p ∈ others, p.rtype = w.rtype → p.viewId ≠ w.viewId ∧ ∀ v, view = some v → p.viewId ≠ some v := by
  intro q hq hqtype
  cases hw : w.viewId with
  | some v =>
    obtain rfl := hview v hw
    rw [select_cons_pinned hw] at h
    have hnone := List.filter_eq_nil_iff.mp (List.cons.inj h).2 q hq
    have hq' : q.viewId ≠ some v := by simpa [hqtype] using hnone
    exact ⟨hq', fun v' hv' => hv' ▸ hq'⟩
  | none =>
    rw [select_cons_shared hw] at h
    rw [← htype, select_cons_shared (hsame.trans hw), htype] at h'
    cases hown : (others.filter fun p => p.rtype == w.rtype && (view.isSome && p.viewId == view)).isEmpty with
    | false =>
      -- Rows of the client's view would be chosen both times.
      rw [hown, if_neg Bool.false_ne_true] at h h'
      exact absurd (List.cons.inj (h.symm.trans h')).1 hne
    | true =>
      rw [hown, if_pos rfl] at h
      have hshared := List.filter_eq_nil_iff.mp (List.cons.inj h).2 q hq
      have hpinned := List.filter_eq_nil_iff.mp (List.isEmpty_iff.mp hown) q hq
      refine ⟨by simpa [hqtype] using hshared, ?_⟩
      rintro v rfl
      simpa [hqtype] using hpinned

/-- A row that is chosen for a name, whatever its data, is at the entry of the name and alone there. -/
lemma nearest_and_alone {owner : Name} {rtype : RecordType} {rowTtl : ℕ} {viewId : Option ℕ}
    {data data' : RData} (hview : ∀ v, viewId = some v → view = some v)
    (h : ParsedRow.select view rtype (entryRows K (⟨owner, rtype, rowTtl, viewId, data⟩ :: others) qname) =
      [p])
    (h' : ParsedRow.select view rtype
      (entryRows K (⟨owner, rtype, rowTtl, viewId, data'⟩ :: others) qname) = [p']) (hne : p ≠ p') :
    Nearest K others owner qname ∧ Alone K others owner rtype viewId view := by
  have hnearest : Nearest K others owner qname := by
    by_contra hfar
    have hsame : entryRows K (⟨owner, rtype, rowTtl, viewId, data⟩ :: others) qname =
        entryRows K (⟨owner, rtype, rowTtl, viewId, data'⟩ :: others) qname :=
      entryRows_cons_of_not_nearest hfar rfl
    rw [hsame] at h
    exact hne (List.cons.inj (h.symm.trans h')).1
  have hentry : ∀ data : RData, entryRows K (⟨owner, rtype, rowTtl, viewId, data⟩ :: others) qname =
      ⟨owner, rtype, rowTtl, viewId, data⟩ ::
        others.filter fun p => nameKey K p.owner == nameKey K owner :=
    fun data => entryRows_cons_of_nearest hnearest
  rw [hentry] at h h'
  have halone : ∀ p ∈ others.filter fun p => nameKey K p.owner == nameKey K owner, p.rtype = rtype →
      p.viewId ≠ viewId ∧ ∀ v, view = some v → p.viewId ≠ some v :=
    alone_of_select ⟨owner, rtype, rowTtl, viewId, data⟩ ⟨owner, rtype, rowTtl, viewId, data'⟩ hview rfl
      rfl h h' hne
  refine ⟨hnearest, fun p hp howner htype => ?_⟩
  exact halone p (List.mem_filter.mpr ⟨hp, beq_iff_eq.mpr howner⟩) htype

/-- A row at the entry of a name that is alone there is what is chosen for the name. -/
lemma select_entryRows_of_alone {owner : Name} {rtype : RecordType} {rowTtl : ℕ} {viewId : Option ℕ}
    {data : RData} (hview : ∀ v, viewId = some v → view = some v) (hnearest : Nearest K others owner qname)
    (halone : Alone K others owner rtype viewId view) :
    ParsedRow.select view rtype (entryRows K (⟨owner, rtype, rowTtl, viewId, data⟩ :: others) qname) =
      [⟨owner, rtype, rowTtl, viewId, data⟩] := by
  have hentry : entryRows K (⟨owner, rtype, rowTtl, viewId, data⟩ :: others) qname =
      ⟨owner, rtype, rowTtl, viewId, data⟩ ::
        others.filter fun p => nameKey K p.owner == nameKey K owner :=
    entryRows_cons_of_nearest hnearest
  rw [hentry]
  refine select_cons_of_alone (w := ⟨owner, rtype, rowTtl, viewId, data⟩) hview fun p hp htype => ?_
  obtain ⟨hmem, howner⟩ := List.mem_filter.mp hp
  exact halone p hmem (beq_iff_eq.mp howner) htype

end

/-! ## The rows after an update -/

/-- The type of the address records of a family. -/
def IpFamily.recordType : IpFamily → RecordType
  | .V4 => .A
  | .V6 => .AAAA

/-- The rows of a zone that are read, but for one that was found. -/
def otherRows (K : Crates) (t : Tables) (z : Zone) (found : Option DnsRecord) : List ParsedRow :=
  ((t.zoneRecords z.id).filter fun r => found.all (·.id != r.id)).filterMap (parseRow K z)

section

variable {t t' : Tables} {z : Zone} {zoneId ttl : ℕ} {rel : Str} {ip : IpAddr} {family : IpFamily}
  {viewId : Option ℕ} {row : DnsRecord} {apex qname owner : Name}

lemma addressRecordType_eq (h : familyMatches ip family = true) :
    addressRecordType ip = family.recordType ∧ Db.addressType ip = family.recordType.toText := by
  cases ip <;> cases family <;> first | exact ⟨rfl, rfl⟩ | cases h

/-- A row of an address is read when it is enabled and its name is. -/
lemma parseRow_address (haddr : K.ReadsAddresses) (htype : row.rtype = Db.addressType ip)
    (hdata : row.data = fmtIpAddr ip) :
    parseRow K z row = if row.enabled then (recordFqdnName K row.name z.name).toOption.map fun owner =>
      ⟨owner, addressRecordType ip, row.ttl.getD z.defaultTtl, row.viewId, addressRData ip⟩ else none := by
  have hrtype : parseRecordType (Db.addressType ip) = .ok (addressRecordType ip) := by
    cases ip <;> rfl
  have hrdata : parseRdata K (addressRecordType ip) (fmtIpAddr ip) z.name = .ok (addressRData ip) := by
    have hqualified : prequalifyData (addressRecordType ip) (fmtIpAddr ip) z.name = fmtIpAddr ip := by
      cases ip <;> rfl
    unfold parseRdata
    rw [hqualified, haddr ip]
  unfold parseRow
  rw [htype, hdata, hrtype]
  cases row.enabled with
  | false => rfl
  | true =>
    rw [if_pos rfl, if_pos rfl]
    cases hname : recordFqdnName K row.name z.name with
    | error e => simp [Except.toOption]
    | ok owner => simp [Except.toOption, hrdata]

/-- The rows of a zone are told by its id, its name and its default TTL. -/
lemma parsedRows_congr {z' : Zone} (h : unserial z' = unserial z) :
    parsedRows K t z' = parsedRows K t z := by
  have hrows : ∀ w : Zone, parsedRows K t w = parsedRows K t (unserial w) := fun _ => rfl
  rw [hrows, h, ← hrows]

/-- What is known of the row that an update leaves. -/
lemma addressedRow_spec (t : Tables) (zoneId : ℕ) (rel : Str) (ip : IpAddr) (viewId : Option ℕ) (ttl : ℕ) :
    let found := addressRow t zoneId rel (Db.addressType ip) viewId
    let row := addressedRow t zoneId rel ip viewId ttl
    row.zoneId = zoneId ∧ row.viewId = viewId ∧ row.rtype = Db.addressType ip ∧ row.data = fmtIpAddr ip ∧
      row.enabled = found.all (·.enabled) ∧ row.name = (found.map DnsRecord.name).getD rel ∧
      row.ttl = (found.map DnsRecord.ttl).getD (some ttl) := by
  unfold addressedRow
  cases hrow : addressRow t zoneId rel (Db.addressType ip) viewId with
  | none => exact ⟨rfl, rfl, rfl, rfl, rfl, rfl, rfl⟩
  | some r =>
    obtain ⟨-, hzone, -, htype, hview⟩ := addressRow_spec hrow
    exact ⟨hzone, hview, htype, rfl, rfl, rfl, rfl⟩

/-- The rows that do not have the id of the row that an update leaves are those but the one it finds. -/
lemma id_addressedRow {r : DnsRecord} (hr : r ∈ t.records) :
    (r.id != (addressedRow t zoneId rel ip viewId ttl).id) =
      (addressRow t zoneId rel (Db.addressType ip) viewId).all (·.id != r.id) := by
  unfold addressedRow
  cases addressRow t zoneId rel (Db.addressType ip) viewId with
  | none =>
    refine bne_iff_ne.mpr fun hid => freshId_notMem (t.records.map DnsRecord.id) ?_
    exact List.mem_map.mpr ⟨r, hr, hid⟩
  | some found =>
    rw [Bool.eq_iff_iff, Option.all_some, bne_iff_ne, bne_iff_ne]
    exact ne_comm

/-- The rows of a zone after an update: in the zone of the update the one that it sets, if it is read, and
the others. -/
def rowsAfter (K : Crates) (t : Tables) (z : Zone) (zoneId : ℕ) (rel : Str) (ip : IpAddr)
    (viewId : Option ℕ) (ttl : ℕ) : List ParsedRow :=
  if z.id = zoneId then (parseRow K z (addressedRow t zoneId rel ip viewId ttl)).toList ++
    otherRows K t z (addressRow t zoneId rel (Db.addressType ip) viewId)
  else parsedRows K t z

/-- The rows after an update are those. -/
lemma parsedRows_perm (hkeys : (t.records.map DnsRecord.id).Nodup)
    (h : SetsRow (addressedRow t zoneId rel ip viewId ttl) t t') :
    (parsedRows K t' z).Perm (rowsAfter K t z zoneId rel ip viewId ttl) := by
  have hzone := (addressedRow_spec t zoneId rel ip viewId ttl).1
  refine ((h.records.filter _).filterMap _).trans (.of_eq ?_)
  unfold rowsAfter
  split
  · rename_i hz
    have hothers : (t.records.filter (·.id != (addressedRow t zoneId rel ip viewId ttl).id)).filter
        (·.zoneId == z.id) = (t.zoneRecords z.id).filter fun r =>
          (addressRow t zoneId rel (Db.addressType ip) viewId).all (·.id != r.id) := by
      unfold Tables.zoneRecords
      rw [List.filter_filter, List.filter_filter]
      refine List.filter_congr fun r hr => ?_
      rw [id_addressedRow hr, Bool.and_comm]
    rw [List.filter_cons_of_pos (by simp [hzone, hz]), hothers, List.filterMap_cons]
    unfold otherRows
    cases parseRow K z (addressedRow t zoneId rel ip viewId ttl) <;> rfl
  · rename_i hz
    -- The row that is found is in the zone of the update.
    have hother : (t.records.filter (·.id != (addressedRow t zoneId rel ip viewId ttl).id)).filter
        (·.zoneId == z.id) = t.zoneRecords z.id := by
      rw [List.filter_filter]
      refine List.filter_congr fun r hr => ?_
      rw [id_addressedRow hr]
      cases hrow : addressRow t zoneId rel (Db.addressType ip) viewId with
      | none => simp
      | some found =>
        obtain ⟨hfound, hfoundZone, -⟩ := addressRow_spec hrow
        rw [Option.all_some, Bool.eq_iff_iff, Bool.and_eq_true, bne_iff_ne, beq_iff_eq]
        refine and_iff_left_of_imp fun hrz hid => hz ?_
        rw [← hrz, ← hfoundZone, List.inj_on_of_nodup_map hkeys hfound hr hid]
    rw [List.filter_cons_of_neg (by simpa [hzone] using Ne.symm hz), hother]
    rfl

/-- Zones serve a name whatever their serials. -/
lemma ServesName.of_sameZones (h : ServesName K t qname z apex) (hzones : SameZones t t')
    (hnames : (t'.zones.map Zone.name).Nodup) :
    ∃ z', unserial z' = unserial z ∧ ServesName K t' qname z' apex := by
  have hapexOf : ∀ w : Zone, servedApex K w = servedApex K (unserial w) := fun _ => rfl
  have hname : ∀ w : Zone, w.name = (unserial w).name := fun _ => rfl
  have hmem := List.mem_map_of_mem (f := unserial) h.mem
  rw [← hzones] at hmem
  obtain ⟨z', hz', heq⟩ := List.mem_map.mp hmem
  refine ⟨z', heq, hz', ?_, h.covers, fun w' hw' apex' hapex' hcovers' => ?_⟩
  · rw [hapexOf, heq, ← hapexOf]
    exact h.apex_eq
  · have hmem' := List.mem_map_of_mem (f := unserial) hw'
    rw [hzones] at hmem'
    obtain ⟨w, hw, heq'⟩ := List.mem_map.mp hmem'
    rw [hapexOf, ← heq', ← hapexOf] at hapex'
    rcases h.longest w hw apex' hapex' hcovers' with hshorter | ⟨hequal, rfl | hlater⟩
    · exact .inl hshorter
    · refine .inr ⟨hequal, .inl (List.inj_on_of_nodup_map hnames hw' hz' ?_)⟩
      rw [hname, ← heq', ← heq, ← hname]
    · refine .inr ⟨hequal, .inr ?_⟩
      rwa [hname z', heq, ← hname, hname w', ← heq', ← hname]

lemma SameZones.names {t t' : Tables} (h : SameZones t t') (hnames : (t.zones.map Zone.name).Nodup) :
    (t'.zones.map Zone.name).Nodup := by
  have hmap : ∀ u : Tables, u.zones.map Zone.name = (u.zones.map unserial).map Zone.name := by
    intro u
    rw [List.map_map]
    rfl
  rw [hmap, h, ← hmap]
  exact hnames

/-- The view of a client is told by the views. -/
lemma viewFor_buildFrom (hviews : t'.views = t.views) (client : IpAddr) (geo : ClientGeo) :
    (buildFrom K t').viewFor client geo = (buildFrom K t).viewFor client geo := by
  unfold buildFrom Db.viewsByPriority
  rw [hviews]
  rfl

/-- One element on one side of a permutation of images, and one on the other. -/
lemma exists_eq_singleton_iff {α β γ : Type} {f : α → γ} {g : β → γ} {l : List α} {l' : List β}
    (h : (l.map f).Perm (l'.map g)) (P : γ → Prop) :
    (∃ a, l = [a] ∧ P (f a)) ↔ ∃ b, l' = [b] ∧ P (g b) := by
  constructor
  · rintro ⟨a, rfl, ha⟩
    obtain ⟨b, rfl, hb⟩ := List.map_eq_singleton_iff.mp (List.singleton_perm.mp h).symm
    exact ⟨b, rfl, hb ▸ ha⟩
  · rintro ⟨b, rfl, hb⟩
    obtain ⟨a, rfl, ha⟩ := List.map_eq_singleton_iff.mp (List.perm_singleton.mp h)
    exact ⟨a, rfl, ha ▸ hb⟩

/-- After the update an address is the one answer for a name exactly when the zone that serves the name
has it as the one row to choose. -/
lemma answers_iff_select {client : IpAddr} {geo : ClientGeo} (h : SetsRow row t t')
    (hnames : (t.zones.map Zone.name).Nodup) :
    (∃ x, ((buildFrom K t').lookup K qname (addressRecordType ip) client geo).answers = [x] ∧
        x.data = addressRData ip) ↔
      ∃ z apex p, ServesName K t qname z apex ∧
        ParsedRow.select (((buildFrom K t).viewFor client geo).map Prod.fst) (addressRecordType ip)
          (entryRows K (parsedRows K t' z) qname) = [p] ∧ p.rdata = addressRData ip := by
  have hview : (buildFrom K t').clientView client geo =
      viewIdOf (((buildFrom K t).viewFor client geo).map Prod.fst) := by
    rw [clientView_eq, viewFor_buildFrom h.views]
  -- What the stored zone shows and what is chosen among its rows, one record or row each.
  have hsingle : ∀ (z : Zone) (apex : Name),
      (∃ r, shown K (storedZone K (Db.readZone z) apex (t'.dnssecKey? z.id)
          (Db.sortRecords (t'.zoneRecords z.id))) ((buildFrom K t').clientView client geo) qname
          (addressRecordType ip) = [r] ∧ r.rdata = addressRData ip) ↔
        ∃ p, ParsedRow.select (((buildFrom K t).viewFor client geo).map Prod.fst) (addressRecordType ip)
          (entryRows K (parsedRows K t' z) qname) = [p] ∧ p.rdata = addressRData ip := by
    intro z apex
    rw [hview]
    have hperm : ((shown K (storedZone K (Db.readZone z) apex (t'.dnssecKey? z.id)
        (Db.sortRecords (t'.zoneRecords z.id)))
        (viewIdOf (((buildFrom K t).viewFor client geo).map Prod.fst)) qname
        (addressRecordType ip)).map StoredRecord.served).Perm
        ((ParsedRow.select (((buildFrom K t).viewFor client geo).map Prod.fst) (addressRecordType ip)
          (entryRows K (parsedRows K t' z) qname)).map ParsedRow.served) :=
      shown_storedZone (z := Db.readZone z) (t'.dnssecKey? z.id)
    exact exists_eq_singleton_iff hperm fun x => x.2.2.2 = addressRData ip
  constructor
  · rintro ⟨x, hanswers, hx⟩
    cases hz : (buildFrom K t').zoneFor qname with
    | none =>
      rw [lookup_of_zoneFor_none hz] at hanswers
      cases hanswers
    | some zone =>
      obtain ⟨z', apex, hserves, rfl⟩ := exists_servesName (h.zones.names hnames) hz
      obtain ⟨p, hp, hdata⟩ := (hsingle z' apex).mp ((answers_eq_singleton_iff hz).mp ⟨x, hanswers, hx⟩)
      obtain ⟨z, heq, hserves'⟩ := hserves.of_sameZones h.zones.symm hnames
      rw [← parsedRows_congr heq] at hp
      exact ⟨z, apex, p, hserves', hp, hdata⟩
  · rintro ⟨z, apex, p, hserves, hp, hdata⟩
    obtain ⟨z', heq, hserves'⟩ := hserves.of_sameZones h.zones (h.zones.names hnames)
    rw [← parsedRows_congr heq] at hp
    exact (answers_eq_singleton_iff hserves'.zoneFor).mpr ((hsingle z' apex).mpr ⟨p, hp, hdata⟩)

/-- A name is served by one zone. -/
lemma ServesName.unique {z' : Zone} {apex' : Name} (h : ServesName K t qname z apex)
    (h' : ServesName K t qname z' apex') : z' = z := by
  rcases h.longest z' h'.mem apex' h'.apex_eq h'.covers with hlt | ⟨heq, rfl | hlater⟩
  · rcases h'.longest z h.mem apex h.apex_eq h.covers with hlt' | ⟨heq', -⟩
    · exact absurd hlt' (Nat.lt_asymm hlt)
    · exact absurd heq' hlt.ne'
  · rfl
  · rcases h'.longest z h.mem apex h.apex_eq h.covers with hlt' | ⟨-, rfl | hlater'⟩
    · exact absurd heq.symm hlt'.ne
    · rfl
    · exact absurd hlater' (lt_asymm hlater)

/-- The choice for a name does not depend on the order of the rows. -/
lemma select_entryRows_perm {rows rows' : List ParsedRow} (h : rows'.Perm rows) (view : Option ℕ)
    (rtype : RecordType) :
    (ParsedRow.select view rtype (entryRows K rows' qname)).Perm
      (ParsedRow.select view rtype (entryRows K rows qname)) :=
  rowsFor_perm (entryRows_perm h)

end

/-! ## Updates that take effect -/

/-- Every run of the update that reports an outcome other than `NoZone` leaves a database from which the
name is answered with one record, which has the address. -/
def TakesEffect (K : Crates) (t : Tables) (host : Str) (ip : IpAddr) (viewId : Option ℕ) (ttl : ℕ)
    (client : IpAddr) (geo : ClientGeo) (qname : Name) : Prop :=
  ∀ c : Conn Tables, c.tables = t → ∀ u, (Db.dyndnsSetAddress host ip viewId ttl).result c = .ok u →
    u ≠ .NoZone →
    ∃ x, ((buildFrom K ((Db.dyndnsSetAddress host ip viewId ttl).after c).tables).lookup K qname
      (addressRecordType ip) client geo).answers = [x] ∧ x.data = addressRData ip

/-- An update for a relative name and a view reaches a name for the clients of `view`: the zone serves the
name, the row that is found there is enabled, the row that is left is read and is at the entry that the
name is answered from, and no other row that is read is in its way. -/
structure Reaches (K : Crates) (t : Tables) (z : Zone) (owner : Name) (rel : Str) (rtype : RecordType)
    (viewId view : Option ℕ) (qname : Name) : Prop where
  serves : ∃ apex, ServesName K t qname z apex
  enabled : (addressRow t z.id rel rtype.toText viewId).all (·.enabled) = true
  reads : recordFqdnName K (((addressRow t z.id rel rtype.toText viewId).map DnsRecord.name).getD rel)
    z.name = .ok owner
  nearest : Nearest K (otherRows K t z (addressRow t z.id rel rtype.toText viewId)) owner qname
  alone : Alone K (otherRows K t z (addressRow t z.id rel rtype.toText viewId)) owner rtype viewId view

section

variable {t : Tables} {host zoneName : Str} {ip : IpAddr} {family : IpFamily} {viewId : Option ℕ}
  {zoneId ttl : ℕ} {client : IpAddr} {geo : ClientGeo} {qname : Name}

/-- The view of a client exists. -/
lemma viewRefOk_of_viewFor
    (hview : ∀ v, viewId = some v → ((buildFrom K t).viewFor client geo).map Prod.fst = some v) :
    t.viewRefOk viewId = true := by
  cases viewId with
  | none => rfl
  | some v =>
    obtain ⟨⟨id, name⟩, hfor, hid⟩ := Option.map_eq_some_iff.mp (hview v rfl)
    obtain ⟨m, hm, hpair⟩ := Option.map_eq_some_iff.mp hfor
    have hmem := List.mem_of_find?_eq_some hm
    unfold buildFrom mkStore at hmem
    dsimp only at hmem
    rw [(List.perm_insertionSort _ _).mem_iff] at hmem
    obtain ⟨w, hw, rfl⟩ := List.mem_map.mp hmem
    unfold Db.viewsByPriority at hw
    rw [(List.perm_insertionSort _ _).mem_iff, (List.perm_insertionSort _ _).mem_iff] at hw
    have hwid : w.id = v := (congrArg Prod.fst hpair).trans hid
    unfold Tables.viewRefOk Tables.view?
    rw [Option.all_some, List.find?_isSome]
    exact ⟨w, hw, beq_iff_eq.mpr hwid⟩

/-- An update of an address stops at the first statement that fails. -/
lemma strict_dyndnsSetAddress (host : Str) (ip : IpAddr) (viewId : Option ℕ) (ttl : ℕ) :
    Strict (Db.dyndnsSetAddress host ip viewId ttl) := by
  unfold Db.dyndnsSetAddress
  refine .bind (.select _) fun zones => ?_
  split
  · exact .pure _
  · refine .bind (.select _) fun rows => ?_
    split
    · split
      · exact .pure _
      · refine .bind ?_ fun _ => .pure _
        exact .bind (.pure _) fun _ => .bind (.pure _) fun _ => .bind (.pure _) fun _ =>
          .bind (.update _) fun _ => .bind (.pure _) fun _ => .bind (.update _) fun _ =>
          .bind (.selectFirst _) fun _ => .update _
    · exact .bind (.bind (.execute _) fun _ => .bind (.update _) fun _ => .pure _) fun _ => .pure _

/-- Whether an update takes effect is told by a run in a database that refuses nothing. -/
lemma takesEffect_iff_of_evals {t' : Tables} {u : Db.DynUpdate}
    (h : Evals (Db.dyndnsSetAddress host ip viewId ttl) t (.ok u) t') (hne : u ≠ .NoZone) :
    TakesEffect K t host ip viewId ttl client geo qname ↔
      ∃ x, ((buildFrom K t').lookup K qname (addressRecordType ip) client geo).answers = [x] ∧
        x.data = addressRData ip := by
  constructor
  · intro heffect
    obtain ⟨hres, htables, -⟩ := h ⟨t, [], []⟩ rfl rfl
    rw [← htables]
    exact heffect _ rfl u hres hne
  · intro hanswers c hc u' hres _
    obtain ⟨-, htables⟩ := (strict_dyndnsSetAddress host ip viewId ttl).evals h hc hres
    rw [htables]
    exact hanswers

/-- Whether an update takes effect is told by the rows after it. -/
lemma takesEffect_iff_select (ip : IpAddr) (ttl : ℕ) (qname : Name)
    (hrecords : (t.records.map DnsRecord.id).Nodup) (hnames : (t.zones.map Zone.name).Nodup)
    (hzone : Db.longestSuffixZone (fun _ => true) (Db.foldHost (trim host)) (Db.zonesByName t) =
      some (zoneId, zoneName))
    (hview : ∀ v, viewId = some v → ((buildFrom K t).viewFor client geo).map Prod.fst = some v) :
    TakesEffect K t host ip viewId ttl client geo qname ↔
      ∃ z apex p, ServesName K t qname z apex ∧
        ParsedRow.select (((buildFrom K t).viewFor client geo).map Prod.fst) (addressRecordType ip)
          (entryRows K (rowsAfter K t z zoneId (Db.relativeTo (Db.foldHost (trim host)) zoneName) ip viewId
            ttl) qname) = [p] ∧ p.rdata = addressRData ip := by
  obtain ⟨u, t', hevals, hu, hset⟩ :=
    exists_evals_setsRow ip ttl hrecords (viewRefOk_of_viewFor hview) hzone
  rw [takesEffect_iff_of_evals hevals hu, answers_iff_select hset hnames]
  have hperm : ∀ z : Zone,
      (ParsedRow.select (((buildFrom K t).viewFor client geo).map Prod.fst) (addressRecordType ip)
        (entryRows K (parsedRows K t' z) qname)).Perm
        (ParsedRow.select (((buildFrom K t).viewFor client geo).map Prod.fst) (addressRecordType ip)
          (entryRows K (rowsAfter K t z zoneId (Db.relativeTo (Db.foldHost (trim host)) zoneName) ip viewId
            ttl) qname)) :=
    fun z => select_entryRows_perm (parsedRows_perm hrecords hset) _ _
  constructor
  · rintro ⟨z, apex, p, hserves, hp, hdata⟩
    have hz := hperm z
    rw [hp] at hz
    exact ⟨z, apex, p, hserves, (List.singleton_perm.mp hz).symm, hdata⟩
  · rintro ⟨z, apex, p, hserves, hp, hdata⟩
    have hz := hperm z
    rw [hp] at hz
    exact ⟨z, apex, p, hserves, List.perm_singleton.mp hz, hdata⟩

/-- There are two addresses of a family. -/
lemma exists_addresses (family : IpFamily) : ∃ ip ip', familyMatches ip family = true ∧
    familyMatches ip' family = true ∧ addressRData ip ≠ addressRData ip' := by
  cases family with
  | V4 => exact ⟨.v4 0, .v4 1, rfl, rfl, by decide⟩
  | V6 => exact ⟨.v6 0, .v6 1, rfl, rfl, by decide⟩

/-- The row that an update for a relative name leaves in its zone is read as one of the address at the
owner, or not at all. -/
lemma rowsAfter_cases (haddr : K.ReadsAddresses) (t : Tables) (z : Zone) (rel : Str) (viewId : Option ℕ)
    (ttl : ℕ) (family : IpFamily) :
    let found := addressRow t z.id rel family.recordType.toText viewId
    (∃ owner rowTtl, found.all (·.enabled) = true ∧
        recordFqdnName K ((found.map DnsRecord.name).getD rel) z.name = .ok owner ∧
        ∀ ip, familyMatches ip family = true → rowsAfter K t z z.id rel ip viewId ttl =
          ⟨owner, family.recordType, rowTtl, viewId, addressRData ip⟩ :: otherRows K t z found) ∨
      ¬(found.all (·.enabled) = true ∧
        ∃ owner, recordFqdnName K ((found.map DnsRecord.name).getD rel) z.name = .ok owner) ∧
      ∀ ip, familyMatches ip family = true →
        rowsAfter K t z z.id rel ip viewId ttl = otherRows K t z found := by
  intro found
  have hrows : ∀ ip, familyMatches ip family = true → rowsAfter K t z z.id rel ip viewId ttl =
      (if found.all (·.enabled) then
        (recordFqdnName K ((found.map DnsRecord.name).getD rel) z.name).toOption.map fun owner =>
          ⟨owner, family.recordType, ((found.map DnsRecord.ttl).getD (some ttl)).getD z.defaultTtl, viewId,
            addressRData ip⟩
      else none).toList ++ otherRows K t z found := by
    intro ip hip
    obtain ⟨htype, htext⟩ := addressRecordType_eq hip
    obtain ⟨-, hview, hrtype, hdata, henabled, hname, httl⟩ := addressedRow_spec t z.id rel ip viewId ttl
    unfold rowsAfter
    rw [if_pos rfl, parseRow_address haddr hrtype hdata, henabled, hname, httl, hview, htype, htext]
  cases henabled : found.all (·.enabled) with
  | false =>
    refine .inr ⟨fun h => Bool.false_ne_true h.1, fun ip hip => ?_⟩
    rw [hrows ip hip, henabled]
    rfl
  | true =>
    cases hname : recordFqdnName K ((found.map DnsRecord.name).getD rel) z.name with
    | error e =>
      refine .inr ⟨fun h => ?_, fun ip hip => ?_⟩
      · obtain ⟨-, owner, howner⟩ := h
        cases howner
      · rw [hrows ip hip, henabled, hname]
        rfl
    | ok owner =>
      refine .inl ⟨owner, ((found.map DnsRecord.ttl).getD (some ttl)).getD z.defaultTtl, rfl, rfl,
        fun ip hip => ?_⟩
      rw [hrows ip hip, henabled, hname]
      rfl

end

/-- Every update of a host name with an address of the family takes effect at a name for a client of its
view, or for any client when it is for all views, exactly when it reaches the name. Ids of records and
names of zones are unique. -/
theorem takesEffect_iff_reaches (K : Crates) (haddr : K.ReadsAddresses) (t : Tables)
    (hrecords : (t.records.map DnsRecord.id).Nodup) (hnames : (t.zones.map Zone.name).Nodup) (host : Str)
    (family : IpFamily) (viewId : Option ℕ) (ttl zoneId : ℕ) (zoneName : Str)
    (hzone : Db.longestSuffixZone (fun _ => true) (Db.foldHost (trim host)) (Db.zonesByName t) =
      some (zoneId, zoneName))
    (qname : Name) (client : IpAddr) (geo : ClientGeo)
    (hview : ∀ v, viewId = some v → ((buildFrom K t).viewFor client geo).map Prod.fst = some v) :
    (∀ ip, familyMatches ip family = true → TakesEffect K t host ip viewId ttl client geo qname) ↔
      ∃ z owner, z.id = zoneId ∧
        Reaches K t z owner (Db.relativeTo (Db.foldHost (trim host)) zoneName) family.recordType viewId
          (((buildFrom K t).viewFor client geo).map Prod.fst) qname := by
  constructor
  · intro heffect
    obtain ⟨ip₁, ip₂, hip₁, hip₂, hne⟩ := exists_addresses family
    obtain ⟨z, apex, p₁, hserves, hp₁, hdata₁⟩ :=
      (takesEffect_iff_select ip₁ ttl qname hrecords hnames hzone hview).mp (heffect ip₁ hip₁)
    obtain ⟨z', apex', p₂, hserves', hp₂, hdata₂⟩ :=
      (takesEffect_iff_select ip₂ ttl qname hrecords hnames hzone hview).mp (heffect ip₂ hip₂)
    obtain rfl := hserves.unique hserves'
    rw [(addressRecordType_eq hip₁).1] at hp₁
    rw [(addressRecordType_eq hip₂).1] at hp₂
    -- What is chosen differs, so the rows after the updates do.
    have hp : p₁ ≠ p₂ := by
      rintro rfl
      exact hne (hdata₁.symm.trans hdata₂)
    have hsame : ∀ {rows rows' : List ParsedRow},
        ParsedRow.select (((buildFrom K t).viewFor client geo).map Prod.fst) family.recordType rows = [p₁] →
        ParsedRow.select (((buildFrom K t).viewFor client geo).map Prod.fst) family.recordType rows' = [p₂] →
        rows ≠ rows' := by
      rintro rows rows' h h' rfl
      exact hp (List.cons.inj (h.symm.trans h')).1
    by_cases hz : z'.id = zoneId
    · subst hz
      rcases rowsAfter_cases haddr t z' (Db.relativeTo (Db.foldHost (trim host)) zoneName) viewId ttl family
        with ⟨owner, rowTtl, henabled, hname, hrows⟩ | ⟨-, hrows⟩
      · rw [hrows ip₁ hip₁] at hp₁
        rw [hrows ip₂ hip₂] at hp₂
        obtain ⟨hnearest, halone⟩ := nearest_and_alone hview hp₁ hp₂ hp
        exact ⟨z', owner, rfl, ⟨apex', hserves'⟩, henabled, hname, hnearest, halone⟩
      · rw [hrows ip₁ hip₁] at hp₁
        rw [hrows ip₂ hip₂] at hp₂
        exact absurd rfl (hsame hp₁ hp₂)
    · unfold rowsAfter at hp₁ hp₂
      rw [if_neg hz] at hp₁ hp₂
      exact absurd rfl (hsame hp₁ hp₂)
  · rintro ⟨z, owner, rfl, hreaches⟩ ip hip
    obtain ⟨apex, hserves⟩ := hreaches.serves
    rcases rowsAfter_cases haddr t z (Db.relativeTo (Db.foldHost (trim host)) zoneName) viewId ttl family
      with ⟨owner', rowTtl, -, hname, hrows⟩ | ⟨hno, -⟩
    · obtain rfl : owner' = owner := Except.ok.inj (hname.symm.trans hreaches.reads)
      refine (takesEffect_iff_select ip ttl qname hrecords hnames hzone hview).mpr
        ⟨z, apex, ⟨owner', family.recordType, rowTtl, viewId, addressRData ip⟩, hserves, ?_, rfl⟩
      rw [(addressRecordType_eq hip).1, hrows ip hip]
      exact select_entryRows_of_alone hview hreaches.nearest hreaches.alone
    · exact absurd ⟨hreaches.enabled, owner, hreaches.reads⟩ hno

/-- Plain crates read addresses back. -/
lemma plain_readsAddresses : plainCrates.ReadsAddresses := by
  intro ip
  cases ip with
  | v4 ip =>
    change plainRData .A (fmtIpAddr (.v4 ip)) = _
    have hread : parseIpv4Addr (fmtIpAddr (.v4 ip)) = some ip := by
      have h := readIpv4_fmtIpv4 ip [] (by simp)
      rw [List.append_nil] at h
      simp [fmtIpAddr, parseIpv4Addr, h]
    unfold plainRData
    rw [hread]
    rfl
  | v6 ip =>
    change plainRData .AAAA (fmtIpAddr (.v6 ip)) = _
    unfold plainRData
    rw [parseIpAddr_fmtIpAddr]
    rfl

/-- An update of a host with a row takes effect. -/
theorem takesEffect_nas :
    TakesEffect plainCrates (homeTables 1 [homeHost 1 "nas"]) "nas.home.lan" (.v4 0x0a000005) none 60
      (.v4 0x08080808) {} (.ofPlain "nas.home.lan") := by
  refine (takesEffect_iff_reaches plainCrates plain_readsAddresses _ (by decide) (by decide) _ .V4 none 60 1
    "home.lan" (by decide +kernel) _ _ _ (by simp)).mpr
      ⟨homeZone, .ofPlain "nas.home.lan", rfl, ⟨.ofPlain "home.lan", by decide, by decide +kernel,
        by decide +kernel, ?_⟩, by decide +kernel, by decide +kernel, ?_, ?_⟩ _ rfl
  · intro w hw apex hapex hcovers
    obtain rfl := List.mem_singleton.mp hw
    obtain rfl : Name.ofPlain "home.lan" = apex := Option.some.inj (by rw [← hapex]; decide +kernel)
    exact .inr ⟨rfl, .inl rfl⟩
  · unfold Nearest
    decide +kernel
  · have hothers : otherRows plainCrates (homeTables 1 [homeHost 1 "nas"]) homeZone
        (addressRow (homeTables 1 [homeHost 1 "nas"]) 1 "nas" "A" none) = [] := by decide +kernel
    exact fun p hp => absurd (hothers ▸ hp) List.not_mem_nil

/-- An update of a host whose row is spelled with a trailing dot adds a second one. -/
theorem not_takesEffect_dotted :
    rowsAt plainCrates (homeTables 1 [homeHost 1 "nas."]) homeZone (.ofPlain "nas.home.lan") =
        [⟨.ofPlain "nas.home.lan", .A, 300, none, .a 0xc0a8010a⟩] ∧
      (Db.dyndnsSetAddress "nas.home.lan" (.v4 0x0a000005) none 60).result
        ⟨homeTables 1 [homeHost 1 "nas."], [], []⟩ = .ok .Created ∧
      ((buildFrom plainCrates ((Db.dyndnsSetAddress "nas.home.lan" (.v4 0x0a000005) none 60).after
        ⟨homeTables 1 [homeHost 1 "nas."], [], []⟩).tables).lookup plainCrates (.ofPlain "nas.home.lan") .A
          (.v4 0x08080808) {}).answers =
        [⟨.ofPlain "nas.home.lan", 60, .a 0x0a000005⟩, ⟨.ofPlain "nas.home.lan", 300, .a 0xc0a8010a⟩] := by
  refine ⟨by decide +kernel, rfl, by decide +kernel⟩

end Nomina
