import Nomina.Dns.NameCase
import Nomina.Store.Chase
import Nomina.Store.Mirror
import Mathlib.Data.List.Perm.Basic

/-!
# From rows to answers

The build of the store and the lookup together: which rows of the database a query is answered with.
The zone is the enabled one with the longest apex above the name; of its enabled rows that can be parsed
and have the name as their owner, those of the client's view hide, type by type, those of all views. The
main result says when the answers are exactly these rows.
-/

namespace Nomina

open Lib

variable (K : Crates)

/-! ## Rows -/

/-- A row read: its owner, type, TTL, view and data. -/
structure ParsedRow where
  owner : Name
  rtype : RecordType
  ttl : ℕ
  viewId : Option ℕ
  rdata : RData
deriving DecidableEq

/-- The reading of a row of a zone; `none` for rows that are disabled or cannot be parsed. The TTL is the
row's own, or the zone's default. -/
def parseRow (z : Zone) (r : DnsRecord) : Option ParsedRow :=
  if r.enabled then do
    let rtype ← (parseRecordType r.rtype).toOption
    let rdata ← (parseRdata K rtype r.data z.name).toOption
    let owner ← (recordFqdnName K r.name z.name).toOption
    some ⟨owner, rtype, r.ttl.getD z.defaultTtl, r.viewId, rdata⟩
  else none

/-- The rows of a zone that have the name as their owner. -/
def rowsAt (t : Tables) (z : Zone) (qname : Name) : List ParsedRow :=
  ((t.zoneRecords z.id).filterMap (parseRow K z)).filter fun p =>
    p.owner.toLowercase == qname.toLowercase

/-- Of some rows, those of a type for a client of a view, or of none: the rows of the view if there are
any, else those of all views. -/
def rowsFor {α : Type} (rtypeOf : α → RecordType) (viewOf : α → Option ℕ) (view : Option ℕ)
    (t : RecordType) (rows : List α) : List α :=
  let own := rows.filter fun r => rtypeOf r == t && (view.isSome && viewOf r == view)
  if own.isEmpty then rows.filter fun r => rtypeOf r == t && (viewOf r).isNone else own

/-- The rows of a type for a client. -/
def ParsedRow.select (view : Option ℕ) (t : RecordType) (rows : List ParsedRow) : List ParsedRow :=
  rowsFor ParsedRow.rtype ParsedRow.viewId view t rows

/-- A row as an answer. -/
def ParsedRow.toRecord (qname : Name) (p : ParsedRow) : Record :=
  ⟨qname, p.ttl, p.rdata⟩

/-! ## The zone of a name -/

/-- The apex of a zone that is served. -/
def servedApex (z : Zone) : Option Name :=
  if z.enabled then (recordFqdnName K ['@'] z.name).toOption else none

/-- The zone is the enabled one with the longest apex above the name. Of zones whose names are spellings
of one apex it is the first by name. -/
structure ServesName (t : Tables) (qname : Name) (z : Zone) (apex : Name) : Prop where
  mem : z ∈ t.zones
  apex_eq : servedApex K z = some apex
  covers : apex.zoneOf qname = true
  longest : ∀ w ∈ t.zones, ∀ apex', servedApex K w = some apex' → apex'.zoneOf qname = true →
    apex'.numLabels < apex.numLabels ∨
      apex'.numLabels = apex.numLabels ∧ (w = z ∨ z.name < w.name)

/-- The answers of a store for a name are the given rows at it. For a type with rows the client gets
exactly these, and for ANY the rows of all types, or NODATA when there are none. -/
structure AnswersRows (s : ZoneStore) (client : IpAddr) (geo : ClientGeo) (qname : Name)
    (rows : List ParsedRow) : Prop where
  direct : ∀ qtype, qtype ≠ .ANY →
    ParsedRow.select ((s.viewFor client geo).map Prod.fst) qtype rows ≠ [] →
    (s.lookup K qname qtype client geo).outcome = .Authoritative ∧
      (s.lookup K qname qtype client geo).answers.Perm
        ((ParsedRow.select ((s.viewFor client geo).map Prod.fst) qtype rows).map (·.toRecord qname))
  any : (s.lookup K qname .ANY client geo).answers.Perm
    ((supportedRecordTypes.flatMap fun t =>
      ParsedRow.select ((s.viewFor client geo).map Prod.fst) t rows).map (·.toRecord qname))
  nodata : (s.lookup K qname .ANY client geo).answers = [] →
    (s.lookup K qname .ANY client geo).outcome = .NoData

section

variable {K} {α β : Type} {rtypeOf : α → RecordType} {viewOf : α → Option ℕ} {view : Option ℕ}
  {t : RecordType}

/-! ## The choice of rows -/

/-- The choice does not see the order of the rows. -/
lemma rowsFor_perm {rows rows' : List α} (h : rows'.Perm rows) :
    (rowsFor rtypeOf viewOf view t rows').Perm (rowsFor rtypeOf viewOf view t rows) := by
  have hown := h.filter fun r => rtypeOf r == t && (view.isSome && viewOf r == view)
  unfold rowsFor
  dsimp only
  rw [isEmpty_eq_of_perm hown]
  split
  · exact h.filter _
  · exact hown

/-- The choice looks at types and views. -/
lemma rowsFor_map (f : β → α) (rows : List β) :
    rowsFor rtypeOf viewOf view t (rows.map f) =
      (rowsFor (rtypeOf ∘ f) (viewOf ∘ f) view t rows).map f := by
  unfold rowsFor
  dsimp only
  rw [List.filter_map, List.filter_map, List.isEmpty_map, apply_ite (List.map f)]
  rfl

/-- What is chosen has the type and is one of the rows. -/
lemma mem_of_mem_rowsFor {rows : List α} {a : α} (h : a ∈ rowsFor rtypeOf viewOf view t rows) :
    a ∈ rows ∧ rtypeOf a = t := by
  unfold rowsFor at h
  dsimp only at h
  split at h
  · obtain ⟨hmem, hp⟩ := List.mem_filter.mp h
    exact ⟨hmem, beq_iff_eq.mp (Bool.and_eq_true_iff.mp hp).1⟩
  · obtain ⟨hmem, hp⟩ := List.mem_filter.mp h
    exact ⟨hmem, beq_iff_eq.mp (Bool.and_eq_true_iff.mp hp).1⟩

/-- The id that records are compared with for a client of a view, or of none. -/
def viewIdOf (view : Option ℕ) : ℤ :=
  (view.map fun v => (v : ℤ)).getD noView

lemma clientView_eq (s : ZoneStore) (client : IpAddr) (geo : ClientGeo) :
    s.clientView client geo = viewIdOf ((s.viewFor client geo).map Prod.fst) := by
  unfold ZoneStore.clientView viewIdOf
  cases s.viewFor client geo <;> rfl

/-- The store chooses among stored records in this way. -/
lemma resolve_eq_rowsFor (recs : List StoredRecord) :
    resolve recs (viewIdOf view) t = rowsFor StoredRecord.rtype StoredRecord.viewId view t recs := by
  have hpinned : ∀ r : StoredRecord, r.pinnedTo (viewIdOf view) = (view.isSome && r.viewId == view) := by
    intro r
    unfold StoredRecord.pinnedTo viewIdOf
    cases r.viewId with
    | none => cases view <;> rfl
    | some w =>
      cases view with
      | none =>
        have hne : (w : ℤ) ≠ noView := by
          unfold noView
          omega
        simpa using hne
      | some v =>
        change ((w : ℤ) == (v : ℤ)) = (some w == some v)
        rw [Bool.eq_iff_iff, beq_iff_eq, beq_iff_eq, Nat.cast_inj, Option.some_inj]
  unfold resolve rowsFor
  simp only [hpinned]

/-! ## Stored records and rows -/

/-- What the answers are made of: type, view, TTL and data. -/
abbrev Served : Type := RecordType × Option ℕ × ℕ × RData

def StoredRecord.served (r : StoredRecord) : Served :=
  (r.rtype, r.viewId, r.ttl, r.rdata)

def ParsedRow.served (p : ParsedRow) : Served :=
  (p.rtype, p.viewId, p.ttl, p.rdata)

/-- A row is stored as it is read, under the key of its owner. -/
lemma storedRecord_served (z : Zone) (r : DnsRecord) :
    (storedRecord K z r).map (fun e => (e.1, e.2.served)) =
      (parseRow K z r).map fun p => (nameKey K p.owner, p.served) := by
  unfold storedRecord parseRow
  cases r.enabled with
  | false => rfl
  | true =>
    rw [if_neg (by simp), if_pos rfl]
    cases hrtype : parseRecordType r.rtype with
    | error e => rfl
    | ok rtype =>
      dsimp only
      split
      · rename_i e hrdata
        simp [hrdata, Except.toOption]
      · rename_i rdata hrdata
        cases howner : recordFqdnName K r.name z.name with
        | error e => simp [Except.toOption]
        | ok owner => simp [hrdata, Except.toOption, StoredRecord.served, ParsedRow.served]

/-- The rows of a zone are stored as they are read, under the keys of their owners. -/
lemma map_storedRecord_served (z : Zone) (rows : List DnsRecord) :
    (rows.filterMap (storedRecord K z)).map (fun e => (e.1, e.2.served)) =
      (rows.filterMap (parseRow K z)).map fun p => (nameKey K p.owner, p.served) := by
  rw [List.map_filterMap, List.map_filterMap]
  simp only [storedRecord_served]

/-- What a built zone has under a key is what its rows with the key are read as. -/
lemma at_storedZone (z : Zone) (apex : Name) (signingKey : Option DnssecKey) (t : Tables) (key : Str) :
    (((storedZone K z apex signingKey (Db.sortRecords (t.zoneRecords z.id))).records.at key).map
      StoredRecord.served).Perm
      ((((t.zoneRecords z.id).filterMap (parseRow K z)).filter fun p => nameKey K p.owner = key).map
        ParsedRow.served) := by
  have hat : ∀ rows : List DnsRecord,
      ((collect (rows.filterMap (storedRecord K z))).at key).map StoredRecord.served =
        ((rows.filterMap (parseRow K z)).filter fun p => nameKey K p.owner = key).map
          ParsedRow.served := by
    intro rows
    have hfiltered := congrArg (fun l => (l.filter fun e => e.1 = key).map Prod.snd)
      (map_storedRecord_served (K := K) z rows)
    rw [List.filter_map, List.filter_map, List.map_map, List.map_map] at hfiltered
    rw [at_collect, List.map_map]
    exact hfiltered
  unfold storedZone
  dsimp only
  rw [hat]
  exact (((Db.perm_sortRecords _).filterMap _).filter _).map _

/-- The keys of a built zone are those of its rows. -/
lemma mem_storedZone {z : Zone} {apex : Name} {signingKey : Option DnssecKey} {t : Tables} {key : Str} :
    key ∈ (storedZone K z apex signingKey (Db.sortRecords (t.zoneRecords z.id))).records ↔
      ∃ p ∈ (t.zoneRecords z.id).filterMap (parseRow K z), nameKey K p.owner = key := by
  have hkeys : ((Db.sortRecords (t.zoneRecords z.id)).filterMap (storedRecord K z)).map Prod.fst =
      ((Db.sortRecords (t.zoneRecords z.id)).filterMap (parseRow K z)).map fun p => nameKey K p.owner := by
    have hfst := congrArg (List.map Prod.fst)
      (map_storedRecord_served (K := K) z (Db.sortRecords (t.zoneRecords z.id)))
    rw [List.map_map, List.map_map] at hfst
    exact hfst
  unfold storedZone
  dsimp only
  rw [mem_collect, hkeys, List.mem_map]
  simp only [((Db.perm_sortRecords _).filterMap _).mem_iff]

/-! ## The zone that serves a name -/

/-- The enabled zones in the order they are listed, with their stored forms. -/
def servedPairs (K : Crates) (t : Tables) : List (Zone × StoredZone) :=
  (Db.zonesByName t).filterMap fun w => (servedZone K t w).map fun zone => (w, zone)

/-- The same, sorted as the store sorts its zones. -/
def sortedPairs (K : Crates) (t : Tables) : List (Zone × StoredZone) :=
  (servedPairs K t).insertionSort fun p q => q.2.labelCount ≤ p.2.labelCount

lemma buildFrom_zones (tables : Tables) :
    (buildFrom K tables).zones = (sortedPairs K tables).map Prod.snd := by
  have hpairs : (Db.zonesByName tables).filterMap (servedZone K tables) =
      (servedPairs K tables).map Prod.snd := by
    unfold servedPairs
    rw [List.map_filterMap]
    refine List.filterMap_congr fun w _ => ?_
    rw [Option.map_map]
    exact Option.map_id'.symm
  unfold buildFrom mkStore sortedPairs
  rw [hpairs]
  exact (List.map_insertionSort (fun p q : Zone × StoredZone => q.2.labelCount ≤ p.2.labelCount)
    (fun z w : StoredZone => w.labelCount ≤ z.labelCount) _ _ fun _ _ _ _ => Iff.rfl).symm

/-- Zones with more labels come first, and among zones with as many labels the first by name. -/
lemma pairwise_sortedPairs (tables : Tables) :
    (sortedPairs K tables).Pairwise fun p q => q.2.labelCount ≤ p.2.labelCount ∧
      (p.2.labelCount ≤ q.2.labelCount → p.1.name ≤ q.1.name) := by
  have : Std.Total (fun p q : Zone × StoredZone => q.2.labelCount ≤ p.2.labelCount) :=
    ⟨fun p q => Nat.le_total _ _⟩
  have : IsTrans (Zone × StoredZone) (fun p q => q.2.labelCount ≤ p.2.labelCount) :=
    ⟨fun _ _ _ h h' => Nat.le_trans h' h⟩
  refine pairwise_insertionSort_stable (S := fun p q : Zone × StoredZone => p.1.name ≤ q.1.name) ?_
  have hnames : (Db.zonesByName tables).Pairwise fun w w' => w.name ≤ w'.name := by
    unfold Db.zonesByName
    rw [List.pairwise_map]
    exact List.pairwise_insertionSort (fun w w' : Zone => w.name ≤ w'.name) _
  unfold servedPairs
  refine List.Pairwise.filterMap _ ?_ hnames
  intro w w' hle p hp q hq
  obtain ⟨zone, -, rfl⟩ := Option.map_eq_some_iff.mp hp
  obtain ⟨zone', -, rfl⟩ := Option.map_eq_some_iff.mp hq
  exact hle

/-- The stored form of a row that is served. -/
lemma servedZone_eq (tables : Tables) (z : Zone) :
    servedZone K tables (Db.readZone z) = (servedApex K z).map fun apex =>
      storedZone K (Db.readZone z) apex (tables.dnssecKey? z.id)
        (Db.sortRecords (tables.zoneRecords z.id)) := by
  unfold servedZone servedApex Db.readZone
  dsimp only
  cases z.enabled with
  | false => rfl
  | true =>
    rw [if_neg (by simp), if_pos rfl]
    cases recordFqdnName K ['@'] z.name <;> rfl

/-- The pairs are of rows that are served, with their stored forms. -/
lemma mem_sortedPairs {tables : Tables} {p : Zone × StoredZone} :
    p ∈ sortedPairs K tables ↔ ∃ z ∈ tables.zones, ∃ apex, servedApex K z = some apex ∧
      p = (Db.readZone z, storedZone K (Db.readZone z) apex (tables.dnssecKey? z.id)
        (Db.sortRecords (tables.zoneRecords z.id))) := by
  have hlisted : ∀ w, w ∈ Db.zonesByName tables ↔ ∃ z ∈ tables.zones, Db.readZone z = w := by
    intro w
    unfold Db.zonesByName
    rw [List.mem_map]
    simp only [(List.perm_insertionSort _ _).mem_iff]
  unfold sortedPairs servedPairs
  rw [(List.perm_insertionSort _ _).mem_iff, List.mem_filterMap]
  constructor
  · rintro ⟨w, hw, hp⟩
    obtain ⟨z, hz, rfl⟩ := (hlisted w).mp hw
    obtain ⟨zone, hzone, rfl⟩ := Option.map_eq_some_iff.mp hp
    rw [servedZone_eq] at hzone
    obtain ⟨apex, hapex, rfl⟩ := Option.map_eq_some_iff.mp hzone
    exact ⟨z, hz, apex, hapex, rfl⟩
  · rintro ⟨z, hz, apex, hapex, rfl⟩
    refine ⟨Db.readZone z, (hlisted _).mpr ⟨z, hz, rfl⟩, ?_⟩
    rw [servedZone_eq, hapex]
    rfl

/-- The store answers a name from the zone that serves it. -/
lemma ServesName.zoneFor {tables : Tables} {qname apex : Name} {z : Zone}
    (h : ServesName K tables qname z apex) :
    (buildFrom K tables).zoneFor qname =
      some (storedZone K (Db.readZone z) apex (tables.dnssecKey? z.id)
        (Db.sortRecords (tables.zoneRecords z.id))) := by
  have hmem := mem_sortedPairs.mpr ⟨z, h.mem, apex, h.apex_eq, rfl⟩
  unfold ZoneStore.zoneFor
  rw [buildFrom_zones, List.find?_map]
  obtain ⟨p, hp⟩ : ∃ p, (sortedPairs K tables).find? ((·.apex.zoneOf qname) ∘ Prod.snd) = some p := by
    rw [← Option.isSome_iff_exists, List.find?_isSome]
    exact ⟨_, hmem, h.covers⟩
  rw [hp, Option.map_some]
  obtain ⟨hcovers, before, after, hsplit, hbefore⟩ := List.find?_eq_some_iff_append.mp hp
  obtain ⟨w, hw, apex', hapex', rfl⟩ := mem_sortedPairs.mp (List.mem_of_find?_eq_some hp)
  have hsorted := pairwise_sortedPairs (K := K) tables
  rw [hsplit] at hmem hsorted
  rcases List.mem_append.mp hmem with hin | hin
  · have hcovered := hbefore _ hin
    rw [Function.comp_apply, Bool.not_eq_true'] at hcovered
    exact absurd h.covers (Bool.not_eq_true _ ▸ hcovered)
  · rcases List.mem_cons.mp hin with heq | hin
    · rw [← heq]
    · -- Another zone found first would be longer, or as long and earlier by name.
      have hafter := List.rel_of_pairwise_cons (List.pairwise_append.mp hsorted).2.1 hin
      rcases h.longest w hw apex' hapex' hcovers with hshorter | ⟨hequal, rfl | hlater⟩
      · exact absurd hafter.1 (not_le.mpr hshorter)
      · rw [Option.some.inj (hapex'.symm.trans h.apex_eq)]
      · exact absurd (hafter.2 hequal.le) (not_le_of_gt hlater)

/-- A name is answered from a zone that serves it, when the names of zones are unique. -/
lemma exists_servesName {tables : Tables} {qname : Name} {zone : StoredZone}
    (hnames : (tables.zones.map Zone.name).Nodup) (h : (buildFrom K tables).zoneFor qname = some zone) :
    ∃ z apex, ServesName K tables qname z apex ∧
      zone = storedZone K (Db.readZone z) apex (tables.dnssecKey? z.id)
        (Db.sortRecords (tables.zoneRecords z.id)) := by
  unfold ZoneStore.zoneFor at h
  rw [buildFrom_zones, List.find?_map] at h
  obtain ⟨p, hp, rfl⟩ := Option.map_eq_some_iff.mp h
  obtain ⟨hcovers, before, after, hsplit, hbefore⟩ := List.find?_eq_some_iff_append.mp hp
  obtain ⟨z, hz, apex, hapex, rfl⟩ := mem_sortedPairs.mp (List.mem_of_find?_eq_some hp)
  refine ⟨z, apex, ⟨hz, hapex, hcovers, fun w hw apex' hapex' hcovers' => ?_⟩, rfl⟩
  have hmem := mem_sortedPairs.mpr ⟨w, hw, apex', hapex', rfl⟩
  have hsorted := pairwise_sortedPairs (K := K) tables
  rw [hsplit] at hmem hsorted
  rcases List.mem_append.mp hmem with hin | hin
  · have hskipped := hbefore _ hin
    rw [Function.comp_apply, Bool.not_eq_true'] at hskipped
    exact absurd hcovers' (Bool.not_eq_true _ ▸ hskipped)
  · rcases List.mem_cons.mp hin with heq | hin
    · have hname : w.name = z.name := congrArg (fun p : Zone × StoredZone => p.1.name) heq
      have happ : apex' = apex := congrArg (fun p : Zone × StoredZone => p.2.apex) heq
      exact .inr ⟨congrArg Name.numLabels happ, .inl (List.inj_on_of_nodup_map hnames hw hz hname)⟩
    · have hafter := List.rel_of_pairwise_cons (List.pairwise_append.mp hsorted).2.1 hin
      rcases Nat.lt_or_eq_of_le hafter.1 with hshorter | hequal
      · exact .inl hshorter
      · refine .inr ⟨hequal, ?_⟩
        have hle : z.name ≤ w.name := hafter.2 hequal.symm.le
        rcases eq_or_lt_of_le hle with hname | hlater
        · exact .inl (List.inj_on_of_nodup_map hnames hw hz hname.symm)
        · exact .inr hlater

/-! ## Exact answers -/

/-- What is served, as an answer. -/
def Served.toRecord (qname : Name) (x : Served) : Record :=
  ⟨qname, x.2.2.1, x.2.2.2⟩

section

variable {recs : List StoredRecord} {rows : List ParsedRow} {view : Option ℕ} {t : RecordType}

/-- The records chosen at an owner are the rows chosen. -/
lemma select_perm (hperm : (recs.map StoredRecord.served).Perm (rows.map ParsedRow.served)) (qname : Name)
    (view : Option ℕ) (t : RecordType) :
    ((resolve recs (viewIdOf view) t).map (·.toRecord qname)).Perm
      ((ParsedRow.select view t rows).map (·.toRecord qname)) := by
  have hstored : (rowsFor StoredRecord.rtype StoredRecord.viewId view t recs).map (·.toRecord qname) =
      (rowsFor Prod.fst (fun x : Served => x.2.1) view t (recs.map StoredRecord.served)).map
        (Served.toRecord qname) := by
    rw [rowsFor_map, List.map_map]
    rfl
  have hrows : (ParsedRow.select view t rows).map (·.toRecord qname) =
      (rowsFor Prod.fst (fun x : Served => x.2.1) view t (rows.map ParsedRow.served)).map
        (Served.toRecord qname) := by
    rw [rowsFor_map, List.map_map]
    rfl
  rw [resolve_eq_rowsFor, hstored, hrows]
  exact (rowsFor_perm hperm).map _

/-- The answers for all types, of which each is an answer of its type, are for one type those of that
type. -/
lemma filter_flatMap_recordType {types : List RecordType} (hnodup : types.Nodup)
    {answers : RecordType → List Record} (htype : ∀ t, ∀ r ∈ answers t, r.data.recordType = t)
    (hall : ∀ t, answers t ≠ [] → t ∈ types) (t : RecordType) :
    (types.flatMap answers).filter (·.data.recordType = t) = answers t := by
  have hown : (answers t).filter (·.data.recordType = t) = answers t :=
    List.filter_eq_self.mpr fun r hr => by simpa using htype t r hr
  have hother : ∀ t' ∈ types, t' ≠ t → (answers t').filter (·.data.recordType = t) = [] := by
    intro t' _ hne
    refine List.filter_eq_nil_iff.mpr fun r hr => ?_
    rw [htype t' r hr]
    simpa using hne
  rw [List.filter_flatMap]
  by_cases ht : t ∈ types
  · rw [flatMap_eq_of_unique hnodup ht hother, hown]
  · have hnil : answers t = [] := by
      by_contra hne
      exact ht (hall t hne)
    rw [hnil, List.flatMap_eq_nil_iff]
    exact fun t' ht' => hother t' ht' fun heq => ht (heq ▸ ht')

/-- The answers to all types are alike exactly when those to each type are. -/
lemma flatMap_types_perm_iff {types types' : List RecordType} (hnodup : types.Nodup) (hnodup' : types'.Nodup)
    {answers answers' : RecordType → List Record} (htype : ∀ t, ∀ r ∈ answers t, r.data.recordType = t)
    (htype' : ∀ t, ∀ r ∈ answers' t, r.data.recordType = t) (hall : ∀ t, answers t ≠ [] → t ∈ types)
    (hall' : ∀ t, answers' t ≠ [] → t ∈ types') :
    (types.flatMap answers).Perm (types'.flatMap answers') ↔ ∀ t, (answers t).Perm (answers' t) := by
  constructor
  · intro h t
    rw [← filter_flatMap_recordType hnodup htype hall t, ← filter_flatMap_recordType hnodup' htype' hall' t]
    exact h.filter _
  · intro h
    refine (List.Perm.flatMap_left _ fun t _ => h t).trans ?_
    -- Both lists of types hold those that have answers.
    rw [← flatMap_filter_nonempty _ types, ← flatMap_filter_nonempty _ types']
    refine List.Perm.flatMap_right _ ((List.perm_ext_iff_of_nodup (hnodup.filter _)
      (hnodup'.filter _)).mpr fun t => ?_)
    rw [List.mem_filter, List.mem_filter]
    refine and_congr_left fun hne => ?_
    have hne' : answers' t ≠ [] := by simpa using hne
    refine iff_of_true (hall t fun hnil => hne' ?_) (hall' t hne')
    exact (hnil ▸ h t).nil_eq.symm

end

/-- At an entry, a query for ANY is answered with the rows exactly when the records chosen there are, type by
type, the rows chosen. -/
lemma any_perm_iff {zone : StoredZone} {qname : Name} {recs : List StoredRecord} {rows : List ParsedRow}
    (view : Option ℕ) (viewName : Option Str) (hrecs : recordsAt zone (nameKey K qname) = some recs)
    (hrows : ∀ p ∈ rows, p.rtype ∈ supportedRecordTypes ∧ p.rdata.recordType = p.rtype) :
    (lookupIn K zone (viewIdOf view) viewName qname .ANY).answers.Perm
        ((supportedRecordTypes.flatMap fun t => ParsedRow.select view t rows).map (·.toRecord qname)) ↔
      ∀ t, ((resolve recs (viewIdOf view) t).map (·.toRecord qname)).Perm
        ((ParsedRow.select view t rows).map (·.toRecord qname)) := by
  rw [(lookupIn_any hrecs).1, List.map_flatMap, List.map_flatMap]
  refine flatMap_types_perm_iff (nodup_btreeSet _) (by decide) ?_ ?_ ?_ ?_
  · intro t r hr
    obtain ⟨stored, hstored, rfl⟩ := List.mem_map.mp hr
    exact stored.typed.trans (mem_of_mem_resolve hstored).2
  · intro t r hr
    obtain ⟨p, hp, rfl⟩ := List.mem_map.mp hr
    obtain ⟨hrow, rfl⟩ := mem_of_mem_rowsFor hp
    exact (hrows p hrow).2
  · intro t hne
    obtain ⟨r, hr⟩ := List.exists_mem_of_ne_nil _ fun hnil => hne (List.map_eq_nil_iff.mpr hnil)
    obtain ⟨hmem, rfl⟩ := mem_of_mem_resolve hr
    exact mem_btreeSet.mpr (List.mem_map_of_mem hmem)
  · intro t hne
    obtain ⟨p, hp⟩ := List.exists_mem_of_ne_nil _ fun hnil => hne (List.map_eq_nil_iff.mpr hnil)
    obtain ⟨hrow, rfl⟩ := mem_of_mem_rowsFor hp
    exact (hrows p hrow).1

/-- A store whose zone has an entry for the name answers with the rows exactly when the records chosen there
are, type by type, the rows chosen. -/
lemma answersRows_iff_of_zoneFor {s : ZoneStore} {client : IpAddr} {geo : ClientGeo} {qname : Name}
    {zone : StoredZone} {recs : List StoredRecord} {rows : List ParsedRow} (hz : s.zoneFor qname = some zone)
    (hrecs : recordsAt zone (nameKey K qname) = some recs)
    (hrows : ∀ p ∈ rows, p.rtype ∈ supportedRecordTypes ∧ p.rdata.recordType = p.rtype) :
    AnswersRows K s client geo qname rows ↔ ∀ t,
      ((resolve recs (viewIdOf ((s.viewFor client geo).map Prod.fst)) t).map (·.toRecord qname)).Perm
        ((ParsedRow.select ((s.viewFor client geo).map Prod.fst) t rows).map (·.toRecord qname)) := by
  have hlookup : ∀ qtype, s.lookup K qname qtype client geo =
      lookupIn K zone (viewIdOf ((s.viewFor client geo).map Prod.fst))
        ((s.viewFor client geo).map Prod.snd) qname qtype := by
    intro qtype
    rw [lookup_of_zoneFor hz, clientView_eq]
  have hany := any_perm_iff ((s.viewFor client geo).map Prod.fst) ((s.viewFor client geo).map Prod.snd)
    hrecs hrows
  rw [← hlookup] at hany
  constructor
  · exact fun h => hany.mp h.any
  · intro h
    refine ⟨?_, hany.mpr h, ?_⟩
    · intro qtype hqtype hselect
      obtain ⟨p, hp⟩ := List.exists_mem_of_ne_nil _ hselect
      obtain ⟨hrow, htype⟩ := mem_of_mem_rowsFor hp
      -- No row has the type SOA.
      have hsoa : qtype ≠ .SOA := by
        rintro rfl
        exact absurd (htype ▸ (hrows p hrow).1) (by decide)
      have hchosen := h qtype
      rw [hlookup, lookupIn_direct hqtype fun h => hsoa h.1]
      · rw [shown_of_recordsAt hrecs]
        exact ⟨rfl, hchosen⟩
      · rw [shown_of_recordsAt hrecs]
        intro hnil
        rw [hnil, List.map_nil] at hchosen
        exact hselect (List.map_eq_nil_iff.mp hchosen.symm.eq_nil)
    · rw [hlookup]
      exact (lookupIn_any hrecs).2

/-- A store whose zone has no entry for the name does not answer it with rows. -/
lemma not_answersRows_of_none {s : ZoneStore} {client : IpAddr} {geo : ClientGeo} {qname : Name}
    {zone : StoredZone} {rows : List ParsedRow} (hz : s.zoneFor qname = some zone)
    (hrecs : recordsAt zone (nameKey K qname) = none) : ¬AnswersRows K s client geo qname rows := by
  intro h
  have hnodata := h.nodata
  rw [lookup_of_zoneFor hz, lookupIn_entry (by simp), hrecs] at hnodata
  have houtcome : Outcome.NxDomain = .NoData := hnodata rfl
  cases houtcome

/-- The rows of a zone that are read have supported types, and data of their types. -/
lemma rtype_of_parseRow {z : Zone} {r : DnsRecord} {p : ParsedRow} (h : parseRow K z r = some p) :
    p.rtype ∈ supportedRecordTypes ∧ p.rdata.recordType = p.rtype := by
  have hserved := storedRecord_served (K := K) z r
  rw [h, Option.map_some] at hserved
  obtain ⟨⟨key, stored⟩, hstored, heq⟩ := Option.map_eq_some_iff.mp hserved
  have htype : stored.rtype = p.rtype := congrArg (fun e : Str × Served => e.2.1) heq
  have hdata : stored.rdata = p.rdata := congrArg (fun e : Str × Served => e.2.2.2.2) heq
  exact ⟨htype ▸ rtype_of_storedRecord hstored, hdata ▸ htype ▸ stored.typed⟩

end

/-! ## The rows that are found -/

/-- The rows of a zone that the store finds for a name: those of the first key tried for it that some row
is stored under. -/
def rowsShownAt (t : Tables) (z : Zone) (qname : Name) : Option (List ParsedRow) :=
  let rows := (t.zoneRecords z.id).filterMap (parseRow K z)
  ((candidateKeys (nameKey K qname)).find? fun key => rows.any fun p => nameKey K p.owner = key).map
    fun key => rows.filter fun p => nameKey K p.owner = key

/-- The rows that are found for a name are, as answers and type by type for clients of a view or of none,
those that have the name as their owner. -/
def FindsRows (t : Tables) (z : Zone) (qname : Name) (view : Option ℕ) : Prop :=
  ∃ rows, rowsShownAt K t z qname = some rows ∧ ∀ rtype,
    ((ParsedRow.select view rtype rows).map (·.toRecord qname)).Perm
      ((ParsedRow.select view rtype (rowsAt K t z qname)).map (·.toRecord qname))

/-- The texts of names tell the owners of the rows of a zone from the name, letter case apart. -/
def TellsOwners (t : Tables) (z : Zone) (qname : Name) : Prop :=
  ∀ p ∈ (t.zoneRecords z.id).filterMap (parseRow K z),
    nameKey K p.owner = nameKey K qname ↔ p.owner.EqIgnoringCase qname

section

variable {K} {t : Tables} {z : Zone} {qname : Name}

/-- What a built zone has for a name is what the rows that are found are read as. -/
lemma recordsAt_storedZone (apex : Name) (signingKey : Option DnssecKey) :
    (rowsShownAt K t z qname = none ∧
      recordsAt (storedZone K (Db.readZone z) apex signingKey (Db.sortRecords (t.zoneRecords z.id)))
        (nameKey K qname) = none) ∨
    ∃ rows recs, rowsShownAt K t z qname = some rows ∧
      recordsAt (storedZone K (Db.readZone z) apex signingKey (Db.sortRecords (t.zoneRecords z.id)))
        (nameKey K qname) = some recs ∧ (recs.map StoredRecord.served).Perm (rows.map ParsedRow.served) := by
  have hfind : ownerKey (storedZone K (Db.readZone z) apex signingKey (Db.sortRecords (t.zoneRecords z.id)))
      (nameKey K qname) = (candidateKeys (nameKey K qname)).find? fun key =>
        ((t.zoneRecords z.id).filterMap (parseRow K z)).any fun p => nameKey K p.owner = key := by
    unfold ownerKey
    congr 1
    funext key
    rw [Bool.eq_iff_iff, decide_eq_true_eq, List.any_eq_true]
    refine mem_storedZone.trans ?_
    simp only [decide_eq_true_eq]
    rfl
  unfold rowsShownAt
  dsimp only
  rw [recordsAt_eq, hfind]
  cases (candidateKeys (nameKey K qname)).find? fun key =>
      ((t.zoneRecords z.id).filterMap (parseRow K z)).any fun p => nameKey K p.owner = key with
  | none => exact .inl ⟨rfl, rfl⟩
  | some key => exact .inr ⟨_, _, rfl, rfl, at_storedZone (Db.readZone z) apex signingKey t key⟩

/-- Where the texts tell the owners from the name, the rows of the name are found. -/
lemma TellsOwners.findsRows (h : TellsOwners K t z qname) (hrows : rowsAt K t z qname ≠ []) (view : Option ℕ) :
    FindsRows K t z qname view := by
  have hrowsAt : rowsAt K t z qname = ((t.zoneRecords z.id).filterMap (parseRow K z)).filter fun p =>
      nameKey K p.owner = nameKey K qname := by
    refine List.filter_congr fun p hp => ?_
    rw [Bool.eq_iff_iff, decide_eq_true_eq, beq_iff_eq]
    exact (h p hp).symm
  obtain ⟨p, hp⟩ := List.exists_mem_of_ne_nil _ hrows
  have hany : ((t.zoneRecords z.id).filterMap (parseRow K z)).any
      fun p => nameKey K p.owner = nameKey K qname := by
    rw [hrowsAt] at hp
    obtain ⟨hmem, hkey⟩ := List.mem_filter.mp hp
    exact List.any_eq_true.mpr ⟨p, hmem, hkey⟩
  refine ⟨rowsAt K t z qname, ?_, fun _ => .refl _⟩
  unfold rowsShownAt candidateKeys
  dsimp only
  rw [List.find?_cons, hany, Option.map_some, hrowsAt]

end

/-- The store built from the tables answers a name that has rows in its zone with exactly these (for each
type those of the client's view or else those of all views, each once, under the name that was asked for, with
their TTL and data; for ANY those of all types) exactly when the displayed names tell the owners from the
name, or the rows that are found by them are, as answers, the same nevertheless. -/
theorem answersRows_iff (t : Tables) (z : Zone) (apex qname : Name) (hserves : ServesName K t qname z apex)
    (hrows : rowsAt K t z qname ≠ []) (client : IpAddr) (geo : ClientGeo) :
    AnswersRows K (buildFrom K t) client geo qname (rowsAt K t z qname) ↔
      TellsOwners K t z qname ∨
        FindsRows K t z qname (((buildFrom K t).viewFor client geo).map Prod.fst) := by
  rw [or_iff_right_of_imp fun h => h.findsRows hrows _]
  have hparsed : ∀ p ∈ rowsAt K t z qname,
      p.rtype ∈ supportedRecordTypes ∧ p.rdata.recordType = p.rtype := by
    intro p hp
    obtain ⟨r, -, hread⟩ := List.mem_filterMap.mp (List.mem_of_mem_filter hp)
    exact rtype_of_parseRow hread
  obtain ⟨hnone, hrecs⟩ | ⟨rows, recs, hsome, hrecs, hperm⟩ :
    rowsShownAt K t z qname = none ∧ _ ∨ _ := recordsAt_storedZone apex (t.dnssecKey? z.id)
  · refine iff_of_false (not_answersRows_of_none hserves.zoneFor hrecs) ?_
    rintro ⟨rows, hrows, -⟩
    rw [hnone] at hrows
    cases hrows
  · rw [answersRows_iff_of_zoneFor hserves.zoneFor hrecs hparsed]
    unfold FindsRows
    simp only [hsome, Option.some_inj, exists_eq_left']
    refine forall_congr' fun rtype => ?_
    have hchosen := select_perm hperm qname (((buildFrom K t).viewFor client geo).map Prod.fst) rtype
    exact ⟨hchosen.symm.trans, hchosen.trans⟩

/-- A host of the inner of two zones is answered from the inner zone's row. -/
theorem answersRows_nested :
    AnswersRows plainCrates (buildFrom plainCrates (nestedTables "192.168.1.20")) (.v4 0x08080808) {}
        (.ofPlain "nas.lab.home.lan")
        (rowsAt plainCrates (nestedTables "192.168.1.20")
          ⟨2, "lab.home.lan", true, .defaultFor "lab.home.lan", 300, 1⟩ (.ofPlain "nas.lab.home.lan")) ∧
      rowsAt plainCrates (nestedTables "192.168.1.20")
        ⟨2, "lab.home.lan", true, .defaultFor "lab.home.lan", 300, 1⟩ (.ofPlain "nas.lab.home.lan") =
        [⟨.ofPlain "nas.lab.home.lan", .A, 300, none, .a 0xc0a80114⟩] := by
  have hserves : ServesName plainCrates (nestedTables "192.168.1.20") (.ofPlain "nas.lab.home.lan")
      ⟨2, "lab.home.lan", true, .defaultFor "lab.home.lan", 300, 1⟩ (.ofPlain "lab.home.lan") := by
    refine ⟨by decide +kernel, by decide +kernel, by decide +kernel, fun w hw apex hapex hcovers => ?_⟩
    rcases List.mem_cons.mp hw with rfl | hw
    · obtain rfl : Name.ofPlain "home.lan" = apex := Option.some.inj (by rw [← hapex]; decide +kernel)
      exact .inl (by decide +kernel)
    · obtain rfl := List.mem_singleton.mp hw
      obtain rfl : Name.ofPlain "lab.home.lan" = apex := Option.some.inj (by rw [← hapex]; decide +kernel)
      exact .inr ⟨rfl, .inl rfl⟩
  refine ⟨(answersRows_iff plainCrates _ _ _ _ hserves (by decide +kernel) (.v4 0x08080808) {}).mpr (.inl ?_),
    by decide +kernel⟩
  unfold TellsOwners Name.EqIgnoringCase
  decide +kernel

/-- A zone with an internationalised label. -/
def bucherSite : Zone :=
  ⟨1, "xn--bcher-kva.example", true, .defaultFor "xn--bcher-kva.example", 300, 1⟩

/-- A host of it. -/
def bucherSiteTables : Tables :=
  { Tables.empty with zones := [bucherSite], records := [homeHost 1 "www"] }

/-- A host whose name is asked for in upper case, which is displayed as it is, is denied with NXDOMAIN. -/
theorem not_answersRows_upper :
    ServesName bucherCrates bucherSiteTables (.ofPlain "WWW.XN--BCHER-KVA.EXAMPLE") bucherSite
        (.ofPlain "xn--bcher-kva.example") ∧
      rowsAt bucherCrates bucherSiteTables bucherSite (.ofPlain "WWW.XN--BCHER-KVA.EXAMPLE") =
        [⟨.ofPlain "www.xn--bcher-kva.example", .A, 300, none, .a 0xc0a8010a⟩] ∧
      ((buildFrom bucherCrates bucherSiteTables).lookup bucherCrates (.ofPlain "WWW.XN--BCHER-KVA.EXAMPLE") .A
        (.v4 0x08080808) {}).rcode = .NXDomain ∧
      ¬AnswersRows bucherCrates (buildFrom bucherCrates bucherSiteTables) (.v4 0x08080808) {}
        (.ofPlain "WWW.XN--BCHER-KVA.EXAMPLE")
        (rowsAt bucherCrates bucherSiteTables bucherSite (.ofPlain "WWW.XN--BCHER-KVA.EXAMPLE")) := by
  have hrows : rowsAt bucherCrates bucherSiteTables bucherSite (.ofPlain "WWW.XN--BCHER-KVA.EXAMPLE") =
      [⟨.ofPlain "www.xn--bcher-kva.example", .A, 300, none, .a 0xc0a8010a⟩] := by decide +kernel
  refine ⟨⟨by decide +kernel, by decide +kernel, by decide +kernel, ?_⟩, hrows, by decide +kernel, ?_⟩
  · intro w hw apex hapex _
    obtain rfl := List.mem_singleton.mp hw
    obtain rfl : Name.ofPlain "xn--bcher-kva.example" = apex :=
      Option.some.inj (by rw [← hapex]; decide +kernel)
    exact .inr ⟨rfl, .inl rfl⟩
  · intro h
    rw [hrows] at h
    have hdirect := (h.direct .A (by decide) (by decide +kernel)).1
    exact absurd hdirect (by decide +kernel)

end Nomina
