import Nomina.Store.Chase
import Nomina.Dns.Printing

/-!
# Zone transfers against queries

A transfer stream and the lookups of a zone read the same tables on their own ways. The main result
compares them: between its two SOA records the stream of a zone holds, at every owner and of every
type, the data that a query for that owner and type is answered with.
-/

namespace Nomina

open Lib

variable (K : Crates)

/-- The TTLs and data of the records of a type at an owner. -/
def dataAt (owner : Name) (t : RecordType) (records : List Record) : List (ℕ × RData) :=
  (records.filter fun r => nameKey K r.name == nameKey K owner && r.data.recordType == t).map fun r =>
    (r.ttl, r.data)

/-- Reading a stored owner key as a name inverts the display of the name. -/
def StoredZone.KeysRead (zone : StoredZone) : Prop :=
  ∀ key ∈ zone.records, ∃ owner, K.fromUtf8 (key ++ ['.']) = .ok owner ∧ nameKey K owner = key

/-- The transfer of a zone agrees with the lookups of its owner names: the stream is the zone's SOA,
records at stored owners, and the SOA again, and at the owners that the zone serves it has the data
that lookups give. -/
def TransferAgrees (s : ZoneStore) (entries : StoredZone → List (Str × List StoredRecord))
    (zone : StoredZone) (client : IpAddr) : Prop :=
  ∃ body, s.axfr K entries zone.apex client = some (zone.soaRecord :: body ++ [zone.soaRecord]) ∧
    (∀ r ∈ body, nameKey K r.name ∈ zone.records) ∧
    ∀ owner, nameKey K owner ∈ zone.records → s.zoneFor owner = some zone → ∀ t, t ≠ .SOA →
      (dataAt K owner t (zone.soaRecord :: body ++ [zone.soaRecord])).Perm
        (dataAt K owner t (s.lookup K owner t client {}).answers)

section

variable {K} {zone : StoredZone} {viewId : ℤ} {viewName : Option Str} {owner : Name} {t : RecordType}

/-! ## Data at an owner -/

lemma dataAt_append (records records' : List Record) :
    dataAt K owner t (records ++ records') = dataAt K owner t records ++ dataAt K owner t records' := by
  unfold dataAt
  rw [List.filter_append, List.map_append]

lemma dataAt_eq_nil {records : List Record}
    (h : ∀ r ∈ records, nameKey K r.name = nameKey K owner → r.data.recordType ≠ t) :
    dataAt K owner t records = [] := by
  unfold dataAt
  rw [List.map_eq_nil_iff, List.filter_eq_nil_iff]
  intro r hr
  rw [Bool.and_eq_true, beq_iff_eq, beq_iff_eq]
  exact fun hboth => h r hr hboth.1 hboth.2

/-- Stored records answered at the owner, of which some have the type. -/
lemma dataAt_toRecord {name : Name} (hname : nameKey K name = nameKey K owner) (recs : List StoredRecord) :
    dataAt K owner t (recs.map (·.toRecord name)) =
      (recs.filter (·.rtype == t)).map fun r => (r.ttl, r.rdata) := by
  unfold dataAt
  rw [List.filter_map, List.map_map]
  refine congrArg₂ _ rfl (List.filter_congr fun r _ => ?_)
  have htype : (r.toRecord name).data.recordType = r.rtype := r.typed
  have hkey : nameKey K (r.toRecord name).name = nameKey K owner := hname
  rw [Function.comp_apply, htype, hkey, beq_self_eq_true, Bool.true_and]

/-- Of all the records shown at an owner, those of a type are what is shown of that type. -/
lemma filter_resolve_all (recs : List StoredRecord) :
    ((recordTypes recs).flatMap (resolve recs viewId)).filter (·.rtype == t) = resolve recs viewId t := by
  have htype : ∀ u, (resolve recs viewId u).filter (·.rtype == t) =
      if u = t then resolve recs viewId t else [] := by
    intro u
    split
    · rename_i heq
      rw [heq]
      exact List.filter_eq_self.mpr fun r hr => beq_iff_eq.mpr (mem_of_mem_resolve hr).2
    · rename_i hne
      refine List.filter_eq_nil_iff.mpr fun r hr => ?_
      rw [(mem_of_mem_resolve hr).2, beq_iff_eq]
      exact hne
  rw [List.filter_flatMap]
  simp only [htype]
  have hnodup : (recordTypes recs).Nodup := nodup_btreeSet _
  by_cases hmem : t ∈ recordTypes recs
  · exact (flatMap_eq_of_unique hnodup hmem fun u _ hne => if_neg hne).trans (if_pos rfl)
  · have hnone : resolve recs viewId t = [] := by
      by_contra hne
      obtain ⟨r, hr⟩ := List.exists_mem_of_ne_nil _ hne
      obtain ⟨hrecs, rfl⟩ := mem_of_mem_resolve hr
      exact hmem (mem_btreeSet.mpr (List.mem_map_of_mem hrecs))
    rw [hnone, List.flatMap_eq_nil_iff]
    intro u _
    exact ite_self _

/-- A lookup of an owner gives the data that the zone shows there. -/
lemma dataAt_lookupIn (hkey : nameKey K owner ∈ zone.records) (ht : t ≠ .SOA) :
    dataAt K owner t (lookupIn K zone viewId viewName owner t).answers =
      (resolve (zone.records.at (nameKey K owner)) viewId t).map fun r => (r.ttl, r.rdata) := by
  have hrec := recordsAt_of_mem hkey
  have hnotSoa : ¬(t = .SOA ∧ nameKey K owner = nameKey K zone.apex) := fun h => ht h.1
  by_cases hany : t = .ANY
  · -- ANY: all records shown, of which those of the type are looked at.
    subst hany
    have hname : nameKey K owner = nameKey K owner := rfl
    rw [← filter_resolve_all, ← dataAt_toRecord hname, (lookupIn_any hrec).1]
  · rw [← shown_of_recordsAt hrec]
    by_cases hdirect : shown K zone viewId owner t = []
    · rw [hdirect, List.map_nil]
      by_cases hcname : shown K zone viewId owner .CNAME = []
      · rw [lookupIn_nothing hany hnotSoa hdirect hcname]
        rfl
      · -- A chase: CNAMEs, and at the end records of the type at another name.
        have hno : ¬DirectMatch K zone viewId owner t := by
          rintro (h | h | ⟨h, -⟩)
          · exact hnotSoa h
          · exact h hdirect
          · exact hany h
        obtain ⟨groups, final, hchase⟩ := exists_isChase_lookupIn viewName hno hcname
        refine dataAt_eq_nil fun r hr hname htype => ?_
        rw [hchase.answers] at hr
        rcases List.mem_append.mp hr with hr | hr
        · have hcnameType := hchase.recordType_eq r hr
          exact hcname (htype.symm.trans hcnameType ▸ hdirect)
        · rcases hchase.final with rfl | ⟨-, g, target, -, -, -, hvisible, rfl⟩
          · cases hr
          · obtain ⟨stored, -, rfl⟩ := List.mem_map.mp hr
            refine hvisible ?_
            have hsame : nameKey K target = nameKey K owner := hname
            unfold shown at hdirect ⊢
            rwa [hsame]
    · rw [lookupIn_direct hany hnotSoa hdirect]
      refine (dataAt_toRecord rfl _).trans ?_
      rw [List.filter_eq_self.mpr]
      exact fun r hr => beq_iff_eq.mpr (mem_of_mem_resolve hr).2

/-! ## Data in the stream -/

/-- An entry of the map is the records at its key. -/
lemma at_of_mem_entries {m : Grouped Str StoredRecord} {e : Str × List StoredRecord}
    (h : e ∈ m.entries.map fun e => (e.1, e.2)) : e.1 ∈ m ∧ m.at e.1 = e.2 := by
  obtain ⟨⟨key, recs⟩, he, rfl⟩ := List.mem_map.mp h
  have hlookup : m.lookup key = some recs := AList.mem_lookup_iff.mpr he
  refine ⟨AList.lookup_isSome.mp (by rw [hlookup]; rfl), ?_⟩
  unfold Grouped.at
  rw [hlookup]
  rfl

/-- The records of an entry are at its owner. -/
lemma nameKey_of_mem_axfrEntry (hread : zone.KeysRead K) {key : Str} (hkey : key ∈ zone.records)
    {recs : List StoredRecord} {r : Record} (h : r ∈ axfrEntry K viewId key recs) :
    nameKey K r.name = key := by
  obtain ⟨name, hname, hsame⟩ := hread key hkey
  unfold axfrEntry at h
  rw [hname] at h
  obtain ⟨stored, -, rfl⟩ := List.mem_map.mp h
  exact hsame

/-- The stream has the data of the owner's entry. -/
lemma dataAt_entries (hread : zone.KeysRead K) (hkey : nameKey K owner ∈ zone.records)
    {entries : List (Str × List StoredRecord)}
    (hentries : entries.Perm (zone.records.entries.map fun e => (e.1, e.2))) :
    (dataAt K owner t (entries.flatMap fun e => axfrEntry K viewId e.1 e.2)).Perm
      ((resolve (zone.records.at (nameKey K owner)) viewId t).map fun r => (r.ttl, r.rdata)) := by
  have hflat : dataAt K owner t (entries.flatMap fun e => axfrEntry K viewId e.1 e.2) =
      entries.flatMap fun e => dataAt K owner t (axfrEntry K viewId e.1 e.2) := by
    unfold dataAt
    rw [List.filter_flatMap, List.map_flatMap]
  have hmem : (nameKey K owner, zone.records.at (nameKey K owner)) ∈
      zone.records.entries.map fun e => (e.1, e.2) :=
    List.mem_map.mpr ⟨⟨_, _⟩, AList.mem_lookup_iff.mp (lookup_eq_some_at hkey), rfl⟩
  have hnodup : (zone.records.entries.map fun e => (e.1, e.2)).Nodup := by
    refine List.Nodup.of_map Prod.fst ?_
    rw [List.map_map]
    exact zone.records.nodupKeys
  obtain ⟨name, hname, hsame⟩ := hread _ hkey
  rw [hflat]
  refine (hentries.flatMap_right _).trans (.of_eq ?_)
  rw [flatMap_eq_of_unique hnodup hmem]
  · -- The owner's entry.
    unfold axfrEntry
    rw [hname]
    dsimp only
    rw [dataAt_toRecord hsame, filter_resolve_all]
  · -- Other entries are at other owners.
    intro e he hne
    obtain ⟨hstored, hat⟩ := at_of_mem_entries he
    refine dataAt_eq_nil fun r hr hrname _ => hne ?_
    have hown : e.1 = nameKey K owner := (nameKey_of_mem_axfrEntry hread hstored hr).symm.trans hrname
    exact Prod.ext hown (by rw [← hat, hown])

end

/-- The transfer of a zone that is the first of the store with its apex agrees with the lookups of its
owners, in whatever order the map of records is read. -/
theorem transferAgrees_of_first (s : ZoneStore) (entries : StoredZone → List (Str × List StoredRecord))
    (zone : StoredZone) (client : IpAddr)
    (hfirst : s.zones.find? (fun z => nameKey K z.apex == nameKey K zone.apex) = some zone)
    (hread : zone.KeysRead K)
    (hentries : (entries zone).Perm (zone.records.entries.map fun e => (e.1, e.2))) :
    TransferAgrees K s entries zone client := by
  refine ⟨(entries zone).flatMap fun e => axfrEntry K (s.clientView client {}) e.1 e.2, ?_, ?_, ?_⟩
  · unfold ZoneStore.axfr
    rw [hfirst]
    rfl
  · intro r hr
    obtain ⟨e, he, hr⟩ := List.mem_flatMap.mp hr
    have hstored := (at_of_mem_entries (hentries.mem_iff.mp he)).1
    rwa [nameKey_of_mem_axfrEntry hread hstored hr]
  · intro owner hkey hz t ht
    have hsoa : dataAt K owner t [zone.soaRecord] = [] := by
      refine dataAt_eq_nil fun r hr _ htype => ht ?_
      rw [List.mem_singleton.mp hr] at htype
      exact htype.symm
    rw [← List.singleton_append, dataAt_append, dataAt_append, hsoa, List.nil_append, List.append_nil]
    rw [lookup_of_zoneFor hz, dataAt_lookupIn hkey ht]
    exact dataAt_entries hread hkey hentries

/-- The entries of the map in the order they were put in. -/
def storedOrder (zone : StoredZone) : List (Str × List StoredRecord) :=
  zone.records.entries.map fun e => (e.1, e.2)

/-- A host with a record of all views, and a name that is a CNAME of it. -/
def transferRecords : List (Str × StoredRecord) :=
  [("nas.home.lan", .ofIpv4 none 0x0a000005), ("www.home.lan", .ofCname "nas.home.lan")]

/-- The transfer of a zone with a host and a CNAME. -/
theorem transferAgrees_home :
    TransferAgrees plainCrates (homeStore transferRecords) storedOrder (homeLan transferRecords)
      (.v4 0x08080808) := by
  refine transferAgrees_of_first plainCrates _ _ _ _ rfl ?_ (.refl _)
  intro key hkey
  have hkeys : ∀ key ∈ transferRecords.map Prod.fst,
      plainCrates.fromUtf8 (key ++ ['.']) = .ok (.ofPlain key) ∧
        nameKey plainCrates (.ofPlain key) = key := by
    intro key hkey
    rcases List.mem_cons.mp hkey with rfl | hkey
    · exact ⟨rfl, by decide +kernel⟩
    · rw [List.mem_singleton.mp hkey]
      exact ⟨rfl, by decide +kernel⟩
  exact ⟨_, hkeys key (mem_collect.mp hkey)⟩

/-- A database with two zones, under two spellings of one name. -/
def spelledTables : Tables :=
  { Tables.empty with
    zones := [⟨1, "bücher.example", true, .defaultFor "bücher.example", 300, 1⟩,
      ⟨2, "xn--bcher-kva.example", true, .defaultFor "xn--bcher-kva.example", 300, 7⟩] }

/-- Both zones are served. -/
lemma spelled_zones : 1 < (buildFrom idnCrates spelledTables).zones.length := by
  decide +kernel

/-- The second zone is never transferred: the stream for its apex is that of the first. -/
theorem not_transferAgrees_spelled :
    ∃ zone ∈ (buildFrom idnCrates spelledTables).zones, zone.KeysRead idnCrates ∧
      ¬TransferAgrees idnCrates (buildFrom idnCrates spelledTables) storedOrder zone (.v4 0x08080808) := by
  refine ⟨(buildFrom idnCrates spelledTables).zones.get ⟨1, spelled_zones⟩, List.get_mem _ _, ?_, ?_⟩
  · intro key hkey
    have hempty : ((buildFrom idnCrates spelledTables).zones.get ⟨1, spelled_zones⟩).records.keys = [] := by
      decide +kernel
    have hlisted := AList.mem_keys.mp hkey
    rw [hempty] at hlisted
    cases hlisted
  · rintro ⟨body, hstream, -⟩
    have hother : ((buildFrom idnCrates spelledTables).axfr idnCrates storedOrder
          ((buildFrom idnCrates spelledTables).zones.get ⟨1, spelled_zones⟩).apex (.v4 0x08080808)).bind
        List.head? ≠ some ((buildFrom idnCrates spelledTables).zones.get ⟨1, spelled_zones⟩).soaRecord := by
      decide +kernel
    rw [hstream] at hother
    exact hother rfl

end Nomina
