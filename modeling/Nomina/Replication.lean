import Mathlib.Data.List.Perm.Basic
import Mathlib.Order.WellFounded
import Nomina.Dns.Printing

/-!
# Replication

A primary and a secondary: the transfer stream of a zone of the primary's store is what `transfer`
receives, turns into rows, writes and reloads. The main result is that a zone whose owners are
displayed under the name that the secondary has for it is answered alike by both servers. A zone
configured in the ASCII form of an internationalised name is stored with its records out of place:
for the zones of an apex this is exactly when the two servers differ.
-/

namespace Nomina

open Lib Sql

variable {K : Crates}

/-! ## Zones that were built -/

section Built

variable {z : Zone} {apex : Name} {signingKey : Option DnssecKey} {rows : List DnsRecord} {key : Str}

/-- A row that is stored has an owner that is a name. -/
lemma isOwnerKey_of_storedRecord {row : DnsRecord} {r : StoredRecord}
    (h : storedRecord K z row = some (key, r)) : IsOwnerKey K key := by
  unfold storedRecord at h
  split at h
  · cases h
  · split at h
    · cases h
    · split at h
      · cases h
      · split at h
        · cases h
        · rename_i owner howner
          cases h
          unfold recordFqdnName at howner
          dsimp only at howner
          split at howner
          · cases howner
          · rename_i name hname
            cases howner
            exact ⟨_, owner, hname, rfl⟩

/-- The apex of a zone is what its name is read as. -/
lemma recordFqdnName_apex {zoneName : Str} :
    recordFqdnName K ['@'] zoneName = .ok apex ↔ K.fromUtf8 (zoneName ++ ['.']) = .ok apex := by
  have htrim : trimEndMatches '.' (trim ['@']) = ['@'] := by decide
  unfold recordFqdnName
  dsimp only
  rw [htrim]
  simp only [beq_self_eq_true, Bool.or_true, if_true]
  cases K.fromUtf8 (zoneName ++ ['.']) with
  | ok n => rfl
  | error e => exact ⟨nofun, nofun⟩

/-- The names of the SOA record of a zone. -/
lemma zoneSoa_names (z : Zone) (apex : Name) :
    (zoneSoa K z apex).mname =
        readOr apex (recordFqdnName K (trimEndMatches '.' z.soa.primaryNs) []) ∧
      (zoneSoa K z apex).rname = readOr apex (soaRname K z.soa.adminEmail) :=
  ⟨rfl, rfl⟩

/-- The SOA fields and the serial that a transfer stores for a SOA record. -/
def printedSoa (K : Crates) (soa : SOA) : Soa :=
  ⟨soa.mname.toText K, soa.rname.toText K, soa.refresh, soa.retry, soa.expire, soa.minimum⟩

/-- A zone that is stored with the printed SOA fields of a built one has its SOA record. -/
lemma zoneSoa_printedSoa (h : K.PrintsNames) {s : Str} (hapex : K.fromUtf8 s = .ok apex)
    {z' : Zone} (hsoa : z'.soa = printedSoa K (zoneSoa K z apex)) (hserial : z'.serial = z.serial) :
    zoneSoa K z' apex = zoneSoa K z apex := by
  have hmname : (zoneSoa K z' apex).mname = (zoneSoa K z apex).mname := by
    rw [(zoneSoa_names z' apex).1, hsoa]
    exact h.mname_eq hapex _ (zoneSoa_names z apex).1
  have hrname : (zoneSoa K z' apex).rname = (zoneSoa K z apex).rname := by
    rw [(zoneSoa_names z' apex).2, hsoa]
    exact h.rname_eq hapex _ (zoneSoa_names z apex).2
  have hrest : zoneSoa K z' apex = { zoneSoa K z apex with
      mname := (zoneSoa K z' apex).mname, rname := (zoneSoa K z' apex).rname } := by
    unfold zoneSoa
    rw [hsoa, hserial]
    rfl
  rw [hrest, hmname, hrname]

/-- A zone filled with the records of another one, in any order, mirrors it. -/
lemma mirrors_of_perm {zone zone' : StoredZone} (hapex : zone'.apex = zone.apex)
    (hsoa : zone'.soa = zone.soa) (hsoaTtl : zone'.soaTtl = zone.soaTtl)
    (pairs : List (Str × StoredRecord)) (hrecords : zone'.records = collect pairs)
    (hperm : pairs.Perm (zone.records.entries.flatMap fun e => e.2.map fun r => (e.1, r)))
    (hne : ∀ key ∈ zone.records, zone.records.at key ≠ []) : Mirrors zone zone' := by
  have hat : ∀ key, (zone'.records.at key).Perm (zone.records.at key) := by
    intro key
    rw [hrecords, at_collect, ← at_eq_of_entries zone.records key]
    exact (hperm.filter _).map _
  refine ⟨hapex, hsoa, hsoaTtl, fun key => ?_, hat⟩
  constructor
  · intro hmem
    by_contra hnot
    have hempty := hat key
    rw [at_of_notMem hnot] at hempty
    rw [hrecords] at hmem hempty
    obtain ⟨p, hp, rfl⟩ := List.mem_map.mp (mem_collect.mp hmem)
    rw [at_collect] at hempty
    have hin : p.2 ∈ (pairs.filter (·.1 = p.1)).map Prod.snd :=
      List.mem_map_of_mem (List.mem_filter.mpr ⟨hp, by simp⟩)
    rw [hempty.eq_nil] at hin
    cases hin
  · intro hmem
    by_contra hnot
    have hempty := hat key
    rw [at_of_notMem hnot] at hempty
    exact hne key hmem hempty.nil_eq.symm

end Built

/-! ## The secondary after a transfer -/

section Secondary

variable {zoneId : ℕ} {soa : Soa} {serial : ℕ} {tuples : List Db.RecordTuple}

/-- The tables with the SOA, the serial and the rows of one zone replaced. -/
def replacedTables (t : Tables) (zoneId : ℕ) (soa : Soa) (serial : ℕ) (rows : List DnsRecord) :
    Tables :=
  { t.mapZone zoneId (fun z => { z with soa, serial }) with
    records := t.records.filter (·.zoneId != zoneId) ++ rows }

/-- The row that a transfer inserts for a record. -/
def insertedReplica (t : Tables) (zoneId : ℕ) (tuple : Db.RecordTuple) : DnsRecord :=
  ⟨freshId (t.records.map DnsRecord.id), zoneId, none, tuple.1, tuple.2.1, some tuple.2.2.1, tuple.2.2.2, true⟩

/-- The inserts of a transfer into a zone that exists. -/
lemma evals_insertReplica (tuples : List Db.RecordTuple) (t : Tables)
    (hzone : (t.zone? zoneId).isSome = true) :
    ∃ rows, Evals (Db.insertRecords zoneId tuples) t (.ok tuples.length)
        { t with records := t.records ++ rows } ∧
      rows.map unnumbered = tuples.map (replicaRow zoneId) := by
  induction tuples generalizing t with
  | nil => exact ⟨[], by rw [List.append_nil]; exact Evals.pure 0 t, rfl⟩
  | cons tuple tuples ih =>
    obtain ⟨name, rtype, ttl, data⟩ := tuple
    obtain ⟨new, hnew⟩ : ∃ new, new = insertedReplica t zoneId (name, rtype, ttl, data) := ⟨_, rfl⟩
    have hinsert : t.insertRecord ⟨0, zoneId, none, name, rtype, some ttl, data, true⟩ =
        .ok (new.id, { t with records := t.records ++ [new] }) := by
      unfold Tables.insertRecord
      dsimp only
      rw [hzone, hnew]
      rfl
    obtain ⟨rows, hrows, hreplica⟩ := ih { t with records := t.records ++ [new] } hzone
    refine ⟨new :: rows, ?_, ?_⟩
    · unfold Db.insertRecords
      refine Evals.bind (Evals.execute hinsert) (Evals.bind hrows ?_)
      have hrecords : t.records ++ new :: rows = t.records ++ [new] ++ rows := by simp
      rw [hrecords]
      exact Evals.pure _ _
    · rw [List.map_cons, hreplica, hnew]
      rfl

/-- The replacement of a zone that exists. -/
lemma evals_replaceSecondaryZone (soa : Soa) (serial : ℕ) (tuples : List Db.RecordTuple) (t : Tables)
    (hzone : (t.zone? zoneId).isSome = true) :
    ∃ rows, Evals (Db.replaceSecondaryZone zoneId soa serial tuples) t (.ok tuples.length)
        (replacedTables t zoneId soa serial rows) ∧
      rows.map unnumbered = tuples.map (replicaRow zoneId) := by
  have hcleared : ((t.mapZone zoneId fun z => { z with soa, serial }).zone? zoneId).isSome = true := by
    obtain ⟨z, hz⟩ := Option.isSome_iff_exists.mp hzone
    have := Tables.zone?_mapZone_self (f := fun z => { z with soa, serial }) (fun _ => rfl) hz
    rw [Option.isSome_iff_exists]
    exact ⟨_, this⟩
  obtain ⟨rows, hrows, hreplica⟩ := evals_insertReplica tuples
    { t.mapZone zoneId (fun z => { z with soa, serial }) with
      records := t.records.filter (·.zoneId != zoneId) } hcleared
  exact ⟨rows, Evals.transaction (Evals.bind (Evals.update _ t) (Evals.bind (Evals.update _ _) hrows)),
    hreplica⟩

/-- Noting the status of a secondary zone changes nothing that the store is built from. -/
lemma evals_setSecondaryStatus (K : Crates) (zoneId : ℕ) (t : Tables) (refresh : ℤ) :
    ∃ t', Evals (Db.setSecondaryStatus zoneId none (some refresh)) t (.ok ()) t' ∧
      buildFrom K t' = buildFrom K t :=
  ⟨_, Evals.bind (Evals.update _ t) (Evals.update _ _), buildFrom_congr K rfl rfl rfl rfl⟩

/-- In a database that refuses nothing, the store after a transfer is built from the replaced
tables. -/
lemma store_storeTransfer {s : AppState} (hfaults : s.conn.faults = [])
    (hzone : (s.db.zone? zoneId).isSome = true) :
    ∃ rows, rows.map unnumbered = tuples.map (replicaRow zoneId) ∧
      ((storeTransfer K zoneId soa serial tuples).after s).store =
        buildFrom K (replacedTables s.db zoneId soa serial rows) := by
  obtain ⟨rows, hreplace, hreplica⟩ :=
    evals_replaceSecondaryZone soa serial tuples s.db hzone
  refine ⟨rows, hreplica, ?_⟩
  obtain ⟨t', hstatus, hbuild⟩ := evals_setSecondaryStatus K zoneId
    (replacedTables s.db zoneId soa serial rows) (max soa.refresh 60)
  unfold storeTransfer
  obtain ⟨s₁, hdb₁, hfaults₁, -, hafter₁⟩ := after_runDb_bind (s := s) (fun count => do
    runDb (Db.setSecondaryStatus zoneId none (some (max soa.refresh 60)))
    reloadStore K
    pure count) hreplace hfaults
  rw [hafter₁]
  rw [← hdb₁] at hstatus
  obtain ⟨s₂, hdb₂, hfaults₂, -, hafter₂⟩ := after_runDb_bind (s := s₁) (fun _ => do
    reloadStore K
    pure tuples.length) hstatus hfaults₁
  rw [hafter₂]
  obtain ⟨store, hload, -, hreload⟩ := reloadStore_run K s₂
  have hstore : store = buildFrom K t' := by
    obtain ⟨hres, -⟩ := evals_load (K := K) s₂.db s₂.conn rfl hfaults₂
    rw [hres] at hload
    rw [← hdb₂]
    exact (Except.ok.inj hload).symm
  rw [EStateM.after_bind_pure, hreload, hstore]
  exact hbuild

end Secondary

/-! ## Replication of a zone -/

/-- A zone of a primary and its transfer to a secondary, whose database refuses nothing. The order in
which the records are sent is that of the primary's hash map. -/
structure Replication (K : Crates) where
  primary : Tables
  zone : StoredZone
  order : StoredZone → List (Str × List StoredRecord)
  peer : IpAddr
  secondary : AppState
  row : Zone
  server : SocketAddr
  tsigKey : Option Str
  fetch : Fetch
  /-- The zone is the one that the primary transfers for its apex. -/
  found : (buildFrom K primary).zones.find? (fun z => nameKey K z.apex == nameKey K zone.apex) =
    some zone
  ordered : (order zone).Perm (zone.records.entries.map fun e => (e.1, e.2))
  /-- The secondary has an enabled zone for it, under a canonical name. -/
  mem : row ∈ secondary.db.zones
  ids : (secondary.db.zones.map Zone.id).Nodup
  enabled : row.enabled = true
  canonical : canonicalZoneName K row.name = .ok row.name
  apex : K.fromUtf8 (row.name ++ ['.']) = .ok zone.apex
  /-- What the secondary fetches is the stream of the primary. -/
  fetched : ∀ stream, (buildFrom K primary).axfr K order zone.apex peer = some stream →
    fetch server zone.apex tsigKey = .ok stream
  accepts : secondary.conn.faults = []

namespace Replication

variable (R : Replication K)

/-- The secondary after the transfer. -/
def after : AppState :=
  (transfer K R.fetch R.row.id R.row.name R.server R.tsigKey).after R.secondary

/-- The zone is the one that answers a name: on the primary, and among the zones of the secondary. -/
def Answers (qname : Name) : Prop :=
  (buildFrom K R.primary).zoneFor qname = some R.zone ∧
    ∀ z ∈ R.secondary.db.zones, z.id ≠ R.row.id → z.enabled = true →
      ∀ apex, recordFqdnName K ['@'] z.name = .ok apex → apex.zoneOf qname = true →
        apex.numLabels < R.zone.apex.numLabels

/-- Both servers answer the names of the zone alike, whatever client asks. -/
def Faithful : Prop :=
  ∀ qname, R.Answers qname → ∀ qtype client geo client' geo',
    SameAnswer ((buildFrom K R.primary).lookup K qname qtype client geo)
      (R.after.store.lookup K qname qtype client' geo')

/-- Every owner of the zone is displayed under the name that the secondary has for the zone. -/
def Displayed : Prop :=
  ∀ key ∈ R.zone.records, DisplayedUnder R.row.name key

/-- The data of every record of the zone is printed faithfully. -/
def DataPrinted : Prop :=
  ∀ key, ∀ r ∈ R.zone.records.at key, Printed K r.rdata

/-- The canonical name of a zone is folded and has no dot at its end. -/
lemma row_name : toAsciiLowercase (trimEndMatches '.' R.row.name) = R.row.name :=
  (canonicalZoneName_spec R.canonical).2.1

/-- The row and the records that the primary built the zone from. -/
lemma exists_built : ∃ (z : Zone) (signingKey : Option DnssecKey) (rows : List DnsRecord),
    z.serial < 2 ^ 32 ∧ R.zone = storedZone K z R.zone.apex signingKey rows := by
  obtain ⟨z, hz, -, apex, -, hzone⟩ := exists_of_mem_buildFrom (List.mem_of_find?_eq_some R.found)
  have hapex : apex = R.zone.apex := by rw [hzone]; rfl
  refine ⟨z, _, _, ?_, hapex ▸ hzone⟩
  obtain ⟨w, -, rfl⟩ := List.mem_map.mp hz
  exact Nat.mod_lt _ (by decide)

/-- An entry that is sent is an owner of the zone with its records. -/
lemma mem_order {e : Str × List StoredRecord} (he : e ∈ R.order R.zone) :
    e.1 ∈ R.zone.records ∧ R.zone.records.at e.1 = e.2 := by
  obtain ⟨entry, hentry, rfl⟩ := List.mem_map.mp (R.ordered.mem_iff.mp he)
  have hlookup : R.zone.records.lookup entry.1 = some entry.2 := AList.mem_lookup_iff.mpr hentry
  constructor
  · rw [← AList.lookup_isSome, hlookup]
    rfl
  · unfold Grouped.at
    rw [hlookup]
    rfl

/-- An owner of the zone has records. -/
lemma at_ne_nil {key : Str} (hkey : key ∈ R.zone.records) : R.zone.records.at key ≠ [] := by
  obtain ⟨z, signingKey, rows, -, hzone⟩ := R.exists_built
  have hbuilt := at_ne_nil_of_mem (hzone ▸ hkey)
  rwa [← hzone] at hbuilt

/-- What the primary built has names as owners and supported types. -/
lemma built_entry {key : Str} {r : StoredRecord} (hr : r ∈ R.zone.records.at key) :
    IsOwnerKey K key ∧ r.rtype ∈ supportedRecordTypes := by
  obtain ⟨z, signingKey, rows, -, hzone⟩ := R.exists_built
  rw [hzone] at hr
  obtain ⟨row, -, hrow⟩ := mem_at_storedZone hr
  exact ⟨isOwnerKey_of_storedRecord hrow, rtype_of_storedRecord hrow⟩

lemma isOwnerKey {key : Str} (hkey : key ∈ R.zone.records) : IsOwnerKey K key := by
  obtain ⟨r, hr⟩ := List.exists_mem_of_ne_nil _ (R.at_ne_nil hkey)
  exact (R.built_entry hr).1

/-- The entries of the zone, in the order they are sent. -/
lemma carried (hviews : R.zone.Unpinned) : ∀ e ∈ R.order R.zone, Carried K e.1 e.2 := by
  intro e he
  obtain ⟨hmem, hat⟩ := R.mem_order he
  refine ⟨R.isOwnerKey hmem, hat ▸ hviews e.1, ?_⟩
  intro r hr
  rw [← hat] at hr
  exact (R.built_entry hr).2

/-- The rows that the secondary writes. -/
def tuples : List Db.RecordTuple :=
  (R.order R.zone).flatMap fun e => ((recordTypes e.2).flatMap
    (resolve e.2 ((buildFrom K R.primary).clientView R.peer {}))).map (replicaTuple K R.row.name e.1)

/-- The row of the zone is the one with its id. -/
lemma zone?_row : R.secondary.db.zone? R.row.id = some R.row := by
  unfold Tables.zone?
  have hsome : (R.secondary.db.zones.find? (·.id == R.row.id)).isSome := by
    rw [List.find?_isSome]
    exact ⟨R.row, R.mem, by simp⟩
  obtain ⟨z, hz⟩ := Option.isSome_iff_exists.mp hsome
  have hid : z.id = R.row.id := by simpa using List.find?_some hz
  rw [hz, List.inj_on_of_nodup_map R.ids (List.mem_of_find?_eq_some hz) R.mem hid]

/-- The store of the secondary is built from the rows of the stream and its SOA record. -/
lemma after_store (h : K.PrintsNames) (hviews : R.zone.Unpinned) :
    ∃ rows, rows.map unnumbered = R.tuples.map (replicaRow R.row.id) ∧
      R.after.store = buildFrom K (replacedTables R.secondary.db R.row.id
        (printedSoa K R.zone.soa) R.zone.soa.serial rows) := by
  have hstream : (buildFrom K R.primary).axfr K R.order R.zone.apex R.peer =
      some (R.zone.soaRecord :: ((R.order R.zone).flatMap fun e =>
        axfrEntry K ((buildFrom K R.primary).clientView R.peer {}) e.1 e.2) ++
        [R.zone.soaRecord]) := by
    unfold ZoneStore.axfr
    rw [R.found]
    rfl
  have htransfer : transfer K R.fetch R.row.id R.row.name R.server R.tsigKey =
      storeTransfer K R.row.id (printedSoa K R.zone.soa) R.zone.soa.serial R.tuples := by
    unfold transfer
    rw [R.apex]
    dsimp only
    rw [R.fetched _ hstream]
    dsimp only
    rw [transferTuples_stream h R.zone (R.carried hviews) R.row_name]
    rfl
  unfold after
  rw [htransfer]
  exact store_storeTransfer R.accepts (by rw [R.zone?_row]; rfl)

/-- The row of the zone after the transfer, as it is read. -/
def replicaZone : Zone :=
  Db.readZone { R.row with soa := printedSoa K R.zone.soa, serial := R.zone.soa.serial }

/-- The rows of the zone after the transfer are those it wrote. -/
lemma zoneRecords_replaced {rows : List DnsRecord}
    (hrows : rows.map unnumbered = R.tuples.map (replicaRow R.row.id)) (t : Tables) (soa : Soa)
    (serial : ℕ) : (replacedTables t R.row.id soa serial rows).zoneRecords R.row.id = rows := by
  unfold Tables.zoneRecords replacedTables
  dsimp only
  have hold : (t.records.filter (·.zoneId != R.row.id)).filter (·.zoneId == R.row.id) = [] := by
    refine List.filter_eq_nil_iff.mpr fun r hr => ?_
    have := (List.mem_filter.mp hr).2
    simpa using this
  have hnew : rows.filter (·.zoneId == R.row.id) = rows :=
    List.filter_eq_self.mpr fun r hr => by simp [zoneId_of_replicaRows hrows hr]
  rw [List.filter_append, hold, hnew, List.nil_append]

/-- The replica of the zone mirrors it. -/
lemma mirrors_replica (h : K.PrintsNames) (hviews : R.zone.Unpinned) (hdata : R.DataPrinted)
    (hdisplayed : R.Displayed) {rows : List DnsRecord}
    (hrows : rows.map unnumbered = R.tuples.map (replicaRow R.row.id))
    (signingKey : Option DnssecKey) :
    Mirrors R.zone (storedZone K R.replicaZone R.zone.apex signingKey (Db.sortRecords rows)) := by
  have hcarried := R.carried hviews
  obtain ⟨z, signingKey', rows', hserial, hzone⟩ := R.exists_built
  have hsoa : R.zone.soa = zoneSoa K z R.zone.apex := by
    conv_lhs => rw [hzone]
    rfl
  have hminimum : R.zone.soaTtl = max R.zone.soa.minimum 1 := by
    rw [hzone]
    rfl
  refine mirrors_of_perm rfl ?_ hminimum.symm
    ((Db.sortRecords rows).filterMap (storedRecord K R.replicaZone)) rfl ?_ ?_
  · have hreplica : zoneSoa K R.replicaZone R.zone.apex = zoneSoa K z R.zone.apex := by
      refine zoneSoa_printedSoa h R.apex ?_ ?_
      · rw [← hsoa]
        rfl
      · have hread : R.replicaZone.serial = R.zone.soa.serial % 2 ^ 32 := rfl
        rw [hread, hsoa]
        exact Nat.mod_eq_of_lt hserial
    rw [hsoa]
    exact hreplica
  · -- The rows are read as the records of the stream, which are those of the zone.
    have hread : rows.filterMap (storedRecord K R.replicaZone) = (R.order R.zone).flatMap fun e =>
        ((recordTypes e.2).flatMap (resolve e.2 ((buildFrom K R.primary).clientView R.peer {}))).map
          fun r => (e.1, r) := by
      have hcomp : rows.filterMap (storedRecord K R.replicaZone) =
          (rows.map unnumbered).filterMap (storedRecord K R.replicaZone) := by
        rw [List.filterMap_map]
        rfl
      rw [hcomp, hrows]
      refine storedRecords_stream h (z := R.replicaZone) rfl hcarried ?_ ?_
      · intro e he
        exact hdisplayed _ (R.mem_order he).1
      · intro e he
        rw [← (R.mem_order he).2]
        exact hdata e.1
    have hall : ((R.order R.zone).flatMap fun e => ((recordTypes e.2).flatMap
        (resolve e.2 ((buildFrom K R.primary).clientView R.peer {}))).map fun r => (e.1, r)).Perm
        ((R.order R.zone).flatMap fun e => e.2.map fun r => (e.1, r)) :=
      List.Perm.flatMap_left _ fun e he => (resolve_all_perm (hcarried e he).views _).map _
    have horder := R.ordered.flatMap_right fun e => e.2.map fun r => (e.1, r)
    rw [List.flatMap_map] at horder
    have hfinal := ((Db.perm_sortRecords rows).filterMap (storedRecord K R.replicaZone))
    rw [hread] at hfinal
    exact (hfinal.trans hall).trans horder
  · intro key hkey
    exact R.at_ne_nil hkey

/-- The replica is in the store of the secondary. -/
lemma replica_mem {rows : List DnsRecord}
    (hrows : rows.map unnumbered = R.tuples.map (replicaRow R.row.id)) {t : Tables}
    (ht : t = replacedTables R.secondary.db R.row.id (printedSoa K R.zone.soa) R.zone.soa.serial
      rows) :
    servedZone K t R.replicaZone = some (storedZone K R.replicaZone R.zone.apex
      (t.dnssecKey? R.row.id) (Db.sortRecords rows)) := by
  have henabled : R.replicaZone.enabled = true := R.enabled
  have hapex : recordFqdnName K ['@'] R.replicaZone.name = .ok R.zone.apex :=
    recordFqdnName_apex.mpr R.apex
  have hid : R.replicaZone.id = R.row.id := rfl
  unfold servedZone
  rw [henabled, hapex, hid]
  have hrecords : t.zoneRecords R.row.id = rows := by
    rw [ht]
    exact R.zoneRecords_replaced hrows _ _ _
  rw [hrecords]
  rfl

/-- A zone of the secondary is its row of the replica, or another row as it was. -/
lemma mem_zonesByName_replaced {rows : List DnsRecord} {z : Zone}
    (hz : z ∈ Db.zonesByName (replacedTables R.secondary.db R.row.id (printedSoa K R.zone.soa)
      R.zone.soa.serial rows)) :
    z = R.replicaZone ∨
      ∃ w ∈ R.secondary.db.zones, w.id ≠ R.row.id ∧ w.enabled = z.enabled ∧ w.name = z.name := by
  obtain ⟨w, hw, rfl⟩ := List.mem_map.mp hz
  rw [(List.perm_insertionSort _ _).mem_iff] at hw
  obtain ⟨v, hv, rfl⟩ := List.mem_map.mp hw
  by_cases hid : v.id = R.row.id
  · left
    rw [if_pos hid, List.inj_on_of_nodup_map R.ids hv R.mem hid]
    rfl
  · right
    rw [if_neg hid]
    exact ⟨v, hv, hid, rfl, rfl⟩

/-- The secondary answers the names of the zone from the replica. -/
lemma zoneFor_replica {qname : Name} (hanswers : R.Answers qname) {rows : List DnsRecord}
    (hrows : rows.map unnumbered = R.tuples.map (replicaRow R.row.id)) :
    ∃ signingKey, (buildFrom K (replacedTables R.secondary.db R.row.id (printedSoa K R.zone.soa)
      R.zone.soa.serial rows)).zoneFor qname =
        some (storedZone K R.replicaZone R.zone.apex signingKey (Db.sortRecords rows)) := by
  obtain ⟨hprimary, hothers⟩ := hanswers
  generalize ht : replacedTables R.secondary.db R.row.id (printedSoa K R.zone.soa)
    R.zone.soa.serial rows = t
  have hserved := R.replica_mem hrows ht.symm
  have hlisted : R.replicaZone ∈ Db.zonesByName t := by
    rw [← ht]
    refine List.mem_map.mpr ⟨_, (List.perm_insertionSort _ _).mem_iff.mpr
      (List.mem_map.mpr ⟨R.row, R.mem, rfl⟩), ?_⟩
    rw [if_pos rfl]
    rfl
  have hmem : storedZone K R.replicaZone R.zone.apex (t.dnssecKey? R.row.id) (Db.sortRecords rows) ∈
      (buildFrom K t).zones :=
    (List.perm_insertionSort _ _).mem_iff.mpr (List.mem_filterMap.mpr ⟨_, hlisted, hserved⟩)
  have hcovers : R.zone.apex.zoneOf qname = true := (zoneFor_longest hprimary).1
  -- Some zone covers the name; it has at least the labels of the replica, so it is the replica.
  have hsome : ((buildFrom K t).zoneFor qname).isSome := by
    unfold ZoneStore.zoneFor
    rw [List.find?_isSome]
    exact ⟨_, hmem, hcovers⟩
  obtain ⟨w, hw⟩ := Option.isSome_iff_exists.mp hsome
  obtain ⟨hwcovers, hlongest⟩ := zoneFor_longest hw
  obtain ⟨z, hz, henabled, apex, hapex, hwz⟩ :=
    exists_of_mem_buildFrom (List.mem_of_find?_eq_some hw)
  rw [← ht] at hz
  rcases R.mem_zonesByName_replaced hz with hreplica | ⟨v, hv, hid, hvenabled, hvname⟩
  · refine ⟨t.dnssecKey? R.row.id, ?_⟩
    have hapex' : apex = R.zone.apex := by
      rw [hreplica] at hapex
      exact Except.ok.inj (hapex.symm.trans (recordFqdnName_apex.mpr R.apex))
    have hid : R.replicaZone.id = R.row.id := rfl
    have hrecords : t.zoneRecords R.row.id = rows := by
      rw [← ht]
      exact R.zoneRecords_replaced hrows _ _ _
    rw [hw, hwz, hreplica, hapex', hid, hrecords]
  · exfalso
    have hshort := hothers v hv hid (hvenabled.trans henabled) apex (by rw [hvname]; exact hapex)
      (by rw [hwz] at hwcovers; exact hwcovers)
    have hlong := hlongest _ hmem hcovers
    rw [hwz] at hlong
    exact absurd hlong (Nat.not_le.mpr hshort)

/-- A zone whose owners are displayed under the name that the secondary has for it is answered alike
by both servers. -/
lemma faithful_of_displayed (h : K.PrintsNames) (hviews : R.zone.Unpinned)
    (hcname : R.zone.OneCname) (hdata : R.DataPrinted) (hdisplayed : R.Displayed) : R.Faithful := by
  intro qname hanswers qtype client geo client' geo'
  obtain ⟨rows, hrows, hstore⟩ := R.after_store h hviews
  obtain ⟨signingKey, hreplica⟩ := R.zoneFor_replica hanswers hrows
  have hmirrors := R.mirrors_replica h hviews hdata hdisplayed hrows signingKey
  rw [hstore, lookup_of_zoneFor hanswers.1, lookup_of_zoneFor hreplica]
  exact hmirrors.lookupIn hviews hcname _ _ qname qtype

/-! ### Zones under another name -/

/-- Every owner of the zone is displayed under the apex, which is not the root. -/
structure OwnersUnderApex : Prop where
  apex : nameKey K R.zone.apex ≠ []
  owners : ∀ key ∈ R.zone.records, DisplayedUnder (nameKey K R.zone.apex) key

/-- Every owner of the zone is the name of a query that the zone answers. -/
def OwnersAnswered : Prop :=
  ∀ key ∈ R.zone.records, ∃ qname, R.Answers qname ∧ nameKey K qname = key

variable {R}

/-- Under another name than that of the apex, no owner ends with the name of the zone. -/
lemma ne_of_ne_apex (h : K.PrintsNames) (hname : R.row.name ≠ nameKey K R.zone.apex) {key : Str}
    (hunder : DisplayedUnder (nameKey K R.zone.apex) key) :
    key ≠ R.row.name ∧ ∀ rel, key ≠ rel ++ '.' :: R.row.name := by
  obtain ⟨m, hm, hmkey⟩ := h.read_key R.apex
  -- Neither of the two names stands before a dot and the other: they are read as the same name.
  have hfront : ∀ x, nameKey K R.zone.apex ≠ x ++ '.' :: R.row.name := by
    intro x heq
    rw [heq] at hm
    exact h.other R.apex hm hmkey
  have hback : ∀ x, R.row.name ≠ x ++ '.' :: nameKey K R.zone.apex := by
    intro x heq
    have hapex := R.apex
    rw [heq] at hapex
    exact h.other hm hapex hmkey.symm
  rcases hunder with rfl | ⟨rel, rfl, -, -⟩
  · exact ⟨hname.symm, hfront⟩
  · refine ⟨(hback rel).symm, ?_⟩
    intro rel' heq
    rcases dotted_suffix_cases heq with hsame | ⟨x, hx⟩ | ⟨x, hx⟩
    · exact hname hsame.symm
    · exact hfront x hx
    · exact hback x hx

/-- The key of a folded name has no dot at its end. -/
lemma trimEndMatches_nameKey (n : Name) : trimEndMatches '.' (nameKey K n) = nameKey K n := by
  unfold nameKey
  rw [trimEndMatches_toAsciiLowercase, trimEndMatches_idem]

/-- An owner that does not end with the name of the zone is stored with its whole name before the
name of the zone, under a longer name. -/
lemma length_of_misplaced (h : K.PrintsNames) {key key' : Str} (hkey : IsOwnerKey K key)
    (hne : key ≠ []) {z : Zone}
    (hout : key ≠ z.name ∧ ∀ rel, key ≠ rel ++ '.' :: z.name) {zoneId : ℕ} {r r' : StoredRecord}
    (hstored : storedRecord K z (replicaRow zoneId (replicaTuple K z.name key r)) = some (key', r')) :
    key.length + 2 ≤ key'.length := by
  obtain ⟨hread, hname⟩ := hkey.read h
  have hplain := h.plain_key hread
  rw [hname] at hplain
  have hrelative : relativeOwner K z.name (ownerName K key) = key := by
    have hfolded : toAsciiLowercase (trimEndMatches '.' ((ownerName K key).toText K)) = key := hname
    have hstrip : stripSuffix key ('.' :: z.name) = none := by
      rw [Option.eq_none_iff_forall_ne_some]
      intro rel hrel
      exact hout.2 rel (stripSuffix_eq_some.mp hrel)
    unfold relativeOwner
    dsimp only
    rw [hfolded, if_neg (by simpa using hout.1), hstrip]
    rfl
  have htrim : trimEndMatches '.' (trim key) = key := by
    rw [trim_eq_self fun c hc => (hplain c hc).2, ← hname, trimEndMatches_nameKey]
  have hat : (key == ['@']) = false := by
    rw [beq_eq_false_iff_ne]
    rintro rfl
    exact (hplain '@' (by simp)).1 rfl
  have hempty : key.isEmpty = false := by simpa using hne
  unfold replicaTuple replicaRow storedRecord at hstored
  dsimp only at hstored
  rw [if_neg (by simp)] at hstored
  split at hstored
  · cases hstored
  · split at hstored
    · cases hstored
    · rw [hrelative] at hstored
      unfold recordFqdnName at hstored
      dsimp only at hstored
      rw [htrim, hempty, hat] at hstored
      simp only [Bool.or_self, Bool.false_eq_true, if_false] at hstored
      cases hlong : K.fromUtf8 (key ++ '.' :: z.name ++ ['.']) with
      | error e =>
        rw [hlong] at hstored
        cases hstored
      | ok owner =>
        rw [hlong] at hstored
        cases hstored
        rw [← hname] at hlong
        have := h.longer hread hlong
        rwa [hname] at this

/-- The owners of the replica are longer than some owner of the zone, when none of these ends with the
name of the zone. -/
lemma longer_of_mem_replica (h : K.PrintsNames)
    (hout : ∀ key ∈ R.zone.records,
      key ≠ [] ∧ key ≠ R.row.name ∧ ∀ rel, key ≠ rel ++ '.' :: R.row.name)
    {rows : List DnsRecord} (hrows : rows.map unnumbered = R.tuples.map (replicaRow R.row.id))
    {signingKey : Option DnssecKey} {key' : Str}
    (hmem : key' ∈
      (storedZone K R.replicaZone R.zone.apex signingKey (Db.sortRecords rows)).records) :
    ∃ key ∈ R.zone.records, key.length + 2 ≤ key'.length := by
  obtain ⟨r', hr'⟩ := List.exists_mem_of_ne_nil _ (at_ne_nil_of_mem hmem)
  obtain ⟨row, hrow, hstored⟩ := mem_at_storedZone hr'
  have hin : row ∈ rows :=
    ((List.perm_insertionSort _ _).trans (List.perm_insertionSort _ _)).mem_iff.mp hrow
  have hunnumbered : unnumbered row ∈ R.tuples.map (replicaRow R.row.id) :=
    hrows ▸ List.mem_map_of_mem hin
  obtain ⟨tuple, htuple, hreplica⟩ := List.mem_map.mp hunnumbered
  obtain ⟨e, he, htuple⟩ := List.mem_flatMap.mp htuple
  obtain ⟨r, -, rfl⟩ := List.mem_map.mp htuple
  obtain ⟨hkey, -⟩ := R.mem_order he
  refine ⟨e.1, hkey, ?_⟩
  rw [← storedRecord_unnumbered, ← hreplica] at hstored
  exact length_of_misplaced h (R.isOwnerKey hkey) (hout _ hkey).1 (z := R.replicaZone)
    (hout _ hkey).2 hstored

/-- The keys that are tried for a name are no longer than its key, but for one character. -/
lemma length_candidateKeys {key k : Str} (hk : k ∈ candidateKeys key) :
    k.length ≤ key.length + 1 := by
  unfold candidateKeys at hk
  rcases List.mem_cons.mp hk with rfl | hk
  · omega
  · obtain ⟨rest, hrest, rfl⟩ := List.mem_map.mp hk
    obtain ⟨pre, rfl⟩ := mem_dotParents.mp hrest
    simp only [List.length_cons, List.length_append]
    omega

/-- A zone with records under another name than that of its apex is not answered alike: the shortest
owner is not found on the secondary. -/
lemma not_faithful_of_ne_apex (h : K.PrintsNames) (hviews : R.zone.Unpinned)
    (hunder : R.OwnersUnderApex) (hanswered : R.OwnersAnswered)
    (hname : R.row.name ≠ nameKey K R.zone.apex) {key : Str} (hkey : key ∈ R.zone.records) :
    ¬ R.Faithful := by
  have hout : ∀ key ∈ R.zone.records,
      key ≠ [] ∧ key ≠ R.row.name ∧ ∀ rel, key ≠ rel ++ '.' :: R.row.name := by
    intro key hkey
    refine ⟨?_, ne_of_ne_apex h hname (hunder.owners key hkey)⟩
    rintro rfl
    rcases hunder.owners [] hkey with heq | ⟨rel, heq, -⟩
    · exact hunder.apex heq.symm
    · simp at heq
  obtain ⟨least, hleast, hshort⟩ := WellFounded.has_min (measure List.length).wf
    { key : Str | key ∈ R.zone.records } ⟨key, hkey⟩
  obtain ⟨qname, hanswers, hq⟩ := hanswered least hleast
  obtain ⟨rows, hrows, hstore⟩ := R.after_store h hviews
  obtain ⟨signingKey, hreplica⟩ := R.zoneFor_replica hanswers hrows
  intro hfaithful
  have hsame := (hfaithful qname hanswers .A (.v4 0) {} (.v4 0) {}).rcode
  rw [hstore] at hsame
  rw [lookup_of_zoneFor hanswers.1, lookup_of_zoneFor hreplica, lookupIn_entry (by simp),
    lookupIn_entry (by simp)] at hsame
  -- The secondary has no entry for the name.
  have hnone : recordsAt (storedZone K R.replicaZone R.zone.apex signingKey (Db.sortRecords rows))
      (nameKey K qname) = none := by
    rw [recordsAt_eq, Option.map_eq_none_iff]
    unfold ownerKey
    refine List.find?_eq_none.mpr fun k hk => ?_
    simp only [decide_eq_true_eq]
    intro hmem
    obtain ⟨key', hkey', hlong⟩ := longer_of_mem_replica h hout hrows hmem
    have hcandidate := length_candidateKeys hk
    have hmin : ¬ key'.length < least.length := hshort key' hkey'
    rw [hq] at hcandidate
    omega
  -- The primary has one.
  have hsome : recordsAt R.zone (nameKey K qname) = some (R.zone.records.at least) := by
    rw [hq]
    exact recordsAt_of_mem hleast
  rw [hnone, hsome, Option.elim_some] at hsame
  have hcode := (answer_outcome (K := K) R.zone
    ((buildFrom K R.primary).clientView (.v4 0) {})
    (((buildFrom K R.primary).viewFor (.v4 0) {}).map Prod.snd) qname .A
    (R.zone.records.at least)).1
  rw [hcode] at hsame
  cases hsame

variable (R)

/-- A zone whose records are pinned to no view, with at most one CNAME for an owner and data that is
printed faithfully, is answered alike by the primary and by the secondary when its owners are
displayed under the name that the secondary has for it. For a zone whose owners are displayed under
its apex and are all asked for, this is so exactly when that name is the display form of the apex, or
the zone has no records. -/
theorem faithful_displayed (h : K.PrintsNames) (hviews : R.zone.Unpinned)
    (hcname : R.zone.OneCname) (hdata : R.DataPrinted) :
    (R.Displayed → R.Faithful) ∧
      (R.OwnersUnderApex → R.OwnersAnswered →
        (R.Faithful ↔
          R.row.name = nameKey K R.zone.apex ∨ ∀ key, key ∉ R.zone.records)) := by
  refine ⟨R.faithful_of_displayed h hviews hcname hdata, ?_⟩
  intro hunder hanswered
  constructor
  · intro hfaithful
    by_contra hnot
    push Not at hnot
    obtain ⟨hname, key, hkey⟩ := hnot
    exact not_faithful_of_ne_apex h hviews hunder hanswered hname hkey hfaithful
  · rintro (hname | hempty)
    · refine R.faithful_of_displayed h hviews hcname hdata ?_
      intro key hkey
      rw [hname]
      exact hunder.owners key hkey
    · exact R.faithful_of_displayed h hviews hcname hdata fun key hkey => absurd hkey (hempty key)

end Replication

/-! ### An internationalised zone -/

/-- The tables with one zone of the given name and records. -/
def oneZone (name : Str) (records : List DnsRecord) : Tables :=
  { Tables.empty with zones := [⟨1, name, true, .defaultFor name, 300, 1⟩], records }

/-- The address record of `www`. -/
def wwwRow : DnsRecord :=
  ⟨1, 1, none, "www", "A", none, "192.0.2.1", true⟩

/-- The primary: the zone is configured in its ASCII form. -/
def bucherPrimary : Tables :=
  oneZone "xn--bcher-kva.example" [wwwRow]

/-- The zone as the primary serves it. -/
def bucherZone : StoredZone :=
  storedZone idnCrates ⟨1, "xn--bcher-kva.example", true, .defaultFor "xn--bcher-kva.example", 300, 1⟩
    ⟨[bucherLabel, "example".toList.map fun c => UInt8.ofNat c.toNat]⟩ none [wwwRow]

/-- The owners of a zone with their records, in the order of the map. -/
def mapOrder (zone : StoredZone) : List (Str × List StoredRecord) :=
  zone.records.entries.map fun e => (e.1, e.2)

/-- The transfer of the zone to a secondary that has it under the given name. -/
def bucherReplication (name : Str) (hname : canonicalZoneName idnCrates name = .ok name)
    (hapex : idnCrates.fromUtf8 (name ++ ['.']) = .ok bucherZone.apex) : Replication idnCrates where
  primary := bucherPrimary
  zone := bucherZone
  order := mapOrder
  peer := .v4 0xc0000235
  secondary := ⟨⟨oneZone name [], [], []⟩, buildFrom idnCrates (oneZone name []), [], []⟩
  row := ⟨1, name, true, .defaultFor name, 300, 1⟩
  server := ⟨.v4 0xc0000201, 53, 0⟩
  tsigKey := none
  fetch _ _ _ := .ok (((buildFrom idnCrates bucherPrimary).axfr idnCrates mapOrder bucherZone.apex
    (.v4 0xc0000235)).getD [])
  found := rfl
  ordered := .refl _
  mem := List.mem_singleton_self _
  ids := by simp [AppState.db, oneZone]
  enabled := rfl
  canonical := hname
  apex := hapex
  fetched stream h := by
    rw [h]
    rfl
  accepts := rfl

/-- The secondary has the zone under its display name. -/
def unicodeReplication : Replication idnCrates :=
  bucherReplication "bücher.example" rfl rfl

/-- The secondary has the zone under its ASCII name. -/
def asciiReplication : Replication idnCrates :=
  bucherReplication "xn--bcher-kva.example" rfl rfl

/-- The record of the zone. -/
def wwwRecord : StoredRecord :=
  ⟨.A, 300, none, .a 0xc0000201, rfl⟩

/-- The name of the record. -/
def wwwBucher : Name :=
  ⟨["www".toList.map fun c => UInt8.ofNat c.toNat, bucherLabel,
    "example".toList.map fun c => UInt8.ofNat c.toNat]⟩

/-- The zone has one record. -/
lemma bucherZone_records : bucherZone.records = collect [("www.bücher.example".toList, wwwRecord)] :=
  rfl

lemma mem_bucherZone {key : Str} (h : key ∈ bucherZone.records) :
    key = "www.bücher.example".toList := by
  rw [bucherZone_records, mem_collect] at h
  simpa using h

lemma at_bucherZone {key : Str} {r : StoredRecord} (h : r ∈ bucherZone.records.at key) :
    r = wwwRecord := by
  rw [bucherZone_records, at_collect] at h
  obtain ⟨p, hp, rfl⟩ := List.mem_map.mp h
  rw [List.mem_singleton.mp (List.mem_filter.mp hp).1]

/-- What is asked of the zone: no views, one CNAME at most, and data that is printed faithfully. -/
lemma bucherZone_spec : bucherZone.Unpinned ∧ bucherZone.OneCname ∧
    ∀ key, ∀ r ∈ bucherZone.records.at key, Printed idnCrates r.rdata := by
  refine ⟨?_, ?_, ?_⟩
  · intro key r hr
    rw [at_bucherZone hr]
    rfl
  · intro key
    have hnone : (bucherZone.records.at key).filter (·.rtype == .CNAME) = [] := by
      refine List.filter_eq_nil_iff.mpr fun r hr => ?_
      rw [at_bucherZone hr]
      decide
    rw [hnone]
    exact Nat.zero_le 1
  · intro key r hr
    rw [at_bucherZone hr]
    exact ⟨by decide +kernel, trivial⟩

/-- The zone answers the name of its record, on both servers. -/
lemma bucher_answers (name : Str) (hname : canonicalZoneName idnCrates name = .ok name)
    (hapex : idnCrates.fromUtf8 (name ++ ['.']) = .ok bucherZone.apex) :
    (bucherReplication name hname hapex).Answers wwwBucher := by
  refine ⟨rfl, ?_⟩
  intro z hz hid
  exact absurd (congrArg Zone.id (List.mem_singleton.mp hz)) hid

/-- A secondary that has the zone under its display name answers as the primary does. -/
theorem faithful_displayed_unicode :
    unicodeReplication.Faithful ∧ (unicodeReplication.Faithful ↔
      unicodeReplication.row.name = nameKey idnCrates unicodeReplication.zone.apex ∨
        ∀ key, key ∉ unicodeReplication.zone.records) := by
  obtain ⟨hviews, hcname, hdata⟩ := bucherZone_spec
  have hunder : ∀ key ∈ unicodeReplication.zone.records,
      DisplayedUnder "bücher.example".toList key := by
    intro key hkey
    rw [mem_bucherZone hkey]
    exact .inr ⟨"www", by decide, by decide, by decide⟩
  have happly := unicodeReplication.faithful_displayed idn_printsNames hviews hcname hdata
  refine ⟨happly.1 hunder, happly.2 ⟨by decide +kernel, hunder⟩ ?_⟩
  intro key hkey
  refine ⟨wwwBucher, bucher_answers _ rfl rfl, ?_⟩
  rw [mem_bucherZone hkey]
  decide +kernel

/-- A secondary that has the zone under its ASCII name does not find the record that the primary
answers with. -/
theorem not_faithful_ascii :
    idnCrates.PrintsNames ∧ asciiReplication.zone.Unpinned ∧ asciiReplication.zone.OneCname ∧
      asciiReplication.DataPrinted ∧ asciiReplication.Answers wwwBucher ∧
      ((buildFrom idnCrates asciiReplication.primary).lookup idnCrates wwwBucher .A (.v4 0) {}).rcode =
        .NoError ∧
      (asciiReplication.after.store.lookup idnCrates wwwBucher .A (.v4 0) {}).rcode = .NXDomain ∧
      ¬ asciiReplication.Faithful := by
  obtain ⟨hviews, hcname, hdata⟩ := bucherZone_spec
  have hanswers : asciiReplication.Answers wwwBucher := bucher_answers _ rfl rfl
  have hprimary : ((buildFrom idnCrates asciiReplication.primary).lookup idnCrates wwwBucher .A
      (.v4 0) {}).rcode = .NoError := by decide +kernel
  have hsecondary : (asciiReplication.after.store.lookup idnCrates wwwBucher .A (.v4 0) {}).rcode =
      .NXDomain := by decide +kernel
  refine ⟨idn_printsNames, hviews, hcname, hdata, hanswers, hprimary, hsecondary, ?_⟩
  intro hfaithful
  have hsame := (hfaithful wwwBucher hanswers .A (.v4 0) {} (.v4 0) {}).rcode
  rw [hprimary, hsecondary] at hsame
  cases hsame

end Nomina
