import Nomina.Lib.Lts
import Nomina.Operations

/-!
# Secondary zones are read-only

The records of a secondary zone are those of its last transfer. Creating records and importing are
refused for such a zone. Updating and deleting a record, DynDNS updates and DHCP registrations are
not: they must keep away from secondary zones by themselves. In a run in which they do, every
secondary zone holds exactly the rows that its last successful transfer wrote.
-/

namespace Nomina

open Lib Sql EStateM

variable {K : Crates}

/-! ## Keeping away from secondary zones -/

/-- The part of a zone row that no operation changes. -/
def skeleton (z : Zone) : Zone :=
  { z with enabled := true, soa := .defaultFor [], defaultTtl := 0, serial := 0 }

/-- Every record belongs to a zone. -/
def RecordRefs (t : Tables) : Prop :=
  ∀ r ∈ t.records, r.zoneId ∈ t.zones.map Zone.id

/-- A change that keeps the zones, and the rows of those that are secondary. The keys of the record
table stay in order. -/
structure Apart (t t' : Tables) : Prop where
  zones : t'.zones.map skeleton = t.zones.map skeleton
  secondaries : ∀ zoneId, t'.isSecondary zoneId = t.isSecondary zoneId
  rows : ∀ zoneId, t.isSecondary zoneId = true → t'.zoneRecords zoneId = t.zoneRecords zoneId
  refs : RecordRefs t → RecordRefs t'
  keys : (t.records.map DnsRecord.id).Nodup → (t'.records.map DnsRecord.id).Nodup

instance : IsPreorder Tables Apart where
  refl _ := ⟨rfl, fun _ => rfl, fun _ _ => rfl, id, id⟩
  trans _ _ _ h h' :=
    ⟨h'.zones.trans h.zones, fun i => (h'.secondaries i).trans (h.secondaries i),
      fun i hi => (h'.rows i (by rw [h.secondaries, hi])).trans (h.rows i hi),
      h'.refs ∘ h.refs, h'.keys ∘ h.keys⟩

/-- The same for the contents of connections. -/
abbrev ApartConn (c c' : Conn Tables) : Prop :=
  Apart c.tables c'.tables

section Statements

variable {t t' : Tables} {i zoneId : ℕ}

/-- The ids of the zones. -/
lemma Apart.zoneIds (h : Apart t t') : t'.zones.map Zone.id = t.zones.map Zone.id := by
  have hids : ∀ u : Tables, u.zones.map Zone.id = (u.zones.map skeleton).map Zone.id := by
    intro u
    rw [List.map_map]
    rfl
  rw [hids, hids, h.zones]

lemma mem_zoneIds (h : (t.zone? i).isSome = true) : i ∈ t.zones.map Zone.id := by
  obtain ⟨z, hz⟩ := Option.isSome_iff_exists.mp h
  rw [← Tables.id_of_zone? hz]
  exact List.mem_map_of_mem (List.mem_of_find?_eq_some hz)

/-- Statements on other tables. -/
lemma apart_of_eq (hzones : t'.zones = t.zones) (hsec : t'.secondaries = t.secondaries)
    (hrecords : t'.records = t.records) : Apart t t' where
  zones := by rw [hzones]
  secondaries _ := by unfold Tables.isSecondary Tables.secondary?; rw [hsec]
  rows _ _ := by unfold Tables.zoneRecords; rw [hrecords]
  refs := by unfold RecordRefs; rw [hzones, hrecords]; exact id
  keys := by rw [hrecords]; exact id

lemma apart_mapZone {f : Zone → Zone} (hf : ∀ z, skeleton (f z) = skeleton z) :
    Apart t (t.mapZone i f) := by
  have hskel : (t.mapZone i f).zones.map skeleton = t.zones.map skeleton := by
    unfold Tables.mapZone
    dsimp only
    rw [List.map_map]
    refine List.map_congr_left fun z _ => ?_
    simp only [Function.comp_apply]
    split
    · exact hf z
    · rfl
  have hids : (t.mapZone i f).zones.map Zone.id = t.zones.map Zone.id := by
    have := congrArg (List.map Zone.id) hskel
    rwa [List.map_map, List.map_map] at this
  refine ⟨hskel, fun _ => rfl, fun _ _ => rfl, fun hrefs r hr => ?_, id⟩
  rw [hids]
  exact hrefs r hr

lemma apart_bump : Apart t (t.bump i) :=
  apart_mapZone fun _ => rfl

/-- A record that is inserted into a zone that is not secondary. -/
lemma apart_insertRecord {r : DnsRecord} (hr : t.isSecondary r.zoneId = false)
    (h : t.insertRecord r = .ok (i, t')) : Apart t t' := by
  unfold Tables.insertRecord at h
  split at h
  · rename_i hcheck
    cases h
    rw [Bool.and_eq_true] at hcheck
    refine ⟨rfl, fun _ => rfl, fun j hj => ?_, fun hrefs r' hr' => ?_, fun hkeys => ?_⟩
    · have hne : r.zoneId ≠ j := by
        rintro rfl
        rw [hr] at hj
        cases hj
      simp [Tables.zoneRecords, List.filter_append, hne]
    · rcases List.mem_append.mp hr' with hr' | hr'
      · exact hrefs r' hr'
      · rw [List.mem_singleton.mp hr']
        exact mem_zoneIds hcheck.1
    · rw [List.map_append]
      exact nodup_append_freshId hkeys
  · cases h

/-- Rows are deleted that are in no secondary zone. -/
lemma apart_filter {p : DnsRecord → Bool}
    (hp : ∀ r ∈ t.records, t.isSecondary r.zoneId = true → p r = true) :
    Apart t { t with records := t.records.filter p } := by
  refine ⟨rfl, fun _ => rfl, fun j hj => ?_, fun hrefs r hr => ?_, fun hkeys => ?_⟩
  · unfold Tables.zoneRecords
    dsimp only
    rw [List.filter_filter]
    refine List.filter_congr fun r hr => ?_
    by_cases hz : r.zoneId = j
    · rw [hp r hr (hz ▸ hj)]
      simp
    · simp [hz]
  · exact hrefs r (List.mem_of_mem_filter hr)
  · exact hkeys.sublist (List.filter_sublist.map _)

/-- The rows with an id are in no secondary zone. -/
def RowClear (i : ℕ) (t : Tables) : Prop :=
  ∀ r ∈ t.records, r.id = i → t.isSecondary r.zoneId = false

/-- A row that is updated in a zone that is not secondary. -/
lemma apart_mapRecord {f : DnsRecord → DnsRecord}
    (hf : ∀ r, (f r).id = r.id ∧ (f r).zoneId = r.zoneId) (hclear : RowClear i t) :
    Apart t (t.mapRecord i f) := by
  refine ⟨rfl, fun _ => rfl, fun j hj => ?_, fun hrefs r hr => ?_, fun hkeys => ?_⟩
  · refine Tables.zoneRecords_mapRecord_of_ne (fun r => (hf r).2) fun r hr hid hz => ?_
    rw [← hz, hclear r hr hid] at hj
    cases hj
  · obtain ⟨r', hr', rfl⟩ := List.mem_map.mp hr
    have := hrefs r' hr'
    split
    · rwa [(hf r').2]
    · exact this
  · rwa [Tables.ids_mapRecord fun r => (hf r).1]

end Statements

/-! ## Database calls -/

section Calls

variable {zoneId i : ℕ}

/-- A zone is not secondary. -/
abbrev ZoneClear (zoneId : ℕ) (t : Tables) : Prop :=
  t.isSecondary zoneId = false

lemma ZoneClear.of_apart {t t' : Tables} (h : Apart t t') (hz : ZoneClear zoneId t) :
    ZoneClear zoneId t' :=
  (h.secondaries zoneId).trans hz

lemma apart_createRecord {viewId : Option ℕ} {name rtype : Str} {ttl : Option ℕ} {data : Str} :
    Sql.Keeps (Given (ZoneClear zoneId) Apart)
      (Db.createRecord zoneId viewId name rtype ttl data) := by
  refine Db.keeps_createRecord (fun t r j t' hr h => ?_) fun t => ?_
  · exact .of_stable .of_apart fun hclear => apart_insertRecord (hr ▸ hclear) h
  · exact .of_stable .of_apart fun _ => apart_bump

lemma apart_updateRecord {viewId : Option (Option ℕ)} {name : Option Str} {ttl : Option (Option ℕ)}
    {data : Option Str} {enabled : Option Bool} :
    Sql.Keeps (Given (RowClear i) Apart) (Db.updateRecord i viewId name ttl data enabled) := by
  refine Db.keeps_updateRecord (fun t f hf hclear => ⟨?_, apart_mapRecord hf hclear⟩)
    fun t zoneId hclear => ⟨hclear, apart_bump⟩
  -- The rows with the id stay in their zones.
  intro r hr hid
  obtain ⟨r', hr', rfl⟩ := List.mem_map.mp hr
  split at hid
  · rename_i hi
    rw [if_pos hi, (hf r').2]
    exact hclear r' hr' hi
  · exact absurd hid ‹_›

lemma apart_deleteRecord : Sql.Keeps (Given (RowClear i) Apart) (Db.deleteRecord i) := by
  unfold Db.deleteRecord
  refine .bind (.select _) fun zone => ?_
  split
  · exact .pure _
  · refine .bind (.update fun t hclear => ⟨fun r hr => hclear r (List.mem_of_mem_filter hr), ?_⟩)
      fun _ => .bind (.update fun t hclear => ⟨hclear, apart_bump⟩) fun _ => .pure _
    refine apart_filter fun r hr hsec => ?_
    have hne : r.id ≠ i := by
      intro hid
      rw [hclear r hr hid] at hsec
      cases hsec
    simpa using hne

lemma apart_insertRecords (tuples : List Db.RecordTuple) :
    Sql.Keeps (Given (ZoneClear zoneId) Apart) (Db.insertRecords zoneId tuples) := by
  induction tuples with
  | nil => exact .pure 0
  | cons tuple tuples ih =>
    refine .bind (.execute fun t j t' h => ?_) fun _ => .bind ih fun _ => .pure _
    exact .of_stable .of_apart fun hclear => apart_insertRecord hclear h

lemma apart_clearRecords : Sql.Keeps (Given (ZoneClear zoneId) Apart) (Db.clearRecords zoneId) := by
  refine .update fun t => .of_stable .of_apart fun hclear => apart_filter fun r _ hsec => ?_
  have hne : r.zoneId ≠ zoneId := by
    rintro rfl
    rw [hclear] at hsec
    cases hsec
  simpa using hne

lemma apart_importRecords {replace : Bool} {tuples : List Db.RecordTuple} :
    Sql.Keeps (Given (ZoneClear zoneId) Apart) (Db.importRecords zoneId replace tuples) := by
  refine .transaction (.bind ?_ fun _ => .bind (apart_insertRecords tuples) fun _ =>
    .bind (.update fun t => .of_stable .of_apart fun _ => apart_bump) fun _ => .pure _)
  unfold Db.clearWhen
  split
  · exact apart_clearRecords
  · exact .pure ()

lemma apart_updateZone {enabled : Option Bool} {soa : Option Soa} {defaultTtl : Option ℕ} :
    Sql.Keeps Apart (Db.updateZone i enabled soa defaultTtl) :=
  .bind (Db.keeps_whenSome fun _ => .update fun _ => apart_mapZone fun _ => rfl) fun _ =>
    .bind (Db.keeps_whenSome fun _ => .update fun _ => apart_mapZone fun _ => rfl) fun _ =>
    .bind (Db.keeps_whenSome fun _ => .update fun _ => apart_mapZone fun _ => rfl) fun _ =>
    .update fun _ => apart_bump

lemma apart_createView {name : Str} {networks : List Str} {priority : ℤ}
    {countries continents : List Str} {asns : List ℕ} :
    Sql.Keeps Apart (Db.createView name networks priority countries continents asns) := by
  refine .execute fun t a t' h => ?_
  split at h
  · cases h
  · cases h
    exact apart_of_eq rfl rfl rfl

lemma apart_updateView {name : Option Str} {networks : Option (List Str)}
    {priority : Option ℤ} {countries continents : Option (List Str)} {asns : Option (List ℕ)} :
    Sql.Keeps Apart (Db.updateView i name networks priority countries continents asns) := by
  refine .bind (Db.keeps_whenSome fun name => .execute fun t a t' h => ?_) fun _ =>
    .bind (Db.keeps_whenSome fun _ => .update fun _ => apart_of_eq rfl rfl rfl) fun _ =>
    .bind (Db.keeps_whenSome fun _ => .update fun _ => apart_of_eq rfl rfl rfl) fun _ =>
    .bind (Db.keeps_whenSome fun _ => .update fun _ => apart_of_eq rfl rfl rfl) fun _ =>
    .bind (Db.keeps_whenSome fun _ => .update fun _ => apart_of_eq rfl rfl rfl) fun _ =>
    Db.keeps_whenSome fun _ => .update fun _ => apart_of_eq rfl rfl rfl
  split at h
  · cases h
  · cases h
    exact apart_of_eq rfl rfl rfl

lemma apart_createDnssecKey {key : DnssecKey} : Sql.Keeps Apart (Db.createDnssecKey key) := by
  refine .execute fun t a t' h => ?_
  split at h
  · cases h
  · cases h
    exact apart_of_eq rfl rfl rfl

lemma apart_deleteDnssecKey : Sql.Keeps Apart (Db.deleteDnssecKey i) :=
  .update fun _ => apart_of_eq rfl rfl rfl

/-- The entries of secondary zones are updated in place. -/
lemma apart_mapSecondary {t : Tables} {f : SecondaryRow → SecondaryRow}
    (hf : ∀ e, (f e).zoneId = e.zoneId) : Apart t (t.mapSecondary i f) := by
  refine ⟨rfl, fun j => ?_, fun _ _ => rfl, id, id⟩
  unfold Tables.isSecondary Tables.secondary? Tables.mapSecondary
  have hid : (fun e : SecondaryRow => e.zoneId == j) ∘ (fun e => if e.zoneId = i then f e else e) =
      fun e => e.zoneId == j := by
    funext e
    simp only [Function.comp_apply]
    split
    · rw [hf e]
    · rfl
  dsimp only
  rw [List.find?_map, hid, Option.isSome_map]

lemma apart_setSecondaryStatus {lastError : Option Str} {refresh : Option ℤ} :
    Sql.Keeps Apart (Db.setSecondaryStatus i lastError refresh) :=
  .bind (.update fun _ => apart_mapSecondary fun _ => rfl) fun _ =>
    Db.keeps_whenSome fun _ => .update fun _ => apart_mapSecondary fun _ => rfl

end Calls

/-! ## DynDNS updates and PTR records -/

/-- The zone that a DynDNS update writes to, if it writes. -/
def dyndnsTarget (t : Tables) (hostFqdn : Str) (ip : IpAddr) (viewId : Option ℕ) : Option ℕ :=
  let host := Db.foldHost (trim hostFqdn)
  match Db.longestSuffixZone (fun _ => true) host (Db.zonesByName t) with
  | none => none
  | some (zoneId, zoneName) =>
    match ((t.zoneRecords zoneId).filter fun r =>
      eqIgnoreAsciiCase r.name (Db.relativeTo host zoneName) &&
        r.rtype == Db.addressType ip).find? (·.viewId == viewId) with
    | none => some zoneId
    | some r => if r.data == fmtIpAddr ip then none else some zoneId

/-- The update writes to no secondary zone. -/
def HostClear (hostFqdn : Str) (ip : IpAddr) (viewId : Option ℕ) (t : Tables) : Prop :=
  ∀ zoneId, dyndnsTarget t hostFqdn ip viewId = some zoneId → t.isSecondary zoneId = false

/-- The zone of a host name depends on the ids and names of the zones. -/
lemma Apart.longestSuffixZone {t t' : Tables} (h : Apart t t') (eligible : Str → Bool) (host : Str) :
    Db.longestSuffixZone eligible host (Db.zonesByName t') =
      Db.longestSuffixZone eligible host (Db.zonesByName t) :=
  Db.longestSuffixZone_congr (f := skeleton) (fun _ => ⟨rfl, rfl⟩) h.zones eligible host

lemma dyndnsTarget_zone {t : Tables} {hostFqdn : Str} {ip : IpAddr} {viewId : Option ℕ} {zoneId : ℕ}
    (h : dyndnsTarget t hostFqdn ip viewId = some zoneId) :
    ∃ name, Db.longestSuffixZone (fun _ => true) (Db.foldHost (trim hostFqdn)) (Db.zonesByName t) =
      some (zoneId, name) := by
  unfold dyndnsTarget at h
  dsimp only at h
  split at h
  · cases h
  · rename_i j name hzone
    split at h
    · cases h
      exact ⟨name, hzone⟩
    · split at h
      · cases h
      · cases h
        exact ⟨name, hzone⟩

/-- An update that keeps away from secondary zones does so after other changes that do. -/
lemma HostClear.of_apart {t t' : Tables} {hostFqdn : Str} {ip : IpAddr} {viewId : Option ℕ}
    (h : Apart t t') (hclear : HostClear hostFqdn ip viewId t) : HostClear hostFqdn ip viewId t' := by
  intro zoneId htarget
  by_contra hsec
  rw [h.secondaries, Bool.not_eq_false] at hsec
  obtain ⟨name, hzone⟩ := dyndnsTarget_zone htarget
  rw [h.longestSuffixZone] at hzone
  -- In a secondary zone the update would find the same rows as before.
  have hsame : dyndnsTarget t' hostFqdn ip viewId = dyndnsTarget t hostFqdn ip viewId := by
    unfold dyndnsTarget
    dsimp only
    rw [h.longestSuffixZone, hzone]
    dsimp only
    rw [h.rows zoneId hsec]
  rw [hsame] at htarget
  rw [hclear zoneId htarget] at hsec
  cases hsec

/-- The condition and what it needs of the table of records. -/
def HostsClear (calls : List (Str × IpAddr × Option ℕ)) (t : Tables) : Prop :=
  (t.records.map DnsRecord.id).Nodup ∧ ∀ call ∈ calls, HostClear call.1 call.2.1 call.2.2 t

lemma HostsClear.of_apart {t t' : Tables} {calls : List (Str × IpAddr × Option ℕ)} (h : Apart t t')
    (hclear : HostsClear calls t) : HostsClear calls t' :=
  ⟨h.keys hclear.1, fun call hcall => (hclear.2 call hcall).of_apart h⟩

/-- One of several DynDNS updates that keep away from secondary zones. -/
lemma apart_dyndnsSetAddress {calls : List (Str × IpAddr × Option ℕ)} {host : Str} {ip : IpAddr}
    {viewId : Option ℕ} {ttl : ℕ} (hcall : (host, ip, viewId) ∈ calls) :
    Sql.Keeps (Given (HostsClear calls) Apart) (Db.dyndnsSetAddress host ip viewId ttl) := by
  intro c hclear
  suffices h : Apart c.tables ((Db.dyndnsSetAddress host ip viewId ttl).after c).tables from
    ⟨hclear.of_apart h, h⟩
  have hhost := hclear.2 _ hcall
  dsimp only at hhost
  unfold HostClear dyndnsTarget at hhost
  unfold Db.dyndnsSetAddress Db.listZones
  refine Frame.select_bind (Q := ApartConn) fun c₁ hc₁ => ?_
  dsimp only at hhost ⊢
  split
  · exact refl_of Apart _
  · rename_i zoneId zoneName hzone
    rw [hzone] at hhost
    refine Frame.select_bind (Q := ApartConn) fun c₂ hc₂ => ?_
    have htables : c₂.tables = c.tables := hc₂.trans hc₁
    dsimp only at hhost ⊢
    rw [hc₁]
    split
    · rename_i r hr
      rw [hr] at hhost
      dsimp only at hhost
      split
      · exact refl_of Apart _
      · rename_i hdata
        rw [if_neg hdata] at hhost
        rw [EStateM.after_bind_pure]
        refine (apart_updateRecord (i := r.id) c₂ ?_).2
        -- The row that is updated is one of the zone.
        have hmem : r ∈ c.tables.zoneRecords zoneId :=
          List.mem_of_mem_filter (List.mem_of_find?_eq_some hr)
        obtain ⟨hrec, hzid⟩ := List.mem_filter.mp hmem
        intro r' hr' hid
        rw [htables] at hr' ⊢
        have heq : r' = r := List.inj_on_of_nodup_map hclear.1 hr' hrec hid
        rw [heq, show r.zoneId = zoneId by simpa using hzid]
        exact hhost zoneId rfl
    · rename_i hr
      rw [hr] at hhost
      rw [EStateM.after_bind_pure]
      refine (apart_createRecord c₂ ?_).2
      unfold ZoneClear
      rw [htables]
      exact hhost zoneId rfl

/-- The PTR record of an address goes to no secondary zone. -/
def PtrClear (rev : Str) (t : Tables) : Prop :=
  ∀ p, Db.longestSuffixZone isReverseZone rev (Db.zonesByName t) = some p →
    t.isSecondary p.1 = false

lemma PtrClear.of_apart {t t' : Tables} {rev : Str} (h : Apart t t') (hclear : PtrClear rev t) :
    PtrClear rev t' := by
  intro p hp
  rw [h.longestSuffixZone] at hp
  rw [h.secondaries]
  exact hclear p hp

lemma apart_registerPtr {rev target : Str} {ttl : ℕ} :
    Sql.Keeps (Given (PtrClear rev) Apart) (registerPtr rev target ttl) := by
  intro c hclear
  suffices h : Apart c.tables ((registerPtr rev target ttl).after c).tables from
    ⟨hclear.of_apart h, h⟩
  unfold registerPtr Db.listZones
  refine Frame.select_bind (Q := ApartConn) fun c₁ hc₁ => ?_
  split
  · exact refl_of Apart _
  · rename_i zoneId zoneName hzone
    rw [EStateM.after_bind_pure]
    refine (apart_createRecord c₁ ?_).2
    unfold ZoneClear
    rw [hc₁]
    exact hclear _ hzone

/-! ## Replicas -/

/-- The rows that the last transfer of each zone wrote. -/
abbrev Replicas := ℕ → List Db.RecordTuple

/-- A row that a transfer writes, but for its id. -/
def replicaRow (zoneId : ℕ) : Db.RecordTuple → DnsRecord
  | (name, rtype, ttl, data) => ⟨0, zoneId, none, name, rtype, some ttl, data, true⟩

/-- A row without its id. -/
def unnumbered (r : DnsRecord) : DnsRecord :=
  { r with id := 0 }

/-- The rows of every secondary zone are those of its last transfer. The keys of the tables are in
order. -/
structure Replicated (g : Replicas) (t : Tables) : Prop where
  rows : ∀ zoneId, t.isSecondary zoneId = true →
    (t.zoneRecords zoneId).map unnumbered = (g zoneId).map (replicaRow zoneId)
  recordRefs : RecordRefs t
  recordKeys : (t.records.map DnsRecord.id).Nodup
  secondaryRefs : ∀ zoneId, t.isSecondary zoneId = true → zoneId ∈ t.zones.map Zone.id

/-- Changes that keep away from secondary zones keep the replicas. -/
lemma Replicated.apart {g : Replicas} {t t' : Tables} (h : Replicated g t) (hapart : Apart t t') :
    Replicated g t' where
  rows i hi := by
    rw [hapart.secondaries] at hi
    rw [hapart.rows i hi]
    exact h.rows i hi
  recordRefs := hapart.refs h.recordRefs
  recordKeys := hapart.keys h.recordKeys
  secondaryRefs i hi := by
    rw [hapart.secondaries] at hi
    rw [hapart.zoneIds]
    exact h.secondaryRefs i hi

/-- The rows of replicas are pinned to no view. -/
lemma Replicated.viewId_eq_none {g : Replicas} {t : Tables} (h : Replicated g t) {r : DnsRecord}
    (hr : r ∈ t.records) (hsec : t.isSecondary r.zoneId = true) : r.viewId = none := by
  have hmem : unnumbered r ∈ (t.zoneRecords r.zoneId).map unnumbered :=
    List.mem_map_of_mem (List.mem_filter.mpr ⟨hr, by simp⟩)
  rw [h.rows _ hsec] at hmem
  obtain ⟨tuple, -, htuple⟩ := List.mem_map.mp hmem
  exact (congrArg DnsRecord.viewId htuple).symm

/-- Deleting a view takes no row of a replica with it. -/
lemma Replicated.apart_removeView {g : Replicas} {t : Tables} (h : Replicated g t) (viewId : ℕ) :
    Apart t (t.removeView viewId) := by
  unfold Tables.removeView
  split
  · have hfilter : Apart t { t with records := t.records.filter (·.viewId != some viewId) } := by
      refine apart_filter fun r hr hsec => ?_
      rw [h.viewId_eq_none hr hsec]
      rfl
    refine trans_of Apart hfilter ?_
    exact apart_of_eq rfl rfl rfl
  · exact refl_of Apart t

/-! ## Transfers -/

section Transfers

variable {zoneId : ℕ} {tuples : List Db.RecordTuple}

/-- Inserts that all succeed append their rows. -/
lemma insertRecords_ok {c : Conn Tables} {n : ℕ}
    (h : (Db.insertRecords zoneId tuples).result c = .ok n) :
    ∃ rows, ((Db.insertRecords zoneId tuples).after c).tables =
        { c.tables with records := c.tables.records ++ rows } ∧
      rows.map unnumbered = tuples.map (replicaRow zoneId) ∧
      (rows ≠ [] → zoneId ∈ c.tables.zones.map Zone.id) ∧
      ((c.tables.records.map DnsRecord.id).Nodup →
        ((c.tables.records ++ rows).map DnsRecord.id).Nodup) := by
  induction tuples generalizing c n with
  | nil => exact ⟨[], by simp [Db.insertRecords], rfl, by simp, by simp⟩
  | cons tuple tuples ih =>
    obtain ⟨name, rtype, ttl, data⟩ := tuple
    unfold Db.insertRecords at h ⊢
    obtain ⟨i, hres, h, hafter⟩ := EStateM.bind_ok h
    obtain ⟨t, hinsert, hstep⟩ := statement_ok hres
    obtain ⟨m, hres', -, hafter'⟩ := EStateM.bind_ok h
    obtain ⟨rows, htables, hrows, -, hkeys⟩ := ih hres'
    rw [hafter, hafter', EStateM.after_pure, htables]
    have happly : (execute fun t : Tables => t.insertRecord
        ⟨0, zoneId, none, name, rtype, some ttl, data, true⟩).after c = step c .write t := hstep
    rw [happly] at hkeys ⊢
    unfold Tables.insertRecord at hinsert
    split at hinsert
    · rename_i hcheck
      cases hinsert
      rw [Bool.and_eq_true] at hcheck
      refine ⟨⟨freshId (c.tables.records.map DnsRecord.id), zoneId, none, name, rtype, some ttl, data,
        true⟩ :: rows, ?_, ?_, fun _ => mem_zoneIds hcheck.1, fun hk => ?_⟩
      · simp [step]
      · rw [List.map_cons, hrows]
        rfl
      · have hk' := hkeys (by
          dsimp only [step]
          rw [List.map_append]
          exact nodup_append_freshId hk)
        simpa [step] using hk'
    · cases hinsert

/-- The rows of a transfer belong to its zone. -/
lemma zoneId_of_replicaRows {rows : List DnsRecord}
    (h : rows.map unnumbered = tuples.map (replicaRow zoneId)) {r : DnsRecord} (hr : r ∈ rows) :
    r.zoneId = zoneId := by
  have hmem : unnumbered r ∈ tuples.map (replicaRow zoneId) := h ▸ List.mem_map_of_mem hr
  obtain ⟨tuple, -, htuple⟩ := List.mem_map.mp hmem
  exact (congrArg DnsRecord.zoneId htuple).symm

/-- The tables with the rows of one zone replaced. -/
lemma replicated_replace {g : Replicas} {t : Tables} {f : Zone → Zone} {rows : List DnsRecord}
    (hg : Replicated g t) (hf : ∀ z, skeleton (f z) = skeleton z)
    (hrows : rows.map unnumbered = tuples.map (replicaRow zoneId))
    (href : rows ≠ [] → zoneId ∈ (t.mapZone zoneId f).zones.map Zone.id)
    (hkeys : (((t.records.filter (·.zoneId != zoneId)) ++ rows).map DnsRecord.id).Nodup) :
    Replicated (Function.update g zoneId tuples) { t.mapZone zoneId f with
      records := (t.records.filter (·.zoneId != zoneId)) ++ rows } := by
  have hids := (apart_mapZone (t := t) (i := zoneId) hf).zoneIds
  have hzone : ∀ r ∈ rows, r.zoneId = zoneId := fun r hr => zoneId_of_replicaRows hrows hr
  refine ⟨fun j hj => ?_, fun r hr => ?_, hkeys, fun j hj => ?_⟩
  · unfold Tables.zoneRecords
    dsimp only
    rw [List.filter_append, List.filter_filter]
    by_cases hj' : j = zoneId
    · subst hj'
      have hold : t.records.filter (fun r => r.zoneId == j && r.zoneId != j) = [] := by
        refine List.filter_eq_nil_iff.mpr fun r _ => ?_
        by_cases hr : r.zoneId = j <;> simp [hr]
      have hnew : rows.filter (·.zoneId == j) = rows :=
        List.filter_eq_self.mpr fun r hr => by simp [hzone r hr]
      rw [hold, hnew, List.nil_append, Function.update_self]
      exact hrows
    · have hold : t.records.filter (fun r => r.zoneId == j && r.zoneId != zoneId) =
          t.zoneRecords j := by
        refine List.filter_congr fun r _ => ?_
        by_cases hr : r.zoneId = j
        · simp [hr, hj']
        · simp [hr]
      have hnew : rows.filter (·.zoneId == j) = [] := by
        refine List.filter_eq_nil_iff.mpr fun r hr => ?_
        rw [hzone r hr]
        simpa using Ne.symm hj'
      rw [hold, hnew, List.append_nil, Function.update_of_ne hj']
      exact hg.rows j hj
  · rcases List.mem_append.mp hr with hr | hr
    · have := hg.recordRefs r (List.mem_of_mem_filter hr)
      rwa [← hids] at this
    · rw [hzone r hr]
      exact href (List.ne_nil_of_mem hr)
  · have := hg.secondaryRefs j hj
    rwa [← hids] at this

/-- A replacement that returns leaves exactly the rows of the transfer in the zone. -/
lemma replicated_replaceSecondaryZone {g : Replicas} {soa : Soa} {serial n : ℕ} {c : Conn Tables}
    (hg : Replicated g c.tables)
    (h : (Db.replaceSecondaryZone zoneId soa serial tuples).result c = .ok n) :
    Replicated (Function.update g zoneId tuples)
      ((Db.replaceSecondaryZone zoneId soa serial tuples).after c).tables := by
  unfold Db.replaceSecondaryZone at h ⊢
  rcases transaction_cases _ c with ⟨e, hres, -, -⟩ | ⟨a, hres, -, htables, -⟩
  · rw [hres] at h
    cases h
  · rw [htables]
    obtain ⟨u, hzone, hres, hafter⟩ := EStateM.bind_ok hres
    obtain ⟨v, hclear, hres, hafter'⟩ := EStateM.bind_ok hres
    obtain ⟨rows, hrecords, hrows, href, hkeys⟩ := insertRecords_ok hres
    unfold Db.clearRecords at hclear hrecords href hkeys
    rw [update_ok hclear, update_ok hzone] at hrecords href hkeys
    rw [hafter, hafter']
    unfold Db.clearRecords
    rw [update_ok hclear, update_ok hzone, hrecords]
    exact replicated_replace hg (fun _ => rfl) hrows href
      (hkeys (hg.recordKeys.sublist (List.filter_sublist.map _)))

/-- What a primary offers for a zone: the SOA fields, the serial and the rows. -/
def offered (K : Crates) (fetch : Fetch) (target : TransferTarget) :
    Option (Soa × ℕ × List Db.RecordTuple) :=
  match K.fromUtf8 (target.name ++ ['.']) with
  | .error _ => none
  | .ok origin =>
    match fetch target.primary origin target.tsigKey with
    | .error _ => none
    | .ok records => (transferSoa K records).map fun p =>
        (p.1, p.2, transferTuples K target.name records)

/-- The rows last written to each zone, after a transfer from the state `s`. -/
def noteTransfer (K : Crates) (fetch : Fetch) (target : TransferTarget) (s : AppState)
    (g : Replicas) : Replicas :=
  match offered K fetch target with
  | none => g
  | some (soa, serial, tuples) =>
    match (Db.replaceSecondaryZone target.zoneId soa serial tuples).result s.conn with
    | .ok _ => Function.update g target.zoneId tuples
    | .error _ => g

/-- A transfer that is not offered anything fails before it touches the database. -/
lemma transfer_eq (fetch : Fetch) (target : TransferTarget) :
    match offered K fetch target with
    | none => ∃ e, target.transfer K fetch = throw (.transfer e)
    | some (soa, serial, tuples) =>
      target.transfer K fetch = storeTransfer K target.zoneId soa serial tuples := by
  unfold offered TransferTarget.transfer transfer
  cases K.fromUtf8 (target.name ++ ['.']) with
  | error e => exact ⟨e, rfl⟩
  | ok origin =>
    dsimp only
    cases fetch target.primary origin target.tsigKey with
    | error e => exact ⟨e, rfl⟩
    | ok records =>
      dsimp only
      cases transferSoa K records with
      | none => exact ⟨_, rfl⟩
      | some p => rfl

/-- A transfer, however it ends. -/
lemma replicated_transfer {g : Replicas} (fetch : Fetch) (target : TransferTarget) {s : AppState}
    (hg : Replicated g s.db) :
    Replicated (noteTransfer K fetch target s g) ((target.transfer K fetch).after s).db := by
  have heq := transfer_eq (K := K) fetch target
  unfold noteTransfer
  cases hoffer : offered K fetch target with
  | none =>
    rw [hoffer] at heq
    obtain ⟨e, he⟩ := heq
    rw [he]
    exact hg
  | some p =>
    obtain ⟨soa, serial, tuples⟩ := p
    rw [hoffer] at heq
    dsimp only at heq ⊢
    rw [heq]
    unfold storeTransfer
    rw [EStateM.after_bind, result_runDb]
    cases hres : (Db.replaceSecondaryZone target.zoneId soa serial tuples).result s.conn with
    | error e =>
      rw [after_runDb]
      dsimp only [AppState.db]
      rw [Db.replaceSecondaryZone, transaction_error hres]
      exact hg
    | ok n =>
      have hreplaced := replicated_replaceSecondaryZone hg hres
      have hrest : KeepsDb Apart (do
          runDb (Db.setSecondaryStatus target.zoneId none (some (max soa.refresh 60)))
          reloadStore K
          pure n) :=
        .bind (.runDb apart_setSecondaryStatus) fun _ => .bind (.reloadStore K) fun _ => .pure _
      refine hreplaced.apart ?_
      have := hrest ((runDb (Db.replaceSecondaryZone target.zoneId soa serial tuples)).after s)
      rwa [after_runDb] at this ⊢

/-- The same with the failure noted. -/
lemma replicated_transferOrNote {g : Replicas} (fetch : Fetch) (target : TransferTarget)
    {s : AppState} (hg : Replicated g s.db) :
    Replicated (noteTransfer K fetch target s g) ((transferOrNote K fetch target).after s).db := by
  have htransfer : Replicated (noteTransfer K fetch target s g)
      ((target.transfer K fetch).after s).db := replicated_transfer fetch target hg
  unfold transferOrNote
  rw [EStateM.after_bind]
  split
  · rename_i r hr
    rw [after_observing]
    refine htransfer.apart ?_
    cases r with
    | ok n => exact refl_of Apart _
    | error e =>
      have hnote : KeepsDb Apart (recordError target.zoneId (errorText K e)) :=
        .bind (.tryDb apart_setSecondaryStatus) fun _ => .pure ()
      exact hnote _
  · rw [after_observing]
    exact htransfer

end Transfers

/-! ## Zones that come and go -/

section Zones

variable {g : Replicas} {t : Tables}

/-- A new zone has no rows and is not secondary. -/
lemma Replicated.addZone (hg : Replicated g t) {z : Zone} (hz : z.id = freshId (t.zones.map Zone.id)) :
    Replicated g { t with zones := t.zones ++ [z] } ∧
      t.isSecondary z.id = false ∧ t.zoneRecords z.id = [] := by
  have hfresh : z.id ∉ t.zones.map Zone.id := hz ▸ freshId_notMem _
  refine ⟨⟨hg.rows, fun r hr => ?_, hg.recordKeys, fun j hj => ?_⟩, ?_, ?_⟩
  · rw [List.map_append]
    exact List.mem_append_left _ (hg.recordRefs r hr)
  · rw [List.map_append]
    exact List.mem_append_left _ (hg.secondaryRefs j hj)
  · by_contra hsec
    exact hfresh (hg.secondaryRefs _ (by simpa using hsec))
  · refine List.filter_eq_nil_iff.mpr fun r hr hzone => hfresh ?_
    rw [← show r.zoneId = z.id by simpa using hzone]
    exact hg.recordRefs r hr

/-- A zone without rows becomes secondary. -/
lemma Replicated.addSecondary (hg : Replicated g t) {e : SecondaryRow}
    (hzone : e.zoneId ∈ t.zones.map Zone.id) (hrows : t.zoneRecords e.zoneId = []) :
    Replicated (Function.update g e.zoneId []) { t with secondaries := t.secondaries ++ [e] } := by
  have hsec : ∀ j, Tables.isSecondary { t with secondaries := t.secondaries ++ [e] } j = true →
      j ≠ e.zoneId → t.isSecondary j = true := by
    intro j hj hne
    unfold Tables.isSecondary Tables.secondary? at hj ⊢
    simpa [List.find?_append, Ne.symm hne] using hj
  refine ⟨fun j hj => ?_, hg.recordRefs, hg.recordKeys, fun j hj => ?_⟩
  · by_cases hje : j = e.zoneId
    · subst hje
      rw [Function.update_self]
      exact congrArg (List.map unnumbered) hrows
    · rw [Function.update_of_ne hje]
      exact hg.rows j (hsec j hj hje)
  · by_cases hje : j = e.zoneId
    · exact hje ▸ hzone
    · exact hg.secondaryRefs j (hsec j hj hje)

/-- A zone is deleted with its rows and its entry. -/
lemma Replicated.removeZone (hg : Replicated g t) (i : ℕ) : Replicated g (t.removeZone i) := by
  unfold Tables.removeZone
  split
  · have hsec : ∀ j, Tables.isSecondary { t with
        zones := t.zones.filter (·.id != i)
        records := t.records.filter (·.zoneId != i)
        secondaries := t.secondaries.filter (·.zoneId != i)
        dnssecKeys := t.dnssecKeys.filter (·.zoneId != i) } j = true →
        j ≠ i ∧ t.isSecondary j = true := by
      intro j hj
      unfold Tables.isSecondary Tables.secondary? at hj ⊢
      dsimp only at hj
      rw [List.find?_filter, List.find?_isSome] at hj
      obtain ⟨e, he, hej⟩ := hj
      rw [decide_eq_true_eq] at hej
      have heq : e.zoneId = j := by simpa using hej.2
      refine ⟨heq ▸ (by simpa using hej.1), ?_⟩
      rw [List.find?_isSome]
      exact ⟨e, he, hej.2⟩
    have hids : ∀ j ∈ t.zones.map Zone.id, j ≠ i → j ∈ (t.zones.filter (·.id != i)).map Zone.id := by
      intro j hj hne
      obtain ⟨z, hz, rfl⟩ := List.mem_map.mp hj
      exact List.mem_map_of_mem (List.mem_filter.mpr ⟨hz, by simpa using hne⟩)
    refine ⟨fun j hj => ?_, fun r hr => ?_, ?_, fun j hj => ?_⟩
    · obtain ⟨hne, hj⟩ := hsec j hj
      rw [← hg.rows j hj]
      unfold Tables.zoneRecords
      dsimp only
      rw [List.filter_filter]
      congr 1
      refine List.filter_congr fun r _ => ?_
      by_cases hr : r.zoneId = j
      · simp [hr, hne]
      · simp [hr]
    · obtain ⟨hr, hzone⟩ := List.mem_filter.mp hr
      exact hids _ (hg.recordRefs r hr) (by simpa using hzone)
    · exact hg.recordKeys.sublist (List.filter_sublist.map _)
    · obtain ⟨hne, hj⟩ := hsec j hj
      exact hids j (hg.secondaryRefs j hj) hne
  · exact hg

end Zones

/-! ## The operations -/

section Handlers

variable {g : Replicas}

/-- The statement that creates a zone. -/
lemma createZone_ok {name : Str} {soa : Soa} {ttl i : ℕ} {c : Conn Tables}
    (h : (Db.createZone name soa ttl).result c = .ok i) :
    i = freshId (c.tables.zones.map Zone.id) ∧ ((Db.createZone name soa ttl).after c).tables =
      { c.tables with zones := c.tables.zones ++ [⟨i, name, true, soa, ttl, 1⟩] } := by
  unfold Db.createZone execute at h ⊢
  obtain ⟨t, hf, hafter⟩ := statement_ok h
  rw [hafter]
  split at hf
  · cases hf
  · cases hf
    exact ⟨rfl, rfl⟩

lemma createZone_error {name : Str} {soa : Soa} {ttl : ℕ} {c : Conn Tables} {e : DbError}
    (h : (Db.createZone name soa ttl).result c = .error e) :
    ((Db.createZone name soa ttl).after c).tables = c.tables := by
  unfold Db.createZone execute at h ⊢
  rcases statement_cases .write _ c with ⟨err, -, hafter⟩ | ⟨a, t, -, -, hres, -⟩
  · rw [hafter]
    rfl
  · rw [hres] at h
    cases h

/-- A new zone with its NS record. -/
lemma replicated_insertZone {name : Str} {soa : Soa} {ttl : ℕ} {c : Conn Tables}
    (hg : Replicated g c.tables) :
    Replicated g ((Api.insertZone name soa ttl).after c).tables := by
  unfold Api.insertZone
  rw [EStateM.after_bind]
  cases hres : (Db.createZone name soa ttl).result c with
  | error e =>
    dsimp only
    rw [createZone_error hres]
    exact hg
  | ok i =>
    obtain ⟨hi, htables⟩ := createZone_ok hres
    obtain ⟨hg', hclear, -⟩ := hg.addZone (z := ⟨i, name, true, soa, ttl, 1⟩) hi
    dsimp only
    rw [EStateM.after_bind_pure]
    rw [← htables] at hg'
    refine hg'.apart (apart_createRecord _ ?_).2
    unfold ZoneClear
    rw [htables]
    exact hclear

/-- A new secondary zone: it has no rows yet. If its entry is refused it is a primary zone. -/
lemma replicated_insertSecondary (name primary : Str) (tsigKey : Option Str) {c : Conn Tables}
    (hg : Replicated g c.tables) :
    match (Api.insertSecondary name primary tsigKey).result c with
    | .ok i => Replicated (Function.update g i [])
        ((Api.insertSecondary name primary tsigKey).after c).tables
    | .error _ => Replicated g ((Api.insertSecondary name primary tsigKey).after c).tables := by
  unfold Api.insertSecondary
  rw [EStateM.after_bind, EStateM.result_bind]
  cases hres : (Db.createZone name (.defaultFor name) 300).result c with
  | error e =>
    dsimp only
    rw [createZone_error hres]
    exact hg
  | ok i =>
    obtain ⟨hi, htables⟩ := createZone_ok hres
    obtain ⟨hg', -, hrows⟩ := hg.addZone (z := ⟨i, name, true, .defaultFor name, 300, 1⟩) hi
    dsimp only at hrows ⊢
    rw [← htables] at hg'
    have hrows' : ((Db.createZone name (.defaultFor name) 300).after c).tables.zoneRecords i = [] := by
      rw [htables]
      exact hrows
    have hmem : i ∈ ((Db.createZone name (.defaultFor name) 300).after c).tables.zones.map Zone.id := by
      rw [htables]
      simp
    rw [EStateM.after_bind_pure, EStateM.result_bind]
    generalize (Db.createZone name (.defaultFor name) 300).after c = c₁ at hg' hrows' hmem
    unfold Db.createSecondary execute
    rcases statement_cases .write (fun t : Tables =>
      if t.isSecondary i || (t.zone? i).isNone then .error .constraint
      else .ok ((), { t with
        secondaries := t.secondaries ++ [⟨i, primary, 3600, none, tsigKey⟩] })) c₁ with
      ⟨err, hres', hafter⟩ | ⟨u, t, -, hf, hres', hafter⟩
    · rw [hres', hafter]
      exact hg'
    · rw [hres', hafter]
      split at hf
      · cases hf
      · cases hf
        exact hg'.addSecondary (e := ⟨i, primary, 3600, none, tsigKey⟩) hmem hrows'

/-- A database call that ends a handler, with a reload and a response after it. -/
lemma replicated_call {α β : Type} {m : Sql Tables α} {k : α → App β} {s : AppState}
    (hm : Replicated g (m.after s.conn).tables) (hk : ∀ a, KeepsDb Apart (k a)) :
    Replicated g ((runDb m >>= k).after s).db := by
  rw [EStateM.after_bind, after_runDb]
  split
  · exact hm.apart (hk _ { s with conn := m.after s.conn })
  · exact hm

lemma replicated_createZone {req : Api.ZoneCreate} {s : AppState} (hg : Replicated g s.db) :
    Replicated g ((Api.createZone K req).after s).db := by
  unfold Api.createZone
  split
  · exact hg
  · exact replicated_call (replicated_insertZone hg) fun _ =>
      .bind (.reloadStore K) fun _ => .runDb (Frame.select _)

lemma replicated_deleteZone {i : ℕ} {s : AppState} (hg : Replicated g s.db) :
    Replicated g ((Api.deleteZone K i).after s).db := by
  refine replicated_call ?_ fun _ => .reloadStore K
  rcases update_cases (·.removeZone i) s.conn with htables | htables
  · exact htables ▸ hg
  · exact htables ▸ hg.removeZone i

lemma replicated_newSecondary (req : Api.SecondaryCreate) {s : AppState} (hg : Replicated g s.db) :
    match (Api.newSecondary K req).result s with
    | .ok target => Replicated (Function.update g target.zoneId [])
        ((Api.newSecondary K req).after s).db
    | .error _ => Replicated g ((Api.newSecondary K req).after s).db := by
  unfold Api.newSecondary
  cases canonicalZoneName K req.name with
  | error e => exact hg
  | ok name =>
    dsimp only
    cases parsePrimary (trim req.primary) with
    | error e => exact hg
    | ok primary =>
      dsimp only
      have hins := replicated_insertSecondary name (fmtSocketAddr primary) req.tsigKey hg
      rw [EStateM.after_bind_pure, EStateM.result_bind, result_runDb, after_runDb]
      cases hres : (Api.insertSecondary name (fmtSocketAddr primary) req.tsigKey).result s.conn with
      | error e =>
        rw [hres] at hins
        exact hins
      | ok i =>
        rw [hres] at hins
        exact hins

/-- A new secondary zone with its first transfer. -/
lemma replicated_createSecondary {fetch : Fetch} {req : Api.SecondaryCreate} {s : AppState}
    (hg : Replicated g s.db) :
    Replicated (match (Api.newSecondary K req).result s with
      | .ok target => noteTransfer K fetch target ((Api.newSecondary K req).after s)
          (Function.update g target.zoneId [])
      | .error _ => g) ((Api.createSecondary K fetch req).after s).db := by
  have hnew := replicated_newSecondary (K := K) req hg
  unfold Api.createSecondary
  rw [EStateM.after_bind]
  cases hres : (Api.newSecondary K req).result s with
  | error e =>
    rw [hres] at hnew
    exact hnew
  | ok target =>
    rw [hres] at hnew
    dsimp only
    rw [EStateM.after_bind]
    have htransfer := replicated_transferOrNote (K := K) fetch target hnew
    split
    · exact htransfer.apart (KeepsConn.runDb (Q := ApartConn)
        (Frame.select _) _)
    · exact htransfer

/-- A transfer to a zone that has its entry. -/
lemma replicated_refreshSecondary {fetch : Fetch} {i : ℕ} {s : AppState} (hg : Replicated g s.db) :
    Replicated (match (Api.refreshTarget i).result s with
      | .ok target => noteTransfer K fetch target ((Api.refreshTarget i).after s) g
      | .error _ => g) ((Api.refreshSecondary K fetch i).after s).db := by
  have hreads : KeepsDb Apart (Api.refreshTarget i) := by
    refine .bind (Api.keeps_zoneOf i) fun zone => ?_
    split
    · exact .throw _
    · split
      · exact .throw _
      · exact .bind (.runDb (Frame.select _)) fun _ => .pure _
  have hg₁ := hg.apart (hreads s)
  unfold Api.refreshSecondary
  rw [EStateM.after_bind]
  cases (Api.refreshTarget i).result s with
  | error e => exact hg₁
  | ok target =>
    dsimp only
    have htransfer := replicated_transfer (K := K) fetch target hg₁
    rw [EStateM.after_bind]
    split
    · exact htransfer.apart (KeepsConn.runDb (Q := ApartConn)
        (Frame.select _) _)
    · exact htransfer

/-- The body of the poll loop. -/
lemma replicated_pollZone {fetch : Fetch} {remote : RemoteSerial} {sec : SecondaryZone}
    {s : AppState} (hg : Replicated g s.db) :
    Replicated (match pollAction K remote sec with
      | .transfer target => noteTransfer K fetch target s g
      | _ => g) ((pollZone K fetch remote sec).after s).db := by
  have hstatus : ∀ lastError, KeepsDb Apart (do
      let _ ← tryDb (Db.setSecondaryStatus sec.zoneId lastError none)
      pure ()) :=
    fun _ => .bind (.tryDb apart_setSecondaryStatus) fun _ => .pure ()
  unfold pollZone
  cases pollAction K remote sec with
  | skip => exact hg
  | error message => exact hg.apart (hstatus _ s)
  | upToDate => exact hg.apart (hstatus _ s)
  | transfer target => exact replicated_transferOrNote fetch target hg

end Handlers

/-! ## Runs -/

/-- The rows last written to each zone, after an operation from the state `s`. A new secondary zone
starts without rows. -/
def Operation.note (K : Crates) (s : AppState) (g : Replicas) : Operation → Replicas
  | .createSecondary fetch req =>
    match (Api.newSecondary K req).result s with
    | .ok target => noteTransfer K fetch target ((Api.newSecondary K req).after s)
        (Function.update g target.zoneId [])
    | .error _ => g
  | .refreshSecondary fetch id =>
    match (Api.refreshTarget id).result s with
    | .ok target => noteTransfer K fetch target ((Api.refreshTarget id).after s) g
    | .error _ => g
  | .pollZone fetch remote sec =>
    match pollAction K remote sec with
    | .transfer target => noteTransfer K fetch target s g
    | _ => g
  | _ => g

/-- The operation keeps away from the rows of secondary zones. -/
def Operation.Permitted (K : Crates) (t : Tables) : Operation → Prop
  | .manage (.updateRecord id _) => RowClear id t
  | .manage (.deleteRecord id) => RowClear id t
  | .manage (.nicUpdate req) => ∀ token hosts, nicToken K t req = some token →
      requestHosts req = some hosts → ∀ host ∈ hosts, host ∈ Db.splitHostnames token.hostnames →
        ∀ ip ∈ requestAddrs req, HostClear host ip token.viewId t
  | .manage (.registerDns scope ip hostname) => ∀ fqdn ttl,
      registration scope hostname = some (fqdn, ttl) →
        HostClear fqdn ip none t ∧ PtrClear (reverseName ip) t
  | _ => True

/-- The registration of an address keeps away from secondary zones. -/
lemma apart_registerDns {scope : DhcpScope} {ip : IpAddr} {hostname : Option Str} {s : AppState}
    (hkeys : (s.db.records.map DnsRecord.id).Nodup)
    (h : ∀ fqdn ttl, registration scope hostname = some (fqdn, ttl) →
      HostClear fqdn ip none s.db ∧ PtrClear (reverseName ip) s.db) :
    Apart s.db ((registerDns K scope ip hostname).after s).db := by
  cases hreg : registration scope hostname with
  | none =>
    unfold registerDns
    rw [hreg]
    exact refl_of Apart s.db
  | some p =>
    obtain ⟨hhost, hptr⟩ := h p.1 p.2 hreg
    have hkeeps : KeepsDb (Given (fun t => HostsClear [(p.1, ip, none)] t ∧ PtrClear (reverseName ip) t)
        Apart) (registerDns K scope ip hostname) := by
      refine keeps_registerDns (fun fqdn ttl hreg' c hc => ?_) fun target ttl c hc => ?_
      · rw [hreg] at hreg'
        cases hreg'
        have happly : Sql.Keeps (Given (HostsClear [(fqdn, ip, none)]) Apart)
            (Db.dyndnsSetAddress fqdn ip none ttl) := apart_dyndnsSetAddress List.mem_cons_self
        have hapart := (happly c hc.1).2
        exact ⟨⟨hc.1.of_apart hapart, hc.2.of_apart hapart⟩, hapart⟩
      · have happly : Sql.Keeps (Given (PtrClear (reverseName ip)) Apart)
            (registerPtr (reverseName ip) target ttl) := apart_registerPtr
        have hapart := (happly c hc.2).2
        exact ⟨⟨hc.1.of_apart hapart, hc.2.of_apart hapart⟩, hapart⟩
    refine (hkeeps s ⟨⟨hkeys, ?_⟩, hptr⟩).2
    intro call hcall
    rw [List.mem_singleton.mp hcall]
    exact hhost

/-- The updates of a request for the hosts of its token. -/
def nicCalls (req : NicRequest) (token : DynDnsToken) (hosts : List Str) :
    List (Str × IpAddr × Option ℕ) :=
  ((hosts.filter fun host => (Db.splitHostnames token.hostnames).contains host).product
    (requestAddrs req)).map fun p => (p.1, p.2, token.viewId)

/-- The updates of a request keep away from secondary zones. -/
lemma apart_nicUpdate {req : NicRequest} {s : AppState}
    (hkeys : (s.db.records.map DnsRecord.id).Nodup)
    (h : (Operation.manage (.nicUpdate req)).Permitted K s.db) :
    Apart s.db ((nicUpdate K req).after s).db := by
  refine keeps_nicUpdate (Q := ApartConn) (keeps_nicUpdates (Q := ApartConn) ?_)
    fun _ _ => Sql.Keeps.update fun _ => apart_of_eq rfl rfl rfl
  intro token hosts htoken hhosts s' hs'
  have hkeeps : KeepsDb (Given (HostsClear (nicCalls req token hosts)) Apart)
      (applyUpdates K req token hosts) := by
    refine keeps_applyUpdates fun host hhost hown ip hip => apart_dyndnsSetAddress ?_
    refine List.mem_map.mpr ⟨(host, ip), List.pair_mem_product.mpr ⟨List.mem_filter.mpr ⟨hhost, ?_⟩, hip⟩,
      rfl⟩
    simpa using hown
  have hclear : HostsClear (nicCalls req token hosts) s.db := by
    refine ⟨hkeys, fun call hcall => ?_⟩
    obtain ⟨⟨host, ip⟩, hp, rfl⟩ := List.mem_map.mp hcall
    obtain ⟨hhost, hip⟩ := List.pair_mem_product.mp hp
    obtain ⟨hhost, hown⟩ := List.mem_filter.mp hhost
    exact h token hosts htoken hhosts host hhost (by simpa using hown) ip hip
  rw [← hs'] at hclear
  exact (hkeeps s' hclear).2

/-- Management operations that keep away from secondary zones. -/
lemma apart_management {g : Replicas} {op : Management} {s : AppState} (hg : Replicated g s.db)
    (h : (Operation.manage op).Permitted K s.db) : Apart s.db (op.after K s).db := by
  cases op with
  | createRecord i req =>
    refine Api.keeps_createRecord (Q := ApartConn) fun hsec c hc => ?_
    exact (apart_createRecord c (by unfold ZoneClear; rw [hc]; exact hsec)).2
  | updateRecord i req =>
    have hkeeps : KeepsDb (Given (RowClear i) Apart) (Api.updateRecord K i req) :=
      Api.keeps_updateRecord apart_updateRecord
    exact (hkeeps s h).2
  | deleteRecord i =>
    have hkeeps : KeepsDb (Given (RowClear i) Apart) (Api.deleteRecord K i) :=
      Api.keeps_deleteRecord apart_deleteRecord
    exact (hkeeps s h).2
  | importZone i req =>
    refine Api.keeps_importZone (Q := ApartConn) fun hsec records c hc => ?_
    exact (apart_importRecords c (by unfold ZoneClear; rw [hc]; exact hsec)).2
  | updateZone i req =>
    exact Api.keeps_updateZone (Q := ApartConn) apart_updateZone s
  | createView req =>
    exact Api.keeps_createView (Q := ApartConn) apart_createView s
  | updateView i req =>
    exact Api.keeps_updateView (Q := ApartConn) apart_updateView s
  | deleteView i =>
    refine Api.keeps_deleteView (Q := ApartConn) fun _ _ _ c hc => ?_
    have hremove := hg.apart_removeView i
    rw [← hc] at hremove
    unfold ApartConn Db.deleteView
    rcases update_cases (·.removeView i) c with htables | htables
    · rw [htables]
      exact refl_of Apart _
    · rw [htables]
      exact hremove
  | nicUpdate req => exact apart_nicUpdate hg.recordKeys h
  | registerDns scope ip hostname => exact apart_registerDns hg.recordKeys h

/-- One operation. -/
lemma replicated_after {g : Replicas} {op : Operation} {s : AppState} (hg : Replicated g s.db)
    (h : op.Permitted K s.db) : Replicated (op.note K s g) (op.after K s).db := by
  cases op with
  | manage op => exact hg.apart (apart_management hg h)
  | createZone req => exact replicated_createZone hg
  | deleteZone i => exact replicated_deleteZone hg
  | enableDnssec i nsec3 secret salt =>
    exact hg.apart (KeepsConn.bind (Q := ApartConn) (Api.keeps_zoneOf i) (fun _ =>
      .bind (Api.keeps_refuseIf _ _) fun _ => .bind (.runDb apart_createDnssecKey) fun _ =>
      .reloadStore K) s)
  | disableDnssec i =>
    exact hg.apart (KeepsConn.bind (Q := ApartConn) (.runDb apart_deleteDnssecKey)
      (fun _ => .reloadStore K) s)
  | createSecondary fetch req => exact replicated_createSecondary hg
  | refreshSecondary fetch i => exact replicated_refreshSecondary hg
  | pollZone fetch remote sec => exact replicated_pollZone hg
  | elsewhere handler hhandler =>
    obtain ⟨hzones, hrecords, hsec⟩ := hhandler s
    exact hg.apart (apart_of_eq hzones hsec hrecords)

/-- The state of the server and the rows last written to each zone. -/
structure ReplicaSystem where
  app : AppState
  replicas : Replicas

namespace ReplicaSystem

/-- One operation of the system. -/
def step (K : Crates) (s : ReplicaSystem) (op : Operation) : Option ReplicaSystem :=
  some ⟨op.after K s.app, op.note K s.app s.replicas⟩

variable (K) in
/-- In every run whose operations keep away from the rows of secondary zones, the rows of a secondary
zone are those of its last successful transfer, and none before the first. -/
theorem rows_eq_replicas (s s' : ReplicaSystem) (ops : List Operation)
    (hs : Replicated s.replicas s.app.db)
    (hops : Along (step K) (fun s op => op.Permitted K s.app.db) s ops)
    (hrun : Lib.run (step K) s ops = some s') (zoneId : ℕ) (hsec : s'.app.db.isSecondary zoneId = true) :
    (s'.app.db.zoneRecords zoneId).map unnumbered =
      (s'.replicas zoneId).map (replicaRow zoneId) := by
  have hstep : ∀ (s : ReplicaSystem) (op : Operation) (s' : ReplicaSystem),
      Replicated s.replicas s.app.db → op.Permitted K s.app.db → step K s op = some s' →
        Replicated s'.replicas s'.app.db := by
    intro s op s' hs hop hstep
    cases hstep
    exact replicated_after hs hop
  exact (run_invariant hstep hs hops hrun).rows zoneId hsec

/-- A database with the secondary zone `home.lan` and the primary zone `lab.lan`, one record in
each. -/
def replicaTables : Tables :=
  { homeTables 1 [homeHost 1 "nas", ⟨2, 2, none, "www", "A", none, "192.168.2.80", true⟩] with
    zones := [⟨1, "home.lan", true, .defaultFor "home.lan", 300, 7⟩,
      ⟨2, "lab.lan", true, .defaultFor "lab.lan", 300, 1⟩]
    records := [⟨1, 1, none, "nas", "A", some 300, "192.168.1.10", true⟩,
      ⟨2, 2, none, "www", "A", none, "192.168.2.80", true⟩]
    secondaries := [⟨1, "192.0.2.1:53", 3600, none, none⟩] }

/-- The state right after the transfer of `home.lan`. -/
def transferredHome : ReplicaSystem :=
  ⟨freshState replicaTables, Function.update (fun _ => []) 1 [("nas", "A", 300, "192.168.1.10")]⟩

lemma replicated_transferredHome : Replicated transferredHome.replicas transferredHome.app.db := by
  have hsec : ∀ j, replicaTables.isSecondary j = true → j = 1 := by
    intro j hj
    by_contra hne
    simp [Tables.isSecondary, Tables.secondary?, replicaTables, Ne.symm hne] at hj
  refine ⟨fun j hj => ?_, by unfold RecordRefs; decide, by decide, fun j hj => ?_⟩
  · rw [hsec j hj]
    rfl
  · rw [hsec j hj]
    decide

/-- Deleting the record of the primary zone leaves the secondary zone as it was transferred. -/
theorem rows_eq_replicas_deleteRecord : ∃ s',
    Lib.run (step plainCrates) transferredHome [.manage (.deleteRecord 2)] = some s' ∧
      (s'.app.db.zoneRecords 1).map unnumbered = (s'.replicas 1).map (replicaRow 1) := by
  have hclear : RowClear 2 transferredHome.app.db := by
    unfold RowClear
    decide
  have happly : Apart transferredHome.app.db
      ((Management.deleteRecord 2).after plainCrates transferredHome.app).db :=
    apart_management replicated_transferredHome hclear
  exact ⟨_, rfl, rows_eq_replicas plainCrates transferredHome _ [.manage (.deleteRecord 2)]
    replicated_transferredHome ⟨hclear, fun _ _ => trivial⟩ rfl 1 (happly.secondaries 1)⟩

/-- Deleting the record of the secondary zone is not refused. -/
theorem rows_ne_replicas_deleteRecord :
    Replicated transferredHome.replicas transferredHome.app.db ∧ ∃ s',
      Lib.run (step plainCrates) transferredHome [.manage (.deleteRecord 1)] = some s' ∧
        s'.app.db.isSecondary 1 = true ∧
        (s'.app.db.zoneRecords 1).map unnumbered ≠ (s'.replicas 1).map (replicaRow 1) := by
  refine ⟨replicated_transferredHome, _, rfl, ?_⟩
  have hdelete : Evals (Db.deleteRecord 1) replicaTables (.ok (some 1)) (Tables.bump { replicaTables with
      records := replicaTables.records.filter (·.id != 1) } 1) := by
    unfold Db.deleteRecord
    exact Evals.bind (Evals.select _ _) (Evals.bind (Evals.update _ _) (Evals.bind (Evals.update _ _)
      (Evals.pure _ _)))
  have hdb : ((Api.deleteRecord plainCrates 1).after transferredHome.app).db =
      Tables.bump { replicaTables with records := replicaTables.records.filter (·.id != 1) } 1 := by
    obtain ⟨s₁, hdb₁, -, -, h₁⟩ := after_runDb_bind (s := transferredHome.app)
      (fun _ => reloadStore plainCrates) hdelete rfl
    unfold Api.deleteRecord
    rw [h₁, ← hdb₁]
    obtain ⟨store, -, -, hafter⟩ := reloadStore_run plainCrates s₁
    rw [hafter]
    exact (reads_load s₁.conn).1
  unfold Operation.after Management.after Operation.note
  dsimp only
  rw [hdb]
  decide

end ReplicaSystem

end Nomina
