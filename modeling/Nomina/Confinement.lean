import Nomina.Coherence
import Nomina.Operations

/-!
# What a DynDNS token can change

The route of DynDNS updates is open to the internet, and a token is scoped to a list of host names and
to one view. This module says what a request with a token can change in the database: the slots of
records that its host names lead to, the serials of their zones and the note in the token itself.

A host name is turned into a zone and a name relative to it, and the row that is written has the
domain name that `record_fqdn_string` gives these. A list of host names is closed when that name is in
the list again, which fails for host names with an escaped dot right before the zone.
-/

namespace Nomina

open Lib Sql EStateM

variable {K : Crates}

/-! ## Slots -/

/-- Where a record is kept: zone, view, name and type. -/
structure Slot where
  zoneId : ℕ
  viewId : Option ℕ
  name : Str
  rtype : Str
deriving DecidableEq

/-- The slot of a record. -/
def DnsRecord.slot (r : DnsRecord) : Slot :=
  ⟨r.zoneId, r.viewId, r.name, r.rtype⟩

/-- A zone row without its serial. -/
def unserialized (z : Zone) : Zone :=
  { z with serial := 0 }

/-- A token row without the note of the last update, for the token `i`. -/
def unnoted (i : ℕ) (k : DynDnsToken) : DynDnsToken :=
  if k.id = i then { k with lastIp := none } else k

/-- The change concerns records of the slots in `q`, the serials of zones that hold such records, and
the note in the token `i`; record ids stay unique. -/
structure Confined (q : Slot → Bool) (i : ℕ) (t t' : Tables) : Prop where
  views : t'.views = t.views
  secondaries : t'.secondaries = t.secondaries
  dnssecKeys : t'.dnssecKeys = t.dnssecKeys
  scopes : t'.scopes = t.scopes
  reservations : t'.reservations = t.reservations
  leases : t'.leases = t.leases
  tokens : t'.dyndnsTokens.map (unnoted i) = t.dyndnsTokens.map (unnoted i)
  zones : t'.zones.map unserialized = t.zones.map unserialized
  serials : ∀ j, (∀ r ∈ t'.records, r.zoneId = j → q r.slot = false) → t'.zone? j = t.zone? j
  records : t'.records.filter (fun r => !q r.slot) = t.records.filter fun r => !q r.slot
  held : ∀ r ∈ t.records, q r.slot = true →
    ∃ r' ∈ t'.records, r'.zoneId = r.zoneId ∧ q r'.slot = true
  keys : (t.records.map DnsRecord.id).Nodup → (t'.records.map DnsRecord.id).Nodup

section Confined

variable {q : Slot → Bool} {i : ℕ}

instance : IsPreorder Tables (Confined q i) where
  refl _ := ⟨rfl, rfl, rfl, rfl, rfl, rfl, rfl, rfl, fun _ _ => rfl, rfl,
    fun r hr hq => ⟨r, hr, rfl, hq⟩, id⟩
  trans t t' t'' h h' := by
    refine ⟨h'.views.trans h.views, h'.secondaries.trans h.secondaries,
      h'.dnssecKeys.trans h.dnssecKeys, h'.scopes.trans h.scopes,
      h'.reservations.trans h.reservations, h'.leases.trans h.leases, h'.tokens.trans h.tokens,
      h'.zones.trans h.zones, fun j hj => ?_, h'.records.trans h.records, fun r hr hq => ?_,
      h'.keys ∘ h.keys⟩
    · refine (h'.serials j hj).trans (h.serials j fun r hr hzone => ?_)
      -- A row of a slot in `q` would still be in the zone.
      by_contra hq
      obtain ⟨r', hr', hzone', hq'⟩ := h'.held r hr (by simpa using hq)
      rw [hj r' hr' (hzone'.trans hzone)] at hq'
      cases hq'
    · obtain ⟨r', hr', hzone', hq'⟩ := h.held r hr hq
      obtain ⟨r'', hr'', hzone'', hq''⟩ := h'.held r' hr' hq'
      exact ⟨r'', hr'', hzone''.trans hzone', hq''⟩

/-- A row that is inserted into a slot in `q`. -/
lemma confined_insertRecord {t t' : Tables} {r : DnsRecord} {j : ℕ} (hq : q r.slot = true)
    (h : t.insertRecord r = .ok (j, t')) : Confined q i t t' := by
  unfold Tables.insertRecord at h
  split at h
  · cases h
    refine ⟨rfl, rfl, rfl, rfl, rfl, rfl, rfl, rfl, fun _ _ => rfl, ?_, ?_, ?_⟩
    · have hslot : q (DnsRecord.slot { r with id := freshId (t.records.map DnsRecord.id) }) = true := hq
      simp [List.filter_append, hslot]
    · intro r' hr' hq'
      exact ⟨r', List.mem_append_left _ hr', rfl, hq'⟩
    · intro hkeys
      rw [List.map_append]
      exact nodup_append_freshId hkeys
  · cases h

/-- The serial of a zone that holds a row of a slot in `q`. -/
lemma confined_bump {t : Tables} {r : DnsRecord} (hr : r ∈ t.records) (hq : q r.slot = true) :
    Confined q i t (t.bump r.zoneId) := by
  refine ⟨rfl, rfl, rfl, rfl, rfl, rfl, rfl, ?_, ?_, rfl, fun r hr hq => ⟨r, hr, rfl, hq⟩, id⟩
  · unfold Tables.bump Tables.mapZone
    dsimp only
    rw [List.map_map]
    refine List.map_congr_left fun z _ => ?_
    simp only [Function.comp_apply]
    split <;> rfl
  · intro j hj
    refine Tables.zone?_bump_of_ne ?_
    rintro rfl
    cases (hj r hr rfl).symm.trans hq

/-- Rows that are updated in their slots, all in `q`. -/
lemma confined_mapRecord {t : Tables} {j : ℕ} {f : DnsRecord → DnsRecord}
    (hf : ∀ r, (f r).id = r.id ∧ (f r).slot = r.slot)
    (hq : ∀ r ∈ t.records, r.id = j → q r.slot = true) : Confined q i t (t.mapRecord j f) := by
  have hslot : ∀ r : DnsRecord, (if r.id = j then f r else r).slot = r.slot := by
    intro r
    split
    · exact (hf r).2
    · rfl
  refine ⟨rfl, rfl, rfl, rfl, rfl, rfl, rfl, rfl, fun _ _ => rfl, ?_, ?_, ?_⟩
  · unfold Tables.mapRecord
    dsimp only
    rw [List.filter_map]
    have hsame : (fun r : DnsRecord => !q r.slot) ∘ (fun r => if r.id = j then f r else r) =
        fun r => !q r.slot := by
      funext r
      simp only [Function.comp_apply, hslot]
    rw [hsame]
    refine (List.map_congr_left fun r hr => ?_).trans (List.map_id _)
    obtain ⟨hmem, hout⟩ := List.mem_filter.mp hr
    rw [if_neg fun hid => ?_, id]
    rw [hq r hmem hid] at hout
    cases hout
  · intro r hr hin
    refine ⟨if r.id = j then f r else r, List.mem_map_of_mem hr, ?_, ?_⟩
    · exact congrArg Slot.zoneId (hslot r)
    · rw [hslot]
      exact hin
  · intro hkeys
    rw [Tables.ids_mapRecord fun r => (hf r).1]
    exact hkeys

/-- The note in the token. -/
lemma confined_touch (t : Tables) (ip : Str) : Confined q i t { t with
    dyndnsTokens := t.dyndnsTokens.map fun k => if k.id = i then { k with lastIp := some ip } else k } := by
  refine ⟨rfl, rfl, rfl, rfl, rfl, rfl, ?_, rfl, fun _ _ => rfl, rfl,
    fun r hr hq => ⟨r, hr, rfl, hq⟩, id⟩
  dsimp only
  rw [List.map_map]
  refine List.map_congr_left fun k _ => ?_
  unfold unnoted
  simp only [Function.comp_apply]
  split <;> simp [*]

end Confined

/-! ## The row of an update -/

/-- The row that an update finds: of the zone, with the name and the type as texts, and of the view. -/
def addressRow (t : Tables) (zoneId : ℕ) (rel rtype : Str) (viewId : Option ℕ) : Option DnsRecord :=
  ((t.zoneRecords zoneId).filter fun r => eqIgnoreAsciiCase r.name rel && r.rtype == rtype).find?
    (·.viewId == viewId)

/-- The row that an update leaves: the one it finds, with the new data, or a new one. -/
def addressedRow (t : Tables) (zoneId : ℕ) (rel : Str) (ip : IpAddr) (viewId : Option ℕ) (ttl : ℕ) :
    DnsRecord :=
  match addressRow t zoneId rel (Db.addressType ip) viewId with
  | some r => { r with data := fmtIpAddr ip }
  | none => ⟨freshId (t.records.map DnsRecord.id), zoneId, viewId, rel, Db.addressType ip, some ttl,
      fmtIpAddr ip, true⟩

/-- A row is set: the other rows stay, and zones keep all but their serials. -/
structure SetsRow (row : DnsRecord) (t t' : Tables) : Prop where
  views : t'.views = t.views
  zones : SameZones t t'
  records : t'.records.Perm (row :: t.records.filter (·.id != row.id))

section

variable {t : Tables} {zoneId ttl : ℕ} {rel rtype host zoneName : Str} {ip : IpAddr}
  {viewId : Option ℕ} {r : DnsRecord}

/-- What is known of a row that is found. -/
lemma addressRow_spec (h : addressRow t zoneId rel rtype viewId = some r) :
    r ∈ t.records ∧ r.zoneId = zoneId ∧ eqIgnoreAsciiCase r.name rel = true ∧ r.rtype = rtype ∧
      r.viewId = viewId := by
  unfold addressRow at h
  obtain ⟨hrows, htext⟩ := List.mem_filter.mp (List.mem_of_find?_eq_some h)
  obtain ⟨hmem, hzone⟩ := List.mem_filter.mp hrows
  rw [Bool.and_eq_true, beq_iff_eq] at htext
  have hview : r.viewId = viewId := by simpa using List.find?_some h
  exact ⟨hmem, beq_iff_eq.mp hzone, htext.1, htext.2, hview⟩

/-- The row that an update leaves is in the slot of the one it finds. -/
lemma slot_addressedRow (h : addressRow t zoneId rel (Db.addressType ip) viewId = some r) :
    (addressedRow t zoneId rel ip viewId ttl).slot = r.slot := by
  unfold addressedRow
  rw [h]
  rfl

/-- A new row is in the slot of the zone, the view, the name and the type. -/
lemma slot_addressedRow_of_none (h : addressRow t zoneId rel (Db.addressType ip) viewId = none) :
    (addressedRow t zoneId rel ip viewId ttl).slot = ⟨zoneId, viewId, rel, Db.addressType ip⟩ := by
  unfold addressedRow
  rw [h]
  rfl

/-- The slot of an update depends on the address by its type only. -/
lemma slot_addressedRow_congr {ip' : IpAddr} (h : Db.addressType ip' = Db.addressType ip) :
    (addressedRow t zoneId rel ip' viewId ttl).slot = (addressedRow t zoneId rel ip viewId ttl).slot := by
  cases hrow : addressRow t zoneId rel (Db.addressType ip) viewId with
  | none =>
    have hrow' : addressRow t zoneId rel (Db.addressType ip') viewId = none := by rw [h, hrow]
    rw [slot_addressedRow_of_none hrow, slot_addressedRow_of_none hrow', h]
  | some r =>
    have hrow' : addressRow t zoneId rel (Db.addressType ip') viewId = some r := by rw [h, hrow]
    rw [slot_addressedRow hrow, slot_addressedRow hrow']

/-- The slot of an update, but for the case of the name. -/
lemma addressedRow_slot (t : Tables) (zoneId : ℕ) (rel : Str) (ip : IpAddr) (viewId : Option ℕ) (ttl : ℕ) :
    ∃ name, eqIgnoreAsciiCase name rel = true ∧
      (addressedRow t zoneId rel ip viewId ttl).slot = ⟨zoneId, viewId, name, Db.addressType ip⟩ := by
  cases hrow : addressRow t zoneId rel (Db.addressType ip) viewId with
  | none => exact ⟨rel, eqIgnoreAsciiCase_iff.mpr rfl, slot_addressedRow_of_none hrow⟩
  | some r =>
    obtain ⟨-, hzone, hname, htype, hview⟩ := addressRow_spec hrow
    refine ⟨r.name, hname, (slot_addressedRow hrow).trans ?_⟩
    rw [DnsRecord.slot, hzone, hview, htype]

/-- A row of a table with unique ids, and the others. -/
lemma perm_cons_others (hkeys : (t.records.map DnsRecord.id).Nodup) (hr : r ∈ t.records) :
    t.records.Perm (r :: t.records.filter (·.id != r.id)) := by
  refine (List.perm_cons_erase hr).trans (.of_eq ?_)
  rw [hkeys.of_map.erase_eq_filter]
  refine congrArg (r :: ·) (List.filter_congr fun r' hr' => ?_)
  rw [Bool.eq_iff_iff, bne_iff_ne, bne_iff_ne]
  exact not_congr ⟨congrArg DnsRecord.id, List.inj_on_of_nodup_map hkeys hr' hr⟩

/-- Replacing a row of a table with unique ids. -/
lemma perm_mapRecord (hkeys : (t.records.map DnsRecord.id).Nodup) (hr : r ∈ t.records)
    (f : DnsRecord → DnsRecord) :
    (t.mapRecord r.id f).records.Perm (f r :: t.records.filter (·.id != r.id)) := by
  refine ((perm_cons_others hkeys hr).map _).trans (.of_eq ?_)
  rw [List.map_cons, if_pos rfl]
  refine congrArg (f r :: ·) ((List.map_congr_left fun r' hr' => ?_).trans (List.map_id _))
  rw [if_neg (bne_iff_ne.mp (List.mem_filter.mp hr').2), id]

/-- New data for a row, in a database that refuses nothing. -/
lemma evals_updateData {t : Tables} {r : DnsRecord} {data : Str} (hr : t.record? r.id = some r) :
    Evals (Db.updateRecord r.id none none none (some data) none) t (.ok ())
      ((t.mapRecord r.id fun r => { r with data }).bump r.zoneId) := by
  have hrow : ((t.mapRecord r.id fun r => { r with data }).record? r.id).map DnsRecord.zoneId =
      some r.zoneId := by
    rw [Tables.record?_mapRecord (f := fun r => { r with data }) fun _ => rfl, hr]
    rfl
  exact .bind (.pure () t) <| .bind (.pure () t) <| .bind (.pure () t) <| .bind (.update _ t) <|
    .bind (.pure () _) <| .bind (.update _ _) <| .bind (.selectFirst hrow) (.update _ _)

/-- An update that finds a row sets its data when they are others. -/
lemma evals_dyndnsSetAddress_found {t' : Tables} {u : Db.DynUpdate}
    (hzone : Db.longestSuffixZone (fun _ => true) (Db.foldHost (trim host)) (Db.zonesByName t) =
      some (zoneId, zoneName))
    (hrow : addressRow t zoneId (Db.relativeTo (Db.foldHost (trim host)) zoneName) (Db.addressType ip)
      viewId = some r)
    (h : Evals (if r.data == fmtIpAddr ip then pure Db.DynUpdate.Unchanged else do
      Db.updateRecord r.id none none none (some (fmtIpAddr ip)) none
      pure .Updated) t (.ok u) t') :
    Evals (Db.dyndnsSetAddress host ip viewId ttl) t (.ok u) t' := by
  unfold Db.dyndnsSetAddress Db.listZones
  refine .bind (.select _ t) ?_
  rw [hzone]
  refine .bind (.select _ t) ?_
  unfold addressRow at hrow
  rw [hrow]
  exact h

/-- In a database that refuses nothing an update sets its row. -/
lemma exists_evals_setsRow (ip : IpAddr) (ttl : ℕ) (hkeys : (t.records.map DnsRecord.id).Nodup)
    (href : t.viewRefOk viewId = true)
    (hzone : Db.longestSuffixZone (fun _ => true) (Db.foldHost (trim host)) (Db.zonesByName t) =
      some (zoneId, zoneName)) :
    ∃ u t', Evals (Db.dyndnsSetAddress host ip viewId ttl) t (.ok u) t' ∧ u ≠ .NoZone ∧
      SetsRow (addressedRow t zoneId (Db.relativeTo (Db.foldHost (trim host)) zoneName) ip viewId ttl)
        t t' := by
  unfold addressedRow
  cases hrow : addressRow t zoneId (Db.relativeTo (Db.foldHost (trim host)) zoneName)
      (Db.addressType ip) viewId with
  | none =>
    obtain ⟨z, hz⟩ := Db.zone?_of_longestSuffixZone hzone
    have hinsert : t.insertRecord ⟨0, zoneId, viewId,
        Db.relativeTo (Db.foldHost (trim host)) zoneName, Db.addressType ip, some ttl, fmtIpAddr ip,
        true⟩ = .ok _ := if_pos (by rw [hz, href]; rfl)
    refine ⟨_, _, Db.evals_dyndnsSetAddress_created hzone hrow hinsert, by decide, rfl,
      sameZones_bump _ _, ?_⟩
    refine (List.perm_append_singleton _ _).trans (.of_eq (congrArg _ (Eq.symm ?_)))
    refine List.filter_eq_self.mpr fun r hr => bne_iff_ne.mpr fun hid => ?_
    exact freshId_notMem (t.records.map DnsRecord.id) (List.mem_map.mpr ⟨r, hr, hid⟩)
  | some r =>
    obtain ⟨hr, -, -, -, -⟩ := addressRow_spec hrow
    dsimp only
    by_cases hdata : r.data = fmtIpAddr ip
    · refine ⟨.Unchanged, t, evals_dyndnsSetAddress_found hzone hrow ?_, by decide, rfl, rfl, ?_⟩
      · rw [if_pos (by simpa using hdata)]
        exact .pure _ t
      · rw [← hdata]
        exact perm_cons_others hkeys hr
    · have hfound : t.record? r.id = some r := find?_of_nodup_map hkeys hr
      refine ⟨.Updated, (t.mapRecord r.id fun r => { r with data := fmtIpAddr ip }).bump r.zoneId,
        evals_dyndnsSetAddress_found hzone hrow ?_, by decide, rfl, sameZones_bump _ _, ?_⟩
      · rw [if_neg (by simpa using hdata)]
        exact .bind (evals_updateData hfound) (.pure _ _)
      · exact perm_mapRecord hkeys hr fun r => { r with data := fmtIpAddr ip }

end

/-! ## Updates of an address -/

/-- What `create_record` leaves, however it ends: the tables as they were, or a new row with or
without the bump of the serial. -/
lemma createRecord_cases (zoneId : ℕ) (viewId : Option ℕ) (name rtype : Str) (ttl : Option ℕ)
    (data : Str) (c : Conn Tables) :
    ((Db.createRecord zoneId viewId name rtype ttl data).after c).tables = c.tables ∨
      ∃ j t, c.tables.insertRecord ⟨0, zoneId, viewId, name, rtype, ttl, data, true⟩ = .ok (j, t) ∧
        (((Db.createRecord zoneId viewId name rtype ttl data).after c).tables = t ∨
          ((Db.createRecord zoneId viewId name rtype ttl data).after c).tables = t.bump zoneId) := by
  unfold Db.createRecord execute Db.bumpSerial
  rw [after_bind]
  rcases statement_cases .write
    (fun t => t.insertRecord ⟨0, zoneId, viewId, name, rtype, ttl, data, true⟩) c with
    ⟨err, hres, hafter⟩ | ⟨j, t, -, hf, hres, hafter⟩
  · rw [hres, hafter]
    exact .inl rfl
  · rw [hres, hafter]
    refine .inr ⟨j, t, hf, ?_⟩
    dsimp only
    rw [after_bind_pure]
    exact update_cases (·.bump zoneId) (step c .write t)

section Updates

variable {q : Slot → Bool} {i : ℕ}

/-- All rows with an id are in slots in `q`. -/
def RowIn (q : Slot → Bool) (j : ℕ) (t : Tables) : Prop :=
  ∀ r ∈ t.records, r.id = j → q r.slot = true

/-- A new record in a slot in `q`. -/
lemma confined_createRecord {zoneId : ℕ} {viewId : Option ℕ} {name rtype : Str} {ttl : Option ℕ}
    {data : Str} (hq : q ⟨zoneId, viewId, name, rtype⟩ = true) :
    Sql.Keeps (Confined q i) (Db.createRecord zoneId viewId name rtype ttl data) := by
  intro c
  rcases createRecord_cases zoneId viewId name rtype ttl data c with
    hsame | ⟨j, t, hinsert, hrow | hbump⟩
  · rw [hsame]
    exact refl_of (Confined q i) c.tables
  · rw [hrow]
    exact confined_insertRecord (by exact hq) hinsert
  · rw [hbump]
    have hinserted : Confined q i c.tables t := confined_insertRecord (by exact hq) hinsert
    refine trans_of (Confined q i) hinserted ?_
    obtain ⟨r, hr, hzone, hslot⟩ : ∃ r ∈ t.records, r.zoneId = zoneId ∧ q r.slot = true := by
      unfold Tables.insertRecord at hinsert
      split at hinsert
      · cases hinsert
        exact ⟨_, List.mem_append_right _ (List.mem_singleton_self _), rfl, hq⟩
      · cases hinsert
    rw [← hzone]
    exact confined_bump hr hslot

/-- New data for a row in a slot in `q`. -/
lemma confined_updateData {j : ℕ} {data : Str} :
    Sql.Keeps (Given (RowIn q j) (Confined q i))
      (Db.updateRecord j none none none (some data) none) := by
  have hrow : ∀ t : Tables, Given (RowIn q j) (Confined q i) t
      (t.mapRecord j fun r => { r with data }) := by
    intro t hin
    refine ⟨?_, confined_mapRecord (fun _ => ⟨rfl, rfl⟩) hin⟩
    intro r hr hid
    obtain ⟨r', hr', rfl⟩ := List.mem_map.mp hr
    by_cases hid' : r'.id = j
    · rw [if_pos hid']
      exact hin r' hr' hid'
    · rw [if_neg hid'] at hid
      exact absurd hid hid'
  refine .bind (.pure _) fun _ => .bind (.pure _) fun _ => .bind (.pure _) fun _ =>
    .bind (.update hrow) fun _ => .bind (.pure _) fun _ => .bind (.update fun t => refl_of _ t) ?_
  intro _ c
  refine Frame.selectFirst_bind (Q := fun c c' => Given (RowIn q j) (Confined q i) c.tables c'.tables)
    fun zoneId hzone c' hc' hin => ?_
  obtain ⟨r, hr, rfl⟩ := Option.map_eq_some_iff.mp hzone
  have hmem : r ∈ c'.tables.records := by
    rw [hc']
    exact List.mem_of_find?_eq_some hr
  have hslot := hin r hmem (by simpa using List.find?_some hr)
  rcases update_cases (·.bump r.zoneId) c' with hsame | hbump
  · rw [Db.bumpSerial, hsame]
    exact ⟨hin, refl_of (Confined q i) c'.tables⟩
  · rw [Db.bumpSerial, hbump]
    exact ⟨hin, confined_bump hmem hslot⟩

/-- An update of an address whose row is in a slot in `q`. -/
lemma confined_dyndnsSetAddress {host : Str} {ip : IpAddr} {viewId : Option ℕ} {ttl : ℕ}
    {c : Conn Tables} (hkeys : (c.tables.records.map DnsRecord.id).Nodup)
    (hq : ∀ zoneId zoneName,
      Db.longestSuffixZone (fun _ => true) (Db.foldHost (trim host)) (Db.zonesByName c.tables) =
        some (zoneId, zoneName) →
      q (addressedRow c.tables zoneId (Db.relativeTo (Db.foldHost (trim host)) zoneName) ip viewId ttl).slot =
        true) :
    Confined q i c.tables ((Db.dyndnsSetAddress host ip viewId ttl).after c).tables := by
  unfold Db.dyndnsSetAddress Db.listZones
  refine Frame.select_bind (Q := fun c c' => Confined q i c.tables c'.tables) fun c₁ hc₁ => ?_
  dsimp only
  split
  · exact refl_of (Confined q i) _
  · rename_i zoneId zoneName hzone
    have hslot := hq zoneId zoneName hzone
    rw [← hc₁] at hslot hkeys
    refine Frame.select_bind (Q := fun c c' => Confined q i c.tables c'.tables) fun c₂ hc₂ => ?_
    split
    · rename_i r hr
      have hrow : addressRow c₁.tables zoneId (Db.relativeTo (Db.foldHost (trim host)) zoneName)
          (Db.addressType ip) viewId = some r := hr
      split
      · exact refl_of (Confined q i) _
      · rw [after_bind_pure]
        refine (confined_updateData c₂ ?_).2
        -- Ids are unique, so the row that is updated is the one that was found.
        intro r' hr' hid
        rw [hc₂] at hr'
        rw [List.inj_on_of_nodup_map hkeys hr' (addressRow_spec hrow).1 hid, ← slot_addressedRow hrow]
        exact hslot
    · rename_i hr
      have hrow : addressRow c₁.tables zoneId (Db.relativeTo (Db.foldHost (trim host)) zoneName)
          (Db.addressType ip) viewId = none := hr
      rw [after_bind_pure]
      refine confined_createRecord ?_ c₂
      rw [← slot_addressedRow_of_none hrow]
      exact hslot

end Updates

/-! ## Requests -/

/-- A query whose failure is looked at leaves the database alone. -/
lemma run_trySelect {α : Type} (f : Tables → α) (s : AppState) :
    ∃ r s₁, tryDb (select f) s = .ok r s₁ ∧ s₁.db = s.db ∧ (∀ a, r = .ok a → a = f s.db) ∧
      (s.conn.faults = [] → r = .ok (f s.db) ∧ s₁.conn.faults = []) := by
  refine ⟨(select f).result s.conn, (tryDb (select f)).after s, ?_, ?_, ?_, ?_⟩
  · exact run_of_result (result_tryDb (select f) s)
  · rw [after_tryDb]
    exact (Reads.select f s.conn).1
  · intro a ha
    obtain ⟨t, hf, -⟩ := statement_ok ha
    cases hf
    rfl
  · intro hfaults
    obtain ⟨hres, -, hfaults', -⟩ := Evals.select f s.db s.conn rfl hfaults
    rw [after_tryDb]
    exact ⟨hres, hfaults'⟩

/-- A request is answered before anything is written, or its updates are those of the token it
authenticates with. -/
lemma nicUpdates_cases (K : Crates) (req : NicRequest) (s : AppState) :
    (∃ response s₁, nicUpdates K req s = .ok (.error response) s₁ ∧ s₁.db = s.db) ∨
      ∃ token hosts s₁, nicToken K s.db req = some token ∧ requestHosts req = some hosts ∧
        s₁.db = s.db ∧ (s.conn.faults = [] → s₁.conn.faults = []) ∧
        nicUpdates K req s = applyUpdates K req token hosts s₁ := by
  unfold nicUpdates
  cases hauth : basicAuth K req with
  | none => exact .inl ⟨_, s, rfl, rfl⟩
  | some auth =>
    dsimp only
    unfold authenticate Db.dyndnsAuth
    rw [bind_assoc]
    obtain ⟨r, s₁, hrun, hdb, hfound, hfaults⟩ :=
      run_trySelect (fun t => t.dyndnsTokens.find? (·.username == auth.1)) s
    rw [run_bind_ok hrun]
    match r, hfound with
    | .error e, _ => exact .inl ⟨_, s₁, rfl, hdb⟩
    | .ok none, _ => exact .inl ⟨_, s₁, rfl, hdb⟩
    | .ok (some token), hfound =>
      dsimp only
      cases hok : token.enabled && K.verifyPassword auth.2 token.secretHash with
      | false => exact .inl ⟨_, s₁, rfl, hdb⟩
      | true =>
        rw [if_pos rfl, pure_bind]
        dsimp only
        unfold serveUpdates
        cases hhosts : requestHosts req with
        | none => exact .inl ⟨_, s₁, rfl, hdb⟩
        | some hosts =>
          refine .inr ⟨token, hosts, s₁, ?_, rfl, hdb, fun h => (hfaults h).2, rfl⟩
          simp [nicToken, hauth, ← hfound _ rfl, hok]

/-- The end of a request: the answer, after the note in the token. -/
def noteUpdate (req : NicRequest) : Except NicResponse (DynDnsToken × NicOutcome) → App NicResponse
  | .error response => pure response
  | .ok (token, o) => do
    let _ ← tryDb (Db.touchDyndnsToken token.id (addrLabel req))
    pure ⟨200, join ['\n'] o.lines⟩

lemma nicUpdate_eq (K : Crates) (req : NicRequest) :
    nicUpdate K req = nicUpdates K req >>= noteUpdate req := by
  unfold nicUpdate
  congr 1

/-- The updates of a request end with the answer to a failure, or with the token. -/
lemma applyUpdates_result {req : NicRequest} {token token' : DynDnsToken} {hosts : List Str}
    {o : NicOutcome} {s : AppState}
    (h : (applyUpdates K req token hosts).result s = .ok (.ok (token', o))) : token' = token := by
  unfold applyUpdates at h
  obtain ⟨outcome, -, hlast, -⟩ := bind_ok h
  cases outcome with
  | none => cases hlast
  | some outcome =>
    obtain ⟨-, -, hpure, -⟩ := bind_ok hlast
    cases hpure
    rfl

/-- Record ids are unique, and the zones are those of `t₀` but for their serials. -/
def ZonesOf (t₀ t : Tables) : Prop :=
  (t.records.map DnsRecord.id).Nodup ∧ t.zones.map unserialized = t₀.zones.map unserialized

lemma ZonesOf.of_confined {q : Slot → Bool} {i : ℕ} {t₀ t t' : Tables} (h : ZonesOf t₀ t)
    (hconfined : Confined q i t t') : ZonesOf t₀ t' :=
  ⟨hconfined.keys h.1, hconfined.zones.trans h.2⟩

section Requests

variable {q : Slot → Bool} {req : NicRequest} {s : AppState} {token : DynDnsToken}

/-- The slots that the host names of a token lead to are in `q`. -/
def LeadsTo (q : Slot → Bool) (t : Tables) (token : DynDnsToken) : Prop :=
  ∀ host ∈ Db.splitHostnames token.hostnames, ∀ ip zoneId zoneName,
    Db.longestSuffixZone (fun _ => true) (Db.foldHost (trim host)) (Db.zonesByName t) =
      some (zoneId, zoneName) →
    ∀ name, eqIgnoreAsciiCase name (Db.relativeTo (Db.foldHost (trim host)) zoneName) = true →
      q ⟨zoneId, token.viewId, name, Db.addressType ip⟩ = true

/-- The updates of a request keep to the slots that the host names of its token lead to. -/
lemma confined_applyUpdates (K : Crates) (req : NicRequest) (hosts : List Str) {t : Tables}
    (hq : LeadsTo q t token) :
    KeepsDb (Given (ZonesOf t) (Confined q token.id)) (applyUpdates K req token hosts) := by
  refine keeps_applyUpdates fun host _ hlisted ip _ c hc => ?_
  have hstep : Confined q token.id c.tables
      ((Db.dyndnsSetAddress host ip token.viewId token.ttl).after c).tables := by
    refine confined_dyndnsSetAddress hc.1 fun zoneId zoneName hzone => ?_
    rw [Db.longestSuffixZone_congr (f := unserialized) (fun _ => ⟨rfl, rfl⟩) hc.2] at hzone
    obtain ⟨name, hname, hslot⟩ := addressedRow_slot c.tables zoneId
      (Db.relativeTo (Db.foldHost (trim host)) zoneName) ip token.viewId token.ttl
    rw [hslot]
    exact hq host hlisted ip zoneId zoneName hzone name hname
  exact ⟨hc.of_confined hstep, hstep⟩

/-- The note that a request leaves in its token. -/
lemma confined_note {r : Except NicResponse (DynDnsToken × NicOutcome)} {s : AppState}
    (h : ∀ token' o, r = .ok (token', o) → token' = token) :
    Confined q token.id s.db ((noteUpdate req r).after s).db := by
  match r with
  | .error response => exact refl_of (Confined q token.id) s.db
  | .ok (token', o) =>
    cases h token' o rfl
    unfold noteUpdate
    dsimp only
    rw [after_bind_pure, after_tryDb]
    have htouch : Sql.Keeps (Confined q token.id) (Db.touchDyndnsToken token.id (addrLabel req)) :=
      .update fun t => confined_touch t (addrLabel req)
    exact htouch s.conn

/-- A request keeps to the slots that the host names of its token lead to. -/
lemma confined_nicUpdate (htoken : nicToken K s.db req = some token)
    (hkeys : (s.db.records.map DnsRecord.id).Nodup) (hq : LeadsTo q s.db token) :
    Confined q token.id s.db ((nicUpdate K req).after s).db := by
  rw [nicUpdate_eq]
  rcases nicUpdates_cases K req s with ⟨response, s₁, hrun, hdb⟩ |
    ⟨token', hosts, s₁, htoken', -, hdb, -, hrun⟩
  · rw [after_congr (run_bind_ok hrun _), ← hdb]
    exact refl_of (Confined q token.id) s₁.db
  · cases htoken.symm.trans htoken'
    rw [after_congr (run_bind_congr hrun _), after_bind]
    rw [← hdb] at hkeys hq ⊢
    have hupdates := (confined_applyUpdates K req hosts hq s₁ ⟨hkeys, rfl⟩).2
    cases hres : (applyUpdates K req token hosts).result s₁ with
    | error e => exact hupdates
    | ok r =>
      refine trans_of (Confined q token.id) hupdates (confined_note ?_)
      rintro token' o rfl
      exact applyUpdates_result hres

end Requests

/-! ## The scope of a token -/

/-- The domain name of the row that an update for `host` writes, as `record_fqdn_string` has it. -/
def hostOwner (t : Tables) (host : Str) : Option Str :=
  (Db.longestSuffixZone (fun _ => true) (Db.foldHost (trim host)) (Db.zonesByName t)).bind fun p =>
    (t.zone? p.1).map fun z =>
      Db.foldHost (recordFqdnString (Db.relativeTo (Db.foldHost (trim host)) p.2) z.name)

/-- The slots of a token: addresses in its view whose domain name is in its list. -/
def owned (t : Tables) (token : DynDnsToken) (slot : Slot) : Bool :=
  (slot.rtype == "A".toList || slot.rtype == "AAAA".toList) && slot.viewId == token.viewId &&
    (t.zone? slot.zoneId).any fun z =>
      (Db.splitHostnames token.hostnames).contains (Db.foldHost (recordFqdnString slot.name z.name))

/-- The host names of a token lead to rows with domain names in its list. -/
def ClosedHosts (t : Tables) (token : DynDnsToken) : Prop :=
  ∀ host ∈ Db.splitHostnames token.hostnames, ∀ owner, hostOwner t host = some owner →
    owner ∈ Db.splitHostnames token.hostnames

/-- What a request may do: change rows of the slots of its token and what goes with them, and nothing
if there is no token or if it is answered with `badauth` or `notfqdn`. -/
structure Scoped (K : Crates) (req : NicRequest) (s : AppState) : Prop where
  confined : ∀ token, nicToken K s.db req = some token →
    Confined (owned s.db token) token.id s.db ((nicUpdate K req).after s).db
  unauthenticated : nicToken K s.db req = none → ((nicUpdate K req).after s).db = s.db
  refused : ∀ response, (nicUpdate K req).result s = .ok response →
    response = ⟨401, "badauth"⟩ ∨ response = ⟨400, "notfqdn"⟩ →
    ((nicUpdate K req).after s).db = s.db

/-- The slots that a host name leads to have one domain name. -/
lemma owned_iff {t : Tables} {token : DynDnsToken} {host name : Str} (ip : IpAddr) {zoneId : ℕ}
    {zoneName owner : Str}
    (hzone : Db.longestSuffixZone (fun _ => true) (Db.foldHost (trim host)) (Db.zonesByName t) =
      some (zoneId, zoneName))
    (hname : eqIgnoreAsciiCase name (Db.relativeTo (Db.foldHost (trim host)) zoneName) = true)
    (howner : hostOwner t host = some owner) :
    owned t token ⟨zoneId, token.viewId, name, Db.addressType ip⟩ = true ↔
      owner ∈ Db.splitHostnames token.hostnames := by
  unfold hostOwner at howner
  rw [hzone, Option.bind_some] at howner
  obtain ⟨z, hz, hfqdn⟩ := Option.map_eq_some_iff.mp howner
  have htype : (Db.addressType ip == "A".toList || Db.addressType ip == "AAAA".toList) = true := by
    cases ip <;> rfl
  unfold owned
  dsimp only at hz hfqdn ⊢
  rw [htype, hz, Option.any_some, recordFqdnString_congr (eqIgnoreAsciiCase_iff.mp hname), hfqdn]
  simp

lemma leadsTo_owned {t : Tables} {token : DynDnsToken} (h : ClosedHosts t token) :
    LeadsTo (owned t token) t token := by
  intro host hlisted ip zoneId zoneName hzone name hname
  obtain ⟨z, hz⟩ := Db.zone?_of_longestSuffixZone hzone
  have howner : hostOwner t host = some (Db.foldHost
      (recordFqdnString (Db.relativeTo (Db.foldHost (trim host)) zoneName) z.name)) := by
    unfold hostOwner
    rw [hzone, Option.bind_some, hz, Option.map_some]
  exact (owned_iff ip hzone hname howner).mpr (h host hlisted _ howner)

/-- The answer to updates that fail. -/
lemma applyUpdates_error {req : NicRequest} {token : DynDnsToken} {hosts : List Str}
    {response : NicResponse} {s : AppState}
    (h : (applyUpdates K req token hosts).result s = .ok (.error response)) :
    response = ⟨500, "911"⟩ := by
  unfold applyUpdates at h
  obtain ⟨outcome, -, hlast, -⟩ := bind_ok h
  cases outcome with
  | none =>
    cases hlast
    rfl
  | some outcome =>
    obtain ⟨-, -, hpure, -⟩ := bind_ok hlast
    cases hpure

/-- A request without a token changes nothing. -/
lemma nicUpdate_unauthenticated {req : NicRequest} {s : AppState}
    (h : nicToken K s.db req = none) : ((nicUpdate K req).after s).db = s.db := by
  rw [nicUpdate_eq]
  rcases nicUpdates_cases K req s with ⟨response, s₁, hrun, hdb⟩ | ⟨token, hosts, s₁, htoken, -⟩
  · rw [after_congr (run_bind_ok hrun _)]
    exact hdb
  · cases h.symm.trans htoken

/-- A request that is answered with `badauth` or `notfqdn` changes nothing. -/
lemma nicUpdate_refused {req : NicRequest} {s : AppState} {response : NicResponse}
    (hres : (nicUpdate K req).result s = .ok response)
    (h : response = ⟨401, "badauth"⟩ ∨ response = ⟨400, "notfqdn"⟩) :
    ((nicUpdate K req).after s).db = s.db := by
  rw [nicUpdate_eq] at hres ⊢
  rcases nicUpdates_cases K req s with ⟨response', s₁, hrun, hdb⟩ |
    ⟨token, hosts, s₁, -, -, -, -, hrun⟩
  · rw [after_congr (run_bind_ok hrun _)]
    exact hdb
  · -- Updates are answered with 911 or with the lines of the hosts.
    rw [result_congr (run_bind_congr hrun _)] at hres
    obtain ⟨r, hr, hnote, -⟩ := bind_ok hres
    match r with
    | .error response' =>
      cases hnote
      rw [applyUpdates_error hr] at h
      rcases h with h | h <;> cases h
    | .ok (token', o) =>
      obtain ⟨_, -, hpure, -⟩ := bind_ok hnote
      cases hpure
      rcases h with h | h <;> cases h

/-! ## Host names that lead elsewhere -/

/-- Of each type, some address is not the one of a text. -/
lemma exists_fmtIpAddr_ne (ip : IpAddr) (s : Str) :
    ∃ ip', Db.addressType ip' = Db.addressType ip ∧ s ≠ fmtIpAddr ip' := by
  have hother : ∀ a b : IpAddr, Db.addressType a = Db.addressType ip → Db.addressType b = Db.addressType ip →
      fmtIpAddr a ≠ fmtIpAddr b → ∃ ip', Db.addressType ip' = Db.addressType ip ∧ s ≠ fmtIpAddr ip' := by
    intro a b ha hb hne
    by_cases hs : s = fmtIpAddr a
    · exact ⟨b, hb, hs ▸ hne⟩
    · exact ⟨a, ha, hs⟩
  cases ip with
  | v4 a => exact hother (.v4 0) (.v4 1) rfl rfl (by decide)
  | v6 a => exact hother (.v6 0) (.v6 1) rfl rfl (by decide +kernel)

/-- In a database that refuses nothing, some address of each type is new for a host name: its update
leaves a row that was not there. -/
lemma exists_new_row {t : Tables} {host : Str} {viewId : Option ℕ} (ip : IpAddr) (ttl : ℕ) {zoneId : ℕ}
    {zoneName : Str}
    (hkeys : (t.records.map DnsRecord.id).Nodup) (href : t.viewRefOk viewId = true)
    (hzone : Db.longestSuffixZone (fun _ => true) (Db.foldHost (trim host)) (Db.zonesByName t) =
      some (zoneId, zoneName)) :
    ∃ ip' u t', Db.addressType ip' = Db.addressType ip ∧
      Evals (Db.dyndnsSetAddress host ip' viewId ttl) t (.ok u) t' ∧
      addressedRow t zoneId (Db.relativeTo (Db.foldHost (trim host)) zoneName) ip' viewId ttl ∈ t'.records ∧
      addressedRow t zoneId (Db.relativeTo (Db.foldHost (trim host)) zoneName) ip' viewId ttl ∉ t.records := by
  have hset : ∀ ip', ∃ u t', Evals (Db.dyndnsSetAddress host ip' viewId ttl) t (.ok u) t' ∧
      addressedRow t zoneId (Db.relativeTo (Db.foldHost (trim host)) zoneName) ip' viewId ttl ∈
        t'.records := by
    intro ip'
    obtain ⟨u, t', hevals, -, hset⟩ := exists_evals_setsRow ip' ttl hkeys href hzone
    exact ⟨u, t', hevals, hset.records.mem_iff.mpr List.mem_cons_self⟩
  cases hrow : addressRow t zoneId (Db.relativeTo (Db.foldHost (trim host)) zoneName) (Db.addressType ip)
      viewId with
  | none =>
    obtain ⟨u, t', hevals, hmem⟩ := hset ip
    refine ⟨ip, u, t', rfl, hevals, hmem, fun hold => ?_⟩
    unfold addressedRow at hold
    rw [hrow] at hold
    exact freshId_notMem (t.records.map DnsRecord.id) (List.mem_map.mpr ⟨_, hold, rfl⟩)
  | some r =>
    obtain ⟨ip', htype, hdata⟩ := exists_fmtIpAddr_ne ip r.data
    obtain ⟨u, t', hevals, hmem⟩ := hset ip'
    refine ⟨ip', u, t', htype, hevals, hmem, fun hold => ?_⟩
    unfold addressedRow at hold
    rw [htype, hrow] at hold
    have heq := List.inj_on_of_nodup_map hkeys hold (addressRow_spec hrow).1 rfl
    exact hdata (congrArg DnsRecord.data heq).symm

/-- In a database that refuses nothing, a request with a token and host names makes its updates. -/
lemma nicUpdates_run {req : NicRequest} {s : AppState} {token : DynDnsToken} {hosts : List Str}
    (htoken : nicToken K s.db req = some token) (hhosts : requestHosts req = some hosts)
    (hfaults : s.conn.faults = []) :
    ∃ s₁ : AppState, s₁.db = s.db ∧ s₁.conn.faults = [] ∧
      nicUpdates K req s = applyUpdates K req token hosts s₁ := by
  unfold nicToken at htoken
  obtain ⟨auth, hauth, hfound⟩ := Option.bind_eq_some_iff.mp htoken
  obtain ⟨hfind, hok⟩ := Option.filter_eq_some_iff.mp hfound
  obtain ⟨r, s₁, hrun, hdb, -, hfresh⟩ :=
    run_trySelect (fun t => t.dyndnsTokens.find? (·.username == auth.1)) s
  obtain ⟨rfl, hfaults₁⟩ := hfresh hfaults
  refine ⟨s₁, hdb, hfaults₁, ?_⟩
  unfold nicUpdates
  rw [hauth]
  dsimp only
  unfold authenticate Db.dyndnsAuth
  rw [bind_assoc, run_bind_ok hrun, hfind]
  dsimp only
  rw [if_pos hok, pure_bind]
  dsimp only
  unfold serveUpdates
  rw [hhosts]

/-- What comes after the updates of the hosts leaves the records alone. -/
lemma keeps_finish (token : DynDnsToken) (req : NicRequest) (o : Option NicOutcome) :
    KeepsDb SameRecords (finishUpdates K token o >>= noteUpdate req) := by
  have hreload : ∀ b, KeepsDb SameRecords (reloadWhen K b) := by
    intro b
    cases b with
    | false => exact .pure ()
    | true => exact .reloadStore K
  refine .bind ?_ fun r => ?_
  · cases o with
    | none => exact .pure _
    | some o => exact .bind (hreload _) fun _ => .pure _
  · match r with
    | .error response => exact .pure _
    | .ok (token', o) =>
      exact .bind (.tryDb (Sql.Keeps.update (R := SameRecords) fun _ => rfl)) fun _ => .pure _

/-- A request for one host name from one address. -/
def singleRequest (authorization : Option Str) (ip : IpAddr) (host : Str) : NicRequest :=
  ⟨authorization, ip, [("hostname", host)]⟩

lemma requestAddrs_single (authorization : Option Str) (ip : IpAddr) (host : Str) :
    requestAddrs (singleRequest authorization ip host) = [ip] := by
  cases ip <;> rfl

/-- A part of the list of a token asks for the host name that it is listed as. -/
lemma requestHosts_single {token : DynDnsToken} {host : Str} (authorization : Option Str)
    (ip : IpAddr) (h : host ∈ Db.splitHostnames token.hostnames) :
    ∃ part, requestHosts (singleRequest authorization ip part) = some [host] := by
  unfold Db.splitHostnames at h
  obtain ⟨hmem, hne⟩ := List.mem_filter.mp h
  obtain ⟨part, hpart, rfl⟩ := List.mem_map.mp hmem
  refine ⟨part, ?_⟩
  have hparam : (singleRequest authorization ip part).param "hostname".toList = some part := rfl
  unfold requestHosts
  rw [hparam, Option.some_or, Option.bind_some, split_eq_singleton (notMem_of_mem_split hpart)]
  simp [hne]

/-- The update of one host name that the token owns and one address. -/
lemma updateHosts_single {token : DynDnsToken} {host : Str} {ip : IpAddr} {u : Db.DynUpdate}
    {s : AppState} (label : Str) (hlisted : host ∈ Db.splitHostnames token.hostnames)
    (hres : (Db.dyndnsSetAddress host ip token.viewId token.ttl).result s.conn = .ok u) :
    ∃ o, updateHosts token [ip] label [host] ⟨[], false⟩ s =
      .ok (some o) ((tryDb (Db.dyndnsSetAddress host ip token.viewId token.ttl)).after s) := by
  have htry : tryDb (Db.dyndnsSetAddress host ip token.viewId token.ttl) s =
      .ok (.ok u) ((tryDb (Db.dyndnsSetAddress host ip token.viewId token.ttl)).after s) := by
    refine run_of_result ?_
    rw [result_tryDb, hres]
  have hhost : updateHost token host [ip] ⟨false, false⟩ s =
      .ok (some (HostOutcome.note ⟨false, false⟩ u))
        ((tryDb (Db.dyndnsSetAddress host ip token.viewId token.ttl)).after s) := by
    unfold updateHost
    rw [run_bind_ok htry]
    rfl
  unfold updateHosts
  rw [if_pos (by simpa using hlisted), run_bind_ok hhost]
  exact ⟨_, rfl⟩

/-- In a database that refuses nothing, the records after a request for one host name are those that
its update leaves. -/
lemma records_nicUpdate_single {t t' : Tables} {token : DynDnsToken} {authorization : Option Str}
    {ip : IpAddr} {host part : Str} {u : Db.DynUpdate}
    (htoken : nicToken K t (singleRequest authorization ip part) = some token)
    (hhosts : requestHosts (singleRequest authorization ip part) = some [host])
    (hlisted : host ∈ Db.splitHostnames token.hostnames)
    (hevals : Evals (Db.dyndnsSetAddress host ip token.viewId token.ttl) t (.ok u) t') :
    ((nicUpdate K (singleRequest authorization ip part)).after (freshState t)).db.records =
      t'.records := by
  obtain ⟨s₁, hdb, hfaults, hrun⟩ := nicUpdates_run (s := freshState t) htoken hhosts rfl
  obtain ⟨hres, htables, -⟩ := hevals s₁.conn hdb hfaults
  obtain ⟨o, hupdates⟩ := updateHosts_single (addrLabel (singleRequest authorization ip part))
    hlisted hres
  have hfinish := keeps_finish (K := K) token (singleRequest authorization ip part) (some o)
    ((tryDb (Db.dyndnsSetAddress host ip token.viewId token.ttl)).after s₁)
  rw [nicUpdate_eq, after_congr (run_bind_congr hrun _)]
  unfold applyUpdates
  rw [requestAddrs_single, bind_assoc, after_congr (run_bind_ok hupdates _)]
  rw [← htables]
  refine hfinish.trans ?_
  rw [after_tryDb]

/-! ## Requests and their scope -/

/-- Every request with an authorization keeps to the scope of its token, whatever its parameters and
whichever statements the database refuses, exactly when the host names of the token lead to domain
names in its list. Records have unique ids, and the views that tokens refer to exist. -/
theorem scoped_iff_closedHosts (K : Crates) (t : Tables) (authorization : Option Str)
    (hkeys : (t.records.map DnsRecord.id).Nodup)
    (hrefs : ∀ token ∈ t.dyndnsTokens, t.viewRefOk token.viewId = true) :
    (∀ req s, req.authorization = authorization → s.db = t → Scoped K req s) ↔
      ∀ req token, req.authorization = authorization → nicToken K t req = some token →
        ClosedHosts t token := by
  constructor
  · intro hscoped req token hreq htoken host hlisted owner howner
    obtain ⟨p, hzone, -⟩ := Option.bind_eq_some_iff.mp howner
    obtain ⟨ip, u, t', -, hevals, hnew, hold⟩ :=
      exists_new_row (.v4 0) token.ttl hkeys (hrefs token (mem_of_nicToken htoken)) hzone
    obtain ⟨name, hname, hslot⟩ := addressedRow_slot t p.1
      (Db.relativeTo (Db.foldHost (trim host)) p.2) ip token.viewId token.ttl
    obtain ⟨part, hhosts⟩ := requestHosts_single authorization ip hlisted
    have htoken' : nicToken K t (singleRequest authorization ip part) = some token := by
      rw [← htoken]
      unfold nicToken basicAuth
      rw [hreq]
      rfl
    have hrecords := records_nicUpdate_single htoken' hhosts hlisted hevals
    have hrows : ((nicUpdate K (singleRequest authorization ip part)).after (freshState t)).db.records.filter
        (fun r => !owned t token r.slot) = t.records.filter fun r => !owned t token r.slot :=
      ((hscoped _ (freshState t) rfl rfl).confined token htoken').records
    -- The new row is not one of those that had to stay, so it is in a slot of the token.
    refine (owned_iff ip hzone hname howner).mp ?_
    by_contra hout
    refine hold (List.mem_of_mem_filter (p := fun r => !owned t token r.slot) ?_)
    rw [← hrows, hrecords]
    refine List.mem_filter.mpr ⟨hnew, ?_⟩
    rw [hslot]
    simpa using hout
  · intro hclosed req s hreq hdb
    subst hdb
    refine ⟨fun token htoken => ?_, nicUpdate_unauthenticated, fun _ => nicUpdate_refused⟩
    exact confined_nicUpdate htoken hkeys (leadsTo_owned (hclosed req token hreq htoken))

/-- Crates that read the credentials `nas:secret` and know the password. -/
def tokenCrates : Crates :=
  { plainCrates with
    fromUtf8 := fun s =>
      if s = "_foo\\.home.lan.".toList then
        .ok ⟨["_foo.home".toList.map fun c => UInt8.ofNat c.toNat,
          "lan".toList.map fun c => UInt8.ofNat c.toNat]⟩
      else plainName s
    decodeBase64 := fun text =>
      if text = "bmFzOnNlY3JldA==".toList then
        some ("nas:secret".toList.map fun c => UInt8.ofNat c.toNat)
      else none
    verifyPassword := fun password hash =>
      password == "secret".toList && hash == "$argon2id$1".toList }

/-- A token of a router. -/
def routerToken (hostnames : Str) : DynDnsToken :=
  ⟨1, "router", "nas", "$argon2id$1", hostnames, none, 60, true, none⟩

/-- The zone `home.lan` and a token for a host name in it. -/
def tokenTables (hostnames : Str) : Tables :=
  { Tables.empty with
    zones := [⟨1, "home.lan", true, Soa.defaultFor "home.lan", 300, 7⟩]
    dyndnsTokens := [routerToken hostnames] }

/-- The header with the credentials. -/
def nasCredentials : Option Str :=
  some "Basic bmFzOnNlY3JldA==".toList

/-- Requests with a token for `nas.home.lan` keep to its scope. -/
theorem scoped_nas :
    nicToken tokenCrates (tokenTables "nas.home.lan")
      (singleRequest nasCredentials (.v4 0x0a000005) "nas.home.lan") =
        some (routerToken "nas.home.lan") ∧
    ∀ req s, req.authorization = nasCredentials → s.db = tokenTables "nas.home.lan" →
      Scoped tokenCrates req s := by
  refine ⟨by decide +kernel, ?_⟩
  refine (scoped_iff_closedHosts tokenCrates (tokenTables "nas.home.lan") nasCredentials
    (by decide) (by decide)).mpr fun req token _ htoken => ?_
  have hclosed : ∀ token ∈ (tokenTables "nas.home.lan").dyndnsTokens,
      ∀ host ∈ Db.splitHostnames token.hostnames, ∀ owner ∈ hostOwner (tokenTables "nas.home.lan") host,
        owner ∈ Db.splitHostnames token.hostnames := by decide +kernel
  exact hclosed token (mem_of_nicToken htoken)

/-- A token for a host name with an escaped dot before the zone writes a row whose domain name is not
in its list. -/
theorem not_scoped_escapedDot :
    ¬ Scoped tokenCrates (singleRequest nasCredentials (.v4 0x0a000005) "_foo\\..home.lan")
      (freshState (tokenTables "_foo\\..home.lan")) := by
  intro h
  have hrows := (h.confined (routerToken "_foo\\..home.lan") (by decide +kernel)).records
  revert hrows
  decide +kernel

end Nomina
