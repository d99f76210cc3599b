import Nomina.Operations

/-!
# Serials

A secondary server fetches a zone again when its serial has grown, so every operation that changes
the records of a zone or its SOA fields has to bump the serial. In a database that refuses no
statement all management operations do, but for one: the records pinned to a view that is deleted go
with it through the foreign key, and no serial is bumped for them.
-/

namespace Nomina

open Lib Sql

variable {K : Crates}

/-! ## The discipline -/

/-- The record rows of a zone. -/
def rowsOf (t : Tables) (zoneId : ℕ) : Set DnsRecord :=
  {r | r ∈ t.zoneRecords zoneId}

/-- If the rows of the zone or its SOA fields changed, its serial grew. -/
def Disciplined (zoneId : ℕ) (t t' : Tables) : Prop :=
  ∀ z, t.zone? zoneId = some z → ∃ z', t'.zone? zoneId = some z' ∧
    (rowsOf t' zoneId ≠ rowsOf t zoneId ∨ z'.soa ≠ z.soa → z.serial + 1 ≤ z'.serial)

/-- The row of the zone stays, and its serial grows or nothing that the serial stands for changes. -/
def ZoneStep (zoneId : ℕ) (t t' : Tables) : Prop :=
  ∀ z, t.zone? zoneId = some z → ∃ z', t'.zone? zoneId = some z' ∧ z.serial ≤ z'.serial ∧
    (z.serial + 1 ≤ z'.serial ∨ t'.zoneRecords zoneId = t.zoneRecords zoneId ∧ z'.soa = z.soa)

/-- The discipline as a relation that whole runs keep. Record ids stay unique. -/
def Advances (zoneId : ℕ) (t t' : Tables) : Prop :=
  (t.records.map DnsRecord.id).Nodup →
    (t'.records.map DnsRecord.id).Nodup ∧ ZoneStep zoneId t t'

lemma ZoneStep.trans {zoneId : ℕ} {t t' t'' : Tables} (h : ZoneStep zoneId t t')
    (h' : ZoneStep zoneId t' t'') : ZoneStep zoneId t t'' := by
  intro z hz
  obtain ⟨z₁, hz₁, hle, hstep⟩ := h z hz
  obtain ⟨z₂, hz₂, hle', hstep'⟩ := h' z₁ hz₁
  refine ⟨z₂, hz₂, hle.trans hle', ?_⟩
  rcases hstep with hgrow | ⟨hrows, hsoa⟩
  · exact .inl (hgrow.trans hle')
  · rcases hstep' with hgrow' | ⟨hrows', hsoa'⟩
    · exact .inl (by omega)
    · exact .inr ⟨hrows'.trans hrows, hsoa'.trans hsoa⟩

instance (zoneId : ℕ) : IsPreorder Tables (Advances zoneId) where
  refl _ hkeys := ⟨hkeys, fun z hz => ⟨z, hz, le_rfl, .inr ⟨rfl, rfl⟩⟩⟩
  trans _ _ _ h h' hkeys := ⟨(h' (h hkeys).1).1, (h hkeys).2.trans (h' (h hkeys).1).2⟩

lemma ZoneStep.disciplined {zoneId : ℕ} {t t' : Tables} (h : ZoneStep zoneId t t') :
    Disciplined zoneId t t' := by
  intro z hz
  obtain ⟨z', hz', -, hstep⟩ := h z hz
  refine ⟨z', hz', fun hchange => ?_⟩
  rcases hstep with hgrow | ⟨hrows, hsoa⟩
  · exact hgrow
  · have hset : rowsOf t' zoneId = rowsOf t zoneId := by
      unfold rowsOf
      rw [hrows]
    rcases hchange with hne | hne
    · exact absurd hset hne
    · exact absurd hsoa hne

/-! ## Changes followed by a bump -/

section Bump

variable {zoneId i : ℕ} {t t' : Tables}

/-- A change of the rows of one zone that is followed by a bump of its serial. -/
lemma zoneStep_bump (hzones : t'.zones = t.zones)
    (hrows : zoneId ≠ i → t'.zoneRecords zoneId = t.zoneRecords zoneId) :
    ZoneStep zoneId t (t'.bump i) := by
  intro z hz
  have hz' : t'.zone? zoneId = some z := by
    unfold Tables.zone? at hz ⊢
    rw [hzones, hz]
  by_cases hi : zoneId = i
  · subst hi
    exact ⟨_, Tables.zone?_bump_self hz', Nat.le_succ _, .inl le_rfl⟩
  · exact ⟨z, (Tables.zone?_bump_of_ne hi).trans hz', le_rfl, .inr ⟨hrows hi, rfl⟩⟩

/-- A change of the record rows of the zone `i` as far as the zone `zoneId` is concerned. -/
def RowsOnly (i zoneId : ℕ) (t t' : Tables) : Prop :=
  t'.zones = t.zones ∧
    ((t.records.map DnsRecord.id).Nodup → (t'.records.map DnsRecord.id).Nodup) ∧
    (zoneId ≠ i → t'.zoneRecords zoneId = t.zoneRecords zoneId)

lemma RowsOnly.trans {t'' : Tables} (h : RowsOnly i zoneId t t') (h' : RowsOnly i zoneId t' t'') :
    RowsOnly i zoneId t t'' :=
  ⟨h'.1.trans h.1, fun hkeys => h'.2.1 (h.2.1 hkeys), fun hne => (h'.2.2 hne).trans (h.2.2 hne)⟩

/-- Such a change keeps the discipline when a bump of the serial follows. -/
lemma RowsOnly.advances (h : RowsOnly i zoneId t t') : Advances zoneId t (t'.bump i) :=
  fun hkeys => ⟨h.2.1 hkeys, zoneStep_bump h.1 h.2.2⟩

/-- Views and tokens are no part of a zone. -/
lemma advances_of_eq (hzones : t'.zones = t.zones) (hrecords : t'.records = t.records) :
    Advances zoneId t t' := by
  intro hkeys
  rw [← hrecords] at hkeys
  refine ⟨hkeys, fun z hz => ⟨z, ?_, le_rfl, .inr ⟨?_, rfl⟩⟩⟩
  · unfold Tables.zone? at hz ⊢
    rw [hzones, hz]
  · unfold Tables.zoneRecords
    rw [hrecords]

lemma rowsOnly_insertRecord {r : DnsRecord} (h : t.insertRecord r = .ok (i, t')) :
    RowsOnly r.zoneId zoneId t t' := by
  unfold Tables.insertRecord at h
  split at h
  · cases h
    refine ⟨rfl, ?_, ?_⟩
    · intro hkeys
      rw [List.map_append]
      exact nodup_append_freshId hkeys
    · intro hne
      simp [Tables.zoneRecords, List.filter_append, hne.symm]
  · cases h

end Bump

/-! ## The database operations -/

section Operations

variable {zoneId : ℕ}

lemma advances_createRecord {i : ℕ} {viewId : Option ℕ} {name rtype : Str} {ttl : Option ℕ}
    {data : Str} :
    EStateM.Keeps (Unrefused (Advances zoneId)) (Db.createRecord i viewId name rtype ttl data) := by
  refine Unrefused.of_evals fun t => ?_
  cases hins : t.insertRecord ⟨0, i, viewId, name, rtype, ttl, data, true⟩ with
  | error e => exact ⟨_, t, Evals.bind_error (Evals.statement_error hins), refl_of (Advances zoneId) t⟩
  | ok p => exact ⟨_, _, Db.evals_createRecord hins, (rowsOnly_insertRecord hins).advances⟩

/-- A change of the row of a record that keeps its zone. -/
def RowChange (i : ℕ) (t t' : Tables) : Prop :=
  ∃ f : DnsRecord → DnsRecord, (∀ r, (f r).id = r.id ∧ (f r).zoneId = r.zoneId) ∧
    t' = t.mapRecord i f

lemma RowChange.refl (i : ℕ) (t : Tables) : RowChange i t t := by
  refine ⟨id, fun _ => ⟨rfl, rfl⟩, ?_⟩
  unfold Tables.mapRecord
  simp

lemma RowChange.trans {i : ℕ} {t t' t'' : Tables} (h : RowChange i t t') (h' : RowChange i t' t'') :
    RowChange i t t'' := by
  obtain ⟨f, hf, rfl⟩ := h
  obtain ⟨g, hg, rfl⟩ := h'
  refine ⟨g ∘ f, fun r => ⟨(hg _).1.trans (hf r).1, (hg _).2.trans (hf r).2⟩, ?_⟩
  unfold Tables.mapRecord
  dsimp only
  rw [List.map_map]
  congr 1
  refine List.map_congr_left fun r _ => ?_
  simp only [Function.comp_apply]
  split
  · rename_i hid
    rw [if_pos ((hf r).1.trans hid)]
  · rfl

/-- One optional column of an update. -/
lemma rowChange_whenSome {α : Type} {i : ℕ} (v : Option α) {g : α → DnsRecord → DnsRecord}
    (hg : ∀ a r, (g a r).id = r.id ∧ (g a r).zoneId = r.zoneId) (t : Tables) :
    ∃ t', Evals (Db.whenSome v fun a => update (·.mapRecord i (g a))) t (.ok ()) t' ∧
      RowChange i t t' := by
  cases v with
  | none => exact ⟨t, Evals.pure () t, .refl i t⟩
  | some a => exact ⟨_, Evals.update _ t, g a, hg a, rfl⟩

/-- The optional view of an update, which must exist. -/
lemma rowChange_setRecordView {i : ℕ} (v : Option (Option ℕ)) (t : Tables) :
    (∃ e, Evals (Db.whenSome v (Db.setRecordView i)) t (.error e) t) ∨
      ∃ t', Evals (Db.whenSome v (Db.setRecordView i)) t (.ok ()) t' ∧ RowChange i t t' := by
  cases v with
  | none => exact .inr ⟨t, Evals.pure () t, .refl i t⟩
  | some viewId =>
    unfold Db.whenSome Db.setRecordView
    dsimp only
    by_cases href : (t.record? i).isSome && !t.viewRefOk viewId
    · exact .inl ⟨.constraint, Evals.statement_error (if_pos href)⟩
    · exact .inr ⟨_, Evals.execute (if_neg href), fun r => { r with viewId }, fun _ => ⟨rfl, rfl⟩, rfl⟩

/-- An update of a record is refused as a whole, or changes the row and bumps the serial. -/
lemma evals_updateRecord {i : ℕ} {viewId : Option (Option ℕ)} {name : Option Str}
    {ttl : Option (Option ℕ)} {data : Option Str} {enabled : Option Bool} (t : Tables) :
    (∃ e, Evals (Db.updateRecord i viewId name ttl data enabled) t (.error e) t) ∨
      ∃ r t', t.record? i = some r ∧ RowChange i t t' ∧
        Evals (Db.updateRecord i viewId name ttl data enabled) t (.ok ()) (t'.bump r.zoneId) := by
  unfold Db.updateRecord
  rcases rowChange_setRecordView viewId t with ⟨e, he⟩ | ⟨t₁, he₁, hc₁⟩
  · exact .inl ⟨e, Evals.bind_error he⟩
  · obtain ⟨t₂, he₂, hc₂⟩ := rowChange_whenSome (i := i) name
      (g := fun name r => { r with name }) (fun _ _ => ⟨rfl, rfl⟩) t₁
    obtain ⟨t₃, he₃, hc₃⟩ := rowChange_whenSome (i := i) ttl
      (g := fun ttl r => { r with ttl }) (fun _ _ => ⟨rfl, rfl⟩) t₂
    obtain ⟨t₄, he₄, hc₄⟩ := rowChange_whenSome (i := i) data
      (g := fun data r => { r with data }) (fun _ _ => ⟨rfl, rfl⟩) t₃
    obtain ⟨t₅, he₅, hc₅⟩ := rowChange_whenSome (i := i) enabled
      (g := fun enabled r => { r with enabled }) (fun _ _ => ⟨rfl, rfl⟩) t₄
    have hchange : RowChange i t t₅ := hc₁.trans (hc₂.trans (hc₃.trans (hc₄.trans hc₅)))
    cases hrec : t.record? i with
    | none =>
      -- Without a row nothing was changed, and the zone of the record is not found.
      obtain ⟨f, -, hf⟩ := hchange
      rw [Tables.mapRecord_of_none hrec] at hf
      subst hf
      refine .inl ⟨.notFound, Evals.bind he₁ (Evals.bind he₂ (Evals.bind he₃ (Evals.bind he₄
        (Evals.bind he₅ (Evals.bind (Evals.update _ _) (Evals.bind_error ?_))))))⟩
      exact Evals.statement_error (by simp [hrec])
    | some r =>
      refine .inr ⟨r, t₅, rfl, hchange, Evals.bind he₁ (Evals.bind he₂ (Evals.bind he₃ (Evals.bind he₄
        (Evals.bind he₅ (Evals.bind (Evals.update _ _) (Evals.bind (Evals.selectFirst ?_)
          (Evals.update _ _)))))))⟩
      obtain ⟨f, hf, rfl⟩ := hchange
      rw [Tables.record?_mapRecord fun r => (hf r).1, hrec]
      exact congrArg some (hf r).2

lemma advances_updateRecord {i : ℕ} {viewId : Option (Option ℕ)} {name : Option Str}
    {ttl : Option (Option ℕ)} {data : Option Str} {enabled : Option Bool} :
    EStateM.Keeps (Unrefused (Advances zoneId))
      (Db.updateRecord i viewId name ttl data enabled) := by
  refine Unrefused.of_evals fun t => ?_
  rcases evals_updateRecord (i := i) t with ⟨e, he⟩ | ⟨r, t', hr, ⟨f, hf, rfl⟩, he⟩
  · exact ⟨_, t, he, refl_of (Advances zoneId) t⟩
  · refine ⟨_, _, he, fun hkeys => ⟨?_, zoneStep_bump rfl fun hne => ?_⟩⟩
    · have hids := Tables.ids_mapRecord (t := t) (i := i) fun r' => (hf r').1
      exact hids ▸ hkeys
    · refine Tables.zoneRecords_mapRecord_of_ne (fun r' => (hf r').2) fun r' hr' hid => ?_
      rw [Tables.eq_of_record? hkeys hr hr' hid]
      exact hne.symm

lemma advances_deleteRecord {i : ℕ} :
    EStateM.Keeps (Unrefused (Advances zoneId)) (Db.deleteRecord i) := by
  refine Unrefused.of_evals fun t => ?_
  unfold Db.deleteRecord
  cases hr : t.record? i with
  | none =>
    refine ⟨.ok none, t, Evals.bind (Evals.select _ t) ?_, refl_of (Advances zoneId) t⟩
    rw [hr]
    exact Evals.pure _ t
  | some r =>
    refine ⟨.ok (some r.zoneId), Tables.bump { t with records := t.records.filter (·.id != i) } r.zoneId,
      Evals.bind (Evals.select _ t) ?_, fun hkeys => ⟨?_, zoneStep_bump rfl fun hne => ?_⟩⟩
    · rw [hr]
      exact Evals.bind (Evals.update _ t) (Evals.bind (Evals.update _ _) (Evals.pure _ _))
    · exact hkeys.sublist (List.filter_sublist.map _)
    · unfold Tables.zoneRecords
      dsimp only
      rw [List.filter_filter]
      refine List.filter_congr fun r' hr' => ?_
      by_cases hid : r'.id = i
      · rw [Tables.eq_of_record? hkeys hr hr' hid]
        simp [hne.symm]
      · simp [hid]

lemma evals_clearWhen (i zoneId : ℕ) (replace : Bool) (t : Tables) :
    ∃ t', Evals (Db.clearWhen replace i) t (.ok ()) t' ∧ RowsOnly i zoneId t t' := by
  cases replace with
  | false => exact ⟨t, Evals.pure () t, rfl, id, fun _ => rfl⟩
  | true =>
    unfold Db.clearWhen Db.clearRecords
    rw [if_pos rfl]
    refine ⟨{ t with records := t.records.filter (·.zoneId != i) }, Evals.update _ t, rfl,
      fun hkeys => hkeys.sublist (List.filter_sublist.map _), ?_⟩
    intro hne
    unfold Tables.zoneRecords
    dsimp only
    rw [List.filter_filter]
    refine List.filter_congr fun r _ => ?_
    by_cases hz : r.zoneId = zoneId
    · simp [hz, hne]
    · simp [hz]

/-- The inserts of an import stop at the first that is refused, or add rows of the zone. -/
lemma evals_insertRecords (i zoneId : ℕ) (tuples : List Db.RecordTuple) (t : Tables) :
    (∃ e t', Evals (Db.insertRecords i tuples) t (.error e) t') ∨
      ∃ n t', Evals (Db.insertRecords i tuples) t (.ok n) t' ∧ RowsOnly i zoneId t t' := by
  induction tuples generalizing t with
  | nil => exact .inr ⟨0, t, Evals.pure 0 t, rfl, id, fun _ => rfl⟩
  | cons tuple tuples ih =>
    obtain ⟨name, rtype, ttl, data⟩ := tuple
    unfold Db.insertRecords
    cases hins : t.insertRecord ⟨0, i, none, name, rtype, some ttl, data, true⟩ with
    | error e => exact .inl ⟨e, t, Evals.bind_error (Evals.statement_error hins)⟩
    | ok p =>
      rcases ih p.2 with ⟨e, t', he⟩ | ⟨n, t', he, hrows⟩
      · exact .inl ⟨e, t', Evals.bind (Evals.execute hins) (Evals.bind_error he)⟩
      · exact .inr ⟨n + 1, t', Evals.bind (Evals.execute hins) (Evals.bind he (Evals.pure _ t')),
          RowsOnly.trans (rowsOnly_insertRecord hins) hrows⟩

lemma advances_importRecords {i : ℕ} {replace : Bool} {tuples : List Db.RecordTuple} :
    EStateM.Keeps (Unrefused (Advances zoneId)) (Db.importRecords i replace tuples) := by
  refine Unrefused.of_evals fun t => ?_
  unfold Db.importRecords
  obtain ⟨t₁, he₁, hrows₁⟩ := evals_clearWhen i zoneId replace t
  rcases evals_insertRecords i zoneId tuples t₁ with
    ⟨e, t₂, he₂⟩ | ⟨n, t₂, he₂, hrows₂⟩
  · exact ⟨_, t, Evals.transaction_error (Evals.bind he₁ (Evals.bind_error he₂)),
      refl_of (Advances zoneId) t⟩
  · exact ⟨.ok n, t₂.bump i, Evals.transaction (Evals.bind he₁ (Evals.bind he₂
      (Evals.bind (Evals.update _ t₂) (Evals.pure n _)))), (hrows₁.trans hrows₂).advances⟩

/-- A change of the row of the zone `i`, serial apart. -/
def ZoneChange (i : ℕ) (t t' : Tables) : Prop :=
  t'.records = t.records ∧ (∀ j, j ≠ i → t'.zone? j = t.zone? j) ∧
    ∀ z, t.zone? i = some z → ∃ z', t'.zone? i = some z' ∧ z'.serial = z.serial

lemma ZoneChange.refl (i : ℕ) (t : Tables) : ZoneChange i t t :=
  ⟨rfl, fun _ _ => rfl, fun z hz => ⟨z, hz, rfl⟩⟩

lemma ZoneChange.trans {i : ℕ} {t t' t'' : Tables} (h : ZoneChange i t t')
    (h' : ZoneChange i t' t'') : ZoneChange i t t'' := by
  refine ⟨h'.1.trans h.1, fun j hj => (h'.2.1 j hj).trans (h.2.1 j hj), fun z hz => ?_⟩
  obtain ⟨z₁, hz₁, hserial⟩ := h.2.2 z hz
  obtain ⟨z₂, hz₂, hserial'⟩ := h'.2.2 z₁ hz₁
  exact ⟨z₂, hz₂, hserial'.trans hserial⟩

/-- One optional column of an update of a zone. -/
lemma zoneChange_whenSome {α : Type} {i : ℕ} (v : Option α) {g : α → Zone → Zone}
    (hg : ∀ a z, (g a z).id = z.id ∧ (g a z).serial = z.serial) (t : Tables) :
    ∃ t', Evals (Db.whenSome v fun a => update (·.mapZone i (g a))) t (.ok ()) t' ∧
      ZoneChange i t t' := by
  cases v with
  | none => exact ⟨t, Evals.pure () t, .refl i t⟩
  | some a =>
    refine ⟨_, Evals.update _ t, rfl, fun j hj => ?_, fun z hz => ?_⟩
    · exact Tables.zone?_mapZone_of_ne (fun z => (hg a z).1) hj
    · exact ⟨_, Tables.zone?_mapZone_self (fun z => (hg a z).1) hz, (hg a z).2⟩

/-- A change of a zone that is followed by a bump of its serial. -/
lemma ZoneChange.advances {i : ℕ} {t t' : Tables} (h : ZoneChange i t t') :
    Advances zoneId t (t'.bump i) := by
  obtain ⟨hrecords, hothers, hself⟩ := h
  intro hkeys
  refine ⟨by rw [← hrecords] at hkeys; exact hkeys, fun z hz => ?_⟩
  by_cases hi : zoneId = i
  · subst hi
    obtain ⟨z', hz', hserial⟩ := hself z hz
    refine ⟨_, Tables.zone?_bump_self hz', ?_, .inl ?_⟩
    · simp [hserial]
    · simp [hserial]
  · refine ⟨z, ?_, le_rfl, .inr ⟨?_, rfl⟩⟩
    · rw [Tables.zone?_bump_of_ne hi, hothers zoneId hi, hz]
    · unfold Tables.zoneRecords
      rw [← hrecords]
      rfl

lemma advances_updateZone {i : ℕ} {enabled : Option Bool} {soa : Option Soa}
    {defaultTtl : Option ℕ} :
    EStateM.Keeps (Unrefused (Advances zoneId)) (Db.updateZone i enabled soa defaultTtl) := by
  refine Unrefused.of_evals fun t => ?_
  obtain ⟨t₁, he₁, hc₁⟩ := zoneChange_whenSome (i := i) enabled
    (g := fun enabled z => { z with enabled }) (fun _ _ => ⟨rfl, rfl⟩) t
  obtain ⟨t₂, he₂, hc₂⟩ := zoneChange_whenSome (i := i) soa
    (g := fun soa z => { z with soa }) (fun _ _ => ⟨rfl, rfl⟩) t₁
  obtain ⟨t₃, he₃, hc₃⟩ := zoneChange_whenSome (i := i) defaultTtl
    (g := fun defaultTtl z => { z with defaultTtl }) (fun _ _ => ⟨rfl, rfl⟩) t₂
  exact ⟨.ok (), t₃.bump i, Evals.bind he₁ (Evals.bind he₂ (Evals.bind he₃ (Evals.update _ t₃))),
    (hc₁.trans (hc₂.trans hc₃)).advances⟩

lemma advances_dyndnsSetAddress {host : Str} {ip : IpAddr} {viewId : Option ℕ} {ttl : ℕ} :
    EStateM.Keeps (Unrefused (Advances zoneId)) (Db.dyndnsSetAddress host ip viewId ttl) := by
  unfold Db.dyndnsSetAddress
  refine .bind (Frame.select _) fun zones => ?_
  split
  · exact .pure _
  · refine .bind (Frame.select _) fun rows => ?_
    split
    · split
      · exact .pure _
      · exact .bind advances_updateRecord fun _ => .pure _
    · exact .bind advances_createRecord fun _ => .pure _

lemma advances_registerPtr {rev target : Str} {ttl : ℕ} :
    EStateM.Keeps (Unrefused (Advances zoneId)) (registerPtr rev target ttl) := by
  unfold registerPtr
  refine .bind (Frame.select _) fun zones => ?_
  split
  · exact .pure ()
  · exact .bind advances_createRecord fun _ => .pure ()

/-- Statements on views and tokens, deletes of views apart. -/
lemma advances_execute {α : Type} {f : Tables → Except DbError (α × Tables)}
    (h : ∀ t a t', f t = .ok (a, t') → t'.zones = t.zones ∧ t'.records = t.records) :
    EStateM.Keeps (Unrefused (Advances zoneId)) (execute f) := by
  refine Frame.statement ?_
  intro c a t hf hc
  obtain ⟨hzones, hrecords⟩ := h _ _ _ hf
  exact ⟨by simp [step, hc], advances_of_eq hzones hrecords⟩

lemma advances_update {f : Tables → Tables}
    (h : ∀ t, (f t).zones = t.zones ∧ (f t).records = t.records) :
    EStateM.Keeps (Unrefused (Advances zoneId)) (update f) := by
  refine advances_execute ?_
  intro t a t' hf
  cases hf
  exact h t

lemma advances_createView {name : Str} {networks : List Str} {priority : ℤ}
    {countries continents : List Str} {asns : List ℕ} :
    EStateM.Keeps (Unrefused (Advances zoneId))
      (Db.createView name networks priority countries continents asns) := by
  refine advances_execute ?_
  intro t a t' h
  split at h
  · cases h
  · cases h
    exact ⟨rfl, rfl⟩

lemma advances_setViewName {i : ℕ} {name : Str} :
    EStateM.Keeps (Unrefused (Advances zoneId)) (Db.setViewName i name) := by
  refine advances_execute ?_
  intro t a t' h
  split at h
  · cases h
  · cases h
    exact ⟨rfl, rfl⟩

lemma advances_whenSome {α : Type} {v : Option α} {f : α → Sql Tables Unit}
    (h : ∀ a, EStateM.Keeps (Unrefused (Advances zoneId)) (f a)) :
    EStateM.Keeps (Unrefused (Advances zoneId)) (Db.whenSome v f) := by
  cases v with
  | none => exact .pure ()
  | some a => exact h a

lemma advances_updateView {i : ℕ} {name : Option Str} {networks : Option (List Str)}
    {priority : Option ℤ} {countries continents : Option (List Str)} {asns : Option (List ℕ)} :
    EStateM.Keeps (Unrefused (Advances zoneId))
      (Db.updateView i name networks priority countries continents asns) :=
  .bind (advances_whenSome fun _ => advances_setViewName) fun _ =>
    .bind (advances_whenSome fun _ => advances_update fun _ => ⟨rfl, rfl⟩) fun _ =>
    .bind (advances_whenSome fun _ => advances_update fun _ => ⟨rfl, rfl⟩) fun _ =>
    .bind (advances_whenSome fun _ => advances_update fun _ => ⟨rfl, rfl⟩) fun _ =>
    .bind (advances_whenSome fun _ => advances_update fun _ => ⟨rfl, rfl⟩) fun _ =>
    advances_whenSome fun _ => advances_update fun _ => ⟨rfl, rfl⟩

end Operations

/-! ## Deleting a view -/

/-- The operation deletes a view that records of the zone are pinned to. -/
def Management.DropsPinned (t : Tables) (zoneId : ℕ) : Management → Prop
  | .deleteView viewId => (∃ v, t.view? viewId = some v ∧ v.isDefault = false) ∧
      ∃ r ∈ t.zoneRecords zoneId, r.viewId = some viewId
  | _ => False

/-- A view that no record of the zone is pinned to. -/
lemma advances_removeView {zoneId viewId : ℕ} {t : Tables}
    (h : ∀ r ∈ t.zoneRecords zoneId, r.viewId ≠ some viewId) :
    Advances zoneId t (t.removeView viewId) := by
  unfold Tables.removeView
  split
  · refine fun hkeys => ⟨hkeys.sublist (List.filter_sublist.map _), fun z hz =>
      ⟨z, hz, le_rfl, .inr ⟨?_, rfl⟩⟩⟩
    unfold Tables.zoneRecords at h ⊢
    dsimp only
    rw [List.filter_filter]
    refine List.filter_congr fun r hr => ?_
    by_cases hz : r.zoneId = zoneId
    · have := h r (List.mem_filter.mpr ⟨hr, by simpa using hz⟩)
      simp [hz, this]
    · simp [hz]
  · exact refl_of (Advances zoneId) t

/-- The database after a view was deleted. -/
lemma deleteView_db {s : AppState} {viewId : ℕ} {v : View} (hfaults : s.conn.faults = [])
    (hv : s.db.view? viewId = some v) (hdefault : v.isDefault = false) :
    ((Api.deleteView K viewId).after s).db = s.db.removeView viewId := by
  unfold Api.deleteView Db.view
  obtain ⟨s₁, hdb₁, hf₁, -, h₁⟩ := after_select_bind (f := (·.view? viewId))
    (fun found => do
      let view ← Api.orNotFound "view not found" found
      Api.refuseIf view.isDefault "cannot delete the default view"
      runDb (Db.deleteView viewId)
      reloadStore K) hfaults
  rw [h₁, hv]
  simp only [Api.orNotFound, pure_bind, hdefault, Api.refuseIf, Bool.false_eq_true, if_false]
  obtain ⟨s₂, hdb₂, -, -, h₂⟩ := after_runDb_bind (fun _ => reloadStore K)
    (Evals.update (·.removeView viewId) s₁.db) hf₁
  unfold Db.deleteView
  rw [h₂, ← hdb₁, ← hdb₂]
  obtain ⟨store, -, -, hafter⟩ := reloadStore_run K s₂
  rw [hafter]
  exact (reads_load s₂.conn).1

/-- A view that is deleted takes the records pinned to it with it, and no serial grows. -/
lemma not_disciplined_deleteView {s : AppState} {viewId zoneId : ℕ} {z : Zone}
    (hfaults : s.conn.faults = []) (hz : s.db.zone? zoneId = some z)
    (h : (Management.deleteView viewId).DropsPinned s.db zoneId) :
    ¬ Disciplined zoneId s.db ((Api.deleteView K viewId).after s).db := by
  obtain ⟨⟨v, hv, hdefault⟩, r, hr, hpinned⟩ := h
  rw [deleteView_db hfaults hv hdefault]
  intro hdisc
  obtain ⟨z', hz', hgrow⟩ := hdisc z hz
  have hremove : s.db.removeView viewId = { s.db with
      views := s.db.views.filter (·.id != viewId)
      records := s.db.records.filter (·.viewId != some viewId)
      dyndnsTokens := s.db.dyndnsTokens.map fun k =>
        if k.viewId = some viewId then { k with viewId := none } else k } := by
    unfold Tables.removeView
    rw [if_pos (by simp [hv])]
  rw [hremove] at hz' hgrow
  have hzz' : z' = z := Option.some.inj (hz'.symm.trans hz)
  have hgone : r ∉ rowsOf { s.db with
      views := s.db.views.filter (·.id != viewId)
      records := s.db.records.filter (·.viewId != some viewId)
      dyndnsTokens := s.db.dyndnsTokens.map fun k =>
        if k.viewId = some viewId then { k with viewId := none } else k } zoneId := by
    simp [rowsOf, Tables.zoneRecords, hpinned]
  have := hgrow (.inl fun heq => hgone (heq ▸ hr))
  rw [hzz'] at this
  omega

/-! ## The theorem -/

variable (K) in
/-- In a database that refuses no statement, an operation that changes the rows of a zone or its SOA
fields bumps the serial, unless and only unless it deletes a view that rows of the zone are pinned
to. -/
theorem disciplined_iff (s : AppState) (op : Management) (zoneId : ℕ) (z : Zone)
    (hfaults : s.conn.faults = []) (hkeys : (s.db.records.map DnsRecord.id).Nodup)
    (hz : s.db.zone? zoneId = some z) :
    Disciplined zoneId s.db (op.after K s).db ↔ ¬ op.DropsPinned s.db zoneId := by
  have hkeeps : Unrefused (Advances zoneId) s.conn (op.after K s).conn →
      Disciplined zoneId s.db (op.after K s).db :=
    fun h => ((h hfaults).2 hkeys).2.disciplined
  have htouch : ∀ i ip, EStateM.Keeps (Unrefused (Advances zoneId)) (Db.touchDyndnsToken i ip) :=
    fun _ _ => advances_update fun _ => ⟨rfl, rfl⟩
  cases op with
  | createRecord i req =>
    exact iff_of_true (hkeeps (Api.keeps_createRecord fun _ c _ => advances_createRecord c)) id
  | updateRecord i req =>
    exact iff_of_true (hkeeps (Api.keeps_updateRecord advances_updateRecord s)) id
  | deleteRecord i => exact iff_of_true (hkeeps (Api.keeps_deleteRecord advances_deleteRecord s)) id
  | importZone i req =>
    exact iff_of_true (hkeeps (Api.keeps_importZone fun _ _ c _ => advances_importRecords c)) id
  | updateZone i req => exact iff_of_true (hkeeps (Api.keeps_updateZone advances_updateZone s)) id
  | createView req => exact iff_of_true (hkeeps (Api.keeps_createView advances_createView s)) id
  | updateView i req => exact iff_of_true (hkeeps (Api.keeps_updateView advances_updateView s)) id
  | deleteView viewId =>
    refine ⟨fun h hdrops => not_disciplined_deleteView hfaults hz hdrops h, fun hdrops => ?_⟩
    refine hkeeps (Api.keeps_deleteView fun v hv hdefault c hc => ?_)
    have hpinned : ∀ r ∈ c.tables.zoneRecords zoneId, r.viewId ≠ some viewId := by
      intro r hr hview
      rw [hc] at hr
      exact hdrops ⟨⟨v, hv, hdefault⟩, r, hr, hview⟩
    intro hf
    obtain ⟨-, htables, hfaults', -⟩ := Evals.update (·.removeView viewId) c.tables c rfl hf
    unfold Db.deleteView
    rw [htables]
    exact ⟨hfaults', advances_removeView hpinned⟩
  | nicUpdate req =>
    refine iff_of_true (hkeeps (keeps_nicUpdate (keeps_nicUpdates ?_) htouch)) id
    intro token hosts _ _ s' _
    exact keeps_applyUpdates (fun _ _ _ _ _ => advances_dyndnsSetAddress) s'
  | registerDns scope ip hostname =>
    exact iff_of_true (hkeeps (keeps_registerDns (fun _ _ _ => advances_dyndnsSetAddress)
      (fun _ _ => advances_registerPtr) s)) id

/-- A database with one view and one record, which may be pinned to it. -/
def pinnedTables (viewId : Option ℕ) : Tables :=
  { homeTables 1 [{ homeHost 1 "nas" with viewId }] with
    views := [⟨1, "internal", ["192.168.0.0/16"], [], [], [], 10, false⟩] }

/-- Deleting the view is harmless when the record is served in all views. -/
theorem disciplined_deleteView_unpinned :
    Disciplined 1 (pinnedTables none)
      ((Management.deleteView 1).after plainCrates (freshState (pinnedTables none))).db := by
  refine (disciplined_iff plainCrates (freshState (pinnedTables none)) (.deleteView 1) 1
    ⟨1, "home.lan", true, .defaultFor "home.lan", 300, 1⟩ rfl (by decide) rfl).mpr ?_
  rintro ⟨-, r, hr, hpinned⟩
  have hall : ∀ r ∈ (pinnedTables none).zoneRecords 1, r.viewId = none := by decide
  rw [hall r hr] at hpinned
  cases hpinned

/-- Deleting the view drops the record that is pinned to it, and the serial stays. -/
theorem undisciplined_deleteView_pinned :
    ¬ Disciplined 1 (pinnedTables (some 1))
      ((Management.deleteView 1).after plainCrates (freshState (pinnedTables (some 1)))).db := by
  have hz : (freshState (pinnedTables (some 1))).db.zone? 1 =
      some ⟨1, "home.lan", true, .defaultFor "home.lan", 300, 1⟩ := rfl
  exact not_disciplined_deleteView rfl hz ⟨⟨_, rfl, rfl⟩, { homeHost 1 "nas" with viewId := some 1 },
    by decide, rfl⟩

end Nomina
