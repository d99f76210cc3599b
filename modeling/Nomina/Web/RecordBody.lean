import Nomina.Operations

/-!
# Bodies of record updates

`PUT /api/records/:id` from its JSON body on: the members of the body are read into a `RecordUpdate` as
serde's derived code reads them, and the handler updates the fields that are given. For the TTL and the
view three things are meant to be told apart: a member that is absent keeps the value, `null` clears it,
and a number replaces it. The derived code reads `null` as it reads an absent member, so that `null`
keeps the value.
-/

namespace Nomina

open Lib Sql

/-! ## JSON -/

/-- A JSON value. Arrays, objects and numbers that are no integers are not looked into. -/
inductive Json
  | null
  | bool (b : Bool)
  | integer (n : ℤ)
  | string (s : Str)
  | other
deriving DecidableEq

/-- The members of a JSON object. -/
abbrev JsonObject := List (Str × Json)

/-- The value of the first member of a name. -/
def JsonObject.member (body : JsonObject) (name : Str) : Option Json :=
  (body.find? fun m => m.1 == name).map Prod.snd

/-- serde's reading of an `Option`: `null` is none. -/
def readOption {α : Type} (read : Json → Except Str α) : Json → Except Str (Option α)
  | .null => .ok none
  | v => (read v).map some

/-- serde's reading of a field of a type `Option`: an absent member is none, and a second member of the
name is an error. -/
def readField {α : Type} (body : JsonObject) (name : Str) (read : Json → Except Str (Option α)) :
    Except Str (Option α) :=
  if 1 < body.countP fun m => m.1 == name then .error ("duplicate field ".toList ++ name)
  else match body.member name with
    | none => .ok none
    | some v => read v

/-- Read a string. -/
def readString : Json → Except Str Str
  | .string s => .ok s
  | _ => .error "expected a string"

/-- Read a Boolean. -/
def readBool : Json → Except Str Bool
  | .bool b => .ok b
  | _ => .error "expected a boolean"

/-- Read a number below a bound; ids are never negative. -/
def readBelow (bound : ℕ) : Json → Except Str ℕ
  | .integer n => if 0 ≤ n ∧ n < bound then .ok n.toNat else .error "invalid value"
  | _ => .error "expected a number"

namespace Api

/-- The derived `Deserialize` of `RecordUpdate`. Other members are ignored. -/
def RecordUpdate.ofJson (body : JsonObject) : Except Str RecordUpdate := do
  let name ← readField body "name" (readOption readString)
  let data ← readField body "data" (readOption readString)
  let ttl ← readField body "ttl" (readOption (readOption (readBelow (2 ^ 32))))
  let viewId ← readField body "view_id" (readOption (readOption (readBelow (2 ^ 63))))
  let enabled ← readField body "enabled" (readOption readBool)
  pure ⟨name, data, ttl, viewId, enabled⟩

end Api

/-! ## What a body asks for -/

/-- The text that a member gives, as `keep` stores texts. -/
def JsonObject.text (keep : Str → Str) (body : JsonObject) (name old : Str) : Str :=
  match body.member name with
  | some (.string s) => keep s
  | _ => old

/-- The number that a member gives; `null` gives none. -/
def JsonObject.number (body : JsonObject) (name : Str) (old : Option ℕ) : Option ℕ :=
  match body.member name with
  | some .null => none
  | some (.integer n) => some n.toNat
  | _ => old

/-- The switch that a member gives. -/
def JsonObject.switch (body : JsonObject) (name : Str) (old : Bool) : Bool :=
  match body.member name with
  | some (.bool b) => b
  | _ => old

/-- The row that a body asks for: the members that are present have their values, and the other fields
are kept. -/
def JsonObject.updated (keep : Str → Str) (body : JsonObject) (r : DnsRecord) : DnsRecord :=
  { r with
    name := body.text keep "name" r.name
    data := body.text keep "data" r.data
    ttl := body.number "ttl" r.ttl
    viewId := body.number "view_id" r.viewId
    enabled := body.switch "enabled" r.enabled }

/-- A `null` for the TTL or the view stands only where nothing is stored. -/
def NullsStored (body : JsonObject) (r : DnsRecord) : Prop :=
  (body.member "ttl" = some .null → r.ttl = none) ∧
    (body.member "view_id" = some .null → r.viewId = none)

/-- The name and the data are given without blanks around them. -/
def TextsTrimmed (body : JsonObject) : Prop :=
  (∀ s, body.member "name" = some (.string s) → trim s = s) ∧
    ∀ s, body.member "data" = some (.string s) → trim s = s

/-! ## Reading a body -/

section Reading

variable {body : JsonObject} {field : Str}

/-- A field that is read has what its member is read as, if there is one. -/
lemma readField_ok {α : Type} {read : Json → Except Str (Option α)} {v : Option α}
    (h : readField body field read = .ok v) :
    (body.member field = none ∧ v = none) ∨ ∃ j, body.member field = some j ∧ read j = .ok v := by
  unfold readField at h
  split at h
  · cases h
  · cases hmember : body.member field with
    | none =>
      rw [hmember] at h
      cases h
      exact .inl ⟨rfl, rfl⟩
    | some j =>
      rw [hmember] at h
      exact .inr ⟨j, rfl, h⟩

/-- A text is given by a string, and by nothing else. -/
lemma getD_of_readString {v : Option Str} (h : readField body field (readOption readString) = .ok v)
    (old : Str) : (v.map trim).getD old = body.text trim field old := by
  unfold JsonObject.text
  rcases readField_ok h with ⟨hmember, rfl⟩ | ⟨j, hmember, hread⟩
  · rw [hmember]
    rfl
  · rw [hmember]
    cases j with
    | null => cases hread; rfl
    | string s => cases hread; rfl
    | bool b => cases hread
    | integer n => cases hread
    | other => cases hread

/-- A switch is given by a Boolean, and by nothing else. -/
lemma getD_of_readBool {v : Option Bool} (h : readField body field (readOption readBool) = .ok v)
    (old : Bool) : v.getD old = body.switch field old := by
  unfold JsonObject.switch
  rcases readField_ok h with ⟨hmember, rfl⟩ | ⟨j, hmember, hread⟩
  · rw [hmember]
    rfl
  · rw [hmember]
    cases j with
    | null => cases hread; rfl
    | bool b => cases hread; rfl
    | string s => cases hread
    | integer n => cases hread
    | other => cases hread

/-- A number is given by a number; `null` keeps the old one. -/
lemma getD_of_readNumber {bound : ℕ} {v : Option (Option ℕ)}
    (h : readField body field (readOption (readOption (readBelow bound))) = .ok v)
    (old : Option ℕ) :
    v.getD old = if body.member field = some .null then old else body.number field old := by
  unfold JsonObject.number
  rcases readField_ok h with ⟨hmember, rfl⟩ | ⟨j, hmember, hread⟩
  · rw [hmember]
    rfl
  · rw [hmember]
    cases j with
    | null => cases hread; rfl
    | integer n =>
      change ((readBelow bound (.integer n)).map some).map some = .ok v at hread
      unfold readBelow at hread
      dsimp only at hread
      split at hread
      · cases hread
        rfl
      · cases hread
    | bool b => cases hread
    | string s => cases hread
    | other => cases hread

/-- A sequence of checks that passes passed both parts. -/
lemma exists_of_bind_ok {ε α β : Type} {x : Except ε α} {f : α → Except ε β} {b : β}
    (h : x >>= f = .ok b) : ∃ a, x = .ok a ∧ f a = .ok b := by
  cases x with
  | error e => cases h
  | ok a => exact ⟨a, rfl, h⟩

/-- The fields of a body that is read. -/
lemma ofJson_ok {req : Api.RecordUpdate} (h : Api.RecordUpdate.ofJson body = .ok req) :
    readField body "name" (readOption readString) = .ok req.name ∧
      readField body "data" (readOption readString) = .ok req.data ∧
      readField body "ttl" (readOption (readOption (readBelow (2 ^ 32)))) = .ok req.ttl ∧
      readField body "view_id" (readOption (readOption (readBelow (2 ^ 63)))) = .ok req.viewId ∧
      readField body "enabled" (readOption readBool) = .ok req.enabled := by
  unfold Api.RecordUpdate.ofJson at h
  obtain ⟨name, hname, h⟩ := exists_of_bind_ok h
  obtain ⟨data, hdata, h⟩ := exists_of_bind_ok h
  obtain ⟨ttl, httl, h⟩ := exists_of_bind_ok h
  obtain ⟨viewId, hviewId, h⟩ := exists_of_bind_ok h
  obtain ⟨enabled, henabled, h⟩ := exists_of_bind_ok h
  cases h
  exact ⟨hname, hdata, httl, hviewId, henabled⟩

/-- The row that an update leaves of a row. -/
def updatedRow (viewId : Option (Option ℕ)) (name : Option Str) (ttl : Option (Option ℕ))
    (data : Option Str) (enabled : Option Bool) (r : DnsRecord) : DnsRecord :=
  { r with
    viewId := viewId.getD r.viewId
    name := name.getD r.name
    ttl := ttl.getD r.ttl
    data := data.getD r.data
    enabled := enabled.getD r.enabled }

/-- A number that is kept in place of `null` is what is asked for when nothing is stored. -/
lemma kept_eq_number_iff (old : Option ℕ) :
    (if body.member field = some .null then old else body.number field old) = body.number field old ↔
      (body.member field = some .null → old = none) := by
  by_cases hnull : body.member field = some .null
  · have hnumber : body.number field old = none := by
      unfold JsonObject.number
      rw [hnull]
    rw [if_pos hnull, hnumber]
    exact ⟨fun h _ => h, fun h => h hnull⟩
  · rw [if_neg hnull]
    exact iff_of_true rfl fun h => absurd h hnull

/-- A text that is stored trimmed is the given one when it has no blanks around it. -/
lemma text_trim_eq_iff (keep : Str → Str) (old : Str) :
    body.text trim field old = body.text keep field old ↔
      ∀ s, body.member field = some (.string s) → trim s = keep s := by
  unfold JsonObject.text
  split
  · rename_i s hmember
    rw [hmember]
    constructor
    · intro htrim t ht
      cases ht
      exact htrim
    · intro htrim
      exact htrim s rfl
  · rename_i hother
    exact iff_of_true rfl fun s hmember => absurd hmember (hother s)

/-- A body that is read asks for the row that the request leaves, but for `null` in place of a number
and for the blanks around texts. -/
lemma updated_eq_iff {req : Api.RecordUpdate} (h : Api.RecordUpdate.ofJson body = .ok req)
    (keep : Str → Str) (r : DnsRecord) :
    updatedRow req.viewId (req.name.map trim) req.ttl (req.data.map trim) req.enabled r =
      body.updated keep r ↔ NullsStored body r ∧
        (∀ s, body.member "name" = some (.string s) → trim s = keep s) ∧
        ∀ s, body.member "data" = some (.string s) → trim s = keep s := by
  obtain ⟨hname, hdata, httl, hviewId, henabled⟩ := ofJson_ok h
  unfold updatedRow JsonObject.updated NullsStored
  rw [getD_of_readString hname, getD_of_readString hdata, getD_of_readNumber httl,
    getD_of_readNumber hviewId, getD_of_readBool henabled, ← kept_eq_number_iff r.ttl,
    ← kept_eq_number_iff r.viewId, ← text_trim_eq_iff keep r.name, ← text_trim_eq_iff keep r.data]
  constructor
  · intro hrow
    exact ⟨⟨congrArg DnsRecord.ttl hrow, congrArg DnsRecord.viewId hrow⟩,
      congrArg DnsRecord.name hrow, congrArg DnsRecord.data hrow⟩
  · rintro ⟨⟨hkeptTtl, hkeptView⟩, hkeptName, hkeptData⟩
    rw [hkeptTtl, hkeptView, hkeptName, hkeptData]

end Reading

/-! ## Running an update -/

/-- The row with the id is the same. -/
def SameRow (id : ℕ) (t t' : Tables) : Prop :=
  t'.record? id = t.record? id

instance (id : ℕ) : IsPreorder Tables (SameRow id) where
  refl _ := rfl
  trans _ _ _ h h' := Eq.trans h' h

/-- A program that returns has changed the row with the id as `f` does. -/
def MapsRow {α : Type} (id : ℕ) (f : DnsRecord → DnsRecord) (m : Sql Tables α) : Prop :=
  ∀ c a, m.result c = .ok a → (m.after c).tables.record? id = (c.tables.record? id).map f

section MapsRow

variable {α β : Type} {id : ℕ} {f g : DnsRecord → DnsRecord}

lemma MapsRow.bind {m : Sql Tables α} {k : α → Sql Tables β} (hm : MapsRow id f m)
    (hk : ∀ a, MapsRow id g (k a)) : MapsRow id (g ∘ f) (m >>= k) := by
  intro c b h
  obtain ⟨a, hresult, hrest, hafter⟩ := EStateM.bind_ok h
  rw [hafter, hk a _ b hrest, hm c a hresult, Option.map_map]

/-- A program that leaves the row alone. -/
lemma MapsRow.of_keeps {m : Sql Tables α} (h : Sql.Keeps (SameRow id) m) :
    MapsRow id (fun r => r) m := by
  intro c a _
  rw [h c]
  exact Option.map_id'.symm

/-- An assignment to the row, when there is a value. -/
lemma MapsRow.whenSome {v : Option α} {F : α → Sql Tables Unit}
    {g : Option α → DnsRecord → DnsRecord} (hnone : ∀ r, g none r = r)
    (hid : ∀ a r, (g (some a) r).id = r.id)
    (hF : ∀ a c u, (F a).result c = .ok u →
      ((F a).after c).tables = c.tables.mapRecord id (g (some a))) :
    MapsRow id (g v) (Db.whenSome v F) := by
  intro c u h
  unfold Db.whenSome at h ⊢
  cases v with
  | none =>
    have hg : g none = fun r => r := funext hnone
    rw [hg]
    exact Option.map_id'.symm
  | some a =>
    dsimp only at h ⊢
    rw [hF a c u h, Tables.record?_mapRecord (hid a)]

end MapsRow

/-- An update that returns has changed the tables as it says. -/
lemma tables_of_update {f : Tables → Tables} {c : Conn Tables} {u : Unit}
    (h : (update f).result c = .ok u) : ((update f).after c).tables = f c.tables := by
  rw [update_ok h]
  rfl

/-- The update of the view, when it returns. -/
lemma tables_of_setRecordView {id : ℕ} {viewId : Option ℕ} {c : Conn Tables} {u : Unit}
    (h : (Db.setRecordView id viewId).result c = .ok u) :
    ((Db.setRecordView id viewId).after c).tables =
      c.tables.mapRecord id fun r => { r with viewId } := by
  unfold Db.setRecordView execute at h ⊢
  obtain ⟨t, ht, hafter⟩ := statement_ok h
  rw [hafter]
  split at ht
  · cases ht
  · cases ht
    rfl

/-- An update that returns has changed the row as it says. -/
lemma mapsRow_updateRecord {id : ℕ} {viewId : Option (Option ℕ)} {name : Option Str}
    {ttl : Option (Option ℕ)} {data : Option Str} {enabled : Option Bool} :
    MapsRow id (updatedRow viewId name ttl data enabled)
      (Db.updateRecord id viewId name ttl data enabled) := by
  have hview : MapsRow id (fun r => { r with viewId := viewId.getD r.viewId })
      (Db.whenSome viewId (Db.setRecordView id)) :=
    .whenSome (g := fun v r => { r with viewId := v.getD r.viewId }) (fun _ => rfl)
      (fun _ _ => rfl) fun _ _ _ => tables_of_setRecordView
  have hname : MapsRow id (fun r => { r with name := name.getD r.name })
      (Db.whenSome name fun name => update (·.mapRecord id fun r => { r with name })) :=
    .whenSome (g := fun v r => { r with name := v.getD r.name }) (fun _ => rfl)
      (fun _ _ => rfl) fun _ _ _ => tables_of_update
  have httl : MapsRow id (fun r => { r with ttl := ttl.getD r.ttl })
      (Db.whenSome ttl fun ttl => update (·.mapRecord id fun r => { r with ttl })) :=
    .whenSome (g := fun v r => { r with ttl := v.getD r.ttl }) (fun _ => rfl)
      (fun _ _ => rfl) fun _ _ _ => tables_of_update
  have hdata : MapsRow id (fun r => { r with data := data.getD r.data })
      (Db.whenSome data fun data => update (·.mapRecord id fun r => { r with data })) :=
    .whenSome (g := fun v r => { r with data := v.getD r.data }) (fun _ => rfl)
      (fun _ _ => rfl) fun _ _ _ => tables_of_update
  have henabled : MapsRow id (fun r => { r with enabled := enabled.getD r.enabled })
      (Db.whenSome enabled fun enabled => update (·.mapRecord id fun r => { r with enabled })) :=
    .whenSome (g := fun v r => { r with enabled := v.getD r.enabled }) (fun _ => rfl)
      (fun _ _ => rfl) fun _ _ _ => tables_of_update
  have hrest : MapsRow id (fun r => r) (do
      update fun t => t
      let zoneId ← selectFirst fun t => (t.record? id).map DnsRecord.zoneId
      Db.bumpSerial zoneId) :=
    .of_keeps (.bind (.update fun _ => rfl) fun _ => .bind (.selectFirst _) fun _ =>
      .update fun _ => rfl)
  exact hview.bind fun _ => hname.bind fun _ => httl.bind fun _ => hdata.bind fun _ =>
    henabled.bind fun _ => hrest

/-- The row that a request which is answered leaves. -/
lemma record?_after_updateRecord {K : Crates} {s : AppState} {id : ℕ} {req : Api.RecordUpdate}
    {out : Option DnsRecord} (h : (Api.updateRecord K id req).result s = .ok out) :
    ((Api.updateRecord K id req).after s).db.record? id = (s.db.record? id).map
      (updatedRow req.viewId (req.name.map trim) req.ttl (req.data.map trim) req.enabled) := by
  obtain ⟨r, z, -, -, -, -, c, htables, hrun, hdb⟩ := Api.updateRecord_ok h
  rw [hdb, mapsRow_updateRecord c () hrun, htables]

/-- A body that is accepted leaves the row that it asks for exactly when every `null` for the TTL or the
view stands where nothing is stored: serde reads a `null` as it reads an absent member. Texts are
stored without the blanks around them. -/
theorem recordUpdate_iff (K : Crates) {s : AppState} {id : ℕ} {r : DnsRecord} {body : JsonObject}
    {req : Api.RecordUpdate} {out : Option DnsRecord} (hr : s.db.record? id = some r)
    (hbody : Api.RecordUpdate.ofJson body = .ok req)
    (hok : (Api.updateRecord K id req).result s = .ok out) :
    (((Api.updateRecord K id req).after s).db.record? id = some (body.updated trim r) ↔
        NullsStored body r) ∧
      (((Api.updateRecord K id req).after s).db.record? id = some (body.updated (fun t => t) r) ↔
        NullsStored body r ∧ TextsTrimmed body) := by
  rw [record?_after_updateRecord hok, hr, Option.map_some, Option.some_inj, Option.some_inj,
    updated_eq_iff hbody, updated_eq_iff hbody]
  constructor
  · constructor
    · rintro ⟨hnulls, -, -⟩
      exact hnulls
    · intro hnulls
      exact ⟨hnulls, fun _ _ => rfl, fun _ _ => rfl⟩
  · exact Iff.rfl

/-! ## A TTL that is cleared -/

/-- The body that clears a TTL. -/
def clearTtl : JsonObject :=
  [("ttl", .null)]

/-- The request that the body is read as. -/
def clearTtlRequest : Api.RecordUpdate :=
  ⟨none, none, none, none, none⟩

/-- A record with a TTL of its own. -/
def pinnedHost : DnsRecord :=
  { homeHost 1 "pi" with ttl := some 300 }

lemma ofJson_clearTtl : Api.RecordUpdate.ofJson clearTtl = .ok clearTtlRequest := by
  decide

/-- The handler answers with the record as it was, and the TTL is still stored. -/
theorem recordUpdate_clearTtl :
    (freshState (homeTables 1 [pinnedHost])).db.record? 1 = some pinnedHost ∧
      Api.RecordUpdate.ofJson clearTtl = .ok clearTtlRequest ∧
      (Api.updateRecord plainCrates 1 clearTtlRequest).result
        (freshState (homeTables 1 [pinnedHost])) = .ok (some pinnedHost) ∧
      ¬((Api.updateRecord plainCrates 1 clearTtlRequest).after
        (freshState (homeTables 1 [pinnedHost]))).db.record? 1 =
          some (clearTtl.updated trim pinnedHost) := by
  exact ⟨by decide, ofJson_clearTtl, by decide +kernel, by decide +kernel⟩

/-- The same body for a record without a TTL of its own. -/
theorem recordUpdate_unpinned :
    (((Api.updateRecord plainCrates 1 clearTtlRequest).after
          (freshState (homeTables 1 [homeHost 1 "pi"]))).db.record? 1 =
        some (clearTtl.updated trim (homeHost 1 "pi")) ↔ NullsStored clearTtl (homeHost 1 "pi")) ∧
      (((Api.updateRecord plainCrates 1 clearTtlRequest).after
          (freshState (homeTables 1 [homeHost 1 "pi"]))).db.record? 1 =
        some (clearTtl.updated (fun t => t) (homeHost 1 "pi")) ↔
          NullsStored clearTtl (homeHost 1 "pi") ∧ TextsTrimmed clearTtl) := by
  have hok : (Api.updateRecord plainCrates 1 clearTtlRequest).result
      (freshState (homeTables 1 [homeHost 1 "pi"])) = .ok (some (homeHost 1 "pi")) := by
    decide +kernel
  exact recordUpdate_iff plainCrates (by decide) ofJson_clearTtl hok

end Nomina
