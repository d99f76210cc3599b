import Nomina.Confinement
import Nomina.Views

/-!
# The view of a token

A DynDNS token is created for a view or for all of them, and nothing in the API edits it afterwards.
The column that holds the view refers to the table of views with `ON DELETE SET NULL`, though: when
the view is deleted, the token turns into one for all views.

Over every sequence of operations on views, zones, records and tokens and of DynDNS requests, in which
no view is deleted that a token is pinned to, requests with a token for a view leave the records of
other views and those of all views alone.
-/

namespace Nomina

open Lib Sql EStateM

variable {K : Crates}

/-! ## Operations -/

/-- The operations on views, zones, records and tokens, and the DynDNS requests. -/
inductive TokenOp
  | manage (op : Management)
  | createZone (req : Api.ZoneCreate)
  | deleteZone (id : ℕ)
  | createToken (generated : Str) (hashPassword : Str → Except Str Str) (req : Api.DynDnsTokenCreate)
  | deleteToken (id : ℕ)

/-- The state after an operation. -/
def TokenOp.after (K : Crates) (s : AppState) : TokenOp → AppState
  | .manage op => op.after K s
  | .createZone req => (Api.createZone K req).after s
  | .deleteZone id => (Api.deleteZone K id).after s
  | .createToken generated hashPassword req =>
    (Api.createDyndnsToken K generated hashPassword req).after s
  | .deleteToken id => (Api.deleteDyndnsToken id).after s

/-- The server, and the view that each token was created for. -/
structure TokenSystem where
  app : AppState
  createdFor : ℕ → Option ℕ

namespace TokenSystem

/-- The views of tokens after an operation: a new token is noted under its id. -/
def note (K : Crates) (s : TokenSystem) : TokenOp → ℕ → Option ℕ
  | .createToken generated hashPassword req =>
    match (Api.createDyndnsToken K generated hashPassword req).result s.app with
    | .ok created => Function.update s.createdFor created.id req.viewId
    | .error _ => s.createdFor
  | _ => s.createdFor

/-- An operation is a step that is always possible. -/
def step (K : Crates) (s : TokenSystem) (op : TokenOp) : Option TokenSystem :=
  some ⟨op.after K s.app, s.note K op⟩

/-- A request with a token that was created for a view leaves the records of other views, and those of
all views, alone. -/
def StaysInView (K : Crates) (s : TokenSystem) : TokenOp → Prop
  | .manage (.nicUpdate req) => ∀ token v, nicToken K s.app.db req = some token →
      s.createdFor token.id = some v →
      ((nicUpdate K req).after s.app).db.records.filter (fun r => r.viewId != some v) =
        s.app.db.records.filter fun r => r.viewId != some v
  | _ => True

/-- The operation deletes no view that a token is pinned to. The default view is never deleted. -/
def KeepsPins (s : TokenSystem) : TokenOp → Prop
  | .manage (.deleteView id) => ∀ v, s.app.db.view? id = some v → v.isDefault = false →
      ∀ token ∈ s.app.db.dyndnsTokens, token.viewId ≠ some id
  | _ => True

end TokenSystem

/-! ## Tokens as they were created -/

/-- Tokens have the views that they were created for. Record ids are unique. -/
structure AsCreated (g : ℕ → Option ℕ) (t : Tables) : Prop where
  keys : (t.records.map DnsRecord.id).Nodup
  views : ∀ token ∈ t.dyndnsTokens, token.viewId = g token.id

section Statements

variable {g : ℕ → Option ℕ} {t t' : Tables}

/-- Changes of other tables. -/
lemma AsCreated.of_eq (h : AsCreated g t) (htokens : t'.dyndnsTokens = t.dyndnsTokens)
    (hkeys : (t.records.map DnsRecord.id).Nodup → (t'.records.map DnsRecord.id).Nodup) :
    AsCreated g t' :=
  ⟨hkeys h.keys, by rw [htokens]; exact h.views⟩

lemma stays_insertRecord {r : DnsRecord} {i : ℕ} (h : t.insertRecord r = .ok (i, t')) :
    Stays (AsCreated g) t t' := by
  intro hg
  unfold Tables.insertRecord at h
  split at h
  · cases h
    refine hg.of_eq rfl fun hkeys => ?_
    rw [List.map_append]
    exact nodup_append_freshId hkeys
  · cases h

lemma stays_mapRecord {i : ℕ} {f : DnsRecord → DnsRecord} (hf : ∀ r, (f r).id = r.id) :
    Stays (AsCreated g) t (t.mapRecord i f) := by
  intro hg
  refine hg.of_eq rfl fun hkeys => ?_
  rw [Tables.ids_mapRecord hf]
  exact hkeys

lemma stays_bump {i : ℕ} : Stays (AsCreated g) t (t.bump i) :=
  fun hg => hg.of_eq rfl id

lemma stays_filterRecords {p : DnsRecord → Bool} :
    Stays (AsCreated g) t { t with records := t.records.filter p } :=
  fun hg => hg.of_eq rfl fun hkeys => hkeys.sublist (List.filter_sublist.map _)

lemma stays_removeZone {i : ℕ} : Stays (AsCreated g) t (t.removeZone i) := by
  intro hg
  unfold Tables.removeZone
  split
  · exact hg.of_eq rfl fun hkeys => hkeys.sublist (List.filter_sublist.map _)
  · exact hg

/-- Deleting a view that no token is pinned to. -/
lemma AsCreated.removeView (hg : AsCreated g t) {i : ℕ}
    (h : ∀ token ∈ t.dyndnsTokens, token.viewId ≠ some i) : AsCreated g (t.removeView i) := by
  unfold Tables.removeView
  split
  · refine hg.of_eq ?_ fun hkeys => hkeys.sublist (List.filter_sublist.map _)
    refine (List.map_congr_left fun token htoken => ?_).trans (List.map_id _)
    exact if_neg (h token htoken)
  · exact hg

/-- A request of a token keeps ids and views of tokens. -/
lemma AsCreated.confined (hg : AsCreated g t) {q : Slot → Bool} {i : ℕ} (h : Confined q i t t') :
    AsCreated g t' := by
  refine ⟨h.keys hg.keys, fun token htoken => ?_⟩
  have hnoted : unnoted i token ∈ t.dyndnsTokens.map (unnoted i) := by
    rw [← h.tokens]
    exact List.mem_map_of_mem htoken
  obtain ⟨old, hold, heq⟩ := List.mem_map.mp hnoted
  have hsame : ∀ k : DynDnsToken, (unnoted i k).id = k.id ∧ (unnoted i k).viewId = k.viewId := by
    intro k
    unfold unnoted
    split <;> exact ⟨rfl, rfl⟩
  have hview := hg.views old hold
  rw [← (hsame old).1, ← (hsame old).2, heq, (hsame token).1, (hsame token).2] at hview
  exact hview

end Statements

/-! ## Database calls -/

section Calls

variable {g : ℕ → Option ℕ}

lemma stays_createRecord {zoneId : ℕ} {viewId : Option ℕ} {name rtype : Str} {ttl : Option ℕ}
    {data : Str} :
    Sql.Keeps (Stays (AsCreated g)) (Db.createRecord zoneId viewId name rtype ttl data) :=
  Db.keeps_createRecord (fun _ _ _ _ _ h => stays_insertRecord h) fun _ => stays_bump

lemma stays_updateRecord {i : ℕ} {viewId : Option (Option ℕ)} {name : Option Str}
    {ttl : Option (Option ℕ)} {data : Option Str} {enabled : Option Bool} :
    Sql.Keeps (Stays (AsCreated g)) (Db.updateRecord i viewId name ttl data enabled) :=
  Db.keeps_updateRecord (fun _ _ hf => stays_mapRecord fun r => (hf r).1) fun _ _ => stays_bump

lemma stays_deleteRecord {i : ℕ} : Sql.Keeps (Stays (AsCreated g)) (Db.deleteRecord i) := by
  unfold Db.deleteRecord
  refine .bind (.select _) fun zoneId => ?_
  cases zoneId with
  | none => exact .pure none
  | some zoneId =>
    exact .bind (.update fun _ => stays_filterRecords) fun _ =>
      .bind (.update fun _ => stays_bump) fun _ => .pure _

lemma stays_insertRecords {zoneId : ℕ} (tuples : List Db.RecordTuple) :
    Sql.Keeps (Stays (AsCreated g)) (Db.insertRecords zoneId tuples) := by
  induction tuples with
  | nil => exact .pure 0
  | cons tuple tuples ih =>
    obtain ⟨name, rtype, ttl, data⟩ := tuple
    exact .bind (.execute fun _ _ _ h => stays_insertRecord h) fun _ => .bind ih fun _ => .pure _

lemma stays_importRecords {zoneId : ℕ} {replace : Bool} {tuples : List Db.RecordTuple} :
    Sql.Keeps (Stays (AsCreated g)) (Db.importRecords zoneId replace tuples) := by
  have hclear : Sql.Keeps (Stays (AsCreated g)) (Db.clearWhen replace zoneId) := by
    unfold Db.clearWhen
    split
    · exact .update fun _ => stays_filterRecords
    · exact .pure ()
  exact .transaction (.bind hclear fun _ => .bind (stays_insertRecords tuples) fun _ =>
    .bind (.update fun _ => stays_bump) fun _ => .pure _)

lemma stays_updateZone {i : ℕ} {enabled : Option Bool} {soa : Option Soa} {defaultTtl : Option ℕ} :
    Sql.Keeps (Stays (AsCreated g)) (Db.updateZone i enabled soa defaultTtl) :=
  .bind (Db.keeps_whenSome fun _ => .update fun _ hg => hg.of_eq rfl id) fun _ =>
    .bind (Db.keeps_whenSome fun _ => .update fun _ hg => hg.of_eq rfl id) fun _ =>
    .bind (Db.keeps_whenSome fun _ => .update fun _ hg => hg.of_eq rfl id) fun _ =>
    .update fun _ => stays_bump

lemma stays_insertZone {name : Str} {soa : Soa} {ttl : ℕ} :
    Sql.Keeps (Stays (AsCreated g)) (Api.insertZone name soa ttl) := by
  refine .bind (.execute fun t i t' h => ?_) fun _ => .bind stays_createRecord fun _ => .pure _
  split at h
  · cases h
  · cases h
    exact fun hg => hg.of_eq rfl id

lemma stays_dyndnsSetAddress {host : Str} {ip : IpAddr} {viewId : Option ℕ} {ttl : ℕ} :
    Sql.Keeps (Stays (AsCreated g)) (Db.dyndnsSetAddress host ip viewId ttl) :=
  Db.keeps_dyndnsSetAddress (fun _ _ _ _ h => stays_insertRecord h)
    (fun _ _ _ hf => stays_mapRecord fun r => (hf r).1) fun _ _ => stays_bump

lemma stays_registerPtr {rev target : Str} {ttl : ℕ} :
    Sql.Keeps (Stays (AsCreated g)) (registerPtr rev target ttl) := by
  unfold registerPtr
  refine .bind (.select _) fun zones => ?_
  split
  · exact .pure _
  · exact .bind stays_createRecord fun _ => .pure _

end Calls

/-! ## Operations keep the views of tokens -/

section Operations

variable {g : ℕ → Option ℕ} {s : AppState}

/-- The handler either creates a token for the view `viewId` and returns its id, or stops with an error
and leaves the database alone. -/
def Creates (viewId : Option ℕ) (m : App Api.DynDnsTokenCreated) : Prop :=
  ∀ s, ((∃ e, m.result s = .error e) ∧ (m.after s).db = s.db) ∨
    ∃ created token, m.result s = .ok created ∧
      created.id = freshId (s.db.dyndnsTokens.map DynDnsToken.id) ∧ token.id = created.id ∧
      token.viewId = viewId ∧
      (m.after s).db = { s.db with dyndnsTokens := s.db.dyndnsTokens ++ [token] }

lemma Creates.throw {viewId : Option ℕ} (e : AppError) : Creates viewId (throw e) :=
  fun _ => .inl ⟨⟨e, rfl⟩, rfl⟩

/-- Checks and reads come before the token is created. -/
lemma Creates.bind {α : Type} {viewId : Option ℕ} {m : App α} {k : α → App Api.DynDnsTokenCreated}
    (hm : KeepsDb SameTables m) (hk : ∀ a, Creates viewId (k a)) : Creates viewId (m >>= k) := by
  intro s
  have hdb : (m.after s).db = s.db := hm s
  rw [result_bind, after_bind]
  cases hres : m.result s with
  | error e => exact .inl ⟨⟨e, rfl⟩, hdb⟩
  | ok a =>
    rw [← hdb]
    exact hk a (m.after s)

/-- The insert of a token. -/
lemma creates_insert {viewId : Option ℕ} {label username secretHash secret : Str}
    {hostnames : List Str} {ttl : ℕ} :
    Creates viewId (do
      let id ← runDb (Db.createDyndnsToken label username secretHash hostnames viewId ttl)
      pure ⟨id, label, username, secret⟩) := by
  intro s
  rw [result_bind, after_bind_pure, result_runDb, after_runDb]
  unfold Db.createDyndnsToken execute
  rcases statement_cases .write (fun t : Tables =>
      if t.dyndnsTokens.any (·.username == username) || !t.viewRefOk viewId then
        (.error .constraint : Except DbError (ℕ × Tables))
      else
        let id := freshId (t.dyndnsTokens.map DynDnsToken.id)
        .ok (id, { t with
          dyndnsTokens := t.dyndnsTokens ++ [⟨id, label, username, secretHash,
            Db.joinHostnames hostnames, viewId, ttl, true, none⟩] })) s.conn with
    ⟨err, hres, hafter⟩ | ⟨id, t, -, hf, hres, hafter⟩
  · rw [hres, hafter]
    exact .inl ⟨⟨_, rfl⟩, rfl⟩
  · rw [hres, hafter]
    split at hf
    · cases hf
    · cases hf
      exact .inr ⟨_, _, rfl, rfl, rfl, rfl, rfl⟩

lemma creates_createDyndnsToken (generated : Str) (hashPassword : Str → Except Str Str)
    (req : Api.DynDnsTokenCreate) :
    Creates req.viewId (Api.createDyndnsToken K generated hashPassword req) := by
  unfold Api.createDyndnsToken
  refine .bind (Api.keeps_checked _ _) fun _ => .bind (Api.keeps_checked _ _) fun _ =>
    .bind (Api.keeps_checked _ _) fun _ => .bind (.runDb (Frame.select _)) fun zones => ?_
  split
  · exact .throw _
  · refine .bind (Api.keeps_checked _ _) fun _ => .bind (Api.keeps_checkView _) fun _ =>
      .bind (.runDb (Frame.select _)) fun _ => .bind (Api.keeps_refuseIf _ _) fun _ => ?_
    dsimp only
    split
    · exact .throw _
    · exact creates_insert

/-- A new token is noted with its view. -/
lemma asCreated_createToken {generated : Str} {hashPassword : Str → Except Str Str}
    {req : Api.DynDnsTokenCreate} {sys : TokenSystem} (hg : AsCreated sys.createdFor sys.app.db) :
    AsCreated (sys.note K (.createToken generated hashPassword req))
      ((Api.createDyndnsToken K generated hashPassword req).after sys.app).db := by
  unfold TokenSystem.note
  dsimp only
  rcases creates_createDyndnsToken (K := K) generated hashPassword req sys.app with
    ⟨⟨e, hres⟩, hdb⟩ | ⟨created, token, hres, hid, htoken, hview, hdb⟩
  · rw [hres, hdb]
    exact hg
  · rw [hres, hdb]
    dsimp only
    refine ⟨hg.keys, fun k hk => ?_⟩
    rcases List.mem_append.mp hk with hold | hnew
    · -- The id of the new token was not in use.
      have hne : k.id ≠ created.id := by
        rw [hid]
        exact (lt_freshId (List.mem_map_of_mem hold)).ne
      rw [Function.update_of_ne hne]
      exact hg.views k hold
    · rw [List.mem_singleton.mp hnew, htoken, Function.update_self, hview]

/-- A request keeps the views of tokens. -/
lemma asCreated_nicUpdate {req : NicRequest} (hg : AsCreated g s.db) :
    AsCreated g ((nicUpdate K req).after s).db := by
  cases htoken : nicToken K s.db req with
  | none =>
    rw [nicUpdate_unauthenticated htoken]
    exact hg
  | some token =>
    have hconfined : Confined (fun _ => true) token.id s.db ((nicUpdate K req).after s).db :=
      confined_nicUpdate htoken hg.keys fun _ _ _ _ _ _ _ _ => rfl
    exact hg.confined hconfined

/-- The operations on views, zones and records keep the views of tokens, except for the deletion of a
view that a token is pinned to. -/
lemma asCreated_management {op : Management} {sys : TokenSystem}
    (hg : AsCreated sys.createdFor sys.app.db) (hpins : sys.KeepsPins (.manage op)) :
    AsCreated sys.createdFor (op.after K sys.app).db := by
  cases op with
  | createRecord zoneId req =>
    exact Api.keeps_createRecord
      (Q := fun c c' => Stays (AsCreated sys.createdFor) c.tables c'.tables)
      (fun _ c _ => stays_createRecord c) hg
  | updateRecord i req =>
    exact Api.keeps_updateRecord
      (Q := fun c c' => Stays (AsCreated sys.createdFor) c.tables c'.tables)
      stays_updateRecord sys.app hg
  | deleteRecord i =>
    exact Api.keeps_deleteRecord
      (Q := fun c c' => Stays (AsCreated sys.createdFor) c.tables c'.tables)
      stays_deleteRecord sys.app hg
  | importZone i req =>
    exact Api.keeps_importZone
      (Q := fun c c' => Stays (AsCreated sys.createdFor) c.tables c'.tables)
      (fun _ _ c _ => stays_importRecords c) hg
  | updateZone i req =>
    exact Api.keeps_updateZone
      (Q := fun c c' => Stays (AsCreated sys.createdFor) c.tables c'.tables)
      stays_updateZone sys.app hg
  | createView req =>
    exact Api.keeps_createView
      (Q := fun c c' => Stays (AsCreated sys.createdFor) c.tables c'.tables)
      (stays_createView fun _ _ _ h => h.of_eq rfl id) sys.app hg
  | updateView i req =>
    exact Api.keeps_updateView
      (Q := fun c c' => Stays (AsCreated sys.createdFor) c.tables c'.tables)
      (stays_updateView (fun _ _ _ h => h.of_eq rfl id) fun _ _ _ h => h.of_eq rfl id) sys.app hg
  | deleteView i =>
    refine Api.keeps_deleteView
      (Q := fun c c' => Stays (AsCreated sys.createdFor) c.tables c'.tables) ?_ hg
    intro v hv hother c hc hgc
    rcases update_cases (·.removeView i) c with hsame | hremoved
    · exact (congrArg (AsCreated sys.createdFor) hsame).mpr hgc
    · refine (congrArg (AsCreated sys.createdFor) hremoved).mpr (hgc.removeView ?_)
      rw [hc]
      exact hpins v hv hother
  | nicUpdate req => exact asCreated_nicUpdate hg
  | registerDns scope ip hostname =>
    exact keeps_registerDns
      (Q := fun c c' => Stays (AsCreated sys.createdFor) c.tables c'.tables)
      (fun _ _ _ => stays_dyndnsSetAddress) (fun _ _ => stays_registerPtr) sys.app hg

/-- One step. -/
lemma asCreated_step {op : TokenOp} {sys sys' : TokenSystem}
    (hg : AsCreated sys.createdFor sys.app.db) (hpins : sys.KeepsPins op)
    (hstep : TokenSystem.step K sys op = some sys') : AsCreated sys'.createdFor sys'.app.db := by
  cases hstep
  cases op with
  | manage op => exact asCreated_management hg hpins
  | createZone req =>
    change AsCreated sys.createdFor ((Api.createZone K req).after sys.app).db
    unfold Api.createZone
    split
    · exact hg
    · exact keepsConn_runDb_bind
        (Q := fun c c' => Stays (AsCreated sys.createdFor) c.tables c'.tables)
        (stays_insertZone sys.app.conn)
        (fun _ => .bind (.reloadStore K) fun _ => .runDb (Frame.select _)) hg
  | deleteZone i =>
    exact keepsConn_runDb_bind (m := Db.deleteZone i)
      (Q := fun c c' => Stays (AsCreated sys.createdFor) c.tables c'.tables)
      (Sql.Keeps.update (R := Stays (AsCreated sys.createdFor)) (fun _ => stays_removeZone)
        sys.app.conn) (fun _ => .reloadStore K) hg
  | createToken generated hashPassword req => exact asCreated_createToken hg
  | deleteToken i =>
    have hkeeps : KeepsDb (Stays (AsCreated sys.createdFor)) (Api.deleteDyndnsToken i) :=
      .runDb (Sql.Keeps.update fun _ h => ⟨h.keys, fun k hk => h.views k (List.mem_of_mem_filter hk)⟩)
    exact hkeeps sys.app hg

/-- A request of a token that has the view it was created for. -/
lemma AsCreated.staysInView {op : TokenOp} {sys : TokenSystem}
    (hg : AsCreated sys.createdFor sys.app.db) : sys.StaysInView K op := by
  match op with
  | .manage (.nicUpdate req) =>
    intro token v htoken hcreated
    have hview : token.viewId = some v := (hg.views token (mem_of_nicToken htoken)).trans hcreated
    have hconfined : Confined (fun slot => slot.viewId == some v) token.id sys.app.db
        ((nicUpdate K req).after sys.app).db := by
      refine confined_nicUpdate htoken hg.keys fun _ _ _ _ _ _ _ _ => ?_
      rw [hview]
      exact beq_self_eq_true _
    exact hconfined.records
  | .manage (.createRecord _ _) | .manage (.updateRecord _ _) | .manage (.deleteRecord _)
  | .manage (.importZone _ _) | .manage (.updateZone _ _) | .manage (.createView _)
  | .manage (.updateView _ _) | .manage (.deleteView _) | .manage (.registerDns _ _ _)
  | .createZone _ | .deleteZone _ | .createToken _ _ _ | .deleteToken _ => trivial

end Operations

/-! ## Sequences of operations -/

namespace TokenSystem

/-- In every sequence of operations that deletes no view a token is pinned to, every request with a
token for a view leaves the records of other views, and those of all views, alone. At the beginning
tokens are as they were created. -/
theorem staysInView_run (K : Crates) (s : TokenSystem)
    (hkeys : (s.app.db.records.map DnsRecord.id).Nodup)
    (hcreated : ∀ token ∈ s.app.db.dyndnsTokens, token.viewId = s.createdFor token.id)
    (ops : List TokenOp) (hpins : Along (step K) KeepsPins s ops) :
    Along (step K) (StaysInView K) s ops := by
  have hstep : ∀ (s : TokenSystem) (op : TokenOp) (s' : TokenSystem),
      AsCreated s.createdFor s.app.db → KeepsPins s op → step K s op = some s' →
      AsCreated s'.createdFor s'.app.db := by
    intro s op s' hg hpin hstep
    exact asCreated_step hg hpin hstep
  exact Along.of_invariant hstep (fun s op hg => hg.staysInView) ⟨hkeys, hcreated⟩ hpins

/-- Crates that read the credentials of a token and a company network. -/
def companyCrates : Crates :=
  { tokenCrates with
    parseIpNet := fun cidr =>
      if cidr = "10.0.0.0/8".toList then some ⟨.v4 0x0a000000, 8⟩ else none }

/-- A view for a company network, a zone, and a token for a host in that view. -/
def companySetup : List TokenOp :=
  [.manage (.createView ⟨"internal", ["10.0.0.0/8"], 10, [], [], []⟩),
    .createZone ⟨"home.lan", none, none⟩,
    .createToken [] (fun _ => .ok "$argon2id$1".toList)
      ⟨"router", "nas", some "secret".toList, ["nas.home.lan"], some 1, none⟩]

/-- A request with the token. -/
def companyRequest : TokenOp :=
  .manage (.nicUpdate (singleRequest nasCredentials (.v4 0x0a000005) "nas.home.lan"))

/-- An empty database. -/
def noTokens : TokenSystem :=
  ⟨⟨⟨.empty, [], []⟩, mkStore [] [], [], []⟩, fun _ => none⟩

/-- A request with a token for a view that is still there writes a record of the view. -/
theorem staysInView_company :
    (∃ s', run (step companyCrates) noTokens (companySetup ++ [companyRequest]) = some s' ∧
      s'.app.db.records.map DnsRecord.viewId = [none, some 1]) ∧
    Along (step companyCrates) (StaysInView companyCrates) noTokens
      (companySetup ++ [companyRequest]) := by
  refine ⟨⟨_, rfl, by decide +kernel⟩, ?_⟩
  exact staysInView_run companyCrates noTokens (by decide) (by decide)
    (companySetup ++ [companyRequest])
    ⟨trivial, fun _ _ => ⟨trivial, fun _ _ => ⟨trivial, fun _ _ => ⟨trivial, fun _ _ => trivial⟩⟩⟩⟩

/-- After its view is deleted, the token writes a record for all views. -/
theorem not_staysInView_deletedView :
    ¬ Along (step companyCrates) (StaysInView companyCrates) noTokens
      (companySetup ++ [.manage (.deleteView 1), companyRequest]) := by
  intro h
  have hrequest := ((((h.2 _ rfl).2 _ rfl).2 _ rfl).2 _ rfl).1
  have hrows := hrequest ⟨1, "router", "nas", "$argon2id$1", "nas.home.lan", none, 60, true, none⟩ 1
    (by decide +kernel) (by decide +kernel)
  revert hrows
  decide +kernel

end TokenSystem

end Nomina
