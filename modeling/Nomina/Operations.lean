import Nomina.Dhcp.Server
import Nomina.Web.Api
import Nomina.Web.DynDns

/-!
# Operations

The operations that write views, zones and records, and the rules that reduce what a whole operation
keeps to what its database call keeps. The checks and reads of a handler, its reload and its response
leave the contents of the database alone.
-/

namespace Nomina

open Lib Sql

variable {K : Crates} {Q : Conn Tables → Conn Tables → Prop} [Frame Q]

/-- A change that leaves the records alone. -/
def SameRecords (t t' : Tables) : Prop :=
  t'.records = t.records

instance : IsPreorder Tables SameRecords where
  refl _ := rfl
  trans _ _ _ h h' := h'.trans h

/-! ## The management API -/

namespace Api

section Checks

variable {α β : Type}

lemma keeps_checked (field : Str) (r : Except Str α) : KeepsConn Q (checked field r) := by
  cases r with
  | ok a => exact .pure ()
  | error e => exact .throw _

lemma keeps_checkedWhen (field : Str) (v : Option α) (f : α → Except Str β) :
    KeepsConn Q (checkedWhen field v f) := by
  cases v with
  | none => exact .pure ()
  | some a => exact keeps_checked field (f a)

lemma keeps_orNotFound (message : Str) (v : Option α) : KeepsConn Q (orNotFound message v) := by
  cases v with
  | none => exact .throw _
  | some a => exact .pure a

lemma keeps_refuseIf (b : Bool) (message : Str) : KeepsConn Q (refuseIf b message) := by
  unfold refuseIf
  split
  · exact .throw _
  · exact .pure ()

lemma keeps_checkView (viewId : Option ℕ) : KeepsConn Q (checkView viewId) := by
  cases viewId with
  | none => exact .pure ()
  | some vid => exact .bind (.runDb (Frame.select _)) fun _ => keeps_checked _ _

lemma keeps_zoneOf (id : ℕ) : KeepsConn Q (zoneOf id) :=
  .bind (.runDb (Frame.select _)) fun _ => keeps_orNotFound _ _

lemma keeps_record (id : ℕ) : EStateM.Keeps Q (Db.record id) := by
  unfold Db.record
  refine .bind (Frame.select _) fun zoneId => ?_
  split
  · exact .pure none
  · exact .bind (Frame.selectFirst _) fun _ => Frame.select _

/-- A check that fails ends the handler. -/
lemma after_checked_bind (field : Str) (r : Except Str α) (k : Unit → App β) (s : AppState) :
    (checked field r >>= k).after s = if r.isOk then (k ()).after s else s := by
  cases r <;> rfl

lemma after_checkedWhen_bind (field : Str) (v : Option α) (f : α → Except Str β)
    {γ : Type} (k : Unit → App γ) (s : AppState) :
    (checkedWhen field v f >>= k).after s =
      if v.all (fun a => (f a).isOk) then (k ()).after s else s := by
  cases v with
  | none => rfl
  | some a => exact after_checked_bind field (f a) k s

lemma after_refuseIf_bind (b : Bool) (message : Str) (k : Unit → App α) (s : AppState) :
    (refuseIf b message >>= k).after s = if b then s else (k ()).after s := by
  cases b <;> rfl

/-- A handler that goes on with the zone of the request. -/
lemma keepsConn_zoneOf_bind {id : ℕ} {k : Zone × Option SecondaryRow → App α} {s : AppState}
    (h : ∀ z, s.db.zone? id = some z → ∀ s' : AppState, s'.db = s.db →
      Q s'.conn ((k (Db.readZone z, s.db.secondary? id)).after s').conn) :
    Q s.conn ((zoneOf id >>= k).after s).conn := by
  unfold zoneOf Db.zone
  rw [bind_assoc]
  refine keepsConn_select_bind fun s' hs' => ?_
  cases hz : s.db.zone? id with
  | none => exact refl_of Q s'.conn
  | some z => exact h z hz s' hs'

end Checks

/-! ### Checks that were passed -/

section Results

variable {s : AppState}

/-- A check that was passed. -/
lemma isOk_of_checked {α : Type} {field : Str} {r : Except Str α} {u : Unit}
    (h : (checked field r).result s = .ok u) : r.isOk = true := by
  cases r with
  | ok a => rfl
  | error e => cases h

lemma isOk_of_checkedWhen {α β : Type} {field : Str} {v : Option α} {f : α → Except Str β} {u : Unit}
    (h : (checkedWhen field v f).result s = .ok u) : ∀ a ∈ v, (f a).isOk = true := by
  rintro a rfl
  exact isOk_of_checked h

/-- The row that was found. -/
lemma eq_of_orNotFound {α : Type} {message : Str} {v : Option α} {a : α}
    (h : (orNotFound message v).result s = .ok a) : v = some a := by
  cases v with
  | none => cases h
  | some b =>
    cases h
    rfl

/-- The zone that was found is that of the id. -/
lemma zone?_of_zoneOf {id : ℕ} {p : Zone × Option SecondaryRow} (h : (zoneOf id).result s = .ok p) :
    ∃ z, s.db.zone? id = some z ∧ p.1 = Db.readZone z := by
  unfold zoneOf Db.zone at h
  obtain ⟨found, hfound, h, -⟩ := EStateM.bind_ok h
  have hp := eq_of_orNotFound h
  rw [result_runDb] at hfound
  split at hfound
  · rename_i v hv
    cases hfound
    obtain ⟨t, hread, -⟩ := statement_ok hv
    cases hread
    obtain ⟨z, hz, rfl⟩ := Option.map_eq_some_iff.mp hp
    exact ⟨z, hz, rfl⟩
  · cases hfound

/-- A record that was looked up is the row of the id. -/
lemma record?_of_record {id : ℕ} {r : DnsRecord} (h : (runDb (Db.record id)).result s = .ok (some r)) :
    s.db.record? id = some r := by
  rw [result_runDb] at h
  split at h
  · rename_i v hv
    cases h
    unfold Db.record at hv
    obtain ⟨hv, -⟩ := select_bind_ok hv
    cases hr : s.db.record? id with
    | none =>
      rw [hr] at hv
      cases hv
    | some r' =>
      rw [hr, Option.map_some] at hv
      dsimp only at hv
      obtain ⟨name, -, hv, -⟩ := EStateM.bind_ok hv
      obtain ⟨t, hread, -⟩ := statement_ok hv
      have hread := congrArg Prod.fst (Except.ok.inj hread)
      dsimp only at hread
      have hsame := Sql.Keeps.selectFirst (R := SameTables) (fun t => (t.zone? r'.zoneId).map Zone.name)
        (step s.conn .read s.conn.tables)
      have hstep : (step s.conn .read s.conn.tables).tables = s.db := rfl
      rw [hsame, hstep] at hread
      exact hr.symm.trans hread
  · cases h

end Results

variable {s : AppState}

lemma keeps_createView {req : ViewCreate}
    (h : EStateM.Keeps Q (Db.createView req.name req.networks req.priority (upper req.countries)
      (upper req.continents) req.asns)) : KeepsConn Q (createView K req) :=
  .bind (keeps_checked _ _) fun _ => .bind (keeps_checked _ _) fun _ => .bind (.runDb h) fun _ =>
    .bind (.reloadStore K) fun _ => .runDb (Frame.select _)

lemma keeps_updateView {id : ℕ} {req : ViewUpdate}
    (h : EStateM.Keeps Q (Db.updateView id req.name req.networks req.priority
      (req.countries.map upper) (req.continents.map upper) req.asns)) :
    KeepsConn Q (updateView K id req) :=
  .bind (.runDb (Frame.select _)) fun _ => .bind (keeps_orNotFound _ _) fun _ =>
    .bind (keeps_checkedWhen _ _ _) fun _ => .bind (keeps_refuseIf _ _) fun _ =>
    .bind (keeps_checkedWhen _ _ _) fun _ => .bind (.runDb h) fun _ => .bind (.reloadStore K) fun _ =>
    .runDb (Frame.select _)

/-- Only a view that is there and not the default one is deleted. -/
lemma keeps_deleteView {id : ℕ}
    (h : ∀ v, s.db.view? id = some v → v.isDefault = false →
      ∀ c, c.tables = s.db → Q c ((Db.deleteView id).after c)) :
    Q s.conn ((deleteView K id).after s).conn := by
  unfold deleteView Db.view
  refine keepsConn_select_bind fun s₁ hs₁ => ?_
  cases hv : s.db.view? id with
  | none => exact refl_of Q s₁.conn
  | some v =>
    cases hdefault : v.isDefault with
    | true =>
      simp only [orNotFound, pure_bind, hdefault]
      exact refl_of Q s₁.conn
    | false =>
      simp only [orNotFound, pure_bind, hdefault, refuseIf, Bool.false_eq_true, if_false]
      exact keepsConn_runDb_bind (h v hv hdefault _ hs₁) fun _ => .reloadStore K

lemma keeps_updateZone {id : ℕ} {req : ZoneUpdate}
    (h : EStateM.Keeps Q (Db.updateZone id req.enabled req.soa req.defaultTtl)) :
    KeepsConn Q (updateZone K id req) :=
  .bind (keeps_zoneOf id) fun _ => .bind (.runDb h) fun _ => .bind (.reloadStore K) fun _ =>
    .runDb (Frame.select _)

/-- Only a zone without a secondary entry is imported into. -/
lemma keeps_importZone {id : ℕ} {req : ZoneImport}
    (h : s.db.isSecondary id = false → ∀ records, ∀ c, c.tables = s.db →
      Q c ((Db.importRecords id req.replace records).after c)) :
    Q s.conn ((importZone K id req).after s).conn := by
  unfold importZone
  refine keepsConn_zoneOf_bind fun z hz s₁ hs₁ => ?_
  dsimp only
  split
  · exact refl_of Q s₁.conn
  · cases hsec : (s.db.secondary? id).isSome with
    | true => exact refl_of Q s₁.conn
    | false =>
      simp only [refuseIf, Bool.false_eq_true, if_false, pure_bind]
      split
      · exact refl_of Q s₁.conn
      · exact keepsConn_runDb_bind (h hsec _ _ hs₁) fun _ => .bind (.reloadStore K) fun _ => .pure _

/-- Only in a zone without a secondary entry a record is created. -/
lemma keeps_createRecord {zoneId : ℕ} {req : RecordCreate}
    (h : s.db.isSecondary zoneId = false → ∀ c, c.tables = s.db →
      Q c ((Db.createRecord zoneId req.viewId (trim req.name) (toAsciiUppercase (trim req.rtype))
        req.ttl (trim req.data)).after c)) :
    Q s.conn ((createRecord K zoneId req).after s).conn := by
  unfold createRecord
  refine keepsConn_zoneOf_bind fun z hz s₁ hs₁ => ?_
  cases hsec : (s.db.secondary? zoneId).isSome with
  | true =>
    simp only [refuseIf]
    exact refl_of Q s₁.conn
  | false =>
    simp only [refuseIf, Bool.false_eq_true, if_false, pure_bind]
    refine keepsConn_idle_bind (keeps_checked _ _) fun _ s₂ hs₂ => ?_
    refine keepsConn_idle_bind (keeps_checked _ _) fun _ s₃ hs₃ => ?_
    refine keepsConn_idle_bind (keeps_checked _ _) fun _ s₄ hs₄ => ?_
    refine keepsConn_idle_bind (keeps_checkView _) fun _ s₅ hs₅ => ?_
    have hdb : s₅.db = s.db := hs₅.trans (hs₄.trans (hs₃.trans (hs₂.trans hs₁)))
    exact keepsConn_runDb_bind (h hsec _ hdb) fun _ => .bind (.reloadStore K) fun _ =>
      .runDb (keeps_record _)

lemma keeps_updateRecord {id : ℕ} {req : RecordUpdate}
    (h : EStateM.Keeps Q (Db.updateRecord id req.viewId (req.name.map trim) req.ttl
      (req.data.map trim) req.enabled)) : KeepsConn Q (updateRecord K id req) :=
  .bind (.runDb (keeps_record id)) fun _ => .bind (keeps_orNotFound _ _) fun _ =>
    .bind (keeps_zoneOf _) fun _ => .bind (keeps_checked _ _) fun _ =>
    .bind (keeps_checkedWhen _ _ _) fun _ => .bind (keeps_checkedWhen _ _ _) fun _ =>
    .bind (keeps_checkView _) fun _ => .bind (.runDb h) fun _ => .bind (.reloadStore K) fun _ =>
    .runDb (keeps_record id)

/-- An update of a record that is accepted passed its checks, made its call in the database that it found,
and left what the call left. -/
lemma updateRecord_ok {id : ℕ} {req : RecordUpdate} {out : Option DnsRecord}
    (h : (updateRecord K id req).result s = .ok out) :
    ∃ r z, s.db.record? id = some r ∧ s.db.zone? r.zoneId = some z ∧
      (∀ data ∈ req.data, (recordData K r.rtype z.name data).isOk = true) ∧
      (∀ name ∈ req.name, (recordFqdnName K name z.name).isOk = true) ∧
      ∃ c : Conn Tables, c.tables = s.db ∧
        (Db.updateRecord id req.viewId (req.name.map trim) req.ttl (req.data.map trim)
          req.enabled).result c = .ok () ∧
        ((updateRecord K id req).after s).db =
          ((Db.updateRecord id req.viewId (req.name.map trim) req.ttl (req.data.map trim)
            req.enabled).after c).tables := by
  unfold updateRecord at h ⊢
  obtain ⟨found, s₁, hfound, hdb₁, h, hafter⟩ := ok_of_idle_bind (.runDb (keeps_record id)) h
  rw [hafter]
  obtain ⟨existing, s₂, hexisting, hdb₂, h, hafter⟩ := ok_of_idle_bind (keeps_orNotFound _ _) h
  rw [hafter]
  obtain ⟨zone, s₃, hzone, hdb₃, h, hafter⟩ := ok_of_idle_bind (keeps_zoneOf _) h
  rw [hafter]
  obtain ⟨_, s₄, -, hdb₄, h, hafter⟩ := ok_of_idle_bind (keeps_checked _ _) h
  rw [hafter]
  obtain ⟨_, s₅, hdata, hdb₅, h, hafter⟩ := ok_of_idle_bind (keeps_checkedWhen _ _ _) h
  rw [hafter]
  obtain ⟨_, s₆, hname, hdb₆, h, hafter⟩ := ok_of_idle_bind (keeps_checkedWhen _ _ _) h
  rw [hafter]
  obtain ⟨_, s₇, -, hdb₇, h, hafter⟩ := ok_of_idle_bind (keeps_checkView _) h
  rw [hafter]
  have hdb : s₇.db = s.db := by
    rw [hdb₇, hdb₆, hdb₅, hdb₄, hdb₃, hdb₂, hdb₁]
  rw [eq_of_orNotFound hexisting] at hfound
  obtain ⟨z, hz, hread⟩ := zone?_of_zoneOf hzone
  rw [hdb₂, hdb₁] at hz
  rw [hread] at hdata hname
  -- The row changes where the statements run; the reload and the last query leave it alone.
  obtain ⟨u, hrun, hwritten⟩ := db_of_call
    (fun _ => .bind (.reloadStore K) fun _ => .runDb (keeps_record _)) h
  exact ⟨existing, z, record?_of_record hfound, hz, isOk_of_checkedWhen hdata,
    isOk_of_checkedWhen hname, s₇.conn, hdb, hrun, hwritten⟩

lemma keeps_deleteRecord {id : ℕ} (h : EStateM.Keeps Q (Db.deleteRecord id)) :
    KeepsConn Q (deleteRecord K id) :=
  .bind (.runDb h) fun _ => .reloadStore K

end Api

/-! ## DynDNS updates and DHCP registrations -/

lemma keeps_updateHost {token : DynDnsToken} {host : Str} {ips : List IpAddr} {o : HostOutcome}
    (h : ∀ ip ∈ ips, EStateM.Keeps Q (Db.dyndnsSetAddress host ip token.viewId token.ttl)) :
    KeepsConn Q (updateHost token host ips o) := by
  induction ips generalizing o with
  | nil => exact .pure _
  | cons ip ips ih =>
    refine .bind (.tryDb (h ip List.mem_cons_self)) fun r => ?_
    cases r with
    | error e => exact .pure _
    | ok u => exact ih fun ip' hip' => h ip' (List.mem_cons_of_mem _ hip')

lemma keeps_updateHosts {token : DynDnsToken} {addrs : List IpAddr} {label : Str} {hosts : List Str}
    {o : NicOutcome}
    (h : ∀ host ∈ hosts, host ∈ Db.splitHostnames token.hostnames → ∀ ip ∈ addrs,
      EStateM.Keeps Q (Db.dyndnsSetAddress host ip token.viewId token.ttl)) :
    KeepsConn Q (updateHosts token addrs label hosts o) := by
  induction hosts generalizing o with
  | nil => exact .pure _
  | cons host hosts ih =>
    have ih' : ∀ o, KeepsConn Q (updateHosts token addrs label hosts o) :=
      fun o => ih fun host' hhost' => h host' (List.mem_cons_of_mem _ hhost')
    unfold updateHosts
    split
    · rename_i hown
      refine .bind (keeps_updateHost (h host List.mem_cons_self (by simpa using hown))) fun r => ?_
      cases r with
      | none => exact .pure _
      | some outcome => exact ih' _
    · exact ih' _

/-- The updates of a request set the addresses for host names of the request that the token owns. -/
lemma keeps_applyUpdates {req : NicRequest} {token : DynDnsToken} {hosts : List Str}
    (h : ∀ host ∈ hosts, host ∈ Db.splitHostnames token.hostnames → ∀ ip ∈ requestAddrs req,
      EStateM.Keeps Q (Db.dyndnsSetAddress host ip token.viewId token.ttl)) :
    KeepsConn Q (applyUpdates K req token hosts) := by
  refine .bind (keeps_updateHosts h) fun outcome => ?_
  cases outcome with
  | none => exact .pure _
  | some o =>
    refine .bind ?_ fun _ => .pure _
    unfold reloadWhen
    split
    · exact .reloadStore K
    · exact .pure ()

/-- The token that a request authenticates with. -/
def nicToken (K : Crates) (t : Tables) (req : NicRequest) : Option DynDnsToken :=
  (basicAuth K req).bind fun auth => (t.dyndnsTokens.find? (·.username == auth.1)).filter fun token =>
    token.enabled && K.verifyPassword auth.2 token.secretHash

/-- The token of a request is one of the database. -/
lemma mem_of_nicToken {t : Tables} {req : NicRequest} {token : DynDnsToken}
    (h : nicToken K t req = some token) : token ∈ t.dyndnsTokens := by
  obtain ⟨auth, -, hfound⟩ := Option.bind_eq_some_iff.mp h
  exact List.mem_of_find?_eq_some (Option.filter_eq_some_iff.mp hfound).1

/-- Only the updates of a request with a token are made. -/
lemma keeps_nicUpdates {req : NicRequest} {s : AppState}
    (h : ∀ token hosts, nicToken K s.db req = some token → requestHosts req = some hosts →
      ∀ s' : AppState, s'.db = s.db → Q s'.conn ((applyUpdates K req token hosts).after s').conn) :
    Q s.conn ((nicUpdates K req).after s).conn := by
  unfold nicUpdates
  cases hauth : basicAuth K req with
  | none => exact refl_of Q s.conn
  | some auth =>
    dsimp only
    unfold authenticate Db.dyndnsAuth
    rw [bind_assoc]
    refine keepsConn_trySelect_bind (fun e s' _ => refl_of Q s'.conn) fun s' hs' => ?_
    cases htoken : s.db.dyndnsTokens.find? (·.username == auth.1) with
    | none => exact refl_of Q s'.conn
    | some token =>
      dsimp only
      cases hok : token.enabled && K.verifyPassword auth.2 token.secretHash with
      | false => exact refl_of Q s'.conn
      | true =>
        rw [if_pos rfl, pure_bind]
        dsimp only
        unfold serveUpdates
        cases hhosts : requestHosts req with
        | none => exact refl_of Q s'.conn
        | some hosts =>
          have hnic : nicToken K s.db req = some token := by
            simp [nicToken, hauth, htoken, hok]
          exact h token hosts hnic hhosts s' hs'

/-- The note in the token comes last. -/
lemma keeps_nicUpdate {req : NicRequest} {s : AppState}
    (hupdates : Q s.conn ((nicUpdates K req).after s).conn)
    (htouch : ∀ id ip, EStateM.Keeps Q (Db.touchDyndnsToken id ip)) :
    Q s.conn ((nicUpdate K req).after s).conn := by
  unfold nicUpdate
  rw [EStateM.after_bind]
  split
  · refine trans_of Q hupdates ?_
    split
    · exact refl_of Q _
    · rw [EStateM.after_bind_pure, after_tryDb]
      exact htouch _ _ _
  · exact hupdates

lemma keeps_registerDns {scope : DhcpScope} {ip : IpAddr} {hostname : Option Str}
    (hforward : ∀ fqdn ttl, registration scope hostname = some (fqdn, ttl) →
      EStateM.Keeps Q (Db.dyndnsSetAddress fqdn ip none ttl))
    (hptr : ∀ target ttl, EStateM.Keeps Q (registerPtr (reverseName ip) target ttl)) :
    KeepsConn Q (registerDns K scope ip hostname) := by
  unfold registerDns
  split
  · exact .pure ()
  · rename_i fqdn ttl hreg
    unfold registerAddress
    refine .bind (.tryDb (hforward fqdn ttl hreg)) fun r => ?_
    cases r with
    | error e => exact .pure ()
    | ok u => exact .bind (.reloadStore K) fun _ => .bind (.tryDb (hptr _ _)) fun _ => .pure ()

/-! ## Management operations -/

/-- The operations that change the records of zones, their configuration or the views. -/
inductive Management
  | createRecord (zoneId : ℕ) (req : Api.RecordCreate)
  | updateRecord (id : ℕ) (req : Api.RecordUpdate)
  | deleteRecord (id : ℕ)
  | importZone (id : ℕ) (req : Api.ZoneImport)
  | updateZone (id : ℕ) (req : Api.ZoneUpdate)
  | createView (req : Api.ViewCreate)
  | updateView (id : ℕ) (req : Api.ViewUpdate)
  | deleteView (id : ℕ)
  | nicUpdate (req : NicRequest)
  | registerDns (scope : DhcpScope) (ip : IpAddr) (hostname : Option Str)

/-- The state after a run of an operation. -/
def Management.after (K : Crates) (s : AppState) : Management → AppState
  | .createRecord zoneId req => (Api.createRecord K zoneId req).after s
  | .updateRecord id req => (Api.updateRecord K id req).after s
  | .deleteRecord id => (Api.deleteRecord K id).after s
  | .importZone id req => (Api.importZone K id req).after s
  | .updateZone id req => (Api.updateZone K id req).after s
  | .createView req => (Api.createView K req).after s
  | .updateView id req => (Api.updateView K id req).after s
  | .deleteView id => (Api.deleteView K id).after s
  | .nicUpdate req => (Nomina.nicUpdate K req).after s
  | .registerDns scope ip hostname => (Nomina.registerDns K scope ip hostname).after s

/-! ## All operations -/

/-- The operations of the server that write to the database. What concerns other tables than those
of zones, records and secondary zones is taken together. -/
inductive Operation
  | manage (op : Management)
  | createZone (req : Api.ZoneCreate)
  | deleteZone (id : ℕ)
  | enableDnssec (id : ℕ) (nsec3 : Bool) (secret salt : Str)
  | disableDnssec (id : ℕ)
  | createSecondary (fetch : Fetch) (req : Api.SecondaryCreate)
  | refreshSecondary (fetch : Fetch) (id : ℕ)
  | pollZone (fetch : Fetch) (remote : RemoteSerial) (sec : SecondaryZone)
  | elsewhere (handler : App Unit) (h : KeepsDb (fun t t' =>
      t'.zones = t.zones ∧ t'.records = t.records ∧ t'.secondaries = t.secondaries) handler)

/-- The state after a run of an operation. -/
def Operation.after (K : Crates) (s : AppState) : Operation → AppState
  | .manage op => op.after K s
  | .createZone req => (Api.createZone K req).after s
  | .deleteZone id => (Api.deleteZone K id).after s
  | .enableDnssec id nsec3 secret salt => (Api.enableDnssec K id nsec3 secret salt).after s
  | .disableDnssec id => (Api.disableDnssec K id).after s
  | .createSecondary fetch req => (Api.createSecondary K fetch req).after s
  | .refreshSecondary fetch id => (Api.refreshSecondary K fetch id).after s
  | .pollZone fetch remote sec => (Nomina.pollZone K fetch remote sec).after s
  | .elsewhere handler _ => handler.after s

end Nomina
