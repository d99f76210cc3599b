import Nomina.Dhcp.Allocation
import Nomina.Dhcp.Bindings
import Nomina.Dhcp.Overrides

/-!
# What a message leads to

The handling of a message as the other clients see it: the datagrams that are sent and the row that is
written. In a database that refuses nothing the address that the allocator names for a message is given, with
exactly this row and this datagram.
-/

namespace Nomina

open Lib Sql

variable {K : Crates}

/-! ## What the allocator is called with -/

section

variable (K) (t : Tables) (now : ℤ)

/-- The call of the allocator for a client of a scope. -/
def callFor (scope : DhcpScope) (clientId : Str) (requestedIp : Option IpAddr) : AllocateArgs where
  scope := scope
  reservations := Db.reservationsOf t scope.id
  leases := Db.leasesOf t scope.id
  clientId := clientId
  requestedIp := requestedIp
  nowUnix := now

/-- The call of the allocator for a message; `none` when it is not answered from a scope. -/
def DhcpInput.call : DhcpInput → Option AllocateArgs
  | .v4 iface msg => (selectV4Scope K (Db.listedScopes t) msg.giaddr iface).map fun scope =>
      callFor t now scope (v4ClientId msg) (msg.requestedIp.map .v4)
  | .v6 msg _ => (selectV6Scope t).bind fun scope => msg.clientDuid.map fun duid =>
      callFor t now scope duid none

end

/-- The address that a REQUEST is for: option 50, else the one that is renewed. -/
def desiredIp (msg : Dhcp4Message) : Option Ipv4Addr :=
  msg.requestedIp.or (if msg.ciaddr = 0 then none else some msg.ciaddr)

section

variable {t : Tables} {now : ℤ} {scope : DhcpScope}

lemma call_v4 {iface : Option RecvIface} {msg : Dhcp4Message}
    (h : selectV4Scope K (Db.listedScopes t) msg.giaddr iface = some scope) :
    DhcpInput.call K t now (.v4 iface msg) =
      some (callFor t now scope (v4ClientId msg) (msg.requestedIp.map .v4)) :=
  Option.map_eq_some_iff.mpr ⟨scope, h, rfl⟩

lemma call_v6 {msg : Dhcp6Message} {src : IpAddr} {duid : Str} (h : selectV6Scope t = some scope)
    (hduid : msg.clientDuid = some duid) :
    DhcpInput.call K t now (.v6 msg src) = some (callFor t now scope duid none) :=
  Option.bind_eq_some_iff.mpr ⟨scope, h, Option.map_eq_some_iff.mpr ⟨duid, hduid, rfl⟩⟩

end

/-! ## What is sent -/

/-- The scope and the address that a datagram gives to a client. A NAK and the answer to an INFORM have
no address. -/
def Packet.given : Packet → Option (DhcpScope × IpAddr)
  | .v4 r _ => if r.yiaddr = 0 then none else some (r.scope, .v4 r.yiaddr)
  | .v6 r _ => some (r.scope, .v6 r.assigned)

/-- What is sent between the states satisfies `P`. -/
def SendsOnly (P : Packet → Prop) (s s' : AppState) : Prop :=
  ∃ ps, s'.sent = s.sent ++ ps ∧ ∀ p ∈ ps, P p

section

variable {P : Packet → Prop} {α : Type}

instance : IsPreorder AppState (SendsOnly P) where
  refl s := ⟨[], by simp⟩
  trans s₁ s₂ s₃ := by
    rintro ⟨ps, hps, hall⟩ ⟨qs, hqs, hall'⟩
    refine ⟨ps ++ qs, by rw [hqs, hps, List.append_assoc], ?_⟩
    intro p hp
    rcases List.mem_append.mp hp with hp | hp
    · exact hall p hp
    · exact hall' p hp

/-- Where nothing is sent, all that is sent satisfies `P`. -/
lemma SendsOnly.of_eq {s s' : AppState} (h : s'.sent = s.sent) : SendsOnly P s s' :=
  ⟨[], by simp [h]⟩

/-- Only `send` sends. -/
lemma sendsOnly_runDb (m : Sql Tables α) : EStateM.Keeps (SendsOnly P) (runDb m) := by
  intro s
  rw [after_runDb]
  exact .of_eq rfl

lemma sendsOnly_tryDb (m : Sql Tables α) : EStateM.Keeps (SendsOnly P) (tryDb m) := by
  intro s
  rw [after_tryDb]
  exact .of_eq rfl

lemma sendsOnly_reloadStore : EStateM.Keeps (SendsOnly P) (reloadStore K) := by
  intro s
  obtain ⟨store, -, -, hafter⟩ := reloadStore_run K s
  rw [hafter]
  exact .of_eq rfl

lemma sendsOnly_registerDns {scope : DhcpScope} {ip : IpAddr} {hostname : Option Str} :
    EStateM.Keeps (SendsOnly P) (registerDns K scope ip hostname) := by
  unfold registerDns
  split
  · exact .pure ()
  · unfold registerAddress
    refine .bind (sendsOnly_tryDb _) fun r => ?_
    cases r with
    | error e => exact .pure ()
    | ok u =>
      exact .bind sendsOnly_reloadStore fun _ => .bind (sendsOnly_tryDb _) fun _ => .pure ()

/-- A datagram is sent, or sending fails. -/
lemma after_send (p : Packet) (s : AppState) : (send p).after s =
    if s.sendFaults.headD false then { s with sendFaults := s.sendFaults.tail }
    else { s with sendFaults := s.sendFaults.tail, sent := s.sent ++ [p] } := by
  unfold send EStateM.after
  split_ifs with h <;> simp only [h, Bool.false_eq_true, if_false, if_true]

end

/-- The reply to a message can be built with the options it is answered with. -/
def DhcpInput.Buildable (a : AllocateArgs) : DhcpInput → Prop
  | .v4 .. => ∀ opt ∈ mergedForClient a.scope a.reservations a.clientId, ¬PanicsInLoop opt
  | .v6 .. => ∀ opt ∈ a.scope.options, ¬PanicsInLoopV6 opt

/-- With options that were accepted when they were stored every reply can be built. -/
lemma DhcpInput.buildable_of_accepted {a : AllocateArgs}
    (hscope : Api.validateDhcpOptions a.scope.options = .ok ())
    (hreservations : ∀ r ∈ a.reservations, Api.validateDhcpOptions r.options = .ok ()) (input : DhcpInput) :
    input.Buildable a := by
  cases input with
  | v4 iface msg =>
    intro opt hopt
    unfold mergedForClient at hopt
    split at hopt
    · rename_i r hfind
      rcases mem_mergeOptions.mp hopt with hlast | hkept
      · have hmem := (List.mem_filter.mp (List.mem_of_getLast? hlast)).1
        exact not_panicsInLoop_of_accepted (hreservations r (List.mem_of_find?_eq_some hfind)) opt hmem
      · exact not_panicsInLoop_of_accepted hscope opt (mem_of_mem_keptOptions hkept)
    · exact not_panicsInLoop_of_accepted hscope opt hopt
  | v6 msg src => exact not_panicsInLoopV6_of_accepted hscope

section

variable {t : Tables} {now : ℤ} {scope : DhcpScope} {a : AllocateArgs}

/-- A REQUEST is granted the allocated address, when it is for this one or for any. -/
lemma requestGrant_eq_some_iff {msg : Dhcp4Message} {y : Ipv4Addr} :
    requestGrant K scope (Db.reservationsOf t scope.id) (Db.leasesOf t scope.id) msg now = some y ↔
      (callFor t now scope (v4ClientId msg) (msg.requestedIp.map .v4)).allocated K = some (.v4 y) ∧
        ∀ d, desiredIp msg = some d → d = y := by
  have hdesired : ∀ y', (desiredIp msg).all (· == y') = true ↔ ∀ d, desiredIp msg = some d → d = y' := by
    intro y'
    rw [Option.all_eq_true]
    exact forall₂_congr fun d _ => beq_iff_eq
  unfold requestGrant
  dsimp only
  rw [show msg.requestedIp.or (if msg.ciaddr = 0 then none else some msg.ciaddr) = desiredIp msg from rfl,
    show allocate K scope (Db.reservationsOf t scope.id) (Db.leasesOf t scope.id) (v4ClientId msg)
      (msg.requestedIp.map .v4) now =
        (callFor t now scope (v4ClientId msg) (msg.requestedIp.map .v4)).allocated K from rfl]
  split
  · rename_i y' halloc
    rw [Option.ite_none_right_eq_some, hdesired, halloc, Option.some_inj, Option.some_inj,
      IpAddr.v4.injEq]
    constructor
    · rintro ⟨hall, rfl⟩
      exact ⟨rfl, hall⟩
    · rintro ⟨rfl, hall⟩
      exact ⟨hall, rfl⟩
  · rename_i hnone
    constructor
    · intro h
      cases h
    · intro h
      exact absurd h.1 (hnone y)

/-- What is built is built from options that can be. -/
lemma buildable_v4 {iface : Option RecvIface} {msg : Dhcp4Message} {yiaddr : Ipv4Addr}
    {mtype : Dhcp4MessageType} (hmtype : mtype ≠ .Nak) (h : buildV4Reply K ⟨msg, a.scope,
      mergedForClient a.scope a.reservations a.clientId, yiaddr, mtype⟩ ≠ .error .panic) :
    (DhcpInput.v4 iface msg).Buildable a :=
  fun opt hopt hpanic => h (buildV4Reply_panic hmtype ⟨opt, hopt, hpanic⟩)

lemma buildable_v6 {msg : Dhcp6Message} {src : IpAddr} {assigned : Ipv6Addr} {mtype : Dhcp6MessageType}
    {duid : Bytes} (h : buildV6Reply ⟨msg, a.scope, assigned, mtype, duid⟩ ≠ .error .panic) :
    (DhcpInput.v6 msg src).Buildable a :=
  fun opt hopt hpanic => h (buildV6Reply_panic ⟨opt, hopt, hpanic⟩)

end

/-! ## A database that refuses nothing -/

section

variable {s : AppState} {now : ℤ} {scope : DhcpScope}

variable (K now) in
/-- A message is handled by the answer to what the database holds. -/
lemma after_handleV4 {iface : Option RecvIface} {msg : Dhcp4Message} {mtype : Dhcp4MessageType}
    (hfaults : s.conn.faults = []) (hmsg : msg.messageType = some mtype)
    (hscope : selectV4Scope K (Db.listedScopes s.db) msg.giaddr iface = some scope) :
    ∃ c : Conn Tables, c.tables = s.db ∧ c.faults = [] ∧ (handleV4 K iface msg now).after s =
      (answerV4 K msg mtype scope (Db.reservationsOf s.db scope.id) (Db.leasesOf s.db scope.id) now).after
        { s with conn := c } := by
  unfold handleV4 Db.listDhcpScopes Db.listDhcpReservations Db.listDhcpLeases
  rw [hmsg]
  dsimp only
  obtain ⟨c₁, ht₁, hf₁, h₁⟩ := after_runDb_bind_conn _ (Sql.Evals.select _ s.db) hfaults
  rw [h₁, show selectV4Scope K (s.db.scopes.insertionSort fun s s' => s.name ≤ s'.name) msg.giaddr iface =
    some scope from hscope]
  dsimp only
  obtain ⟨c₂, ht₂, hf₂, h₂⟩ :=
    after_runDb_bind_conn (s := { s with conn := c₁ }) _ (Sql.Evals.select _ c₁.tables) hf₁
  obtain ⟨c₃, ht₃, hf₃, h₃⟩ :=
    after_runDb_bind_conn (s := { s with conn := c₂ }) _ (Sql.Evals.select _ c₂.tables) hf₂
  rw [h₂, h₃, ht₂, ht₁]
  exact ⟨c₃, ht₃.trans (ht₂.trans ht₁), hf₃, rfl⟩

variable (K now) in
lemma after_handleV6 {msg : Dhcp6Message} (src : IpAddr) {duid : Str} (hfaults : s.conn.faults = [])
    (hscope : selectV6Scope s.db = some scope) (hduid : msg.clientDuid = some duid) :
    ∃ c : Conn Tables, c.tables = s.db ∧ c.faults = [] ∧ (handleV6 K msg src now).after s =
      (answerV6 K msg src duid scope (Db.reservationsOf s.db scope.id) (Db.leasesOf s.db scope.id)
        now).after { s with conn := c } := by
  unfold handleV6 Db.listDhcpScopes Db.listDhcpReservations Db.listDhcpLeases
  obtain ⟨c₁, ht₁, hf₁, h₁⟩ := after_runDb_bind_conn _ (Sql.Evals.select _ s.db) hfaults
  rw [h₁, show (s.db.scopes.insertionSort fun s s' => s.name ≤ s'.name).find?
    (fun s => s.enabled && s.family == .V6) = some scope from hscope, hduid]
  dsimp only
  obtain ⟨c₂, ht₂, hf₂, h₂⟩ :=
    after_runDb_bind_conn (s := { s with conn := c₁ }) _ (Sql.Evals.select _ c₁.tables) hf₁
  obtain ⟨c₃, ht₃, hf₃, h₃⟩ :=
    after_runDb_bind_conn (s := { s with conn := c₂ }) _ (Sql.Evals.select _ c₂.tables) hf₂
  rw [h₂, h₃, ht₂, ht₁]
  exact ⟨c₃, ht₃.trans (ht₂.trans ht₁), hf₃, rfl⟩

/-- A lease of a scope of the database is written. -/
lemma evals_upsertDhcpLease {t : Tables} (hmem : scope ∈ t.scopes) (family : IpFamily)
    (ip identifier : Str) (hostname : Option Str) (startsAt expiresAt : Str) (st : LeaseState) :
    Sql.Evals (Db.upsertDhcpLease scope.id family ip identifier hostname startsAt expiresAt st) t (.ok ())
      { t with leases := t.leases.upsert ⟨0, scope.id, family, ip, toAsciiLowercase identifier, hostname,
          startsAt, expiresAt, st⟩ } := by
  unfold Db.upsertDhcpLease
  refine Sql.Evals.execute ?_
  rw [if_pos (List.any_eq_true.mpr ⟨scope, hmem, by simp⟩)]

/-- The row of an offer or a grant. -/
def grantRow (K : Crates) (scope : DhcpScope) (ip : IpAddr) (clientId : Str) (hostname : Option Str)
    (now : ℤ) (secs : ℕ) (st : LeaseState) : DhcpLease :=
  ⟨0, scope.id, scope.family, fmtIpAddr ip, toAsciiLowercase clientId, hostname, K.rfc3339 now,
    K.rfc3339 (now + secs), st⟩

/-- The row is written and the datagram is sent, if it can be. -/
structure Grants (row : DhcpLease) (p : Packet) (s s' : AppState) : Prop where
  leases : s'.db.leases = s.db.leases.upsert row
  sent : s.sendFaults.headD false = false → s'.sent = s.sent ++ [p]

lemma Grants.of_conn {row : DhcpLease} {p : Packet} {s' : AppState} {c : Conn Tables}
    (hc : c.tables = s.db) (h : Grants row p { s with conn := c } s') : Grants row p s s' where
  leases := h.leases.trans (congrArg (fun t : Tables => t.leases.upsert row) hc)
  sent := h.sent

/-- The program sends the datagram, if it can, and does not touch the leases. -/
structure Delivers (p : Packet) (m : App Unit) : Prop where
  leases : ∀ s, (m.after s).db.leases = s.db.leases
  sent : ∀ s, s.sendFaults.headD false = false → (m.after s).sent = s.sent ++ [p]

lemma delivers_send (p : Packet) : Delivers p (send p) where
  leases s := by rw [after_send]; split <;> rfl
  sent s h := by rw [after_send, h]; rfl

/-- Registration in DNS neither sends anything nor touches the leases. -/
lemma delivers_send_registerDns (p : Packet) (scope : DhcpScope) (ip : IpAddr) (hostname : Option Str) :
    Delivers p (send p >>= fun _ => registerDns K scope ip hostname) where
  leases s := KeepsConn.bind (Q := fun c c' => SameLeases c.tables c'.tables) (.send p)
    (fun _ => sameLeases_registerDns) s
  sent s h := by
    have hresult : (send p).result s = .ok () := by
      unfold send EStateM.result
      simp only [h, Bool.false_eq_true, if_false]
    rw [EStateM.after_bind, hresult]
    dsimp only
    have hsends : EStateM.Keeps (SendsOnly fun _ => False) (registerDns K scope ip hostname) :=
      sendsOnly_registerDns
    obtain ⟨ps, hps, hnone⟩ := hsends ((send p).after s)
    have hnil : ps = [] := List.eq_nil_iff_forall_not_mem.mpr hnone
    rw [hps, hnil, List.append_nil]
    exact (delivers_send p).sent s h

/-- A handler that builds a reply, writes a lease of a scope of the database and sends the reply. -/
lemma grants_built {reply : Reader Bytes} {bytes : Bytes} (hbuild : reply = .ok bytes)
    (hmem : scope ∈ s.db.scopes) (hfaults : s.conn.faults = []) {p : Packet} {k : App Unit}
    (hk : Delivers p k) {family : IpFamily} (hfamily : scope.family = family) (ip : IpAddr)
    (clientId : Str) (hostname : Option Str) (secs : ℕ) (st : LeaseState) :
    Grants (grantRow K scope ip clientId hostname now secs st) p s
      ((buildReply reply >>= fun _ => runDb (Db.upsertDhcpLease scope.id family (fmtIpAddr ip)
        clientId hostname (K.rfc3339 now) (K.rfc3339 (now + secs)) st) >>= fun _ => k).after s) := by
  subst hfamily
  rw [buildReply_bind hbuild]
  obtain ⟨c, hc, -, hafter⟩ := after_runDb_bind_conn (fun _ => k) (evals_upsertDhcpLease hmem scope.family
    (fmtIpAddr ip) clientId hostname (K.rfc3339 now) (K.rfc3339 (now + secs)) st) hfaults
  rw [hafter]
  constructor
  · rw [hk.leases]
    exact congrArg Tables.leases hc
  · intro hsend
    exact hk.sent _ hsend

/-! ## What one message leads to -/

section

variable {iface : Option RecvIface} {msg : Dhcp4Message} {y : Ipv4Addr}

/-- A DISCOVER that is given an address leads to an offer. -/
lemma grants_discover (hfaults : s.conn.faults = []) (hmsg : msg.messageType = some .Discover)
    (hscope : selectV4Scope K (Db.listedScopes s.db) msg.giaddr iface = some scope)
    (halloc : (callFor s.db now scope (v4ClientId msg) (msg.requestedIp.map .v4)).allocated K =
      some (.v4 y))
    (hbuild : ∀ opt ∈ mergedForClient scope (Db.reservationsOf s.db scope.id) (v4ClientId msg),
      ¬PanicsInLoop opt) :
    Grants (grantRow K scope (.v4 y) (v4ClientId msg) msg.hostname now
        (min scope.leaseSecs offerHoldSecs) .Offered)
      (.v4 ⟨msg, scope, mergedForClient scope (Db.reservationsOf s.db scope.id) (v4ClientId msg), y,
        .Offer⟩ (v4ReplyDest msg false)) s ((handleV4 K iface msg now).after s) := by
  obtain ⟨c, hc, hcf, hafter⟩ := after_handleV4 K now hfaults hmsg hscope
  have hmem : scope ∈ c.tables.scopes := hc.symm ▸ mem_scopes_of_selectV4Scope hscope
  have hbuilt : buildV4Reply K ⟨msg, scope, mergedForClient scope (Db.reservationsOf s.db scope.id)
      (v4ClientId msg), y, .Offer⟩ = .ok _ := buildV4Reply_eq (.inr hbuild)
  rw [hafter]
  unfold answerV4
  dsimp only
  rw [show allocate K scope (Db.reservationsOf s.db scope.id) (Db.leasesOf s.db scope.id)
    (v4ClientId msg) (msg.requestedIp.map .v4) now = some (.v4 y) from halloc]
  exact .of_conn hc (grants_built hbuilt hmem hcf (delivers_send _) (selectV4Scope_family hscope) _ _ _ _ _)

/-- A REQUEST that is granted an address leads to an ACK. -/
lemma grants_request (hfaults : s.conn.faults = []) (hmsg : msg.messageType = some .Request)
    (hscope : selectV4Scope K (Db.listedScopes s.db) msg.giaddr iface = some scope)
    (hgrant : requestGrant K scope (Db.reservationsOf s.db scope.id) (Db.leasesOf s.db scope.id) msg now =
      some y)
    (hbuild : ∀ opt ∈ mergedForClient scope (Db.reservationsOf s.db scope.id) (v4ClientId msg),
      ¬PanicsInLoop opt) :
    Grants (grantRow K scope (.v4 y) (v4ClientId msg) msg.hostname now scope.leaseSecs .Active)
      (.v4 ⟨msg, scope, mergedForClient scope (Db.reservationsOf s.db scope.id) (v4ClientId msg), y,
        .Ack⟩ (v4ReplyDest msg false)) s ((handleV4 K iface msg now).after s) := by
  obtain ⟨c, hc, hcf, hafter⟩ := after_handleV4 K now hfaults hmsg hscope
  have hmem : scope ∈ c.tables.scopes := hc.symm ▸ mem_scopes_of_selectV4Scope hscope
  have hbuilt : buildV4Reply K ⟨msg, scope, mergedForClient scope (Db.reservationsOf s.db scope.id)
      (v4ClientId msg), y, .Ack⟩ = .ok _ := buildV4Reply_eq (.inr hbuild)
  rw [hafter]
  unfold answerV4
  dsimp only
  rw [hgrant]
  exact .of_conn hc (grants_built hbuilt hmem hcf (delivers_send_registerDns _ _ _ _)
    (selectV4Scope_family hscope) _ _ _ _ _)

/-- A REQUEST that is granted nothing is answered with a NAK. -/
lemma sent_of_refused (hfaults : s.conn.faults = []) (hsend : s.sendFaults.headD false = false)
    (hmsg : msg.messageType = some .Request)
    (hscope : selectV4Scope K (Db.listedScopes s.db) msg.giaddr iface = some scope)
    (hrefused : requestGrant K scope (Db.reservationsOf s.db scope.id) (Db.leasesOf s.db scope.id) msg
      now = none) :
    ((handleV4 K iface msg now).after s).sent =
      s.sent ++ [.v4 ⟨msg, scope, [], 0, .Nak⟩ (v4ReplyDest msg true)] := by
  obtain ⟨c, hc, -, hafter⟩ := after_handleV4 K now hfaults hmsg hscope
  have hbuilt : buildV4Reply K ⟨msg, scope, [], 0, .Nak⟩ = .ok _ := buildV4Reply_eq (.inl rfl)
  rw [hafter]
  unfold answerV4
  dsimp only
  rw [hrefused]
  dsimp only
  rw [buildReply_bind hbuilt]
  exact (delivers_send _).sent { s with conn := c } hsend

/-- When the ACK cannot be built, nothing is sent. -/
lemma sent_of_panic (hfaults : s.conn.faults = []) (hmsg : msg.messageType = some .Request)
    (hscope : selectV4Scope K (Db.listedScopes s.db) msg.giaddr iface = some scope)
    (hgrant : requestGrant K scope (Db.reservationsOf s.db scope.id) (Db.leasesOf s.db scope.id) msg now =
      some y)
    (hpanic : ∃ opt ∈ mergedForClient scope (Db.reservationsOf s.db scope.id) (v4ClientId msg),
      PanicsInLoop opt) :
    ((handleV4 K iface msg now).after s).sent = s.sent := by
  obtain ⟨c, hc, -, hafter⟩ := after_handleV4 K now hfaults hmsg hscope
  rw [hafter]
  unfold answerV4
  dsimp only
  rw [hgrant]
  dsimp only
  rw [buildReply_bind_panic (buildV4Reply_panic (by simp) hpanic)]
  rfl

end

/-- A SOLICIT that is given an address leads to an ADVERTISE. -/
lemma grants_solicit {msg : Dhcp6Message} {src : IpAddr} {duid : Str} {y : Ipv6Addr}
    (hfaults : s.conn.faults = []) (hmsg : msg.msgType = .Solicit)
    (hscope : selectV6Scope s.db = some scope) (hduid : msg.clientDuid = some duid)
    (halloc : (callFor s.db now scope duid none).allocated K = some (.v6 y))
    (hbuild : ∀ opt ∈ scope.options, ¬PanicsInLoopV6 opt) :
    Grants (grantRow K scope (.v6 y) duid none now (min scope.leaseSecs offerHoldSecs) .Offered)
      (.v6 ⟨msg, scope, y, .Advertise, K.serverDuid⟩ (src, 546)) s
      ((handleV6 K msg src now).after s) := by
  obtain ⟨c, hc, hcf, hafter⟩ := after_handleV6 K now src hfaults hscope hduid
  have hmem : scope ∈ c.tables.scopes := hc.symm ▸ mem_of_selectV6Scope hscope
  have hbuilt : buildV6Reply ⟨msg, scope, y, .Advertise, K.serverDuid⟩ = .ok _ := buildV6Reply_eq hbuild
  rw [hafter]
  unfold answerV6 assignV6
  rw [hmsg]
  dsimp only
  rw [show allocate K scope (Db.reservationsOf s.db scope.id) (Db.leasesOf s.db scope.id) duid none now =
    some (.v6 y) from halloc]
  dsimp only
  rw [if_pos rfl]
  exact .of_conn hc (grants_built hbuilt hmem hcf (delivers_send _) (selectV6Scope_family hscope) _ _ _ _ _)

end

end Nomina
