import Nomina.Dhcp.Retention

/-!
# Answers that the message determines

A DHCPv4 client that asks for a free address, and one with a reservation for its hardware address: both
know which answer they are to get. The handler takes the address of a renewal from `ciaddr`, but only
option 50 reaches the allocator; and it looks reservations up by the client identifier, which is the
hardware address only of clients without option 61.
-/

namespace Nomina

open Lib Sql

variable {K : Crates}

/-! ## Requests for a free address -/

/-- A REQUEST of a client without a reservation and without a holding lease, for an address that it may
be given. -/
structure RequestsFree (K : Crates) (a : AllocateArgs) (msg : Dhcp4Message) (d : Ipv4Addr) : Prop where
  request : msg.messageType = some .Request
  desired : desiredIp msg = some d
  unreserved : a.Unreserved
  unheld : ∀ l ∈ a.leases, eqIgnoreAsciiCase l.identifier a.clientId = true →
    isHolding K l a.nowUnix = false
  usable : a.Usable K (.v4 d)

/-- One reply is sent, an ACK of the address, and an active lease of it is stored for the client. -/
structure Acknowledged (K : Crates) (a : AllocateArgs) (d : Ipv4Addr) (s s' : AppState) : Prop where
  sent : ∃ reply dest, s'.sent = s.sent ++ [.v4 reply dest] ∧ reply.msgType = .Ack ∧ reply.yiaddr = d
  stored : ∃ l ∈ s'.db.leases.rows, l.scopeId = a.scope.id ∧ l.ip = fmtIpAddr (.v4 d) ∧
    l.identifier = toAsciiLowercase a.clientId ∧ l.state = .Active ∧
    l.expiresAt = K.rfc3339 (a.nowUnix + a.scope.leaseSecs)

/-- No usable address is lower. -/
def AllocateArgs.IsLowest (K : Crates) (a : AllocateArgs) (d : Ipv4Addr) : Prop :=
  ∀ ip, a.Usable K ip → d.toNat ≤ ipToU128 ip

section

variable {a : AllocateArgs} {iface : Option RecvIface} {msg : Dhcp4Message} {d : Ipv4Addr}
  {s : AppState} {now : ℤ} {scope : DhcpScope}

/-- The policy names the address that the client wants when option 50 asks for it or no usable address is
lower. -/
lemma RequestsFree.names_iff (h : RequestsFree K a msg d) (hfamily : a.scope.family = .V4)
    (hrequested : a.requestedIp = msg.requestedIp.map .v4) :
    a.Names K (.v4 d) ↔ msg.requestedIp = some d ∨ a.IsLowest K d := by
  have hreserved : ¬a.FirstReserved (.v4 d) := by
    rintro ⟨pre, r, post, hsplit, hat, -⟩
    exact h.unreserved r (hsplit ▸ List.mem_append_right _ List.mem_cons_self) _ hat
  have hnone : ∀ l ∈ a.leases, ∀ ip, ¬a.HoldsAt K l ip := by
    rintro l hl ip ⟨hid, hhold, -⟩
    rw [h.unheld l hl hid] at hhold
    cases hhold
  have hheld : ¬a.FirstHeld K (.v4 d) := by
    rintro ⟨pre, l, post, hsplit, hat, -⟩
    exact hnone l (hsplit ▸ List.mem_append_right _ List.mem_cons_self) _ hat
  have hscanned : a.Scanned (.v4 d) := ⟨h.usable.1, fun hv6 => by rw [hfamily] at hv6; cases hv6⟩
  constructor
  · rintro (hfirst | ⟨-, hfirst | ⟨-, ⟨hasked, -⟩ | ⟨-, -, -, hleast⟩⟩⟩)
    · exact absurd hfirst hreserved
    · exact absurd hfirst hheld
    · rw [hrequested, Option.map_eq_some_iff] at hasked
      obtain ⟨d', hd', heq⟩ := hasked
      obtain rfl := IpAddr.v4.inj heq
      exact .inl hd'
    · exact .inr hleast
  · intro hwhen
    refine .inr ⟨h.unreserved, .inr ⟨hnone, ?_⟩⟩
    cases hasked : msg.requestedIp with
    | some d' =>
      -- What option 50 asks for is what the client wants.
      have hdesired := h.desired
      unfold desiredIp at hdesired
      rw [hasked, Option.some_or] at hdesired
      obtain rfl := Option.some.inj hdesired
      refine .inl ⟨?_, h.usable⟩
      rw [hrequested, hasked]
      rfl
    | none =>
      have hunasked : a.Unasked K := by
        intro ip hip
        rw [hrequested, hasked] at hip
        cases hip
      rcases hwhen with hsome | hleast
      · rw [hasked] at hsome
        cases hsome
      · exact .inr ⟨hunasked, hscanned, h.usable, hleast⟩

/-- An active lease of the address is stored when it is granted. -/
lemma stored_of_grants {p : Packet} {s' : AppState} {clientId : Str} {hostname : Option Str}
    (h : Grants (grantRow K scope (.v4 d) clientId hostname now scope.leaseSecs .Active) p s s') :
    ∃ l ∈ s'.db.leases.rows, l.scopeId = scope.id ∧ l.ip = fmtIpAddr (.v4 d) ∧
      l.identifier = toAsciiLowercase clientId ∧ l.state = .Active ∧
      l.expiresAt = K.rfc3339 (now + scope.leaseSecs) := by
  obtain ⟨i, hi⟩ := LeaseTable.exists_mem_upsert s.db.leases
    (grantRow K scope (.v4 d) clientId hostname now scope.leaseSecs .Active)
  rw [← h.leases] at hi
  exact ⟨_, hi, rfl, rfl, rfl, rfl, rfl⟩

/-- For every scope, reservations and leases, a REQUEST for a free address is acknowledged exactly when the
address is asked for in option 50 or is the lowest free one, and the reply can be built. -/
theorem acknowledged_iff (s : AppState) (hfaults : s.conn.faults = [])
    (hsend : s.sendFaults.headD false = false) (iface : Option RecvIface) (msg : Dhcp4Message) (now : ℤ)
    (a : AllocateArgs) (hcall : (DhcpInput.v4 iface msg).call K s.db now = some a) (d : Ipv4Addr)
    (h : RequestsFree K a msg d) :
    Acknowledged K a d s (((DhcpInput.v4 iface msg).handle K now).after s) ↔
      (msg.requestedIp = some d ∨ a.IsLowest K d) ∧ (DhcpInput.v4 iface msg).Buildable a := by
  obtain ⟨scope, hscope, rfl⟩ := Option.map_eq_some_iff.mp hcall
  have hmsg := h.request
  have hnames := h.names_iff (selectV4Scope_family hscope) rfl
  rw [← hnames, ← AllocateArgs.allocated_eq_some_iff]
  by_cases hgrant : requestGrant K scope (Db.reservationsOf s.db scope.id) (Db.leasesOf s.db scope.id) msg
      now = some d
  · have halloc := (requestGrant_eq_some_iff.mp hgrant).1
    constructor
    · intro hack
      refine ⟨halloc, ?_⟩
      by_contra hnot
      -- A handler that stops at the reply sends nothing.
      have hpanic : ∃ opt ∈ mergedForClient scope (Db.reservationsOf s.db scope.id) (v4ClientId msg),
          PanicsInLoop opt := by
        unfold DhcpInput.Buildable at hnot
        push Not at hnot
        exact hnot
      obtain ⟨reply, dest, hsent, -⟩ := hack.sent
      have hnothing := (sent_of_panic hfaults hmsg hscope hgrant hpanic).symm.trans hsent
      exact List.cons_ne_nil _ _ (List.self_eq_append_right.mp hnothing)
    · rintro ⟨-, hbuild⟩
      have hgrants := grants_request hfaults hmsg hscope hgrant hbuild
      exact ⟨⟨_, _, hgrants.sent hsend, rfl, rfl⟩, stored_of_grants hgrants⟩
  · have hrefused : requestGrant K scope (Db.reservationsOf s.db scope.id) (Db.leasesOf s.db scope.id) msg
        now = none := by
      rw [Option.eq_none_iff_forall_ne_some]
      intro y hy
      obtain rfl := (requestGrant_eq_some_iff.mp hy).2 d h.desired
      exact hgrant hy
    constructor
    · intro hack
      obtain ⟨reply, dest, hsent, htype, -⟩ := hack.sent
      have hnak := (sent_of_refused hfaults hsend hmsg hscope hrefused).symm.trans hsent
      cases List.append_cancel_left hnak
      cases htype
    · rintro ⟨halloc, -⟩
      refine absurd (requestGrant_eq_some_iff.mpr ⟨halloc, ?_⟩) hgrant
      intro d' hd'
      exact Option.some.inj (hd'.symm.trans h.desired)

end

/-- The allocator's call for a message in the free network. -/
def freeCall (msg : Dhcp4Message) : AllocateArgs :=
  callFor freeLan.db 60 lanScope (v4ClientId msg) (msg.requestedIp.map .v4)

/-- The second address of the free network may be given to any client. -/
lemma requestsFree_lan {msg : Dhcp4Message} (hmsg : msg.messageType = some .Request)
    (hdesired : desiredIp msg = some 0xc0a8010b) :
    RequestsFree plainCrates (freeCall msg) msg 0xc0a8010b where
  request := hmsg
  desired := hdesired
  unreserved := fun r hr => by cases hr
  unheld := fun l hl => by cases hl
  usable := by
    have hpool : IsPool lanScope (.v4 0xc0a8010a) (.v4 0xc0a8010b) :=
      ⟨by decide +kernel, by decide +kernel, rfl, rfl, by decide⟩
    refine ⟨⟨rfl, _, _, hpool, by decide, by decide⟩, ?_⟩
    rintro (⟨r, hr, -⟩ | ⟨l, hl, -⟩)
    · cases hr
    · cases hl

/-- A REQUEST for the second address. -/
def lanRequested : Dhcp4Message :=
  clientMessage 3 [0xaa, 0xaa, 0xaa, 0xaa, 0xaa, 0xaa] (some [192, 168, 1, 11])

/-- The second address is asked for and acknowledged. -/
theorem acknowledged_requested :
    Acknowledged plainCrates (freeCall lanRequested) 0xc0a8010b freeLan
      (((DhcpInput.v4 none lanRequested).handle plainCrates 60).after freeLan) := by
  refine (acknowledged_iff freeLan rfl rfl none lanRequested 60 _ (by rfl) _
    (requestsFree_lan (by decide +kernel) (by decide +kernel))).mpr ⟨.inl (by decide +kernel), ?_⟩
  intro opt hopt
  cases hopt

/-- The renewal of the second address, by a client that has used it. -/
def lanRenewal : Dhcp4Message :=
  { clientMessage 3 [0xaa, 0xaa, 0xaa, 0xaa, 0xaa, 0xaa] none with ciaddr := 0xc0a8010b }

/-- The address is renewed after its row was swept, and refused though it is free. -/
theorem not_acknowledged_renewal :
    (DhcpInput.v4 none lanRenewal).call plainCrates freeLan.db 60 = some (freeCall lanRenewal) ∧
      RequestsFree plainCrates (freeCall lanRenewal) lanRenewal 0xc0a8010b ∧
      (((DhcpInput.v4 none lanRenewal).handle plainCrates 60).after freeLan).sent =
        [.v4 ⟨lanRenewal, lanScope, [], 0, .Nak⟩ (.v4 0xffffffff, 68)] ∧
      ¬Acknowledged plainCrates (freeCall lanRenewal) 0xc0a8010b freeLan
        (((DhcpInput.v4 none lanRenewal).handle plainCrates 60).after freeLan) := by
  have hsent : (((DhcpInput.v4 none lanRenewal).handle plainCrates 60).after freeLan).sent =
      [.v4 ⟨lanRenewal, lanScope, [], 0, .Nak⟩ (.v4 0xffffffff, 68)] := by
    decide +kernel
  refine ⟨by rfl, requestsFree_lan (by decide +kernel) (by decide +kernel), hsent, ?_⟩
  intro hack
  obtain ⟨reply, dest, hack, htype, -⟩ := hack.sent
  rw [hsent] at hack
  cases hack
  cases htype

/-! ## Reservations for a hardware address -/

/-- The first reservation of the scope for the hardware address of the client. -/
structure ReservesMac (t : Tables) (scope : DhcpScope) (msg : Dhcp4Message) (r : DhcpReservation)
    (ip : Ipv4Addr) : Prop where
  first : ∃ pre post, Db.reservationsOf t scope.id = pre ++ r :: post ∧
    ∀ r' ∈ pre, eqIgnoreAsciiCase r'.identifier msg.clientMac = false
  identifier : eqIgnoreAsciiCase r.identifier msg.clientMac = true
  address : parseIpAddr r.ip = some (.v4 ip)

/-- The message is a REQUEST for another address. -/
def asksElse (msg : Dhcp4Message) (ip : Ipv4Addr) : Bool :=
  msg.messageType == some .Request && (desiredIp msg).any (· != ip)

/-- The answer that honours a reservation: a NAK to a REQUEST for another address, else the reserved
address and the options of the scope with the overrides. -/
def reservedReply (msg : Dhcp4Message) (scope : DhcpScope) (r : DhcpReservation) (ip : Ipv4Addr) :
    Packet :=
  if asksElse msg ip then .v4 ⟨msg, scope, [], 0, .Nak⟩ (v4ReplyDest msg true)
  else .v4 ⟨msg, scope, mergeOptions scope.options r.options, ip,
    if msg.messageType = some .Discover then .Offer else .Ack⟩ (v4ReplyDest msg false)

section

variable {t : Tables} {scope : DhcpScope} {iface : Option RecvIface} {msg : Dhcp4Message}
  {r : DhcpReservation} {ip : Ipv4Addr} {now : ℤ}

/-- Without a client identifier, a client is known by its hardware address. -/
lemma v4ClientId_eq_clientMac (h : ∀ id, msg.clientId = some id → id = []) :
    v4ClientId msg = msg.clientMac := by
  unfold v4ClientId
  cases hid : msg.clientId with
  | none => rfl
  | some id => rw [h id hid]; rfl

/-- The reserved address is the one that is allocated. -/
lemma ReservesMac.allocated (h : ReservesMac t scope msg r ip) {requestedIp : Option IpAddr} :
    (callFor t now scope msg.clientMac requestedIp).allocated K = some (.v4 ip) := by
  obtain ⟨pre, post, hsplit, hpre⟩ := h.first
  refine AllocateArgs.allocated_of_firstReserved ⟨pre, r, post, hsplit, ⟨h.identifier, h.address⟩, ?_⟩
  rintro r' hr' ip' ⟨hid, -⟩
  have hother : eqIgnoreAsciiCase r'.identifier msg.clientMac = false := hpre r' hr'
  exact Bool.noConfusion (hother.symm.trans hid)

/-- The overrides are those of the reservation. -/
lemma ReservesMac.merged (h : ReservesMac t scope msg r ip) :
    mergedForClient scope (Db.reservationsOf t scope.id) msg.clientMac =
      mergeOptions scope.options r.options := by
  obtain ⟨pre, post, hsplit, hpre⟩ := h.first
  have hfind : (Db.reservationsOf t scope.id).find? (eqIgnoreAsciiCase ·.identifier msg.clientMac) =
      some r := by
    refine List.find?_eq_some_iff_append.mpr ⟨h.identifier, pre, post, hsplit, ?_⟩
    intro r' hr'
    rw [hpre r' hr']
    rfl
  unfold mergedForClient
  rw [hfind]

/-- A REQUEST is for another address when it is for one that is not the reserved one. -/
lemma asksElse_iff (hmsg : msg.messageType = some .Request) :
    asksElse msg ip = true ↔ ∃ d, desiredIp msg = some d ∧ d ≠ ip := by
  unfold asksElse
  rw [hmsg, beq_self_eq_true, Bool.true_and]
  cases desiredIp msg with
  | none => simp
  | some d => simp

/-- A REQUEST is granted the allocated address unless it is for another one. -/
lemma requestGrant_of_allocated (hmsg : msg.messageType = some .Request)
    (halloc : (callFor t now scope (v4ClientId msg) (msg.requestedIp.map .v4)).allocated K =
      some (.v4 ip)) :
    requestGrant K scope (Db.reservationsOf t scope.id) (Db.leasesOf t scope.id) msg now =
      if asksElse msg ip then none else some ip := by
  split
  · rename_i helse
    obtain ⟨d, hd, hne⟩ := (asksElse_iff hmsg).mp helse
    rw [Option.eq_none_iff_forall_ne_some]
    intro y hy
    obtain ⟨hallocated, hall⟩ := requestGrant_eq_some_iff.mp hy
    obtain rfl := IpAddr.v4.inj (Option.some.inj (halloc.symm.trans hallocated))
    exact hne (hall d hd)
  · rename_i helse
    refine requestGrant_eq_some_iff.mpr ⟨halloc, ?_⟩
    intro d hd
    by_contra hne
    exact helse ((asksElse_iff hmsg).mpr ⟨d, hd, hne⟩)

/-- For every scope, lease table and reservation for the hardware address of a client: a DISCOVER or
REQUEST of the client without a client identifier is answered as the first such reservation of the scope
says. -/
theorem sent_reserved (s : AppState) (hfaults : s.conn.faults = [])
    (hsend : s.sendFaults.headD false = false) (iface : Option RecvIface) (msg : Dhcp4Message) (now : ℤ)
    (hmsg : msg.messageType = some .Discover ∨ msg.messageType = some .Request) (scope : DhcpScope)
    (hscope : selectV4Scope K (Db.listedScopes s.db) msg.giaddr iface = some scope)
    (r : DhcpReservation) (ip : Ipv4Addr) (hr : ReservesMac s.db scope msg r ip)
    (hid : ∀ id, msg.clientId = some id → id = [])
    (hbuild : asksElse msg ip = true ∨ ∀ opt ∈ mergeOptions scope.options r.options, ¬PanicsInLoop opt) :
    ((handleV4 K iface msg now).after s).sent = s.sent ++ [reservedReply msg scope r ip] := by
  have hclient : v4ClientId msg = msg.clientMac := v4ClientId_eq_clientMac hid
  have halloc : (callFor s.db now scope (v4ClientId msg) (msg.requestedIp.map .v4)).allocated K =
      some (.v4 ip) := by
    rw [hclient]
    exact hr.allocated
  have hmerged : mergedForClient scope (Db.reservationsOf s.db scope.id) (v4ClientId msg) =
      mergeOptions scope.options r.options := by
    rw [hclient]
    exact hr.merged
  unfold reservedReply
  rcases hmsg with hmsg | hmsg
  · have hany : asksElse msg ip = false := by
      unfold asksElse
      rw [hmsg]
      rfl
    rw [hany, Bool.false_eq_true, false_or, ← hmerged] at hbuild
    rw [hany, if_neg (by simp), if_pos hmsg, ← hmerged]
    exact (grants_discover hfaults hmsg hscope halloc hbuild).sent hsend
  · have hgrant := requestGrant_of_allocated hmsg halloc
    cases helse : asksElse msg ip with
    | true =>
      rw [helse, if_pos rfl] at hgrant
      rw [if_pos rfl]
      exact sent_of_refused hfaults hsend hmsg hscope hgrant
    | false =>
      rw [helse, if_neg Bool.false_ne_true] at hgrant
      rw [helse, Bool.false_eq_true, false_or, ← hmerged] at hbuild
      rw [if_neg Bool.false_ne_true, if_neg (by simp [hmsg]), ← hmerged]
      exact (grants_request hfaults hmsg hscope hgrant hbuild).sent hsend

end

/-- The option with the name server of a client. -/
def lanNameServer : DhcpOption := ⟨6, none, "192.168.1.2", .Ip⟩

/-- A reservation for a hardware address, with a name server of its own. -/
def lanReservation : DhcpReservation :=
  ⟨1, 1, "AA:aa:aa:aa:aa:aa", "192.168.1.50", none, [lanNameServer]⟩

/-- Another reservation for the same hardware address. -/
def secondReservation : DhcpReservation :=
  ⟨2, 1, "aa:aa:aa:aa:aa:aa", "192.168.1.51", none, []⟩

/-- The state with both reservations. -/
def reservedLan : AppState :=
  { lanState with conn := ⟨{ Tables.empty with
    scopes := [lanScope], reservations := [lanReservation, secondReservation] }, [], []⟩ }

/-- A DISCOVER without a client identifier. -/
def macDiscover : Dhcp4Message :=
  clientMessage 1 [0xaa, 0xaa, 0xaa, 0xaa, 0xaa, 0xaa] none

/-- The same client with a client identifier, as most clients send it: the type 1 and the hardware
address. -/
def identifiedDiscover : Dhcp4Message :=
  { macDiscover with options := [(53, [1]), (61, [1, 0xaa, 0xaa, 0xaa, 0xaa, 0xaa, 0xaa])] }

lemma reservesMac_lan : ReservesMac reservedLan.db lanScope macDiscover lanReservation 0xc0a80132 where
  first := ⟨[], [secondReservation], by decide +kernel, by simp⟩
  identifier := by decide +kernel
  address := by decide +kernel

/-- The client without an identifier is offered the address reserved for it, with its name server. -/
theorem sent_reserved_lan :
    ((handleV4 plainCrates none macDiscover 60).after reservedLan).sent =
      [.v4 ⟨macDiscover, lanScope, [lanNameServer], 0xc0a80132, .Offer⟩ (.v4 0xffffffff, 68)] := by
  have hsent := sent_reserved (K := plainCrates) reservedLan rfl rfl none macDiscover 60 (.inl (by decide)) lanScope
    (by decide +kernel) lanReservation 0xc0a80132 reservesMac_lan (fun id hid => by cases hid)
    (.inr (not_panicsInLoop (by decide)))
  exact hsent.trans (by decide +kernel)

/-- With an identifier, the client with the reserved hardware address is offered another address; and of
two reservations for one hardware address the second is not honoured either. -/
theorem not_sent_reserved :
    (lanReservation ∈ Db.reservationsOf reservedLan.db lanScope.id ∧
      eqIgnoreAsciiCase lanReservation.identifier identifiedDiscover.clientMac = true ∧
      parseIpAddr lanReservation.ip = some (.v4 0xc0a80132) ∧
      ((handleV4 plainCrates none identifiedDiscover 60).after reservedLan).sent =
        [.v4 ⟨identifiedDiscover, lanScope, [], 0xc0a8010a, .Offer⟩ (.v4 0xffffffff, 68)] ∧
      ((handleV4 plainCrates none identifiedDiscover 60).after reservedLan).sent ≠
        [reservedReply identifiedDiscover lanScope lanReservation 0xc0a80132]) ∧
    secondReservation ∈ Db.reservationsOf reservedLan.db lanScope.id ∧
      eqIgnoreAsciiCase secondReservation.identifier macDiscover.clientMac = true ∧
      parseIpAddr secondReservation.ip = some (.v4 0xc0a80133) ∧
      ((handleV4 plainCrates none macDiscover 60).after reservedLan).sent =
        [.v4 ⟨macDiscover, lanScope, [lanNameServer], 0xc0a80132, .Offer⟩ (.v4 0xffffffff, 68)] ∧
      ((handleV4 plainCrates none macDiscover 60).after reservedLan).sent ≠
        [reservedReply macDiscover lanScope secondReservation 0xc0a80133] := by
  decide +kernel

end Nomina
