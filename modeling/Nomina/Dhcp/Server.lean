import Nomina.Db.Dns
import Nomina.Dhcp.Lease
import Nomina.Dhcp.V4Reply
import Nomina.Dhcp.V6Reply
import Nomina.State

/-!
# The DHCP server

The message handlers of `dhcp/server.rs`: the choice of a scope, the answers to the messages of
DHCPv4 and DHCPv6 clients with the lease rows they write, and the registration of granted addresses
in DNS.
-/

namespace Nomina

open Lib

variable (K : Crates)

/-- Build a reply. A panic of the builder stops the handler. -/
def buildReply (reply : Reader Bytes) : App Unit :=
  match reply with
  | .ok _ => pure ()
  | .error _ => throw .panic

section

variable {reply : Reader Bytes}

/-- A reply that is built changes nothing. -/
lemma after_buildReply (s : AppState) : (buildReply reply).after s = s := by
  unfold buildReply
  cases reply <;> rfl

/-- The handler goes on when the reply is built. -/
lemma buildReply_bind {α : Type} {bytes : Bytes} (h : reply = .ok bytes) (k : Unit → App α) :
    (buildReply reply >>= k) = k () := by
  rw [h]
  rfl

/-- The handler stops when building the reply panics. -/
lemma buildReply_bind_panic {α : Type} (h : reply = .error .panic) (k : Unit → App α) :
    (buildReply reply >>= k) = throw .panic := by
  rw [h]
  rfl

/-- Building a reply keeps every relation. -/
lemma KeepsConn.buildReply {Q : Conn Tables → Conn Tables → Prop} [Sql.Frame Q] :
    KeepsConn Q (buildReply reply) := by
  intro s
  rw [after_buildReply]
  exact refl_of Q s.conn

/-- The handler goes on only with a reply that can be built. -/
lemma KeepsConn.built {Q : Conn Tables → Conn Tables → Prop} [Sql.Frame Q] {α : Type} {k : App α}
    (h : reply ≠ .error .panic → KeepsConn Q k) : KeepsConn Q (Nomina.buildReply reply >>= fun _ => k) := by
  by_cases hpanic : reply = .error .panic
  · rw [buildReply_bind_panic hpanic]
    exact .throw _
  · exact .bind .buildReply fun _ => h hpanic

end

/-! ## DNS registration -/

/-- `sanitize_label`: reduce a host name to a single safe label. -/
def sanitizeLabel (raw : Str) : Option Str :=
  let first := (split '.' raw).headD raw
  let kept := (first.filter fun c => c.isAlphanum || c == '-').take 63
  let cleaned := toAsciiLowercase ((kept.dropWhile (· == '-')).rdropWhile (· == '-'))
  if cleaned.isEmpty then none else some cleaned

/-- `reverse_name`: the owner name of the PTR record of an address. -/
def reverseName : IpAddr → Str
  | .v4 a => ((octets a).reverse.flatMap fun o => fmtOctet o ++ ['.']) ++ "in-addr.arpa".toList
  | .v6 a => ((digitsBE 256 16 a.toNat).reverse.flatMap fun b =>
      fmtHex (b % 16) ++ '.' :: fmtHex (b / 16) ++ ['.']) ++ "ip6.arpa".toList

/-- Whether a zone name is a reverse zone. -/
def isReverseZone (zn : Str) : Bool :=
  endsWith zn ".in-addr.arpa" || endsWith zn ".ip6.arpa" || zn == "in-addr.arpa".toList ||
    zn == "ip6.arpa".toList

/-- The PTR half of `register_dns`: a record in the covering reverse zone, if there is one. -/
def registerPtr (rev target : Str) (ttl : ℕ) : Sql Tables Unit := do
  let zones ← Db.listZones
  match Db.longestSuffixZone isReverseZone rev zones with
  | none => pure ()
  | some (zoneId, zoneName) => do
    let _ ← Db.createRecord zoneId none (Db.relativeTo rev zoneName) "PTR" (some ttl) target
    pure ()

/-- The part of `register_dns` after the checks: the forward record and a reload, then the PTR. -/
def registerAddress (ip : IpAddr) (fqdn : Str) (ttl : ℕ) : App Unit := do
  match ← tryDb (Db.dyndnsSetAddress fqdn ip none ttl) with
  | .error _ => pure ()
  | .ok _ => do
    reloadStore K
    let _ ← tryDb (registerPtr (reverseName ip) (fqdn ++ ['.']) ttl)
    pure ()

/-- The host name and the TTL that an address is registered with; `none` unless the scope registers
into a zone and the client has a usable host name. -/
def registration (scope : DhcpScope) (hostname : Option Str) : Option (Str × ℕ) :=
  if !scope.dnsRegister then none
  else match scope.dnsZone, hostname.bind sanitizeLabel with
    | some zone, some host => some (host ++ '.' :: zone, max scope.leaseSecs 60)
    | _, _ => none

/-- `register_dns`. -/
def registerDns (scope : DhcpScope) (ip : IpAddr) (hostname : Option Str) : App Unit :=
  match registration scope hostname with
  | none => pure ()
  | some (fqdn, ttl) => registerAddress K ip fqdn ttl

/-! ## DHCPv4 -/

/-- How long an offer is held. -/
def offerHoldSecs : ℕ := 120

/-- The interface a request arrived on. -/
structure RecvIface where
  name : Str
  addr : Option Ipv4Addr
deriving DecidableEq

/-- Whether the subnet of a scope contains an address. -/
def subnetContains (s : DhcpScope) (addr : Ipv4Addr) : Bool :=
  (K.parseIpNet s.subnet).any (·.contains (.v4 addr))

/-- `select_v4_scope`: by relay address, by interface, else the first enabled scope. -/
def selectV4Scope (scopes : List DhcpScope) (giaddr : Ipv4Addr) (iface : Option RecvIface) :
    Option DhcpScope :=
  let enabled := scopes.filter fun s => s.enabled && s.family == .V4
  let relayed := if giaddr = 0 then none else enabled.find? (subnetContains K · giaddr)
  let pinned := iface.bind fun ic => enabled.find? (·.interface == some ic.name)
  let onLink := iface.bind fun ic => ic.addr.bind fun a => enabled.find? (subnetContains K · a)
  (relayed.or pinned).or (onLink.or enabled.head?)

/-- `merge_options`: reservation options replace the scope's of the same code. -/
def mergeOptions (scopeOpts reservationOpts : List DhcpOption) : List DhcpOption :=
  reservationOpts.foldl (fun out ro =>
    match out.findIdx? (·.code == ro.code) with
    | some i => out.set i ro
    | none => out ++ [ro]) scopeOpts

/-- `merged_for_client`. -/
def mergedForClient (scope : DhcpScope) (reservations : List DhcpReservation) (cid : Str) :
    List DhcpOption :=
  match reservations.find? (eqIgnoreAsciiCase ·.identifier cid) with
  | some r => mergeOptions scope.options r.options
  | none => scope.options

/-- `v4_reply_dest`. -/
def v4ReplyDest (req : Dhcp4Message) (isNak : Bool) : IpAddr × ℕ :=
  if req.giaddr ≠ 0 then (.v4 req.giaddr, 67)
  else if isNak then (.v4 0xffffffff, 68)
  else if req.ciaddr ≠ 0 then (.v4 req.ciaddr, 68)
  else (.v4 0xffffffff, 68)

/-- `persist_v4_lease`. -/
def persistV4Lease (scope : DhcpScope) (ip : Ipv4Addr) (cid : Str) (hostname : Option Str)
    (starts expires : ℤ) (st : LeaseState) : Sql Tables Unit :=
  Db.upsertDhcpLease scope.id .V4 (fmtIpAddr (.v4 ip)) cid hostname (K.rfc3339 starts)
    (K.rfc3339 expires) st

/-- Mark a lease as declined. -/
def declineLease (l : DhcpLease) : Sql Tables Unit :=
  Db.upsertDhcpLease l.scopeId l.family l.ip l.identifier l.hostname l.startsAt l.expiresAt .Declined

/-- The statement of `release_v4_lease` for one lease: RELEASE deletes the row, DECLINE marks
it. -/
def releaseLease (st : LeaseState) (l : DhcpLease) : Sql Tables Unit :=
  if st = .Released then Db.deleteDhcpLease l.id else declineLease l

/-- The loop of `release_v4_lease` over the leases of the client. -/
def releaseLeases (st : LeaseState) : List DhcpLease → Sql Tables Unit
  | [] => pure ()
  | l :: mine => do
    releaseLease st l
    releaseLeases st mine

/-- `release_v4_lease`. -/
def releaseV4Lease (leases : List DhcpLease) (cid : Str) (st : LeaseState) : App Unit :=
  let mine := leases.filter fun l => eqIgnoreAsciiCase l.identifier cid
  if mine.isEmpty then pure () else runDb (releaseLeases st mine)

/-- The decision of a REQUEST: the address to acknowledge, `none` for a NAK. The address the client
wants is option 50, else the one it renews. -/
def requestGrant (scope : DhcpScope) (reservations : List DhcpReservation)
    (leases : List DhcpLease) (msg : Dhcp4Message) (now : ℤ) : Option Ipv4Addr :=
  let alloc := allocate K scope reservations leases (v4ClientId msg)
    (msg.requestedIp.map .v4) now
  let desired := msg.requestedIp.or (if msg.ciaddr = 0 then none else some msg.ciaddr)
  match alloc with
  | some (.v4 yiaddr) => if desired.all (· == yiaddr) then some yiaddr else none
  | _ => none

variable {K} in
/-- An acknowledged address was allocated, and is the one the client wants. -/
lemma allocate_of_requestGrant {scope : DhcpScope} {reservations : List DhcpReservation}
    {leases : List DhcpLease} {msg : Dhcp4Message} {now : ℤ} {yiaddr : Ipv4Addr}
    (h : requestGrant K scope reservations leases msg now = some yiaddr) :
    allocate K scope reservations leases (v4ClientId msg) (msg.requestedIp.map .v4) now =
      some (.v4 yiaddr) := by
  simp only [requestGrant] at h
  generalize allocate K scope reservations leases (v4ClientId msg) (msg.requestedIp.map .v4) now =
    alloc at h ⊢
  split at h
  · simp only [Option.ite_none_right_eq_some, Option.some.injEq] at h
    rw [h.2]
  · cases h

/-- The answer of `handle_v4` once the scope, its reservations and its leases are read. -/
def answerV4 (msg : Dhcp4Message) (mtype : Dhcp4MessageType) (scope : DhcpScope)
    (reservations : List DhcpReservation) (leases : List DhcpLease) (now : ℤ) : App Unit :=
  let cid := v4ClientId msg
  let merged := mergedForClient scope reservations cid
  match mtype with
  | .Discover =>
    match allocate K scope reservations leases cid (msg.requestedIp.map .v4) now with
    | some (.v4 yiaddr) => do
      let reply : V4Reply := ⟨msg, scope, merged, yiaddr, .Offer⟩
      buildReply (buildV4Reply K reply)
      let hold := min scope.leaseSecs offerHoldSecs
      runDb (persistV4Lease K scope yiaddr cid msg.hostname now (now + hold) .Offered)
      send (.v4 reply (v4ReplyDest msg false))
    | _ => pure ()
  | .Request =>
    match requestGrant K scope reservations leases msg now with
    | some yiaddr => do
      let reply : V4Reply := ⟨msg, scope, merged, yiaddr, .Ack⟩
      buildReply (buildV4Reply K reply)
      runDb (persistV4Lease K scope yiaddr cid msg.hostname now (now + scope.leaseSecs) .Active)
      send (.v4 reply (v4ReplyDest msg false))
      registerDns K scope (.v4 yiaddr) msg.hostname
    | none => do
      let reply : V4Reply := ⟨msg, scope, [], 0, .Nak⟩
      buildReply (buildV4Reply K reply)
      send (.v4 reply (v4ReplyDest msg true))
  | .Release => releaseV4Lease leases cid .Released
  | .Decline => releaseV4Lease leases cid .Declined
  | .Inform => do
    let reply : V4Reply := ⟨msg, scope, merged, 0, .Ack⟩
    buildReply (buildV4Reply K reply)
    send (.v4 reply (v4ReplyDest msg false))
  | .Offer | .Ack | .Nak => pure ()

/-- `handle_v4`, at the time `now`. -/
def handleV4 (iface : Option RecvIface) (msg : Dhcp4Message) (now : ℤ) : App Unit :=
  match msg.messageType with
  | none => pure ()
  | some mtype => do
    let scopes ← runDb Db.listDhcpScopes
    match selectV4Scope K scopes msg.giaddr iface with
    | none => pure ()
    | some scope => do
      let reservations ← runDb (Db.listDhcpReservations scope.id)
      let leases ← runDb (Db.listDhcpLeases scope.id)
      answerV4 K msg mtype scope reservations leases now

/-! ## DHCPv6 -/

/-- `persist_v6_lease`. -/
def persistV6Lease (scope : DhcpScope) (ip : Ipv6Addr) (duid : Str) (starts expires : ℤ)
    (st : LeaseState) : Sql Tables Unit :=
  Db.upsertDhcpLease scope.id .V6 (fmtIpAddr (.v6 ip)) duid none (K.rfc3339 starts)
    (K.rfc3339 expires) st

/-- The answer of `handle_v6` to SOLICIT, REQUEST, RENEW and REBIND. -/
def assignV6 (msg : Dhcp6Message) (src : IpAddr) (duid : Str) (scope : DhcpScope)
    (reservations : List DhcpReservation) (leases : List DhcpLease) (now : ℤ) : App Unit :=
  match allocate K scope reservations leases duid none now with
  | some (.v6 assigned) =>
    if msg.msgType = .Solicit then do
      let reply : V6Reply := ⟨msg, scope, assigned, .Advertise, K.serverDuid⟩
      buildReply (buildV6Reply reply)
      let hold := min scope.leaseSecs offerHoldSecs
      runDb (persistV6Lease K scope assigned duid now (now + hold) .Offered)
      send (.v6 reply (src, 546))
    else do
      let reply : V6Reply := ⟨msg, scope, assigned, .Reply, K.serverDuid⟩
      buildReply (buildV6Reply reply)
      runDb (persistV6Lease K scope assigned duid now (now + scope.leaseSecs) .Active)
      send (.v6 reply (src, 546))
      registerDns K scope (.v6 assigned) (v6Fqdn msg)
  | _ => pure ()

/-- The deletes of a DHCPv6 RELEASE or DECLINE. -/
def deleteLeases : List ℕ → Sql Tables Unit
  | [] => pure ()
  | id :: ids => do
    Db.deleteDhcpLease id
    deleteLeases ids

/-- The answer of `handle_v6` once the scope, its reservations and its leases are read. -/
def answerV6 (msg : Dhcp6Message) (src : IpAddr) (duid : Str) (scope : DhcpScope)
    (reservations : List DhcpReservation) (leases : List DhcpLease) (now : ℤ) : App Unit :=
  match msg.msgType with
  | .Solicit | .Request | .Renew | .Rebind => assignV6 K msg src duid scope reservations leases now
  | .Release | .Decline =>
    let ids := (leases.filter fun l => eqIgnoreAsciiCase l.identifier duid).map DhcpLease.id
    if ids.isEmpty then pure () else runDb (deleteLeases ids)
  | .Advertise | .Confirm | .Reply | .InformationRequest => pure ()

/-- `handle_v6`, at the time `now`. -/
def handleV6 (msg : Dhcp6Message) (src : IpAddr) (now : ℤ) : App Unit := do
  let scopes ← runDb Db.listDhcpScopes
  match scopes.find? (fun s => s.enabled && s.family == .V6), msg.clientDuid with
  | some scope, some duid => do
    let reservations ← runDb (Db.listDhcpReservations scope.id)
    let leases ← runDb (Db.listDhcpLeases scope.id)
    answerV6 K msg src duid scope reservations leases now
  | _, _ => pure ()

end Nomina
