import Nomina.Dhcp.Server

/-!
# Lease protection

A message of one client never touches the lease another client holds, unless the address is reserved
for the sender. The argument has two parts: what the statements of a handler do to one lease row
(`KeepsLease`), and that the rows a handler writes, which it chooses from what it read, are never the
row of another holder.
-/

namespace Nomina

open Lib Sql

variable {K : Crates}

/-! ## Statements and one lease row -/

/-- The row, if it is in the table before, is still there after. -/
def KeepsLease (l : DhcpLease) (t t' : Tables) : Prop :=
  l ∈ t.leases.rows → l ∈ t'.leases.rows

instance (l : DhcpLease) : IsPreorder Tables (KeepsLease l) where
  refl _ h := h
  trans _ _ _ h h' hl := h' (h hl)

/-- The leases are the same. -/
def SameLeases (t t' : Tables) : Prop :=
  t'.leases = t.leases

instance : IsPreorder Tables SameLeases where
  refl _ := rfl
  trans _ _ _ h h' := Eq.trans h' h

/-- A handler that leaves the leases alone keeps every row. -/
lemma KeepsDb.lease_of_same {α : Type} {m : App α} (h : KeepsDb SameLeases m) (l : DhcpLease) :
    KeepsDb (KeepsLease l) m := by
  intro s hl
  have hsame : (m.after s).db.leases = s.db.leases := h s
  rw [hsame]
  exact hl

/-- Inserting a record leaves the leases alone. -/
lemma sameLeases_insertRecord {t t' : Tables} {r : DnsRecord} {i : ℕ}
    (h : t.insertRecord r = .ok (i, t')) : SameLeases t t' := by
  unfold Tables.insertRecord at h
  split at h
  · cases h
    rfl
  · cases h

/-- Registration in DNS keeps what the writes of records keep. -/
lemma keepsDb_registerDns {R : Tables → Tables → Prop} [IsPreorder Tables R]
    (hinsert : ∀ t r i t', t.insertRecord r = .ok (i, t') → R t t')
    (hrow : ∀ t id f, R t (t.mapRecord id f)) (hbump : ∀ t zoneId, R t (t.bump zoneId))
    {scope : DhcpScope} {ip : IpAddr} {hostname : Option Str} :
    KeepsDb R (registerDns K scope ip hostname) := by
  have hforward : ∀ fqdn ttl, Keeps R (Db.dyndnsSetAddress fqdn ip none ttl) :=
    fun _ _ => Db.keeps_dyndnsSetAddress hinsert (fun t id f _ => hrow t id f) hbump
  have hptr : ∀ rev target ttl, Keeps R (registerPtr rev target ttl) := by
    intro rev target ttl
    unfold registerPtr
    refine .bind (.select _) fun zones => ?_
    split
    · exact .pure ()
    · exact .bind (Db.keeps_createRecord (fun t r i t' _ h => hinsert t r i t' h)
        fun t => hbump t _) fun _ => .pure ()
  unfold registerDns
  split
  · exact .pure ()
  · unfold registerAddress
    refine .bind (.tryDb (hforward _ _)) fun r => ?_
    cases r with
    | error e => exact .pure ()
    | ok u => exact .bind (.reloadStore K) fun _ => .bind (.tryDb (hptr _ _ _)) fun _ => .pure ()

/-- Registration in DNS leaves the leases alone. -/
lemma sameLeases_registerDns {scope : DhcpScope} {ip : IpAddr} {hostname : Option Str} :
    KeepsDb SameLeases (registerDns K scope ip hostname) :=
  keepsDb_registerDns (fun _ _ _ _ h => sameLeases_insertRecord h) (fun _ _ _ => rfl)
    fun _ _ => rfl

section Releases

variable {R : Tables → Tables → Prop} [IsPreorder Tables R]

/-- The release of the leases of a client keeps what its statements keep. -/
lemma KeepsDb.releaseV4Lease {leases : List DhcpLease} {cid : Str} {st : LeaseState}
    (h : Keeps R (releaseLeases st (leases.filter fun l => eqIgnoreAsciiCase l.identifier cid))) :
    KeepsDb R (releaseV4Lease leases cid st) := by
  unfold Nomina.releaseV4Lease
  dsimp only
  split
  · exact .pure ()
  · exact .runDb h

lemma KeepsDb.deleteLeases {ids : List ℕ} (h : Keeps R (deleteLeases ids)) :
    KeepsDb R (if ids.isEmpty then pure () else runDb (Nomina.deleteLeases ids) : App Unit) := by
  split
  · exact .pure ()
  · exact .runDb h

end Releases

section LeaseStatements

variable {l : DhcpLease}

/-- An upsert keeps the rows of other addresses and scopes. -/
lemma keepsLease_upsert {scopeId : ℕ} {family : IpFamily} {ip identifier : Str}
    {hostname : Option Str} {startsAt expiresAt : Str} {state : LeaseState}
    (hne : ¬ (l.scopeId = scopeId ∧ l.ip = ip)) :
    Keeps (KeepsLease l)
      (Db.upsertDhcpLease scopeId family ip identifier hostname startsAt expiresAt state) := by
  unfold Db.upsertDhcpLease
  refine Keeps.execute ?_
  intro t a t' h hl
  split at h
  · cases h
    exact LeaseTable.mem_upsert_of_ne hl hne
  · cases h

/-- Deleting a row keeps the rows with other ids. -/
lemma keepsLease_delete {id : ℕ} (hne : l.id ≠ id) :
    Keeps (KeepsLease l) (Db.deleteDhcpLease id) := by
  unfold Db.deleteDhcpLease
  refine Keeps.update ?_
  intro t hl
  exact List.mem_filter.mpr ⟨hl, by simpa using hne⟩

/-- The rows of a client that are released or declined are other rows. -/
lemma keepsLease_releaseLeases {st : LeaseState} {mine : List DhcpLease}
    (h : ∀ m ∈ mine, l.id ≠ m.id ∧ ¬ (l.scopeId = m.scopeId ∧ l.ip = m.ip)) :
    Keeps (KeepsLease l) (releaseLeases st mine) := by
  induction mine with
  | nil => exact .pure ()
  | cons m mine ih =>
    have hm := h m List.mem_cons_self
    unfold releaseLeases
    refine .bind ?_ fun _ => ih fun m' hm' => h m' (List.mem_cons_of_mem _ hm')
    unfold releaseLease
    split
    · exact keepsLease_delete hm.1
    · exact keepsLease_upsert hm.2

lemma keepsLease_deleteLeases {ids : List ℕ} (h : l.id ∉ ids) :
    Keeps (KeepsLease l) (deleteLeases ids) := by
  induction ids with
  | nil => exact .pure ()
  | cons id ids ih =>
    rw [List.mem_cons, not_or] at h
    unfold deleteLeases
    exact .bind (keepsLease_delete h.1) fun _ => ih h.2

end LeaseStatements

/-! ## What a handler reads -/

/-- The address of the lease is reserved for the client in the scope of the lease. -/
def ReservedFor (t : Tables) (cid : Str) (l : DhcpLease) : Prop :=
  ∃ r ∈ t.reservations, r.scopeId = l.scopeId ∧ eqIgnoreAsciiCase r.identifier cid = true ∧
    ∃ ip, parseIpAddr r.ip = some ip ∧ parseIpAddr l.ip = some ip

/-- The lease is held at `now` by another client than `cid`, and its address is not reserved for
`cid`. -/
structure HeldByOther (K : Crates) (t : Tables) (cid : Str) (now : ℤ) (l : DhcpLease) : Prop where
  mem : l ∈ t.leases.rows
  holding : isHolding K l now = true
  other : eqIgnoreAsciiCase l.identifier cid = false
  notReserved : ¬ ReservedFor t cid l

section Reads

variable {t : Tables} {cid : Str} {now : ℤ} {l : DhcpLease}

lemma mem_leasesOf {scopeId : ℕ} {m : DhcpLease} :
    m ∈ Db.leasesOf t scopeId ↔ m ∈ t.leases.rows ∧ m.scopeId = scopeId := by
  unfold Db.leasesOf
  rw [(List.perm_insertionSort _ _).mem_iff, List.mem_filter, beq_iff_eq]

lemma mem_reservationsOf {scopeId : ℕ} {r : DhcpReservation} :
    r ∈ Db.reservationsOf t scopeId ↔ r ∈ t.reservations ∧ r.scopeId = scopeId := by
  unfold Db.reservationsOf
  rw [(List.perm_insertionSort _ _).mem_iff, List.mem_filter, beq_iff_eq]

/-- The address allocated to a client is not the address of a lease another client holds. -/
lemma allocate_ne_held (h : HeldByOther K t cid now l) {scope : DhcpScope}
    {requestedIp : Option IpAddr} {ip : IpAddr}
    (halloc : allocate K scope (Db.reservationsOf t scope.id) (Db.leasesOf t scope.id) cid
      requestedIp now = some ip) (hfam : familyMatches ip scope.family = true) :
    ¬ (l.scopeId = scope.id ∧ l.ip = fmtIpAddr ip) := by
  rintro ⟨hscope, hip⟩
  have hparse : parseIpAddr l.ip = some ip := by rw [hip, parseIpAddr_fmtIpAddr]
  rcases allocate_spec halloc hfam with ⟨r, hr, hid, hrip⟩ | hfree
  · obtain ⟨hr, hrscope⟩ := mem_reservationsOf.mp hr
    exact h.notReserved ⟨r, hr, hrscope.trans hscope.symm, hid, ip, hrip, hparse⟩
  · exact hfree l (mem_leasesOf.mpr ⟨h.mem, hscope⟩) h.holding h.other hparse

/-- The leases of the client are other rows than one held by another client. -/
lemma own_ne_held (h : HeldByOther K t cid now l) {scopeId : ℕ} {m : DhcpLease}
    (hm : m ∈ (Db.leasesOf t scopeId).filter fun l => eqIgnoreAsciiCase l.identifier cid) :
    l.id ≠ m.id ∧ ¬ (l.scopeId = m.scopeId ∧ l.ip = m.ip) := by
  obtain ⟨hmem, hid⟩ := List.mem_filter.mp hm
  have hrow := (mem_leasesOf.mp hmem).1
  have hne : l ≠ m := by
    rintro rfl
    rw [h.other] at hid
    cases hid
  exact ⟨fun heq => hne (LeaseTable.eq_of_id_eq h.mem hrow heq),
    fun heq => hne (LeaseTable.eq_of_addr_eq h.mem hrow heq.1 heq.2)⟩

end Reads

/-! ## Handlers -/

section Handlers

variable {t : Tables} {now : ℤ} {l : DhcpLease}

/-- Every answer to a DHCPv4 message keeps a lease held by another client. -/
lemma keepsLease_answerV4 {msg : Dhcp4Message} (h : HeldByOther K t (v4ClientId msg) now l)
    (mtype : Dhcp4MessageType) {scope : DhcpScope} (hfam : scope.family = .V4) :
    KeepsDb (KeepsLease l) (answerV4 K msg mtype scope (Db.reservationsOf t scope.id)
      (Db.leasesOf t scope.id) now) := by
  have hpersist : ∀ {requestedIp : Option IpAddr} {yiaddr : Ipv4Addr} {hostname : Option Str}
      {starts expires : ℤ} {st : LeaseState},
      allocate K scope (Db.reservationsOf t scope.id) (Db.leasesOf t scope.id) (v4ClientId msg)
        requestedIp now = some (.v4 yiaddr) →
      Keeps (KeepsLease l)
        (persistV4Lease K scope yiaddr (v4ClientId msg) hostname starts expires st) := by
    intro _ _ _ _ _ _ halloc
    exact keepsLease_upsert (allocate_ne_held h halloc (familyMatches_v4 hfam _))
  unfold answerV4
  cases mtype with
  | Discover =>
    dsimp only
    split
    · exact .bind .buildReply fun _ => .bind (.runDb (hpersist ‹_›)) fun _ => .send _
    · exact .pure ()
  | Request =>
    dsimp only
    split
    · rename_i yiaddr hgrant
      exact .bind .buildReply fun _ =>
        .bind (.runDb (hpersist (allocate_of_requestGrant hgrant))) fun _ =>
        .bind (.send _) fun _ => sameLeases_registerDns.lease_of_same l
    · exact .bind .buildReply fun _ => .send _
  | Release => exact .releaseV4Lease (keepsLease_releaseLeases fun m hm => own_ne_held h hm)
  | Decline => exact .releaseV4Lease (keepsLease_releaseLeases fun m hm => own_ne_held h hm)
  | Inform => exact .bind .buildReply fun _ => .send _
  | Offer => exact .pure ()
  | Ack => exact .pure ()
  | Nak => exact .pure ()

/-- Every answer to a DHCPv6 message keeps a lease held by another client. -/
lemma keepsLease_answerV6 {duid : Str} (h : HeldByOther K t duid now l) (msg : Dhcp6Message)
    (src : IpAddr) {scope : DhcpScope} (hfam : scope.family = .V6) :
    KeepsDb (KeepsLease l) (answerV6 K msg src duid scope (Db.reservationsOf t scope.id)
      (Db.leasesOf t scope.id) now) := by
  have hassign : KeepsDb (KeepsLease l) (assignV6 K msg src duid scope
      (Db.reservationsOf t scope.id) (Db.leasesOf t scope.id) now) := by
    unfold assignV6
    split
    · rename_i assigned halloc
      have hne := allocate_ne_held h halloc (familyMatches_v6 hfam assigned)
      split
      · exact .bind .buildReply fun _ => .bind (.runDb (keepsLease_upsert hne)) fun _ => .send _
      · exact .bind .buildReply fun _ => .bind (.runDb (keepsLease_upsert hne)) fun _ =>
          .bind (.send _) fun _ => sameLeases_registerDns.lease_of_same l
    · exact .pure ()
  have hdelete : KeepsDb (KeepsLease l) (let ids := ((Db.leasesOf t scope.id).filter fun l =>
      eqIgnoreAsciiCase l.identifier duid).map DhcpLease.id
      if ids.isEmpty then pure () else runDb (deleteLeases ids) : App Unit) := by
    refine .deleteLeases (keepsLease_deleteLeases ?_)
    intro hid
    obtain ⟨m, hm, hmid⟩ := List.mem_map.mp hid
    exact (own_ne_held h hm).1 hmid.symm
  unfold answerV6
  cases msg.msgType with
  | Solicit => exact hassign
  | Request => exact hassign
  | Renew => exact hassign
  | Rebind => exact hassign
  | Release => exact hdelete
  | Decline => exact hdelete
  | Advertise => exact .pure ()
  | Confirm => exact .pure ()
  | Reply => exact .pure ()
  | InformationRequest => exact .pure ()

/-- The scope chosen for a DHCPv4 message is an enabled DHCPv4 scope of the list. -/
lemma mem_of_selectV4Scope {scopes : List DhcpScope} {giaddr : Ipv4Addr}
    {iface : Option RecvIface} {scope : DhcpScope}
    (h : selectV4Scope K scopes giaddr iface = some scope) :
    scope ∈ scopes.filter fun s => s.enabled && s.family == .V4 := by
  simp only [selectV4Scope, Option.or_eq_some_iff] at h
  rcases h with (h | ⟨-, h⟩) | ⟨-, h | ⟨-, h⟩⟩
  · split at h
    · cases h
    · exact List.mem_of_find?_eq_some h
  · obtain ⟨ic, -, h⟩ := Option.bind_eq_some_iff.mp h
    exact List.mem_of_find?_eq_some h
  · obtain ⟨ic, -, h⟩ := Option.bind_eq_some_iff.mp h
    obtain ⟨a, -, h⟩ := Option.bind_eq_some_iff.mp h
    exact List.mem_of_find?_eq_some h
  · exact List.mem_of_head? h

lemma selectV4Scope_family {scopes : List DhcpScope} {giaddr : Ipv4Addr}
    {iface : Option RecvIface} {scope : DhcpScope}
    (h : selectV4Scope K scopes giaddr iface = some scope) : scope.family = .V4 := by
  have := (List.mem_filter.mp (mem_of_selectV4Scope h)).2
  simp only [Bool.and_eq_true, beq_iff_eq] at this
  exact this.2

/-- The scopes, in the order `list_dhcp_scopes` gives them. -/
def Db.listedScopes (t : Tables) : List DhcpScope :=
  t.scopes.insertionSort fun s s' => s.name ≤ s'.name

lemma Db.mem_listedScopes {scope : DhcpScope} : scope ∈ Db.listedScopes t ↔ scope ∈ t.scopes :=
  (List.perm_insertionSort _ _).mem_iff

lemma mem_scopes_of_selectV4Scope {giaddr : Ipv4Addr} {iface : Option RecvIface} {scope : DhcpScope}
    (h : selectV4Scope K (Db.listedScopes t) giaddr iface = some scope) : scope ∈ t.scopes :=
  Db.mem_listedScopes.mp (List.mem_filter.mp (mem_of_selectV4Scope h)).1

/-- The scope a DHCPv6 message is answered from. -/
def selectV6Scope (t : Tables) : Option DhcpScope :=
  (Db.listedScopes t).find? fun s => s.enabled && s.family == .V6

lemma mem_of_selectV6Scope {scope : DhcpScope} (h : selectV6Scope t = some scope) :
    scope ∈ t.scopes :=
  Db.mem_listedScopes.mp (List.mem_of_find?_eq_some h)

lemma selectV6Scope_family {scope : DhcpScope} (h : selectV6Scope t = some scope) :
    scope.family = .V6 := by
  have := List.find?_some h
  simp only [Bool.and_eq_true, beq_iff_eq] at this
  exact this.2

section Run

variable {R : Tables → Tables → Prop} [IsPreorder Tables R] {s : AppState}

/-- The handling of a DHCPv4 message keeps what the answer keeps that it chooses from what the
database holds. -/
lemma keepsDb_handleV4 {iface : Option RecvIface} {msg : Dhcp4Message}
    (h : ∀ mtype scope, msg.messageType = some mtype →
      selectV4Scope K (Db.listedScopes s.db) msg.giaddr iface = some scope →
      KeepsDb R (answerV4 K msg mtype scope (Db.reservationsOf s.db scope.id)
        (Db.leasesOf s.db scope.id) now)) :
    R s.db ((handleV4 K iface msg now).after s).db := by
  unfold handleV4
  split
  · exact refl_of R s.db
  · rename_i mtype hmtype
    refine keepsDb_select_bind fun s₁ hs₁ => ?_
    split
    · exact refl_of R s₁.db
    · rename_i scope hscope
      refine keepsDb_select_bind fun s₂ hs₂ => keepsDb_select_bind fun s₃ hs₃ => ?_
      rw [hs₂, hs₁]
      exact h mtype scope hmtype hscope s₃

/-- The same for a DHCPv6 message. -/
lemma keepsDb_handleV6 {msg : Dhcp6Message} {src : IpAddr}
    (h : ∀ scope duid, selectV6Scope s.db = some scope → msg.clientDuid = some duid →
      KeepsDb R (answerV6 K msg src duid scope (Db.reservationsOf s.db scope.id)
        (Db.leasesOf s.db scope.id) now)) :
    R s.db ((handleV6 K msg src now).after s).db := by
  unfold handleV6
  refine keepsDb_select_bind fun s₁ hs₁ => ?_
  split
  · rename_i scope duid hscope hduid
    refine keepsDb_select_bind fun s₂ hs₂ => keepsDb_select_bind fun s₃ hs₃ => ?_
    rw [hs₂, hs₁]
    exact h scope duid hscope hduid s₃
  · exact refl_of R s₁.db

end Run

end Handlers

/-! ## Every message -/

/-- An incoming message, with what the socket knows about it. -/
inductive DhcpInput
  | v4 (iface : Option RecvIface) (msg : Dhcp4Message)
  | v6 (msg : Dhcp6Message) (src : IpAddr)

/-- The identifier of the client that sent a message. -/
def DhcpInput.client : DhcpInput → Option Str
  | .v4 _ msg => some (v4ClientId msg)
  | .v6 msg _ => msg.clientDuid

variable (K) in
/-- Handle a message at the time `now`. -/
def DhcpInput.handle (input : DhcpInput) (now : ℤ) : App Unit :=
  match input with
  | .v4 iface msg => handleV4 K iface msg now
  | .v6 msg src => handleV6 K msg src now

/-- Whatever message a client sends and wherever its handling stops, a lease row that is held by
another client at that time, and whose address is not reserved for the sender, is left exactly as it
is. -/
theorem handle_keeps_held_lease (s : AppState) (input : DhcpInput) (now : ℤ) (l : DhcpLease)
    (hmem : l ∈ s.db.leases.rows) (hhold : isHolding K l now = true)
    (hother : ∀ cid, input.client = some cid →
      eqIgnoreAsciiCase l.identifier cid = false ∧ ¬ ReservedFor s.db cid l) :
    l ∈ ((input.handle K now).after s).db.leases.rows := by
  have h : ∀ cid, input.client = some cid → HeldByOther K s.db cid now l :=
    fun cid hcid => ⟨hmem, hhold, (hother cid hcid).1, (hother cid hcid).2⟩
  have hkeeps : KeepsLease l s.db ((input.handle K now).after s).db := by
    cases input with
    | v4 iface msg =>
      refine keepsDb_handleV4 ?_
      intro mtype scope _ hscope
      exact keepsLease_answerV4 (h _ rfl) mtype (selectV4Scope_family hscope)
    | v6 msg src =>
      refine keepsDb_handleV6 ?_
      intro scope duid hscope hduid
      exact keepsLease_answerV6 (h duid hduid) msg src (selectV6Scope_family hscope)
  exact hkeeps hmem

/-- A scope of two addresses. -/
def lanScope : DhcpScope :=
  ⟨1, "lan", true, .V4, "192.168.1.0/24", "192.168.1.10", "192.168.1.11", 3600, false, none,
    some "192.168.1.1", none, []⟩

/-- A message of the client with the hardware address `mac`. -/
def clientMessage (mtype : UInt8) (mac : Bytes) (requested : Option Bytes) : Dhcp4Message :=
  ⟨1, 1, 6, 0, 1, 0, 0, 0, 0, 0, 0, ⟨(mac ++ List.replicate 16 0).take 16, by simp⟩,
    .replicate 64 0, .replicate 128 0,
    (53, [mtype]) :: (requested.map fun ip => (50, ip)).toList⟩

/-- A lease of `192.168.1.10` until one hour after the epoch. -/
def lanLease : DhcpLease :=
  ⟨1, 1, .V4, "192.168.1.10", "aa:aa:aa:aa:aa:aa", none, "1970-01-01T00:00:00Z",
    "1970-01-01T01:00:00Z", .Active⟩

/-- The state with the scope and the lease. -/
def lanState : AppState where
  conn := ⟨{ Tables.empty with
    scopes := [lanScope], leases := ⟨[lanLease], by decide, by decide⟩ }, [], []⟩
  store := homeStore []
  sendFaults := []
  sent := []

/-- Another client that asks for the held address does not take it. -/
theorem handle_keeps_held_lease_request :
    lanLease ∈ (((DhcpInput.v4 none (clientMessage 3 [0xbb, 0xbb, 0xbb, 0xbb, 0xbb, 0xbb]
      (some [192, 168, 1, 10]))).handle plainCrates 60).after lanState).db.leases.rows := by
  refine handle_keeps_held_lease lanState _ 60 lanLease (by decide) (by decide +kernel) ?_
  intro cid hcid
  cases hcid
  refine ⟨by decide +kernel, ?_⟩
  rintro ⟨r, hr, -⟩
  cases hr

end Nomina
