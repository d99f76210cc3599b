import Nomina.Dhcp.Protection

/-!
# One binding for each client

The lease rows of a scope over whole runs of messages. What a message can write is said once: rows
marked as declined, or one row that grants an allocated address (`Permitted`). From this follows the
invariant `OneBinding`: a row that holds its address holds one its client is entitled to, and a
client holds at most one. The entitlement is what makes the allocator come back to the client's own
row while that row is holding.
-/

namespace Nomina

open Lib Sql

variable {K : Crates}

/-! ## What a message writes -/

/-- The scopes and the reservations stay the same, and a lease row after is one from before or
satisfies `P`. -/
structure Introduces (P : DhcpLease → Prop) (t t' : Tables) : Prop where
  scopes : t'.scopes = t.scopes
  reservations : t'.reservations = t.reservations
  rows : ∀ l ∈ t'.leases.rows, l ∈ t.leases.rows ∨ P l

instance (P : DhcpLease → Prop) : IsPreorder Tables (Introduces P) where
  refl _ := ⟨rfl, rfl, fun _ hl => .inl hl⟩
  trans _ _ _ h h' := by
    refine ⟨h'.scopes.trans h.scopes, h'.reservations.trans h.reservations, ?_⟩
    intro l hl
    rcases h'.rows l hl with hl | hl
    · exact h.rows l hl
    · exact .inr hl

/-- The row grants the address `ip` of the scope to the client. -/
structure IsGrant (scope : DhcpScope) (cid : Str) (ip : IpAddr) (l : DhcpLease) : Prop where
  scopeId : l.scopeId = scope.id
  ip : l.ip = fmtIpAddr ip
  identifier : l.identifier = toAsciiLowercase cid

variable (K) in
/-- The rows that one message may introduce: rows marked as declined, or the rows of one grant, of an
address allocated from what the database holds. -/
inductive Permitted (t : Tables) (now : ℤ) : (DhcpLease → Prop) → Prop
  | declined : Permitted t now fun l => l.state = .Declined
  | grant {scope : DhcpScope} {cid : Str} {requestedIp : Option IpAddr} {ip : IpAddr}
      (hscope : scope ∈ t.scopes)
      (halloc : allocate K scope (Db.reservationsOf t scope.id) (Db.leasesOf t scope.id) cid
        requestedIp now = some ip)
      (hfam : familyMatches ip scope.family = true) : Permitted t now (IsGrant scope cid ip)

section Statements

variable {P : DhcpLease → Prop}

/-- An upsert introduces a row with its columns. -/
lemma introduces_upsert {scopeId : ℕ} {family : IpFamily} {ip identifier : Str}
    {hostname : Option Str} {startsAt expiresAt : Str} {state : LeaseState}
    (h : ∀ i, P ⟨i, scopeId, family, ip, toAsciiLowercase identifier, hostname, startsAt, expiresAt,
      state⟩) :
    Keeps (Introduces P)
      (Db.upsertDhcpLease scopeId family ip identifier hostname startsAt expiresAt state) := by
  unfold Db.upsertDhcpLease
  refine Keeps.execute ?_
  intro t a t' ht
  split at ht
  · cases ht
    refine ⟨rfl, rfl, ?_⟩
    intro l hl
    rcases LeaseTable.mem_upsert hl with hl | ⟨i, rfl⟩
    · exact .inl hl
    · exact .inr (h i)
  · cases ht

/-- A delete introduces nothing. -/
lemma introduces_delete (id : ℕ) : Keeps (Introduces P) (Db.deleteDhcpLease id) := by
  unfold Db.deleteDhcpLease
  refine Keeps.update ?_
  intro t
  exact ⟨rfl, rfl, fun l hl => .inl (List.mem_filter.mp hl).1⟩

lemma introduces_deleteLeases (ids : List ℕ) : Keeps (Introduces P) (deleteLeases ids) := by
  induction ids with
  | nil => exact .pure ()
  | cons id ids ih => exact .bind (introduces_delete id) fun _ => ih

/-- A release or a decline introduces at most rows marked as declined. -/
lemma introduces_releaseLeases (st : LeaseState) (mine : List DhcpLease) :
    Keeps (Introduces fun l => l.state = .Declined) (releaseLeases st mine) := by
  induction mine with
  | nil => exact .pure ()
  | cons m mine ih =>
    refine .bind ?_ fun _ => ih
    unfold releaseLease
    split
    · exact introduces_delete m.id
    · exact introduces_upsert fun _ => rfl

/-- Registration in DNS introduces nothing. -/
lemma introduces_registerDns {scope : DhcpScope} {ip : IpAddr} {hostname : Option Str} :
    KeepsDb (Introduces P) (registerDns K scope ip hostname) := by
  refine keepsDb_registerDns ?_ (fun t id f => ⟨rfl, rfl, fun l hl => .inl hl⟩)
    fun t zoneId => ⟨rfl, rfl, fun l hl => .inl hl⟩
  intro t r i t' h
  unfold Tables.insertRecord at h
  split at h
  · cases h
    exact ⟨rfl, rfl, fun l hl => .inl hl⟩
  · cases h

end Statements

section Handlers

variable {t : Tables} {now : ℤ} {scope : DhcpScope}

/-- Every answer to a DHCPv4 message introduces permitted rows. -/
lemma permitted_answerV4 (msg : Dhcp4Message) (mtype : Dhcp4MessageType) (now : ℤ)
    (hscope : scope ∈ t.scopes) (hfam : scope.family = .V4) :
    ∃ P, Permitted K t now P ∧ KeepsDb (Introduces P) (answerV4 K msg mtype scope
      (Db.reservationsOf t scope.id) (Db.leasesOf t scope.id) now) := by
  have hrelease : ∀ st, KeepsDb (Introduces fun l => l.state = .Declined)
      (releaseV4Lease (Db.leasesOf t scope.id) (v4ClientId msg) st) :=
    fun st => .releaseV4Lease (introduces_releaseLeases st _)
  unfold answerV4
  cases mtype with
  | Discover =>
    dsimp only
    split
    · rename_i yiaddr halloc
      refine ⟨_, .grant hscope halloc (familyMatches_v4 hfam yiaddr),
        .bind .buildReply fun _ => .bind (.runDb ?_) fun _ => .send _⟩
      exact introduces_upsert fun _ => ⟨rfl, rfl, rfl⟩
    · exact ⟨_, .declined, .pure ()⟩
  | Request =>
    dsimp only
    split
    · rename_i yiaddr hgrant
      refine ⟨_, .grant hscope (allocate_of_requestGrant hgrant) (familyMatches_v4 hfam yiaddr),
        .bind .buildReply fun _ => .bind (.runDb ?_) fun _ => .bind (.send _) fun _ =>
          introduces_registerDns⟩
      exact introduces_upsert fun _ => ⟨rfl, rfl, rfl⟩
    · exact ⟨_, .declined, .bind .buildReply fun _ => .send _⟩
  | Release => exact ⟨_, .declined, hrelease _⟩
  | Decline => exact ⟨_, .declined, hrelease _⟩
  | Inform => exact ⟨_, .declined, .bind .buildReply fun _ => .send _⟩
  | Offer => exact ⟨_, .declined, .pure ()⟩
  | Ack => exact ⟨_, .declined, .pure ()⟩
  | Nak => exact ⟨_, .declined, .pure ()⟩

/-- Every answer to a DHCPv6 message introduces permitted rows. -/
lemma permitted_answerV6 (msg : Dhcp6Message) (src : IpAddr) (duid : Str) (now : ℤ)
    (hscope : scope ∈ t.scopes) (hfam : scope.family = .V6) :
    ∃ P, Permitted K t now P ∧ KeepsDb (Introduces P) (answerV6 K msg src duid scope
      (Db.reservationsOf t scope.id) (Db.leasesOf t scope.id) now) := by
  have hassign : ∃ P, Permitted K t now P ∧ KeepsDb (Introduces P) (assignV6 K msg src duid scope
      (Db.reservationsOf t scope.id) (Db.leasesOf t scope.id) now) := by
    unfold assignV6
    split
    · rename_i assigned halloc
      refine ⟨_, .grant hscope halloc (familyMatches_v6 hfam _), ?_⟩
      split
      · refine .bind .buildReply fun _ => .bind (.runDb ?_) fun _ => .send _
        exact introduces_upsert fun _ => ⟨rfl, rfl, rfl⟩
      · refine .bind .buildReply fun _ => .bind (.runDb ?_) fun _ => .bind (.send _) fun _ =>
          introduces_registerDns
        exact introduces_upsert fun _ => ⟨rfl, rfl, rfl⟩
    · exact ⟨_, .declined, .pure ()⟩
  have hdelete : ∃ P, Permitted K t now P ∧ KeepsDb (Introduces P)
      (let ids := ((Db.leasesOf t scope.id).filter fun l =>
        eqIgnoreAsciiCase l.identifier duid).map DhcpLease.id
      if ids.isEmpty then pure () else runDb (deleteLeases ids) : App Unit) :=
    ⟨_, .declined, .deleteLeases (introduces_deleteLeases _)⟩
  unfold answerV6
  cases msg.msgType with
  | Solicit => exact hassign
  | Request => exact hassign
  | Renew => exact hassign
  | Rebind => exact hassign
  | Release => exact hdelete
  | Decline => exact hdelete
  | Advertise => exact ⟨_, .declined, .pure ()⟩
  | Confirm => exact ⟨_, .declined, .pure ()⟩
  | Reply => exact ⟨_, .declined, .pure ()⟩
  | InformationRequest => exact ⟨_, .declined, .pure ()⟩

/-- Whatever message arrives and wherever its handling stops, it introduces permitted rows. -/
lemma permitted_handle (s : AppState) (input : DhcpInput) (now : ℤ) :
    ∃ P, Permitted K s.db now P ∧ Introduces P s.db ((input.handle K now).after s).db := by
  cases input with
  | v4 iface msg =>
    cases hsel : selectV4Scope K (Db.listedScopes s.db) msg.giaddr iface with
    | none =>
      refine ⟨_, .declined, keepsDb_handleV4 ?_⟩
      intro mtype scope _ hscope
      rw [hsel] at hscope
      cases hscope
    | some scope =>
      have hmem : scope ∈ s.db.scopes := mem_scopes_of_selectV4Scope hsel
      cases hmsg : msg.messageType with
      | none =>
        refine ⟨_, .declined, keepsDb_handleV4 ?_⟩
        intro mtype scope' h
        rw [hmsg] at h
        cases h
      | some mtype =>
        obtain ⟨P, hP, hkeeps⟩ := permitted_answerV4 (K := K) msg mtype now hmem
          (selectV4Scope_family hsel)
        refine ⟨P, hP, keepsDb_handleV4 ?_⟩
        intro mtype' scope' hmtype hscope
        rw [hmsg] at hmtype
        rw [hsel] at hscope
        cases hmtype
        cases hscope
        exact hkeeps
  | v6 msg src =>
    cases hsel : selectV6Scope s.db with
    | none =>
      refine ⟨_, .declined, keepsDb_handleV6 ?_⟩
      intro scope duid hscope
      rw [hsel] at hscope
      cases hscope
    | some scope =>
      cases hduid : msg.clientDuid with
      | none =>
        refine ⟨_, .declined, keepsDb_handleV6 ?_⟩
        intro scope' duid _ h
        rw [hduid] at h
        cases h
      | some duid =>
        obtain ⟨P, hP, hkeeps⟩ := permitted_answerV6 (K := K) msg src duid now
          (mem_of_selectV6Scope hsel) (selectV6Scope_family hsel)
        refine ⟨P, hP, keepsDb_handleV6 ?_⟩
        intro scope' duid' hscope h
        rw [hsel] at hscope
        rw [hduid] at h
        cases hscope
        cases h
        exact hkeeps

end Handlers

/-! ## The invariant -/

/-- The address is in the pool of the scope and is not reserved. -/
structure InPool (scope : DhcpScope) (reservations : List DhcpReservation) (ip : IpAddr) : Prop where
  range : ∃ start stop, IsPool scope start stop ∧ ipToU128 start ≤ ipToU128 ip ∧
    ipToU128 ip ≤ ipToU128 stop
  family : familyMatches ip scope.family = true
  notReserved : ipToU128 ip ∉ reservations.filterMap (addressOf scope.family ·.ip)

/-- The address is the one reserved for the client, or the client has no reservation and the address
is in the pool. -/
def Entitled (scope : DhcpScope) (reservations : List DhcpReservation) (cid : Str) (ip : IpAddr) :
    Prop :=
  match reservedFor reservations cid with
  | some reserved => reserved = ip
  | none => InPool scope reservations ip

variable (K) in
/-- The row of the scope holds its address at `now`. -/
structure HeldIn (t : Tables) (scope : DhcpScope) (now : ℤ) (l : DhcpLease) : Prop where
  mem : l ∈ t.leases.rows
  scopeId : l.scopeId = scope.id
  holding : isHolding K l now = true

variable (K) in
/-- Every holding row of the scope is at an address its client is entitled to, and a client has at
most one. -/
structure OneBinding (scope : DhcpScope) (now : ℤ) (t : Tables) : Prop where
  entitled : ∀ l, HeldIn K t scope now l →
    ∃ ip, l.ip = fmtIpAddr ip ∧ Entitled scope (Db.reservationsOf t scope.id) l.identifier ip
  unique : ∀ l l', HeldIn K t scope now l → HeldIn K t scope now l' →
    eqIgnoreAsciiCase l.identifier l'.identifier = true → l = l'

section Allocation

variable {scope : DhcpScope} {reservations : List DhcpReservation} {cid cid' : Str} {ip : IpAddr}

/-- Reservations are looked up by the identifier without regard to case. -/
lemma reservedFor_congr (h : toAsciiLowercase cid = toAsciiLowercase cid') :
    reservedFor reservations cid = reservedFor reservations cid' := by
  unfold reservedFor eqIgnoreAsciiCase
  rw [h]

lemma Entitled.congr (h : toAsciiLowercase cid = toAsciiLowercase cid')
    (hent : Entitled scope reservations cid ip) : Entitled scope reservations cid' ip := by
  unfold Entitled at hent ⊢
  rwa [← reservedFor_congr h]

/-- A client is entitled to the address it is allocated. -/
lemma entitled_of_allocate {leases : List DhcpLease} {requestedIp : Option IpAddr} {now : ℤ}
    (h : allocate K scope reservations leases cid requestedIp now = some ip)
    (hfam : familyMatches ip scope.family = true) : Entitled scope reservations cid ip := by
  unfold Entitled
  rcases allocate_cases h with hres | ⟨hres, start, stop, hpool, hip⟩
  · rw [hres]
  · rw [hres]
    obtain ⟨hlow, hhigh, hfree⟩ := allocateFromPool_spec hpool.stop_family hpool.le hip
    refine ⟨⟨start, stop, hpool, hlow, hhigh⟩, hfam, ?_⟩
    intro hmem
    exact hfree (List.mem_append_left _ hmem)

end Allocation

section Invariant

variable {t t' : Tables} {scope : DhcpScope} {now now' : ℤ} {l l' : DhcpLease}

lemma HeldIn.mem_leasesOf (h : HeldIn K t scope now l) : l ∈ Db.leasesOf t scope.id :=
  Nomina.mem_leasesOf.mpr ⟨h.mem, h.scopeId⟩

lemma heldIn_of_mem_leasesOf (h : l ∈ Db.leasesOf t scope.id) (hhold : isHolding K l now = true) :
    HeldIn K t scope now l :=
  ⟨(mem_leasesOf.mp h).1, (mem_leasesOf.mp h).2, hhold⟩

/-- A row that holds later holds now: time only ends holdings. -/
lemma HeldIn.earlier (h : HeldIn K t scope now' l) (hle : now ≤ now') : HeldIn K t scope now l := by
  refine ⟨h.mem, h.scopeId, ?_⟩
  have hhold := h.holding
  unfold isHolding leaseExpired at hhold ⊢
  cases hexp : K.parseRfc3339 l.expiresAt with
  | none => simp [hexp] at hhold
  | some e =>
    simp only [hexp, Bool.and_eq_true, Bool.not_eq_true', decide_eq_false_iff_not] at hhold ⊢
    exact ⟨hhold.1, by omega⟩

/-- The invariant lasts while no message arrives. -/
lemma OneBinding.later (h : OneBinding K scope now t) (hle : now ≤ now') :
    OneBinding K scope now' t where
  entitled l hl := h.entitled l (hl.earlier hle)
  unique l l' hl hl' := h.unique l l' (hl.earlier hle) (hl'.earlier hle)

/-- Two holding rows of one address are the same row. -/
lemma OneBinding.eq_of_address (h : OneBinding K scope now t) (hl : HeldIn K t scope now l)
    (hl' : HeldIn K t scope now l') (hip : parseIpAddr l.ip = parseIpAddr l'.ip) : l = l' := by
  obtain ⟨ip, htext, -⟩ := h.entitled l hl
  obtain ⟨ip', htext', -⟩ := h.entitled l' hl'
  rw [htext, htext', parseIpAddr_fmtIpAddr, parseIpAddr_fmtIpAddr] at hip
  have hsame : l.ip = l'.ip := by rw [htext, htext', Option.some.inj hip]
  exact LeaseTable.eq_of_addr_eq hl.mem hl'.mem (hl.scopeId.trans hl'.scopeId.symm) hsame

/-- The address of a holding row is not among those the allocator avoids for its client. -/
lemma OneBinding.notMem_usedAddresses (h : OneBinding K scope now t) (hl : HeldIn K t scope now l)
    {cid : Str} (hid : toAsciiLowercase l.identifier = toAsciiLowercase cid) {ip : IpAddr}
    (htext : l.ip = fmtIpAddr ip) (hpool : InPool scope (Db.reservationsOf t scope.id) ip) :
    ipToU128 ip ∉ usedAddresses K scope.family (Db.reservationsOf t scope.id)
      (Db.leasesOf t scope.id) cid now := by
  intro hused
  rcases List.mem_append.mp hused with hres | hheld
  · exact hpool.notReserved hres
  · obtain ⟨m, hm, hnum⟩ := List.mem_filterMap.mp hheld
    obtain ⟨hm, hother⟩ := List.mem_filter.mp hm
    simp only [Bool.and_eq_true, Bool.not_eq_true'] at hother
    obtain ⟨hhold, hother⟩ := hother
    obtain ⟨a, ha, hnum⟩ := Option.map_eq_some_iff.mp hnum
    obtain ⟨hparse, hfam⟩ := Option.filter_eq_some_iff.mp ha
    have haddr : a = ip := ipToU128_injective hfam hpool.family hnum
    -- The other client's row would be the row of this client.
    have hrow : m = l := by
      refine h.eq_of_address (heldIn_of_mem_leasesOf hm hhold) hl ?_
      rw [hparse, htext, parseIpAddr_fmtIpAddr, haddr]
    rw [hrow, eqIgnoreAsciiCase_iff.mpr hid] at hother
    cases hother

/-- A client that holds a row of the scope is allocated the address of that row. -/
lemma OneBinding.allocate_eq (h : OneBinding K scope now t) (hl : HeldIn K t scope now l)
    {cid : Str} (hid : toAsciiLowercase l.identifier = toAsciiLowercase cid)
    {requestedIp : Option IpAddr} {ip : IpAddr}
    (halloc : allocate K scope (Db.reservationsOf t scope.id) (Db.leasesOf t scope.id) cid
      requestedIp now = some ip) : l.ip = fmtIpAddr ip := by
  obtain ⟨held, htext, hent⟩ := h.entitled l hl
  have hent' := hent.congr hid
  unfold Entitled at hent'
  cases hres : reservedFor (Db.reservationsOf t scope.id) cid with
  | some reserved =>
    rw [hres] at hent'
    unfold allocate at halloc
    rw [hres] at halloc
    rw [htext, ← hent', Option.some.inj halloc]
  | none =>
    rw [hres] at hent'
    obtain ⟨start, stop, hpool, hlow, hhigh⟩ := hent'.range
    rw [allocate_of_isPool hpool hres, allocateFromPool_own hl.mem_leasesOf
      (eqIgnoreAsciiCase_iff.mpr hid) hl.holding (by rw [htext, parseIpAddr_fmtIpAddr]) hlow hhigh
      (h.notMem_usedAddresses hl hid htext hent')] at halloc
    · rw [htext, Option.some.inj halloc]
    · intro m hm hmid hmhold
      have hrow : m = l := by
        refine h.unique m l (heldIn_of_mem_leasesOf hm hmhold) hl ?_
        rw [eqIgnoreAsciiCase_iff, hid]
        exact eqIgnoreAsciiCase_iff.mp hmid
      rw [hrow, htext, parseIpAddr_fmtIpAddr]

/-- Losing holding rows keeps the invariant. -/
lemma OneBinding.mono (h : OneBinding K scope now t) (hres : t'.reservations = t.reservations)
    (hrows : ∀ l, HeldIn K t' scope now l → HeldIn K t scope now l) :
    OneBinding K scope now t' where
  entitled l hl := by
    unfold Db.reservationsOf
    rw [hres]
    exact h.entitled l (hrows l hl)
  unique l l' hl hl' := h.unique l l' (hrows l hl) (hrows l' hl')

/-- A grant of the scope keeps the invariant. -/
lemma OneBinding.grant (h : OneBinding K scope now t) {cid : Str} {requestedIp : Option IpAddr}
    {ip : IpAddr} (halloc : allocate K scope (Db.reservationsOf t scope.id)
      (Db.leasesOf t scope.id) cid requestedIp now = some ip)
    (hfam : familyMatches ip scope.family = true) (hintro : Introduces (IsGrant scope cid ip) t t') :
    OneBinding K scope now t' := by
  have hcases : ∀ l, HeldIn K t' scope now l →
      HeldIn K t scope now l ∨ IsGrant scope cid ip l := by
    intro l hl
    rcases hintro.rows l hl.mem with hold | hgrant
    · exact .inl ⟨hold, hl.scopeId, hl.holding⟩
    · exact .inr hgrant
  -- A row the client held before is at the granted address, so it is the row of the grant.
  have hown : ∀ l l', HeldIn K t' scope now l → HeldIn K t' scope now l' →
      HeldIn K t scope now l → IsGrant scope cid ip l' →
      eqIgnoreAsciiCase l.identifier l'.identifier = true → l = l' := by
    intro l l' hl hl' hold hgrant hid
    rw [eqIgnoreAsciiCase_iff, hgrant.identifier, toAsciiLowercase_idem] at hid
    have hip := h.allocate_eq hold hid halloc
    exact LeaseTable.eq_of_addr_eq hl.mem hl'.mem (hl.scopeId.trans hl'.scopeId.symm)
      (hip.trans hgrant.ip.symm)
  constructor
  · intro l hl
    have hreservations : Db.reservationsOf t' scope.id = Db.reservationsOf t scope.id := by
      unfold Db.reservationsOf
      rw [hintro.reservations]
    rw [hreservations]
    rcases hcases l hl with hold | hgrant
    · exact h.entitled l hold
    · refine ⟨ip, hgrant.ip, (entitled_of_allocate halloc hfam).congr ?_⟩
      rw [hgrant.identifier, toAsciiLowercase_idem]
  · intro l l' hl hl' hid
    rcases hcases l hl with hold | hgrant
    · rcases hcases l' hl' with hold' | hgrant'
      · exact h.unique l l' hold hold' hid
      · exact hown l l' hl hl' hold hgrant' hid
    · rcases hcases l' hl' with hold' | hgrant'
      · rw [eqIgnoreAsciiCase_iff] at hid
        exact (hown l' l hl' hl hold' hgrant (eqIgnoreAsciiCase_iff.mpr hid.symm)).symm
      · exact LeaseTable.eq_of_addr_eq hl.mem hl'.mem (hl.scopeId.trans hl'.scopeId.symm)
          (hgrant.ip.trans hgrant'.ip.symm)

/-- What a message may write keeps the invariant of every scope. -/
lemma OneBinding.step (h : OneBinding K scope now t) (hscope : scope ∈ t.scopes)
    (hkeys : (t.scopes.map DhcpScope.id).Nodup) {P : DhcpLease → Prop} (hP : Permitted K t now P)
    (hintro : Introduces P t t') : OneBinding K scope now t' := by
  cases hP with
  | declined =>
    refine h.mono hintro.reservations ?_
    intro l hl
    rcases hintro.rows l hl.mem with hold | hdeclined
    · exact ⟨hold, hl.scopeId, hl.holding⟩
    · have hhold := hl.holding
      unfold isHolding at hhold
      rw [hdeclined] at hhold
      cases hhold
  | @grant other cid requestedIp ip hother halloc hfam =>
    by_cases hid : other.id = scope.id
    · obtain rfl : other = scope := List.inj_on_of_nodup_map hkeys hother hscope hid
      exact h.grant halloc hfam hintro
    · -- The grant is in another scope.
      refine h.mono hintro.reservations ?_
      intro l hl
      rcases hintro.rows l hl.mem with hold | hgrant
      · exact ⟨hold, hl.scopeId, hl.holding⟩
      · exact absurd (hgrant.scopeId.symm.trans hl.scopeId) hid

end Invariant

/-! ## Runs -/

variable (K) in
/-- Handle messages one after the other, each at its time. -/
def handleAll (msgs : List (DhcpInput × ℤ)) (s : AppState) : AppState :=
  msgs.foldl (fun s m => (m.1.handle K m.2).after s) s

/-- The invariant is kept by a message, as are the scopes. -/
lemma oneBinding_handle {s : AppState} {scope : DhcpScope} {now : ℤ} (input : DhcpInput)
    (h : OneBinding K scope now s.db) (hscope : scope ∈ s.db.scopes)
    (hkeys : (s.db.scopes.map DhcpScope.id).Nodup) :
    OneBinding K scope now ((input.handle K now).after s).db ∧
      ((input.handle K now).after s).db.scopes = s.db.scopes := by
  obtain ⟨P, hP, hintro⟩ := permitted_handle (K := K) s input now
  exact ⟨h.step hscope hkeys hP hintro, hintro.scopes⟩

/-- The invariant is kept by messages that arrive at non-decreasing times. -/
lemma oneBinding_handleAll {scope : DhcpScope} {now : ℤ} (msgs : List (DhcpInput × ℤ)) :
    ∀ {s : AppState} {start : ℤ}, OneBinding K scope start s.db → scope ∈ s.db.scopes →
      (s.db.scopes.map DhcpScope.id).Nodup → (∀ m ∈ msgs, start ≤ m.2) → start ≤ now →
      (msgs.map Prod.snd).Pairwise (· ≤ ·) → (∀ m ∈ msgs, m.2 ≤ now) →
      OneBinding K scope now (handleAll K msgs s).db := by
  induction msgs with
  | nil =>
    intro s start h _ _ _ hnow _ _
    exact h.later hnow
  | cons m msgs ih =>
    intro s start h hscope hkeys hstart _ htimes hnow
    rw [List.map_cons, List.pairwise_cons] at htimes
    obtain ⟨hstep, hscopes⟩ :=
      oneBinding_handle m.1 (h.later (hstart m List.mem_cons_self)) hscope hkeys
    have hlater : ∀ m' ∈ msgs, m.2 ≤ m'.2 :=
      fun m' hm' => htimes.1 m'.2 (List.mem_map_of_mem hm')
    exact ih hstep (hscopes ▸ hscope) (hscopes ▸ hkeys) hlater (hnow m List.mem_cons_self)
      htimes.2 fun m' hm' => hnow m' (List.mem_cons_of_mem _ hm')

/-- Before any lease there is nothing to keep. -/
lemma oneBinding_of_empty {t : Tables} {scope : DhcpScope} (now : ℤ) (h : t.leases.rows = []) :
    OneBinding K scope now t := by
  have hnone : ∀ l, ¬ HeldIn K t scope now l := by
    intro l hl
    have hmem := hl.mem
    rw [h] at hmem
    cases hmem
  exact ⟨fun l hl => absurd hl (hnone l), fun l _ hl => absurd hl (hnone l)⟩

/-- From an empty lease table, and whatever messages of whatever clients are handled at
non-decreasing times, at every moment a client identifier has at most one holding lease of a scope,
and an address has at most one. -/
theorem handleAll_one_binding (s : AppState) (scope : DhcpScope) (hscope : scope ∈ s.db.scopes)
    (hkeys : (s.db.scopes.map DhcpScope.id).Nodup) (hempty : s.db.leases.rows = [])
    (msgs : List (DhcpInput × ℤ)) (htimes : (msgs.map Prod.snd).Pairwise (· ≤ ·)) (now : ℤ)
    (hnow : ∀ m ∈ msgs, m.2 ≤ now) (l l' : DhcpLease)
    (hl : HeldIn K (handleAll K msgs s).db scope now l)
    (hl' : HeldIn K (handleAll K msgs s).db scope now l') :
    (eqIgnoreAsciiCase l.identifier l'.identifier = true → l = l') ∧
      (parseIpAddr l.ip = parseIpAddr l'.ip → l = l') := by
  have hinv : OneBinding K scope now (handleAll K msgs s).db := by
    cases msgs with
    | nil => exact oneBinding_of_empty now hempty
    | cons m msgs =>
      have htimes' := htimes
      rw [List.map_cons, List.pairwise_cons] at htimes'
      refine oneBinding_handleAll (m :: msgs) (oneBinding_of_empty m.2 hempty) hscope hkeys ?_
        (hnow m List.mem_cons_self) htimes hnow
      intro m' hm'
      rcases List.mem_cons.mp hm' with rfl | hm'
      · exact le_rfl
      · exact htimes'.1 m'.2 (List.mem_map_of_mem hm')
  exact ⟨hinv.unique l l' hl hl', hinv.eq_of_address hl hl'⟩

/-- The scope of two addresses without leases. -/
def freeLan : AppState :=
  { lanState with conn := ⟨{ Tables.empty with scopes := [lanScope] }, [], []⟩ }

/-- An offer to one client, then a lease for another, then a renewed offer to the first. -/
def lanMessages : List (DhcpInput × ℤ) :=
  [(.v4 none (clientMessage 1 [0xaa, 0xaa, 0xaa, 0xaa, 0xaa, 0xaa] none), 0),
    (.v4 none (clientMessage 3 [0xbb, 0xbb, 0xbb, 0xbb, 0xbb, 0xbb] none), 30),
    (.v4 none (clientMessage 1 [0xaa, 0xaa, 0xaa, 0xaa, 0xaa, 0xaa] (some [192, 168, 1, 11])), 60)]

/-- The offer to the first client after these messages. -/
def lanOffer : DhcpLease :=
  ⟨1, 1, .V4, "192.168.1.10", "aa:aa:aa:aa:aa:aa", none, "1970-01-01T00:01:00Z",
    "1970-01-01T00:03:00Z", .Offered⟩

/-- The address the first client asks for is held by the other client, and its offer is renewed: a
row held by it is that offer. -/
theorem handleAll_one_binding_lan :
    HeldIn plainCrates (handleAll plainCrates lanMessages freeLan).db lanScope 90 lanOffer ∧
      ∀ l, HeldIn plainCrates (handleAll plainCrates lanMessages freeLan).db lanScope 90 l →
        l.identifier = "aa:aa:aa:aa:aa:aa" → l = lanOffer := by
  have hoffer : HeldIn plainCrates (handleAll plainCrates lanMessages freeLan).db lanScope 90
      lanOffer :=
    ⟨by decide +kernel, rfl, by decide +kernel⟩
  refine ⟨hoffer, ?_⟩
  intro l hl hid
  have hbinding := handleAll_one_binding freeLan lanScope (by decide) (by decide) rfl lanMessages
    (by decide) 90 (by decide) l lanOffer hl hoffer
  refine hbinding.1 ?_
  rw [hid]
  decide

end Nomina
