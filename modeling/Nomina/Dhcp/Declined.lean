import Nomina.Dhcp.Handling
import Nomina.Lib.Lts

/-!
# Declined addresses

A DHCPv4 DECLINE marks the rows of its client and keeps them for the administrator, a DHCPv6 DECLINE
deletes them. Neither keeps the address out of the pool: a declined row is not a holding one, so every later
message is answered as if it were not in the table. This compares the handling of one message in two states
that differ in their leases.
-/

namespace Nomina

open Lib Sql

variable {K : Crates}

/-! ## Handling in states with other leases -/

/-- The states differ in their leases at most, as far as answers go. -/
structure SameButLeases (s s' : AppState) : Prop where
  sent : s'.sent = s.sent
  sendFaults : s'.sendFaults = s.sendFaults
  faults : s'.conn.faults = s.conn.faults
  scopes : s'.db.scopes = s.db.scopes
  reservations : s'.db.reservations = s.db.reservations

/-- From states that differ in their leases the handlers send the same datagrams. -/
def SendSame {α : Type} (m m' : App α) : Prop :=
  ∀ s s', SameButLeases s s' → (m'.after s').sent = (m.after s).sent

/-- Nothing is sent. -/
abbrev Silent {α : Type} (m : App α) : Prop :=
  EStateM.Keeps (SendsOnly fun _ => False) m

section SendSame

variable {α β : Type} {s s' : AppState}

lemma Silent.sent_eq {m : App α} (h : Silent m) (s : AppState) : (m.after s).sent = s.sent := by
  obtain ⟨ps, hps, hall⟩ := h s
  rw [hps, List.eq_nil_iff_forall_not_mem.mpr hall, List.append_nil]

lemma SendSame.silent {m m' : App α} (h : Silent m) (h' : Silent m') : SendSame m m' := by
  intro s s' hs
  rw [h.sent_eq, h'.sent_eq, hs.sent]

/-- Both replies are built, or neither. -/
lemma SendSame.built {reply : Reader Bytes} {m m' : App α} (h : SendSame m m') :
    SendSame (buildReply reply >>= fun _ => m) (buildReply reply >>= fun _ => m') := by
  cases reply with
  | ok bytes => exact h
  | error e => exact fun s s' hs => hs.sent

/-- Both datagrams are sent, or neither. -/
lemma SendSame.send (p : Packet) : SendSame (Nomina.send p) (Nomina.send p) := by
  intro s s' hs
  rw [after_send, after_send, hs.sendFaults]
  split
  · exact hs.sent
  · exact congrArg (· ++ [p]) hs.sent

/-- What is silent after a datagram makes no difference. -/
lemma SendSame.send_bind (p : Packet) {m m' : App α} (h : Silent m) (h' : Silent m') :
    SendSame (Nomina.send p >>= fun _ => m) (Nomina.send p >>= fun _ => m') := by
  have hsent : ∀ {m : App α}, Silent m → ∀ s,
      ((Nomina.send p >>= fun _ => m).after s).sent = ((Nomina.send p).after s).sent := by
    intro m hm s
    rw [EStateM.after_bind]
    cases (Nomina.send p).result s with
    | ok u => exact hm.sent_eq _
    | error e => rfl
  intro s s' hs
  rw [hsent h, hsent h']
  exact SendSame.send p s s' hs

/-- Statements leave what the states have in common. -/
lemma SameButLeases.step (hs : SameButLeases s s') (e e' : StmtEvent) {t t' : Tables}
    (hscopes : t'.scopes = t.scopes) (hreservations : t'.reservations = t.reservations) :
    SameButLeases { s with conn := Sql.step s.conn e t } { s' with conn := Sql.step s'.conn e' t' } :=
  ⟨hs.sent, hs.sendFaults, congrArg List.tail hs.faults, hscopes, hreservations⟩

/-- A handler that begins with a statement, which is refused, fails or gives a value. -/
lemma after_statement_bind (e : StmtEvent) (f : Tables → Except DbError (α × Tables)) (k : α → App β)
    (s : AppState) :
    (runDb (statement e f) >>= k).after s =
      if refused s.conn then { s with conn := Sql.step s.conn .failed s.conn.tables }
      else match f s.conn.tables with
        | .error _ => { s with conn := Sql.step s.conn .failed s.conn.tables }
        | .ok (a, t) => (k a).after { s with conn := Sql.step s.conn e t } := by
  rw [EStateM.after_bind, result_runDb, after_runDb]
  unfold EStateM.result EStateM.after statement
  cases refused s.conn with
  | true => rfl
  | false =>
    cases f s.conn.tables with
    | error err => rfl
    | ok p => rfl

lemma SameButLeases.refused_eq (hs : SameButLeases s s') : refused s'.conn = refused s.conn :=
  congrArg (List.headD · false) hs.faults

/-- Both states refuse a query, or the handlers go on with what they read. -/
lemma sent_select_bind (hs : SameButLeases s s') {f : Tables → α} {k k' : α → App β}
    (hk : ∀ s₁ s₁', SameButLeases s₁ s₁' → s₁.db = s.db → s₁'.db = s'.db →
      ((k' (f s'.db)).after s₁').sent = ((k (f s.db)).after s₁).sent) :
    ((runDb (select f) >>= k').after s').sent = ((runDb (select f) >>= k).after s).sent := by
  unfold select
  rw [after_statement_bind, after_statement_bind, hs.refused_eq]
  cases refused s.conn with
  | true => exact hs.sent
  | false => exact hk _ _ (hs.step .read .read hs.scopes hs.reservations) rfl rfl

/-- A lease is written in both states, or in neither. -/
lemma SendSame.upsert {m m' : App α} (h : SendSame m m') (scopeId : ℕ) (family : IpFamily)
    (ip identifier : Str) (hostname : Option Str) (startsAt expiresAt : Str) (state : LeaseState) :
    SendSame
      (runDb (Db.upsertDhcpLease scopeId family ip identifier hostname startsAt expiresAt state) >>= fun _ => m)
      (runDb (Db.upsertDhcpLease scopeId family ip identifier hostname startsAt expiresAt state) >>=
        fun _ => m') := by
  intro s s' hs
  have hscopes : s'.conn.tables.scopes = s.conn.tables.scopes := hs.scopes
  unfold Db.upsertDhcpLease execute
  rw [after_statement_bind, after_statement_bind, hs.refused_eq, hscopes]
  cases refused s.conn with
  | true => exact hs.sent
  | false =>
    cases s.conn.tables.scopes.any (·.id == scopeId) with
    | true => exact h _ _ (hs.step .write .write rfl hs.reservations)
    | false => exact hs.sent

end SendSame

section Handlers

variable {now : ℤ} {scope : DhcpScope} {reservations : List DhcpReservation} {leases leases' : List DhcpLease}

lemma silent_releaseV4Lease (leases : List DhcpLease) (cid : Str) (st : LeaseState) :
    Silent (releaseV4Lease leases cid st) := by
  unfold releaseV4Lease
  dsimp only
  split
  · exact .pure ()
  · exact sendsOnly_runDb _

/-- A DHCPv4 message is answered alike when the allocator chooses alike. -/
lemma sendSame_answerV4 (halloc : ∀ cid requestedIp, allocate K scope reservations leases' cid requestedIp now =
      allocate K scope reservations leases cid requestedIp now)
    (msg : Dhcp4Message) (mtype : Dhcp4MessageType) :
    SendSame (answerV4 K msg mtype scope reservations leases now)
      (answerV4 K msg mtype scope reservations leases' now) := by
  have hgrant : requestGrant K scope reservations leases' msg now =
      requestGrant K scope reservations leases msg now := by
    unfold requestGrant
    rw [halloc]
  unfold answerV4
  dsimp only
  rw [halloc, hgrant]
  cases mtype with
  | Discover =>
    dsimp only
    split
    · exact .built (.upsert (.send _) _ _ _ _ _ _ _ _)
    · exact .silent (.pure ()) (.pure ())
  | Request =>
    dsimp only
    split
    · exact .built (.upsert (.send_bind _ sendsOnly_registerDns sendsOnly_registerDns) _ _ _ _ _ _ _ _)
    · exact .built (.send _)
  | Release => exact .silent (silent_releaseV4Lease _ _ _) (silent_releaseV4Lease _ _ _)
  | Decline => exact .silent (silent_releaseV4Lease _ _ _) (silent_releaseV4Lease _ _ _)
  | Inform => exact .built (.send _)
  | Offer => exact .silent (.pure ()) (.pure ())
  | Ack => exact .silent (.pure ()) (.pure ())
  | Nak => exact .silent (.pure ()) (.pure ())

/-- A DHCPv6 message is answered alike when the allocator chooses alike. -/
lemma sendSame_answerV6 (halloc : ∀ cid requestedIp, allocate K scope reservations leases' cid requestedIp now =
      allocate K scope reservations leases cid requestedIp now)
    (msg : Dhcp6Message) (src : IpAddr) (duid : Str) :
    SendSame (answerV6 K msg src duid scope reservations leases now)
      (answerV6 K msg src duid scope reservations leases' now) := by
  have hdelete : ∀ leases : List DhcpLease, Silent
      (let ids := (leases.filter fun l => eqIgnoreAsciiCase l.identifier duid).map DhcpLease.id
        if ids.isEmpty then pure () else runDb (deleteLeases ids) : App Unit) := by
    intro leases
    dsimp only
    split
    · exact .pure ()
    · exact sendsOnly_runDb _
  have hassign : SendSame (assignV6 K msg src duid scope reservations leases now)
      (assignV6 K msg src duid scope reservations leases' now) := by
    unfold assignV6
    rw [halloc]
    split
    · split
      · exact .built (.upsert (.send _) _ _ _ _ _ _ _ _)
      · exact .built (.upsert (.send_bind _ sendsOnly_registerDns sendsOnly_registerDns) _ _ _ _ _ _ _ _)
    · exact .silent (.pure ()) (.pure ())
  unfold answerV6
  cases msg.msgType with
  | Solicit => exact hassign
  | Request => exact hassign
  | Renew => exact hassign
  | Rebind => exact hassign
  | Release => exact .silent (hdelete _) (hdelete _)
  | Decline => exact .silent (hdelete _) (hdelete _)
  | Advertise => exact .silent (.pure ()) (.pure ())
  | Confirm => exact .silent (.pure ()) (.pure ())
  | Reply => exact .silent (.pure ()) (.pure ())
  | InformationRequest => exact .silent (.pure ()) (.pure ())

end Handlers

/-! ## Leases that hold nothing -/

section Filter

variable {p : DhcpLease → Bool} {now : ℤ}

/-- The leases of a scope in a table without some rows. -/
lemma leasesOf_filter (t : Tables) (p : DhcpLease → Bool) (scopeId : ℕ) :
    Db.leasesOf { t with leases := t.leases.filter p } scopeId = (Db.leasesOf t scopeId).filter p := by
  unfold Db.leasesOf
  refine List.Perm.eq_of_pairwise ?_
    (List.pairwise_insertionSort (fun l l' : DhcpLease => l.ip ≤ l'.ip) _)
    ((List.pairwise_insertionSort _ _).filter p) ?_
  · -- A scope has one row for an address.
    intro l l' hl hl' hle hle'
    have hrow := List.mem_filter.mp ((List.mem_insertionSort _).mp hl)
    have hrow' := List.mem_filter.mp ((List.mem_insertionSort _).mp (List.mem_filter.mp hl').1)
    refine LeaseTable.eq_of_addr_eq (List.mem_filter.mp hrow.1).1 hrow'.1 ?_ (le_antisymm hle hle')
    exact (beq_iff_eq.mp hrow.2).trans (beq_iff_eq.mp hrow'.2).symm
  · refine (List.perm_insertionSort _ _).trans ?_
    refine List.Perm.trans ?_ ((List.perm_insertionSort _ _).filter p).symm
    rw [List.filter_filter]
    unfold LeaseTable.filter
    dsimp only
    rw [List.filter_filter]
    refine List.Perm.of_eq (List.filter_congr fun l _ => ?_)
    exact Bool.and_comm _ _

/-- The state without the leases that `p` does not keep. -/
def AppState.keepLeases (s : AppState) (p : DhcpLease → Bool) : AppState :=
  { s with conn := { s.conn with tables := { s.db with leases := s.db.leases.filter p } } }

lemma sameButLeases_keepLeases (s : AppState) (p : DhcpLease → Bool) : SameButLeases s (s.keepLeases p) :=
  ⟨rfl, rfl, rfl, rfl, rfl⟩

/-- Leases that hold nothing make no difference to the allocator. -/
lemma allocate_keepLeases {s : AppState} (h : ∀ l ∈ s.db.leases.rows, isHolding K l now = true → p l = true)
    (scope : DhcpScope) (reservations : List DhcpReservation) (cid : Str) (requestedIp : Option IpAddr) :
    allocate K scope reservations (Db.leasesOf (s.keepLeases p).db scope.id) cid requestedIp now =
      allocate K scope reservations (Db.leasesOf s.db scope.id) cid requestedIp now := by
  have hleases : Db.leasesOf (s.keepLeases p).db scope.id = (Db.leasesOf s.db scope.id).filter p :=
    leasesOf_filter s.db p scope.id
  rw [hleases]
  exact allocate_filter (fun l hl => h l (mem_leasesOf.mp hl).1) scope reservations cid requestedIp

/-- Leases that hold nothing make no difference to what DHCPv4 sends. -/
lemma sent_handleV4_keepLeases (s : AppState)
    (h : ∀ l ∈ s.db.leases.rows, isHolding K l now = true → p l = true) (iface : Option RecvIface)
    (msg : Dhcp4Message) :
    ((handleV4 K iface msg now).after (s.keepLeases p)).sent = ((handleV4 K iface msg now).after s).sent := by
  unfold handleV4
  cases msg.messageType with
  | none => rfl
  | some mtype =>
    refine sent_select_bind (sameButLeases_keepLeases s p) fun s₁ s₁' hs₁ hdb₁ hdb₁' => ?_
    have hscopes : (s.keepLeases p).db.scopes = s.db.scopes := rfl
    rw [hscopes]
    cases selectV4Scope K (s.db.scopes.insertionSort fun s s' => s.name ≤ s'.name) msg.giaddr iface with
    | none => exact hs₁.sent
    | some scope =>
      refine sent_select_bind hs₁ fun s₂ s₂' hs₂ hdb₂ hdb₂' => ?_
      refine sent_select_bind hs₂ fun s₃ s₃' hs₃ _ _ => ?_
      rw [hdb₂, hdb₂', hdb₁, hdb₁']
      exact sendSame_answerV4 (fun cid => allocate_keepLeases h scope _ cid) msg mtype s₃ s₃' hs₃

/-- Leases that hold nothing make no difference to what DHCPv6 sends. -/
lemma sent_handleV6_keepLeases (s : AppState)
    (h : ∀ l ∈ s.db.leases.rows, isHolding K l now = true → p l = true) (msg : Dhcp6Message) (src : IpAddr) :
    ((handleV6 K msg src now).after (s.keepLeases p)).sent = ((handleV6 K msg src now).after s).sent := by
  unfold handleV6
  refine sent_select_bind (sameButLeases_keepLeases s p) fun s₁ s₁' hs₁ hdb₁ hdb₁' => ?_
  have hscopes : (s.keepLeases p).db.scopes = s.db.scopes := rfl
  rw [hscopes]
  cases (s.db.scopes.insertionSort fun s s' => s.name ≤ s'.name).find?
      (fun s => s.enabled && s.family == .V6) with
  | none => exact hs₁.sent
  | some scope =>
    cases msg.clientDuid with
    | none => exact hs₁.sent
    | some duid =>
      refine sent_select_bind hs₁ fun s₂ s₂' hs₂ hdb₂ hdb₂' => ?_
      refine sent_select_bind hs₂ fun s₃ s₃' hs₃ _ _ => ?_
      rw [hdb₂, hdb₂', hdb₁, hdb₁']
      exact sendSame_answerV6 (fun cid => allocate_keepLeases h scope _ cid) msg src duid s₃ s₃' hs₃

/-- Leases that hold nothing make no difference to what is sent. -/
lemma sent_handle_keepLeases (s : AppState) (h : ∀ l ∈ s.db.leases.rows, isHolding K l now = true → p l = true)
    (input : DhcpInput) :
    ((input.handle K now).after (s.keepLeases p)).sent = ((input.handle K now).after s).sent := by
  cases input with
  | v4 iface msg => exact sent_handleV4_keepLeases s h iface msg
  | v6 msg src => exact sent_handleV6_keepLeases s h msg src

end Filter

/-! ## What a DECLINE does -/

/-- A DECLINE. -/
def DhcpInput.IsDecline : DhcpInput → Prop
  | .v4 _ msg => msg.messageType = some .Decline
  | .v6 msg _ => msg.msgType = .Decline

/-- The message declines an address that its client holds until `expiry`. -/
structure Declines (K : Crates) (t : Tables) (input : DhcpInput) (now : ℤ) (ip : IpAddr) (expiry : ℤ)
    (l : DhcpLease) : Prop where
  decline : input.IsDecline
  scope : ∃ a, input.call K t now = some a ∧ a.scope.id = l.scopeId
  mem : l ∈ t.leases.rows
  client : ∃ cid, input.client = some cid ∧ eqIgnoreAsciiCase l.identifier cid = true
  holding : isHolding K l now = true
  address : parseIpAddr l.ip = some ip
  expiry : K.parseRfc3339 l.expiresAt = some expiry

/-- The row is one of the client of the message in the scope. -/
def DhcpInput.Owns (input : DhcpInput) (scopeId : ℕ) (l : DhcpLease) : Prop :=
  l.scopeId = scopeId ∧ ∃ cid, input.client = some cid ∧ eqIgnoreAsciiCase l.identifier cid = true

/-- A row that is marked. -/
def markDeclined (l : DhcpLease) : DhcpLease :=
  { l with identifier := toAsciiLowercase l.identifier, state := .Declined }

/-- What a DECLINE makes of a row of its client: it is marked by DHCPv4 and deleted by DHCPv6. -/
def DhcpInput.declined : DhcpInput → DhcpLease → Option DhcpLease
  | .v4 .., l => some (markDeclined l)
  | .v6 .., _ => none

section Decline

variable {α β : Type} {s s₁ : AppState} {l r : DhcpLease} {c c' : Conn Tables}

/-- Upserting the marked row of a table marks the row. -/
lemma mem_upsert_marked {t : LeaseTable} (hl : l ∈ t.rows) :
    r ∈ (t.upsert { markDeclined l with id := 0 }).rows ↔ r ∈ t.rows ∧ r ≠ l ∨ r = markDeclined l := by
  have hupdate : ∀ m ∈ t.rows, LeaseTable.conflictUpdate { markDeclined l with id := 0 } m =
      if m = l then markDeclined l else m := by
    intro m hm
    by_cases hml : m = l
    · rw [if_pos hml, hml]
      exact if_pos ⟨rfl, rfl⟩
    · rw [if_neg hml]
      exact if_neg fun hkey => hml (LeaseTable.eq_of_addr_eq hm hl hkey.1 hkey.2)
  have hrows : (t.upsert { markDeclined l with id := 0 }).rows =
      t.rows.map (LeaseTable.conflictUpdate { markDeclined l with id := 0 }) := by
    have hkey : (l.scopeId, l.ip) ∈ t.rows.map fun l => (l.scopeId, l.ip) :=
      List.mem_map.mpr ⟨l, hl, rfl⟩
    unfold LeaseTable.upsert
    exact congrArg LeaseTable.rows (dif_pos hkey)
  rw [hrows, List.mem_map]
  constructor
  · rintro ⟨m, hm, rfl⟩
    rw [hupdate m hm]
    split
    · exact .inr rfl
    · rename_i hml
      exact .inl ⟨hm, hml⟩
  · rintro (⟨hr, hrl⟩ | rfl)
    · exact ⟨r, hr, by rw [hupdate r hr, if_neg hrl]⟩
    · exact ⟨l, hl, by rw [hupdate l hl, if_pos rfl]⟩

/-- The statement that marks a row. -/
lemma tables_of_declineLease (h : declineLease l c = .ok () c') :
    c'.tables = { c.tables with leases := c.tables.leases.upsert { markDeclined l with id := 0 } } := by
  obtain ⟨hres, rfl⟩ := EStateM.of_run h
  unfold declineLease Db.upsertDhcpLease execute at hres ⊢
  obtain ⟨t, ht, hafter⟩ := statement_ok hres
  rw [hafter]
  split at ht
  · cases ht
    rfl
  · cases ht

/-- Rows of a table are marked one after the other. -/
lemma mem_rows_releaseLeases {mine : List DhcpLease} (h : releaseLeases .Declined mine c = .ok () c')
    (hmem : ∀ l ∈ mine, l ∈ c.tables.leases.rows) (hnodup : mine.Nodup) :
    r ∈ c'.tables.leases.rows ↔ r ∈ c.tables.leases.rows ∧ r ∉ mine ∨ ∃ l ∈ mine, r = markDeclined l := by
  induction mine generalizing c with
  | nil =>
    cases h
    simp
  | cons l mine ih =>
    obtain ⟨u, c₁, hfirst, hrest⟩ := EStateM.of_run_bind h
    obtain ⟨hl, hnodup'⟩ := List.nodup_cons.mp hnodup
    have htables := tables_of_declineLease hfirst
    have hrows : ∀ r, r ∈ c₁.tables.leases.rows ↔
        r ∈ c.tables.leases.rows ∧ r ≠ l ∨ r = markDeclined l := by
      intro r
      rw [htables]
      exact mem_upsert_marked (hmem l List.mem_cons_self)
    have hmine : ∀ m ∈ mine, m ∈ c.tables.leases.rows ∧ m ≠ l := by
      intro m hm
      exact ⟨hmem m (List.mem_cons_of_mem l hm), fun h => hl (h ▸ hm)⟩
    -- The marked row has the address of `l`, so it is none of the rows that follow.
    have hmarked : markDeclined l ∉ mine := by
      intro hm
      exact (hmine _ hm).2 (LeaseTable.eq_of_addr_eq (hmine _ hm).1 (hmem l List.mem_cons_self) rfl rfl)
    rw [ih hrest (fun m hm => (hrows m).mpr (.inl (hmine m hm))) hnodup', hrows]
    simp only [List.mem_cons, exists_eq_or_imp, not_or]
    constructor
    · rintro (⟨⟨hr, hrl⟩ | rfl, hrm⟩ | hr)
      · exact .inl ⟨hr, hrl, hrm⟩
      · exact .inr (.inl rfl)
      · exact .inr (.inr hr)
    · rintro (⟨hr, hrl, hrm⟩ | rfl | hr)
      · exact .inl ⟨.inl ⟨hr, hrl⟩, hrm⟩
      · exact .inl ⟨.inr rfl, hmarked⟩
      · exact .inr hr

/-- The statement that deletes a row. -/
lemma rows_of_deleteDhcpLease {id : ℕ} {u : Unit} (h : Db.deleteDhcpLease id c = .ok u c') :
    c'.tables.leases.rows = c.tables.leases.rows.filter (·.id != id) := by
  obtain ⟨hres, rfl⟩ := EStateM.of_run h
  unfold Db.deleteDhcpLease update execute at hres ⊢
  obtain ⟨t, ht, hafter⟩ := statement_ok hres
  cases ht
  rw [hafter]
  rfl

/-- Rows are deleted one after the other. -/
lemma mem_rows_deleteLeases {ids : List ℕ} (h : deleteLeases ids c = .ok () c') :
    r ∈ c'.tables.leases.rows ↔ r ∈ c.tables.leases.rows ∧ r.id ∉ ids := by
  induction ids generalizing c with
  | nil =>
    cases h
    simp
  | cons id ids ih =>
    obtain ⟨u, c₁, hfirst, hrest⟩ := EStateM.of_run_bind h
    rw [ih hrest, rows_of_deleteDhcpLease hfirst, List.mem_filter, bne_iff_ne, List.mem_cons, not_or, and_assoc]

/-- A handler that returns went on with what its query read. -/
lemma run_select_bind_ok {f : Tables → α} {k : α → App β} {b : β}
    (h : (runDb (select f) >>= k) s = .ok b s₁) :
    ∃ c : Conn Tables, c.tables = s.db ∧ k (f s.db) { s with conn := c } = .ok b s₁ := by
  obtain ⟨a, s', hread, hk⟩ := EStateM.of_run_bind h
  obtain ⟨hres, rfl⟩ := EStateM.of_run hread
  rw [after_runDb] at hk
  rw [result_runDb] at hres
  cases hselect : (select f).result s.conn with
  | error e =>
    rw [hselect] at hres
    cases hres
  | ok a' =>
    rw [hselect] at hres
    cases hres
    obtain ⟨rfl, hstep⟩ := select_ok hselect
    exact ⟨(select f).after s.conn, by rw [hstep]; rfl, hk⟩

/-- A database call that returns leaves the connection of its program. -/
lemma conn_of_runDb {m : Sql Tables α} {a : α} (h : runDb m s = .ok a s₁) : m s.conn = .ok a s₁.conn := by
  unfold runDb at h
  cases hm : m s.conn with
  | ok b c =>
    rw [hm] at h
    cases h
    rfl
  | error e c =>
    rw [hm] at h
    cases h

/-- The rows of the client of a message that are read for its scope. -/
lemma mem_own_leases {t : Tables} {scopeId : ℕ} {cid : Str} :
    r ∈ (Db.leasesOf t scopeId).filter (fun l => eqIgnoreAsciiCase l.identifier cid) ↔
      r ∈ t.leases.rows ∧ r.scopeId = scopeId ∧ eqIgnoreAsciiCase r.identifier cid = true := by
  rw [List.mem_filter, mem_leasesOf, and_assoc]

/-- The rows of a scope are read once each. -/
lemma nodup_leasesOf (t : Tables) (scopeId : ℕ) : (Db.leasesOf t scopeId).Nodup :=
  (List.perm_insertionSort _ _).nodup_iff.mpr (t.leases.uniqueId.of_map.filter _)

/-- A program that runs only when there is something to do. -/
lemma run_of_unless {b : Bool} {m : Sql Tables Unit} (hb : b = true → m s.conn = .ok () s.conn)
    (h : (if b then pure () else runDb m : App Unit) s = .ok () s₁) : m s.conn = .ok () s₁.conn := by
  cases b with
  | true =>
    cases h
    exact hb rfl
  | false => exact conn_of_runDb h

/-- The rows of a client are marked. -/
lemma mem_rows_releaseV4Lease {t : Tables} {scopeId : ℕ} {cid : Str} (hs : s.db = t)
    (h : releaseV4Lease (Db.leasesOf t scopeId) cid .Declined s = .ok () s₁) :
    r ∈ s₁.db.leases.rows ↔
      r ∈ t.leases.rows ∧ ¬(r.scopeId = scopeId ∧ eqIgnoreAsciiCase r.identifier cid = true) ∨
      ∃ l ∈ t.leases.rows, (l.scopeId = scopeId ∧ eqIgnoreAsciiCase l.identifier cid = true) ∧
        r = markDeclined l := by
  subst hs
  have hrun : releaseLeases .Declined
      ((Db.leasesOf s.db scopeId).filter fun l => eqIgnoreAsciiCase l.identifier cid) s.conn =
        .ok () s₁.conn := by
    refine run_of_unless (fun hempty => ?_) h
    rw [List.isEmpty_iff.mp hempty]
    rfl
  have hrows := mem_rows_releaseLeases (r := r) hrun (fun l hl => (mem_own_leases.mp hl).1)
    ((nodup_leasesOf s.db scopeId).filter _)
  simp only [mem_own_leases] at hrows
  refine hrows.trans (or_congr (and_congr_right fun hr => not_congr (and_iff_right hr)) ?_)
  exact exists_congr fun l => and_assoc

/-- The rows of a client are deleted. -/
lemma mem_rows_deleteV6 {t : Tables} {scopeId : ℕ} {duid : Str} {ids : List ℕ} (hs : s.db = t)
    (hids : ids = ((Db.leasesOf t scopeId).filter fun l => eqIgnoreAsciiCase l.identifier duid).map
      DhcpLease.id)
    (h : (if ids.isEmpty then pure () else runDb (deleteLeases ids) : App Unit) s = .ok () s₁) :
    r ∈ s₁.db.leases.rows ↔
      r ∈ t.leases.rows ∧ ¬(r.scopeId = scopeId ∧ eqIgnoreAsciiCase r.identifier duid = true) := by
  subst hs
  have hrun : deleteLeases ids s.conn = .ok () s₁.conn := by
    refine run_of_unless (fun hempty => ?_) h
    rw [List.isEmpty_iff.mp hempty]
    rfl
  refine (mem_rows_deleteLeases hrun).trans (and_congr_right fun hr => not_congr ?_)
  rw [hids, List.mem_map]
  constructor
  · rintro ⟨l, hl, hid⟩
    obtain ⟨hmem, hown⟩ := mem_own_leases.mp hl
    rwa [LeaseTable.eq_of_id_eq hmem hr hid] at hown
  · intro hown
    exact ⟨r, mem_own_leases.mpr ⟨hr, hown⟩, rfl⟩

/-- The rows after a DHCPv4 DECLINE that is handled. -/
lemma mem_rows_of_declineV4 {iface : Option RecvIface} {msg : Dhcp4Message} {now : ℤ} {scope : DhcpScope}
    (hmsg : msg.messageType = some .Decline)
    (hscope : selectV4Scope K (s.db.scopes.insertionSort fun s s' => s.name ≤ s'.name) msg.giaddr iface =
      some scope)
    (h : handleV4 K iface msg now s = .ok () s₁) :
    r ∈ s₁.db.leases.rows ↔
      r ∈ s.db.leases.rows ∧ ¬(r.scopeId = scope.id ∧ eqIgnoreAsciiCase r.identifier (v4ClientId msg) = true) ∨
      ∃ l ∈ s.db.leases.rows,
        (l.scopeId = scope.id ∧ eqIgnoreAsciiCase l.identifier (v4ClientId msg) = true) ∧
          r = markDeclined l := by
  unfold handleV4 at h
  rw [hmsg] at h
  obtain ⟨c₁, hc₁, h⟩ := run_select_bind_ok h
  rw [hscope] at h
  obtain ⟨c₂, hc₂, h⟩ := run_select_bind_ok h
  obtain ⟨c₃, hc₃, h⟩ := run_select_bind_ok h
  have hread : c₂.tables = s.db := hc₂.trans hc₁
  have hrelease : releaseV4Lease (Db.leasesOf c₂.tables scope.id) (v4ClientId msg) .Declined
      { s with conn := c₃ } = .ok () s₁ := h
  rw [hread] at hrelease
  exact mem_rows_releaseV4Lease (hc₃.trans hread) hrelease

/-- The rows after a DHCPv6 DECLINE that is handled. -/
lemma mem_rows_of_declineV6 {msg : Dhcp6Message} {src : IpAddr} {now : ℤ} {scope : DhcpScope} {duid : Str}
    (hmsg : msg.msgType = .Decline)
    (hscope : (s.db.scopes.insertionSort fun s s' => s.name ≤ s'.name).find?
      (fun s => s.enabled && s.family == .V6) = some scope)
    (hduid : msg.clientDuid = some duid) (h : handleV6 K msg src now s = .ok () s₁) :
    r ∈ s₁.db.leases.rows ↔
      r ∈ s.db.leases.rows ∧ ¬(r.scopeId = scope.id ∧ eqIgnoreAsciiCase r.identifier duid = true) := by
  unfold handleV6 at h
  obtain ⟨c₁, hc₁, h⟩ := run_select_bind_ok h
  rw [hscope, hduid] at h
  obtain ⟨c₂, hc₂, h⟩ := run_select_bind_ok h
  obtain ⟨c₃, hc₃, h⟩ := run_select_bind_ok h
  unfold answerV6 at h
  rw [hmsg] at h
  have hread : c₂.tables = s.db := hc₂.trans hc₁
  have hids := congrArg (fun t => ((Db.leasesOf t scope.id).filter fun l =>
    eqIgnoreAsciiCase l.identifier duid).map DhcpLease.id) hread
  exact mem_rows_deleteV6 (hc₃.trans hread) hids h

/-- The rows after a DECLINE that is handled. -/
lemma mem_rows_of_decline {input : DhcpInput} {now : ℤ} {a : AllocateArgs} (hdecline : input.IsDecline)
    (hcall : input.call K s.db now = some a) (h : input.handle K now s = .ok () s₁) :
    r ∈ s₁.db.leases.rows ↔ r ∈ s.db.leases.rows ∧ ¬input.Owns a.scope.id r ∨
      ∃ l ∈ s.db.leases.rows, input.Owns a.scope.id l ∧ input.declined l = some r := by
  cases input with
  | v4 iface msg =>
    obtain ⟨scope, hscope, rfl⟩ := Option.map_eq_some_iff.mp hcall
    refine (mem_rows_of_declineV4 hdecline hscope h).trans ?_
    unfold DhcpInput.Owns DhcpInput.client DhcpInput.declined
    simp only [Option.some_inj, exists_eq_left', eq_comm (a := r)]
    exact Iff.rfl
  | v6 msg src =>
    obtain ⟨scope, hscope, hrest⟩ := Option.bind_eq_some_iff.mp hcall
    obtain ⟨duid, hduid, rfl⟩ := Option.map_eq_some_iff.mp hrest
    refine (mem_rows_of_declineV6 hdecline hscope hduid h).trans ?_
    unfold DhcpInput.Owns DhcpInput.client DhcpInput.declined
    simp only [hduid, Option.some_inj, exists_eq_left', reduceCtorEq, and_false, exists_false, or_false]
    exact Iff.rfl

end Decline

/-! ## What follows a DECLINE -/

/-- What comes after: a message is handled, or anything else happens to the database. -/
inductive LaterStep
  | message (input : DhcpInput) (now : ℤ)
  | other (conn : Conn Tables)

/-- The state after a later step. -/
def LaterStep.run (K : Crates) (s : AppState) : LaterStep → Option AppState
  | .message input now => some ((input.handle K now).after s)
  | .other conn => some { s with conn := conn }

/-- The client of the message has a reservation for the address. -/
def ReservesFor (K : Crates) (t : Tables) (input : DhcpInput) (now : ℤ) (ip : IpAddr) : Prop :=
  ∃ a, input.call K t now = some a ∧ ∃ r ∈ a.reservations, a.ReservedAt r ip

/-- The step is not a message that is handled before `expiry`, is from a client without a reservation for
the address and is answered with the address. -/
def NotGiven (K : Crates) (ip : IpAddr) (expiry : ℤ) (s : AppState) : LaterStep → Prop
  | .message input now => now < expiry → ¬ReservesFor K s.db input now ip →
      ∀ p ∈ ((input.handle K now).after s).sent.drop s.sent.length, ∀ scope, p.given ≠ some (scope, ip)
  | .other _ => True

/-- Whatever follows the DECLINE, the declined address is not given away before the lease is over. -/
def StaysOut (K : Crates) (s : AppState) (input : DhcpInput) (now : ℤ) (steps : List LaterStep) : Prop :=
  ∀ l ip expiry, Declines K s.db input now ip expiry l →
    Along (LaterStep.run K) (NotGiven K ip expiry) ((input.handle K now).after s) steps

/-- A message is answered as it is without the declined rows. -/
def AnswersAsFree (K : Crates) (s : AppState) : LaterStep → Prop
  | .message input now => ((input.handle K now).after s).sent =
      ((input.handle K now).after (s.keepLeases (·.state != .Declined))).sent
  | .other _ => True

/-- A declined row holds nothing. -/
lemma answersAsFree (s : AppState) (step : LaterStep) : AnswersAsFree K s step := by
  cases step with
  | message input now =>
    refine (sent_handle_keepLeases s (fun l _ hhold => ?_) input).symm
    unfold isHolding at hhold
    rw [Bool.and_eq_true, Bool.or_eq_true, beq_iff_eq, beq_iff_eq] at hhold
    rcases hhold.1 with hstate | hstate
    · rw [hstate]
      rfl
    · rw [hstate]
      rfl
  | other conn => trivial

/-- For every state and continuation: a DECLINE that is handled marks the rows of its client in the scope, or
deletes them, and leaves all other rows; and whatever follows, every message is answered as if the declined
rows were not in the table. -/
theorem declined_isFree (s s₁ : AppState) (input : DhcpInput) (now : ℤ) (l : DhcpLease) (ip : IpAddr)
    (expiry : ℤ) (hdeclines : Declines K s.db input now ip expiry l)
    (hok : input.handle K now s = .ok () s₁) (steps : List LaterStep) :
    (∀ r, r ∈ s₁.db.leases.rows ↔ r ∈ s.db.leases.rows ∧ ¬input.Owns l.scopeId r ∨
      ∃ l' ∈ s.db.leases.rows, input.Owns l.scopeId l' ∧ input.declined l' = some r) ∧
    Along (LaterStep.run K) (AnswersAsFree K) s₁ steps := by
  obtain ⟨a, hcall, hscope⟩ := hdeclines.scope
  refine ⟨fun r => ?_, along_of_forall answersAsFree s₁ steps⟩
  rw [← hscope]
  exact mem_rows_of_decline hdeclines.decline hcall hok

/-- The client of the lease declines its address. -/
def lanDecline : DhcpInput :=
  .v4 none (clientMessage 4 [0xaa, 0xaa, 0xaa, 0xaa, 0xaa, 0xaa] none)

/-- A DISCOVER of another client a minute later. -/
def otherDiscover (requested : Option Bytes) : LaterStep :=
  .message (.v4 none (clientMessage 1 [0xbb, 0xbb, 0xbb, 0xbb, 0xbb, 0xbb] requested)) 120

/-- The lease after it is declined. -/
def lanDeclined : DhcpLease :=
  { lanLease with state := .Declined }

/-- The client declines the address of its lease. -/
lemma declines_lan : Declines plainCrates lanState.db lanDecline 60 (.v4 0xc0a8010a) 3600 lanLease := by
  refine ⟨rfl, ?_, List.mem_singleton_self _, ⟨_, rfl, by decide +kernel⟩, by decide +kernel,
    by decide +kernel, by decide +kernel⟩
  exact ⟨callFor lanState.db 60 lanScope "aa:aa:aa:aa:aa:aa" none, by rfl, rfl⟩

/-- The lease is marked, and another client is offered the address as if there were no lease. -/
theorem declined_isFree_lan :
    ((lanDecline.handle plainCrates 60).after lanState).db.leases.rows = [lanDeclined] ∧
      Along (LaterStep.run plainCrates) (AnswersAsFree plainCrates)
        ((lanDecline.handle plainCrates 60).after lanState) [otherDiscover none] := by
  have hrows : ((lanDecline.handle plainCrates 60).after lanState).db.leases.rows = [lanDeclined] := by
    decide +kernel
  exact ⟨hrows, (declined_isFree lanState _ lanDecline 60 lanLease (.v4 0xc0a8010a) 3600 declines_lan (by rfl)
    [otherDiscover none]).2⟩

/-- The offer of the declined address to another client. -/
def lanOffered : Packet :=
  .v4 ⟨clientMessage 1 [0xbb, 0xbb, 0xbb, 0xbb, 0xbb, 0xbb] none, lanScope, [], 0xc0a8010a, .Offer⟩
    (.v4 0xffffffff, 68)

/-- An address that is declined is offered to the next client, long before the lease is over. -/
theorem not_staysOut_lan :
    Declines plainCrates lanState.db lanDecline 60 (.v4 0xc0a8010a) 3600 lanLease ∧
      (LaterStep.run plainCrates ((lanDecline.handle plainCrates 60).after lanState)
        (otherDiscover none)).map AppState.sent = some [lanOffered] ∧
      ¬StaysOut plainCrates lanState lanDecline 60 [otherDiscover none] := by
  refine ⟨declines_lan, by decide +kernel, ?_⟩
  intro h
  have hnotReserved : ¬ReservesFor plainCrates ((lanDecline.handle plainCrates 60).after lanState).db
      (.v4 none (clientMessage 1 [0xbb, 0xbb, 0xbb, 0xbb, 0xbb, 0xbb] none)) 120 (.v4 0xc0a8010a) := by
    rintro ⟨a, hcall, r, hr, -⟩
    have hnone : (DhcpInput.call plainCrates ((lanDecline.handle plainCrates 60).after lanState).db 120
        (.v4 none (clientMessage 1 [0xbb, 0xbb, 0xbb, 0xbb, 0xbb, 0xbb] none))).map
          AllocateArgs.reservations = some [] := by decide +kernel
    rw [hcall, Option.map_some, Option.some_inj] at hnone
    rw [hnone] at hr
    cases hr
  exact (h _ _ _ declines_lan).1 (by decide) hnotReserved lanOffered (by decide +kernel) lanScope
    (by decide +kernel)

end Nomina
