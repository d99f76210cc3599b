import Nomina.Dhcp.Handling
import Nomina.Lib.Lts
import Mathlib.Logic.Function.Basic

/-!
# Concurrent DHCPv4 loops

Every socket has a loop of its own, and `handle_v4` reads the reservations, reads the leases, decides
and writes in separate database calls. The system below interleaves the steps of any number of loops
that serve one scope and handle REQUEST messages of clients without a reservation.

Nothing spans the read of the leases and the write, so two loops can grant the same address. In every
run in which no lease is written between a loop's read of the leases and its own write, addresses are
never acknowledged to two clients for overlapping times.
-/

namespace Nomina

open Lib

/-! ## The system -/

/-- What a loop has done about the message it handles. The number with the leases counts the lease
writes before they were read; it is history, not data of the program. -/
inductive LoopPhase
  | idle
  | received (msg : Dhcp4Message)
  | haveReservations (msg : Dhcp4Message) (reservations : List DhcpReservation)
  | haveLeases (msg : Dhcp4Message) (reservations : List DhcpReservation)
      (leases : List DhcpLease) (seen : ℕ)
  | granted (msg : Dhcp4Message) (yiaddr : Ipv4Addr) (now : ℤ) (seen : ℕ)
  | written (msg : Dhcp4Message) (yiaddr : Ipv4Addr) (now : ℤ)

/-- The lease writes before the leases were read, for a loop that is about to write. -/
def LoopPhase.seen? : LoopPhase → Option ℕ
  | .granted _ _ _ seen => some seen
  | _ => none

/-- An address granted to a client from `start` until `expires`. -/
structure Grant where
  client : Str
  yiaddr : Ipv4Addr
  start : ℤ
  expires : ℤ
deriving DecidableEq

/-- The times of two grants do not overlap. -/
def Grant.Disjoint (g g' : Grant) : Prop :=
  g.expires ≤ g'.start ∨ g'.expires ≤ g.start

instance (g g' : Grant) : Decidable (g.Disjoint g') :=
  inferInstanceAs (Decidable (_ ∨ _))

/-- The loops, the database they share and the clock they read. `grants` are the leases written and
`acks` the acknowledgements sent, in this run; `writes` counts the lease writes. -/
structure LoopSystem where
  tables : Tables
  clock : ℤ
  loops : ℕ → LoopPhase
  grants : List Grant
  acks : List Grant
  writes : ℕ

/-- The steps of the loops. `abort` is a database call or a send that fails. -/
inductive LoopStep
  | tick (seconds : ℤ)
  | receive (i : ℕ) (msg : Dhcp4Message)
  | readReservations (i : ℕ)
  | readLeases (i : ℕ)
  | decide (i : ℕ)
  | write (i : ℕ)
  | ack (i : ℕ)
  | abort (i : ℕ)

namespace LoopSystem

variable (K : Crates) (scope : DhcpScope)

/-- Loop `i` goes on to a phase. -/
def enter (s : LoopSystem) (i : ℕ) (phase : LoopPhase) : LoopSystem :=
  { s with loops := Function.update s.loops i phase }

/-- The grant of an address to the sender of a message. -/
def grantOf (msg : Dhcp4Message) (yiaddr : Ipv4Addr) (now : ℤ) : Grant :=
  ⟨v4ClientId msg, yiaddr, now, now + scope.leaseSecs⟩

/-- The message is a REQUEST of a client without a reservation. -/
def Accepts (s : LoopSystem) (msg : Dhcp4Message) : Prop :=
  msg.messageType = some .Request ∧
    ∀ r ∈ Db.reservationsOf s.tables scope.id, eqIgnoreAsciiCase r.identifier (v4ClientId msg) = false

instance (s : LoopSystem) (msg : Dhcp4Message) : Decidable (s.Accepts scope msg) :=
  inferInstanceAs (Decidable (_ ∧ _))

/-- One step. -/
def step (s : LoopSystem) : LoopStep → Option LoopSystem
  | .tick seconds => some { s with clock := s.clock + seconds }
  | .receive i msg =>
    match s.loops i with
    | .idle => if s.Accepts scope msg then some (s.enter i (.received msg)) else none
    | _ => none
  | .readReservations i =>
    match s.loops i with
    | .received msg =>
      some (s.enter i (.haveReservations msg (Db.reservationsOf s.tables scope.id)))
    | _ => none
  | .readLeases i =>
    match s.loops i with
    | .haveReservations msg reservations =>
      some (s.enter i
        (.haveLeases msg reservations (Db.leasesOf s.tables scope.id) s.writes))
    | _ => none
  | .decide i =>
    match s.loops i with
    | .haveLeases msg reservations leases seen =>
      match requestGrant K scope reservations leases msg s.clock with
      | some yiaddr => some (s.enter i (.granted msg yiaddr s.clock seen))
      -- A NAK is sent and nothing written.
      | none => some (s.enter i .idle)
    | _ => none
  | .write i =>
    match s.loops i with
    | .granted msg yiaddr now _ =>
      match persistV4Lease K scope yiaddr (v4ClientId msg) msg.hostname now (now + scope.leaseSecs)
          .Active ⟨s.tables, [], []⟩ with
      | .ok _ c => some { s.enter i (.written msg yiaddr now) with
          tables := c.tables
          grants := s.grants ++ [grantOf scope msg yiaddr now]
          writes := s.writes + 1 }
      | .error _ _ => none
    | _ => none
  | .ack i =>
    match s.loops i with
    | .written msg yiaddr now =>
      some { s.enter i .idle with acks := s.acks ++ [grantOf scope msg yiaddr now] }
    | _ => none
  | .abort i => some (s.enter i .idle)

/-- The system before any message: all loops idle, any database. -/
def initial (tables : Tables) (clock : ℤ) : LoopSystem :=
  ⟨tables, clock, fun _ => .idle, [], [], 0⟩

/-- A time that RFC 3339 text can express: the text written for it reads back as that time. -/
def Expressible (t : ℤ) : Prop :=
  K.parseRfc3339 (K.rfc3339 t) = some t

/-- The condition on the steps: a loop writes only if no lease was written since it read the leases,
it decides at a time for which the expiry can be written down, and the clock does not go back. -/
def Undisturbed (s : LoopSystem) : LoopStep → Prop
  | .write i => (s.loops i).seen?.all (· == s.writes) = true
  | .decide _ => Expressible K (s.clock + scope.leaseSecs)
  | .tick seconds => 0 ≤ seconds
  | _ => True

instance (s : LoopSystem) : (a : LoopStep) → Decidable (Undisturbed K scope s a)
  | .write _ => inferInstanceAs (Decidable (_ = _))
  | .decide _ => inferInstanceAs (Decidable (_ = _))
  | .tick _ => inferInstanceAs (Decidable (_ ≤ _))
  | .receive .. | .readReservations _ | .readLeases _ | .ack _ | .abort _ => isTrue trivial

/-! ## The invariant -/

/-- No reservation of the scope is for the sender of the message. -/
def Unreserved (s : LoopSystem) (msg : Dhcp4Message) : Prop :=
  ∀ r ∈ Db.reservationsOf s.tables scope.id,
    eqIgnoreAsciiCase r.identifier (v4ClientId msg) = false

/-- What a loop in a phase can rely on. What it read of the leases, and what it decided from them, is
still right as long as no lease was written since. -/
def PhaseOk (s : LoopSystem) : LoopPhase → Prop
  | .idle => True
  | .received msg => s.Unreserved scope msg
  | .haveReservations msg reservations =>
    s.Unreserved scope msg ∧ reservations = Db.reservationsOf s.tables scope.id
  | .haveLeases msg reservations leases seen =>
    s.Unreserved scope msg ∧ reservations = Db.reservationsOf s.tables scope.id ∧
      seen ≤ s.writes ∧ (seen = s.writes → leases = Db.leasesOf s.tables scope.id)
  | .granted msg yiaddr now seen =>
    Expressible K (now + scope.leaseSecs) ∧ now ≤ s.clock ∧ seen ≤ s.writes ∧
      (seen = s.writes → ∀ g ∈ s.grants, g.start ≤ now ∧
        (g.yiaddr = yiaddr → g.client ≠ v4ClientId msg → g.expires ≤ now))
  | .written msg yiaddr now => grantOf scope msg yiaddr now ∈ s.grants

/-- The table has an active lease row for the address of the grant, which lasts at least as long; if
it is the row of another client, the grant is over. -/
def Backed (s : LoopSystem) (g : Grant) : Prop :=
  ∃ row ∈ s.tables.leases.rows, row.scopeId = scope.id ∧ row.ip = fmtIpAddr (.v4 g.yiaddr) ∧
    row.state = .Active ∧ toAsciiLowercase row.identifier = row.identifier ∧
    ∃ e, K.parseRfc3339 row.expiresAt = some e ∧ g.expires ≤ e ∧
      (g.client ≠ row.identifier → g.expires ≤ s.clock)

/-- The invariant of undisturbed runs. -/
structure Inv (s : LoopSystem) : Prop where
  phases : ∀ i, s.PhaseOk K scope (s.loops i)
  acked : ∀ g ∈ s.acks, g ∈ s.grants
  started : ∀ g ∈ s.grants, g.start ≤ s.clock
  lasting : ∀ g ∈ s.grants, g.expires = g.start + scope.leaseSecs
  lower : ∀ g ∈ s.grants, toAsciiLowercase g.client = g.client
  backed : ∀ g ∈ s.grants, s.Backed K scope g
  disjoint : ∀ g ∈ s.grants, ∀ g' ∈ s.grants, g.client ≠ g'.client → g.yiaddr = g'.yiaddr →
    g.Disjoint g'

variable {K scope} {s : LoopSystem}

/-- The invariant holds before any message. -/
lemma inv_initial (tables : Tables) (clock : ℤ) : (initial tables clock).Inv K scope where
  phases _ := trivial
  acked _ h := by cases h
  started _ h := by cases h
  lasting _ h := by cases h
  lower _ h := by cases h
  backed _ h := by cases h
  disjoint _ h := by cases h

/-- Time passes. -/
lemma Inv.tick (h : s.Inv K scope) {seconds : ℤ} (hs : 0 ≤ seconds) :
    ({ s with clock := s.clock + seconds } : LoopSystem).Inv K scope where
  phases i := by
    have hi := h.phases i
    dsimp only
    cases hp : s.loops i with
    | granted msg yiaddr now seen =>
      rw [hp] at hi
      obtain ⟨hexp, hnow, hseen, hfree⟩ := hi
      exact ⟨hexp, by dsimp only; omega, hseen, hfree⟩
    | idle => trivial
    | received msg => rw [hp] at hi; exact hi
    | haveReservations msg rs => rw [hp] at hi; exact hi
    | haveLeases msg rs ls seen => rw [hp] at hi; exact hi
    | written msg yiaddr now => rw [hp] at hi; exact hi
  acked := h.acked
  started g hg := by
    have := h.started g hg
    dsimp only
    omega
  lasting := h.lasting
  lower := h.lower
  backed g hg := by
    obtain ⟨row, hrow, hscope, hip, hstate, hlow, e, he, hle, hover⟩ := h.backed g hg
    refine ⟨row, hrow, hscope, hip, hstate, hlow, e, he, hle, fun hne => ?_⟩
    have := hover hne
    dsimp only
    omega
  disjoint := h.disjoint

/-- What a loop can rely on does not depend on the phases of the others. -/
lemma phaseOk_enter {i : ℕ} {phase phase' : LoopPhase} :
    (s.enter i phase).PhaseOk K scope phase' ↔ s.PhaseOk K scope phase' := by
  cases phase' <;> exact Iff.rfl

/-- A loop goes on to a phase about which it is right. -/
lemma Inv.enter (h : s.Inv K scope) {i : ℕ} {phase : LoopPhase} (hp : s.PhaseOk K scope phase) :
    (s.enter i phase).Inv K scope where
  phases j := by
    rw [phaseOk_enter]
    by_cases hj : j = i
    · subst hj
      simpa [LoopSystem.enter] using hp
    · simpa [LoopSystem.enter, hj] using h.phases j
  acked := h.acked
  started := h.started
  lasting := h.lasting
  lower := h.lower
  backed := h.backed
  disjoint := h.disjoint

/-- A row of the address granted that another client holds would have been seen: the address a loop
grants is free at the time it decides, if the leases it read are still those of the table. -/
lemma Inv.phaseOk_granted (h : s.Inv K scope) (hfam : scope.family = .V4) {i : ℕ}
    {msg : Dhcp4Message} {reservations : List DhcpReservation} {leases : List DhcpLease} {seen : ℕ}
    {yiaddr : Ipv4Addr} (hp : s.loops i = .haveLeases msg reservations leases seen)
    (hgrant : requestGrant K scope reservations leases msg s.clock = some yiaddr)
    (hexp : Expressible K (s.clock + scope.leaseSecs)) :
    s.PhaseOk K scope (.granted msg yiaddr s.clock seen) := by
  have hi := h.phases i
  rw [hp] at hi
  obtain ⟨hunres, rfl, hseen, hleases⟩ := hi
  refine ⟨hexp, le_rfl, hseen, fun heq g hg => ⟨h.started g hg, ?_⟩⟩
  intro hy hclient
  subst hy
  rw [hleases heq] at hgrant
  obtain ⟨row, hrow, hscope, hip, hstate, hlow, e, he, hle, hover⟩ := h.backed g hg
  by_cases hown : g.client = row.identifier
  · have hother : eqIgnoreAsciiCase row.identifier (v4ClientId msg) = false := by
      rw [← Bool.not_eq_true, eqIgnoreAsciiCase_iff, hlow, toAsciiLowercase_v4ClientId, ← hown]
      exact hclient
    have hfam' : familyMatches (.v4 g.yiaddr) scope.family = true := familyMatches_v4 hfam _
    rcases allocate_spec (allocate_of_requestGrant hgrant) hfam' with ⟨r, hr, hid, -⟩ | hfree
    · rw [hunres r hr] at hid
      cases hid
    · have hexpired : isHolding K row s.clock = false := by
        rw [← Bool.not_eq_true]
        intro hhold
        refine hfree row (mem_leasesOf.mpr ⟨hrow, hscope⟩) hhold hother ?_
        rw [hip, parseIpAddr_fmtIpAddr]
      have hpast : e ≤ s.clock := by
        simpa [isHolding, leaseExpired, hstate, he] using hexpired
      omega
  · exact hover hown

/-- The contents after a lease write. -/
def afterWrite (K : Crates) (scope : DhcpScope) (t : Tables) (msg : Dhcp4Message)
    (yiaddr : Ipv4Addr) (now : ℤ) : Tables :=
  { t with leases := t.leases.upsert ⟨0, scope.id, .V4, fmtIpAddr (.v4 yiaddr),
      toAsciiLowercase (v4ClientId msg), msg.hostname, K.rfc3339 now,
      K.rfc3339 (now + scope.leaseSecs), .Active⟩ }

/-- A lease write that succeeds upserts the row of the grant. -/
lemma persistV4Lease_ok {t : Tables} {msg : Dhcp4Message} {yiaddr : Ipv4Addr} {now : ℤ} {u : Unit}
    {c : Conn Tables}
    (h : persistV4Lease K scope yiaddr (v4ClientId msg) msg.hostname now (now + scope.leaseSecs)
      .Active ⟨t, [], []⟩ = .ok u c) : c.tables = afterWrite K scope t msg yiaddr now := by
  unfold persistV4Lease Db.upsertDhcpLease Sql.execute Sql.statement at h
  simp only [Sql.refused, List.headD_nil, Bool.false_eq_true, if_false] at h
  split at h
  · cases h
  · rename_i hf
    split at hf
    · cases hf
      cases h
      rfl
    · cases hf

/-- A lease write to a scope of the database succeeds. -/
lemma persistV4Lease_evals {t : Tables} {msg : Dhcp4Message} {yiaddr : Ipv4Addr} {now : ℤ}
    (hmem : scope ∈ t.scopes) :
    Sql.Evals (persistV4Lease K scope yiaddr (v4ClientId msg) msg.hostname now
      (now + scope.leaseSecs) .Active) t (.ok ()) (afterWrite K scope t msg yiaddr now) :=
  evals_upsertDhcpLease hmem _ _ _ _ _ _ _

/-- What another loop can rely on is still right after a write: the leases it read count no more. -/
lemma PhaseOk.write {phase : LoopPhase} (h : s.PhaseOk K scope phase) (i : ℕ) (phase' : LoopPhase)
    (leases : LeaseTable) (grants : List Grant) :
    ({ s.enter i phase' with
        tables := { s.tables with leases }
        grants := s.grants ++ grants
        writes := s.writes + 1 } : LoopSystem).PhaseOk K scope phase := by
  cases phase with
  | idle => trivial
  | received msg => exact h
  | haveReservations msg rs => exact h
  | haveLeases msg rs ls seen =>
    obtain ⟨hunres, hrs, hseen, -⟩ := h
    exact ⟨hunres, hrs, by dsimp only; omega, fun heq => by dsimp only at heq; omega⟩
  | granted msg yiaddr now seen =>
    obtain ⟨hexp, hnow, hseen, -⟩ := h
    exact ⟨hexp, hnow, by dsimp only; omega, fun heq => by dsimp only at heq; omega⟩
  | written msg yiaddr now => exact List.mem_append_left _ h

/-- A grant of another address is backed as before a write. -/
lemma Backed.upsert {g : Grant} (h : s.Backed K scope g) {s' : LoopSystem} {l : DhcpLease}
    (hclock : s'.clock = s.clock) (hleases : s'.tables.leases = s.tables.leases.upsert l)
    (hip : l.ip ≠ fmtIpAddr (.v4 g.yiaddr)) : s'.Backed K scope g := by
  obtain ⟨row, hrow, hscope, hrowIp, hrest⟩ := h
  unfold Backed
  rw [hclock, hleases]
  refine ⟨row, LeaseTable.mem_upsert_of_ne hrow ?_, hscope, hrowIp, hrest⟩
  rintro ⟨-, hsame⟩
  exact hip (hsame.symm.trans hrowIp)

/-- A loop writes the lease it decided on, with no other lease written since it read them. -/
lemma Inv.write (h : s.Inv K scope) {i : ℕ} {msg : Dhcp4Message} {yiaddr : Ipv4Addr} {now : ℤ}
    (hp : s.loops i = .granted msg yiaddr now s.writes) :
    ({ s.enter i (.written msg yiaddr now) with
        tables := afterWrite K scope s.tables msg yiaddr now
        grants := s.grants ++ [grantOf scope msg yiaddr now]
        writes := s.writes + 1 } : LoopSystem).Inv K scope := by
  have hi := h.phases i
  rw [hp] at hi
  obtain ⟨hexp, hnow, -, hfree⟩ := hi
  have hfree := hfree rfl
  -- The row of the grant, and that it outlasts every grant of the address.
  obtain ⟨id, hid⟩ := s.tables.leases.exists_mem_upsert ⟨0, scope.id, .V4,
    fmtIpAddr (.v4 yiaddr), toAsciiLowercase (v4ClientId msg), msg.hostname, K.rfc3339 now,
    K.rfc3339 (now + scope.leaseSecs), .Active⟩
  constructor
  case phases =>
    intro j
    by_cases hj : j = i
    · subst hj
      simp [LoopSystem.enter, PhaseOk]
    · have hphase := (h.phases j).write i (.written msg yiaddr now)
        (afterWrite K scope s.tables msg yiaddr now).leases [grantOf scope msg yiaddr now]
      simp only [LoopSystem.enter, Function.update_of_ne hj]
      exact hphase
  case acked => exact fun g hg => List.mem_append_left _ (h.acked g hg)
  case started => exact List.forall_mem_append.mpr ⟨h.started, List.forall_mem_singleton.mpr hnow⟩
  case lasting => exact List.forall_mem_append.mpr ⟨h.lasting, List.forall_mem_singleton.mpr rfl⟩
  case lower =>
    exact List.forall_mem_append.mpr
      ⟨h.lower, List.forall_mem_singleton.mpr (toAsciiLowercase_v4ClientId msg)⟩
  case backed =>
    intro g hg
    by_cases hy : g.yiaddr = yiaddr
    · refine ⟨_, hid, rfl, by rw [hy], rfl, toAsciiLowercase_idem _, _, hexp, ?_, ?_⟩
      · rcases List.mem_append.mp hg with hg | hg
        · have := hfree g hg
          have := h.lasting g hg
          omega
        · cases List.mem_singleton.mp hg
          exact le_rfl
      · intro hne
        rcases List.mem_append.mp hg with hg | hg
        · have := (hfree g hg).2 hy (by simpa [toAsciiLowercase_v4ClientId] using hne)
          exact this.trans hnow
        · cases List.mem_singleton.mp hg
          exact absurd (toAsciiLowercase_v4ClientId msg).symm hne
    · have hg : g ∈ s.grants := by
        rcases List.mem_append.mp hg with hg | hg
        · exact hg
        · cases List.mem_singleton.mp hg
          exact absurd rfl hy
      refine (h.backed g hg).upsert rfl rfl fun hip => hy ?_
      have hsame := congrArg parseIpAddr hip
      rw [parseIpAddr_fmtIpAddr, parseIpAddr_fmtIpAddr] at hsame
      exact (IpAddr.v4.inj (Option.some.inj hsame)).symm
  case disjoint =>
    intro g hg g' hg' hne hy
    rcases List.mem_append.mp hg with hg | hg <;> rcases List.mem_append.mp hg' with hg' | hg'
    · exact h.disjoint g hg g' hg' hne hy
    · cases List.mem_singleton.mp hg'
      exact .inl ((hfree g hg).2 hy hne)
    · cases List.mem_singleton.mp hg
      exact .inr ((hfree g' hg').2 hy.symm hne.symm)
    · cases List.mem_singleton.mp hg
      cases List.mem_singleton.mp hg'
      exact absurd rfl hne

/-- A loop acknowledges the lease it wrote. -/
lemma Inv.ack (h : s.Inv K scope) {i : ℕ} {msg : Dhcp4Message} {yiaddr : Ipv4Addr} {now : ℤ}
    (hp : s.loops i = .written msg yiaddr now) :
    ({ s.enter i .idle with
        acks := s.acks ++ [grantOf scope msg yiaddr now] } : LoopSystem).Inv K scope := by
  have hi := h.phases i
  rw [hp] at hi
  have henter : (s.enter i .idle).Inv K scope := h.enter trivial
  refine ⟨henter.phases, ?_, h.started, h.lasting, h.lower, h.backed, h.disjoint⟩
  intro g hg
  rcases List.mem_append.mp hg with hg | hg
  · exact h.acked g hg
  · cases List.mem_singleton.mp hg
    exact hi

/-- Every undisturbed step keeps the invariant. -/
lemma inv_step (hfam : scope.family = .V4) (s : LoopSystem) (a : LoopStep) (s' : LoopSystem)
    (h : s.Inv K scope) (hund : Undisturbed K scope s a) (hstep : step K scope s a = some s') :
    s'.Inv K scope := by
  cases a with
  | tick seconds =>
    cases hstep
    exact h.tick hund
  | abort i =>
    cases hstep
    exact h.enter trivial
  | receive i msg =>
    simp only [step] at hstep
    split at hstep
    · simp only [Option.ite_none_right_eq_some, Option.some.injEq] at hstep
      obtain ⟨hacc, rfl⟩ := hstep
      exact h.enter hacc.2
    · cases hstep
  | readReservations i =>
    simp only [step] at hstep
    split at hstep
    · rename_i msg hp
      cases hstep
      have hi := h.phases i
      rw [hp] at hi
      exact h.enter ⟨hi, rfl⟩
    · cases hstep
  | readLeases i =>
    simp only [step] at hstep
    split at hstep
    · rename_i msg reservations hp
      cases hstep
      have hi := h.phases i
      rw [hp] at hi
      exact h.enter ⟨hi.1, hi.2, le_rfl, fun _ => rfl⟩
    · cases hstep
  | decide i =>
    simp only [step] at hstep
    split at hstep
    · rename_i msg reservations leases seen hp
      split at hstep
      · rename_i yiaddr hgrant
        cases hstep
        exact h.enter (h.phaseOk_granted hfam hp hgrant hund)
      · cases hstep
        exact h.enter trivial
    · cases hstep
  | write i =>
    simp only [step] at hstep
    split at hstep
    · rename_i msg yiaddr now seen hp
      split at hstep
      · rename_i u c hwrite
        cases hstep
        have hseen : seen = s.writes := by simpa [Undisturbed, hp, LoopPhase.seen?] using hund
        subst hseen
        rw [persistV4Lease_ok hwrite]
        exact h.write hp
      · cases hstep
    · cases hstep
  | ack i =>
    simp only [step] at hstep
    split at hstep
    · rename_i msg yiaddr now hp
      cases hstep
      exact h.ack hp
    · cases hstep

variable (K scope) in
/-- However many loops serve a scope and however their steps interleave: if no lease is written
between a loop's read of the leases and its own write, two clients are never acknowledged one address
for overlapping times. -/
theorem acks_disjoint (hfam : scope.family = .V4) (tables : Tables) (clock : ℤ)
    (as : List LoopStep) (s : LoopSystem)
    (hund : Along (step K scope) (Undisturbed K scope) (initial tables clock) as)
    (hrun : run (step K scope) (initial tables clock) as = some s) :
    ∀ a ∈ s.acks, ∀ b ∈ s.acks, a.client ≠ b.client → a.yiaddr = b.yiaddr → a.Disjoint b := by
  have hinv : s.Inv K scope :=
    run_invariant (inv_step hfam) (inv_initial tables clock) hund hrun
  intro a ha b hb hne hy
  exact hinv.disjoint a (hinv.acked a ha) b (hinv.acked b hb) hne hy

/-- A database with the scope `lanScope` and no leases. -/
def lanTables : Tables := { Tables.empty with scopes := [lanScope] }

/-- The REQUEST of a client, without a wish for an address. -/
def lanRequest (b : UInt8) : Dhcp4Message :=
  clientMessage 3 (List.replicate 6 b) none

/-- A loop that handles a REQUEST without a break. -/
def serve (i : ℕ) (msg : Dhcp4Message) : List LoopStep :=
  [.receive i msg, .readReservations i, .readLeases i, .decide i, .write i, .ack i]

/-- Where the reply can be built, a loop alone does to the leases what `handle_v4` does to them, and
acknowledges the grant. -/
theorem serve_eq_handleV4 {t : AppState} {iface : Option RecvIface} {msg : Dhcp4Message} {now : ℤ}
    {yiaddr : Ipv4Addr} (hfaults : t.conn.faults = []) (hmsg : msg.messageType = some .Request)
    (hscope : selectV4Scope K (t.db.scopes.insertionSort fun s s' => s.name ≤ s'.name) msg.giaddr
      iface = some scope)
    (hunres : (initial t.db now).Unreserved scope msg)
    (hgrant : requestGrant K scope (Db.reservationsOf t.db scope.id) (Db.leasesOf t.db scope.id) msg
      now = some yiaddr)
    {bytes : Bytes} (hbuild : buildV4Reply K ⟨msg, scope,
      mergedForClient scope (Db.reservationsOf t.db scope.id) (v4ClientId msg), yiaddr, .Ack⟩ = .ok bytes) :
    ∃ s, run (step K scope) (initial t.db now) (serve 0 msg) = some s ∧
      s.tables.leases = ((handleV4 K iface msg now).after t).db.leases ∧
      s.acks = [grantOf scope msg yiaddr now] := by
  have hmem : scope ∈ t.db.scopes := mem_scopes_of_selectV4Scope hscope
  have hpersist : Sql.Evals _ t.db _ (afterWrite K scope t.db msg yiaddr now) :=
    persistV4Lease_evals hmem
  have hhandle : ((handleV4 K iface msg now).after t).db.leases =
      (afterWrite K scope t.db msg yiaddr now).leases := by
    have hpanics : ∀ opt ∈ mergedForClient scope (Db.reservationsOf t.db scope.id) (v4ClientId msg),
        ¬PanicsInLoop opt := (buildable_of_ok hbuild).resolve_left (by simp)
    rw [(grants_request hfaults hmsg hscope hgrant hpanics).leases, grantRow, selectV4Scope_family hscope]
    rfl
  obtain ⟨hres, htables, -⟩ := hpersist ⟨t.db, [], []⟩ rfl rfl
  have hwrite := EStateM.run_of_result hres
  have haccepts : (initial t.db now).Accepts scope msg := ⟨hmsg, hunres⟩
  rw [hhandle]
  refine ⟨⟨afterWrite K scope t.db msg yiaddr now, now, fun _ => .idle,
    [grantOf scope msg yiaddr now], [grantOf scope msg yiaddr now], 1⟩, ?_, rfl, rfl⟩
  simp only [serve, run, step, enter, initial] at haccepts ⊢
  simp [haccepts, hgrant, hwrite, htables]

/-- Two loops serve one after the other, the second when the lease of the first is over. -/
theorem acks_disjoint_expired :
    ∃ s, run (step plainCrates lanScope) (initial lanTables 0)
        (serve 0 (lanRequest 0xaa) ++ .tick 3600 :: serve 1 (lanRequest 0xbb)) = some s ∧
      s.acks.map Grant.yiaddr = [0xc0a8010a, 0xc0a8010a] ∧
      ∀ a ∈ s.acks, ∀ b ∈ s.acks, a.client ≠ b.client → a.yiaddr = b.yiaddr → a.Disjoint b := by
  refine ⟨_, rfl, by decide +kernel, ?_⟩
  exact acks_disjoint plainCrates lanScope rfl lanTables 0
    (serve 0 (lanRequest 0xaa) ++ .tick 3600 :: serve 1 (lanRequest 0xbb)) _ (by decide +kernel) rfl

/-- Two loops that both read the leases before either writes grant the same address at once. -/
theorem acks_overlap :
    ∃ s, run (step plainCrates lanScope) (initial lanTables 0)
        [.receive 0 (lanRequest 0xaa), .receive 1 (lanRequest 0xbb), .readReservations 0,
          .readReservations 1, .readLeases 0, .readLeases 1, .decide 0, .decide 1, .write 0,
          .write 1, .ack 0, .ack 1] = some s ∧
      ∃ a ∈ s.acks, ∃ b ∈ s.acks, a.client ≠ b.client ∧ a.yiaddr = b.yiaddr ∧ ¬ a.Disjoint b := by
  refine ⟨_, rfl, ?_⟩
  decide +kernel

end LoopSystem

end Nomina
