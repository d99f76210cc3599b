import Nomina.Dhcp.Handling

/-!
# Offers and held addresses

An offer to a client that holds a lease is written over the row of the lease. It is said exactly which
messages do so.
-/

namespace Nomina

open Lib Sql

variable {K : Crates}

/-! ## Offers to the holder of a lease -/

/-- A DISCOVER or a SOLICIT. -/
def DhcpInput.Solicits : DhcpInput → Prop
  | .v4 _ msg => msg.messageType = some .Discover
  | .v6 msg _ => msg.msgType = .Solicit

/-- The message is answered from the scope of the lease, the policy names the address of the lease for
its client, and the reply can be built. -/
def Reoffers (K : Crates) (t : Tables) (input : DhcpInput) (now : ℤ) (l : DhcpLease) : Prop :=
  ∃ a ip, input.call K t now = some a ∧ a.scope.id = l.scopeId ∧ familyMatches ip a.scope.family = true ∧
    l.ip = fmtIpAddr ip ∧ a.Names K ip ∧ input.Buildable a

/-- The client still has an active lease of the address, which is not over and does not expire earlier
than `l`. -/
def KeepsGrant (K : Crates) (input : DhcpInput) (now : ℤ) (l : DhcpLease) (t : Tables) : Prop :=
  ∃ l' ∈ t.leases.rows, l'.scopeId = l.scopeId ∧ l'.ip = l.ip ∧
    (∃ cid, input.client = some cid ∧ eqIgnoreAsciiCase l'.identifier cid = true) ∧
    l'.state = .Active ∧ leaseExpired K l' now = false ∧
    ∀ e, K.parseRfc3339 l.expiresAt = some e → ∃ e', K.parseRfc3339 l'.expiresAt = some e' ∧ e ≤ e'

section

variable {t : Tables} {now : ℤ} {l : DhcpLease} {s : AppState}

/-- A row that is written over the lease in another state does not keep it. -/
lemma not_keepsGrant_upsert {input : DhcpInput} {new : DhcpLease} (hscope : l.scopeId = new.scopeId)
    (hip : l.ip = new.ip) (hstate : new.state ≠ .Active) {leases : LeaseTable}
    (ht : t.leases = leases.upsert new) : ¬KeepsGrant K input now l t := by
  rintro ⟨l', hmem, hscope', hip', -, hactive, -⟩
  obtain ⟨i, hnew⟩ := LeaseTable.exists_mem_upsert leases new
  rw [← ht] at hnew
  have hrow := LeaseTable.eq_of_addr_eq hmem hnew (hscope'.trans hscope) (hip'.trans hip)
  rw [hrow] at hactive
  exact hstate hactive

/-- The allocator's answer as the policy names it. -/
lemma names_of_allocate {scope : DhcpScope} {cid : Str} {requestedIp : Option IpAddr} {ip : IpAddr}
    (h : allocate K scope (Db.reservationsOf t scope.id) (Db.leasesOf t scope.id) cid requestedIp now =
      some ip) : (callFor t now scope cid requestedIp).Names K ip :=
  AllocateArgs.allocated_eq_some_iff.mp h

/-- An offer that is not written over the lease keeps it, wherever its handling stops. -/
lemma keepsLease_solicited {input : DhcpInput} (hsolicits : input.Solicits)
    (h : ¬Reoffers K s.db input now l) :
    KeepsLease l s.db ((input.handle K now).after s).db := by
  cases input with
  | v4 iface msg =>
    refine keepsDb_handleV4 ?_
    intro mtype scope hmtype hscope
    obtain rfl := Option.some.inj (hmtype.symm.trans hsolicits)
    unfold answerV4
    dsimp only
    split
    · rename_i yiaddr halloc
      -- Only an offer that can be built is written.
      refine .built fun hbuilt => .bind (.runDb (keepsLease_upsert ?_)) fun _ => .send _
      rintro ⟨hid, hip⟩
      exact h ⟨_, .v4 yiaddr, call_v4 hscope, hid.symm,
        familyMatches_v4 (selectV4Scope_family hscope) yiaddr, hip, names_of_allocate halloc,
        buildable_v4 (a := callFor s.db now scope _ _) (by simp) hbuilt⟩
    · exact .pure ()
  | v6 msg src =>
    have hsolicit : msg.msgType = .Solicit := hsolicits
    refine keepsDb_handleV6 ?_
    intro scope duid hscope hduid
    unfold answerV6 assignV6
    rw [hsolicit]
    dsimp only
    split
    · rename_i assigned halloc
      rw [if_pos rfl]
      refine .built fun hbuilt => .bind (.runDb (keepsLease_upsert ?_)) fun _ => .send _
      rintro ⟨hid, hip⟩
      exact h ⟨_, .v6 assigned, call_v6 hscope hduid, hid.symm,
        familyMatches_v6 (selectV6Scope_family hscope) assigned, hip, names_of_allocate halloc,
        buildable_v6 (a := callFor s.db now scope duid none) hbuilt⟩
    · exact .pure ()

/-- In a database that refuses nothing, an offer is written over the row of the lease. -/
lemma leases_of_reoffer {input : DhcpInput} (hsolicits : input.Solicits) (hfaults : s.conn.faults = [])
    {a : AllocateArgs} {ip : IpAddr} (hcall : input.call K s.db now = some a)
    (hfam : familyMatches ip a.scope.family = true) (hnames : a.Names K ip) (hbuild : input.Buildable a) :
    ∃ hostname secs, ((input.handle K now).after s).db.leases =
      s.db.leases.upsert (grantRow K a.scope ip a.clientId hostname now secs .Offered) := by
  have halloc := AllocateArgs.allocated_eq_some_iff.mpr hnames
  cases input with
  | v4 iface msg =>
    obtain ⟨scope, hscope, rfl⟩ := Option.map_eq_some_iff.mp hcall
    have hfamily : scope.family = .V4 := selectV4Scope_family hscope
    change familyMatches ip scope.family = true at hfam
    rw [hfamily] at hfam
    obtain ⟨y, rfl⟩ := familyMatches_V4.mp hfam
    exact ⟨_, _, (grants_discover hfaults hsolicits hscope halloc hbuild).leases⟩
  | v6 msg src =>
    obtain ⟨scope, hscope, hrest⟩ := Option.bind_eq_some_iff.mp hcall
    obtain ⟨duid, hduid, rfl⟩ := Option.map_eq_some_iff.mp hrest
    have hfamily : scope.family = .V6 := selectV6Scope_family hscope
    change familyMatches ip scope.family = true at hfam
    rw [hfamily] at hfam
    obtain ⟨y, rfl⟩ := familyMatches_V6.mp hfam
    exact ⟨_, _, (grants_solicit hfaults hsolicits hscope hduid halloc hbuild).leases⟩

/-- A DISCOVER or SOLICIT of a client leaves its active lease in force when it is not answered with an
offer of the leased address, whatever fails; and in a database that refuses nothing only then. -/
theorem keepsGrant_iff (s : AppState) (input : DhcpInput) (hsolicits : input.Solicits) (now : ℤ)
    (l : DhcpLease) (hmem : l ∈ s.db.leases.rows)
    (hclient : ∃ cid, input.client = some cid ∧ eqIgnoreAsciiCase l.identifier cid = true)
    (hactive : l.state = .Active) (hunexpired : leaseExpired K l now = false) :
    (¬Reoffers K s.db input now l → KeepsGrant K input now l ((input.handle K now).after s).db) ∧
      (s.conn.faults = [] → (KeepsGrant K input now l ((input.handle K now).after s).db ↔
        ¬Reoffers K s.db input now l)) := by
  have hkeeps : ¬Reoffers K s.db input now l →
      KeepsGrant K input now l ((input.handle K now).after s).db := fun h =>
    ⟨l, keepsLease_solicited hsolicits h hmem, rfl, rfl, hclient, hactive, hunexpired,
      fun e he => ⟨e, he, le_rfl⟩⟩
  refine ⟨hkeeps, fun hfaults => ⟨?_, hkeeps⟩⟩
  rintro hgrant ⟨a, ip, hcall, hscope, hfam, hip, hnames, hbuild⟩
  obtain ⟨hostname, secs, hleases⟩ := leases_of_reoffer hsolicits hfaults hcall hfam hnames hbuild
  refine not_keepsGrant_upsert hscope.symm hip ?_ hleases hgrant
  unfold grantRow
  simp

end

/-- The client of the lease asks for an offer. -/
def lanDiscover : DhcpInput :=
  .v4 none (clientMessage 1 [0xaa, 0xaa, 0xaa, 0xaa, 0xaa, 0xaa] none)

/-- The state with the lease, and a reservation of another address for its client. -/
def movedState : AppState :=
  { lanState with conn := ⟨{ lanState.db with
    reservations := [⟨1, 1, "aa:aa:aa:aa:aa:aa", "192.168.1.50", none, []⟩] }, [], []⟩ }

/-- A client that is offered the address reserved for it keeps the lease of another one. -/
theorem keepsGrant_moved :
    KeepsGrant plainCrates lanDiscover 60 lanLease ((lanDiscover.handle plainCrates 60).after movedState).db := by
  refine (keepsGrant_iff movedState lanDiscover rfl 60 lanLease
    (List.mem_singleton_self _) ⟨_, rfl, by decide +kernel⟩ rfl (by decide +kernel)).1 ?_
  rintro ⟨a, ip, hcall, -, -, hip, hnames, -⟩
  have hcalled : (lanDiscover.call plainCrates movedState.db 60).bind (·.allocated plainCrates) =
      some (.v4 0xc0a80132) := by decide +kernel
  rw [hcall, Option.bind_some, AllocateArgs.allocated_eq_some_iff.mpr hnames] at hcalled
  obtain rfl := Option.some.inj hcalled
  exact absurd hip (by decide +kernel)

/-- The lease after it is offered again. -/
def reofferedLease : DhcpLease :=
  ⟨1, 1, .V4, "192.168.1.10", "aa:aa:aa:aa:aa:aa", none, "1970-01-01T00:01:00Z",
    "1970-01-01T00:03:00Z", .Offered⟩

/-- An offer of two minutes takes the place of the lease of an hour. -/
theorem not_keepsGrant_lan :
    lanLease ∈ lanState.db.leases.rows ∧ lanLease.state = .Active ∧
      leaseExpired plainCrates lanLease 60 = false ∧
      lanDiscover.client = some "aa:aa:aa:aa:aa:aa" ∧
      ((lanDiscover.handle plainCrates 60).after lanState).db.leases.rows = [reofferedLease] ∧
      ¬KeepsGrant plainCrates lanDiscover 60 lanLease
        ((lanDiscover.handle plainCrates 60).after lanState).db := by
  have hrows : ((lanDiscover.handle plainCrates 60).after lanState).db.leases.rows = [reofferedLease] := by
    decide +kernel
  refine ⟨List.mem_singleton_self _, rfl, by decide +kernel, by decide +kernel, hrows, ?_⟩
  rintro ⟨l', hmem, -, -, -, hactive, -⟩
  rw [hrows] at hmem
  obtain rfl := List.mem_singleton.mp hmem
  cases hactive

end Nomina
