import Nomina.Dhcp.Allocation

/-!
# Scopes that are accepted

`validate_scope` of `web/api.rs` against the allocator that later works with the scope: which of the
accepted scopes serve an address to every client, and only addresses of their subnet.
-/

namespace Nomina

open Lib

/-! ## The checks -/

/-- `DhcpScopeInput`. -/
structure DhcpScopeInput where
  name : Str
  enabled : Bool
  family : IpFamily
  subnet : Str
  rangeStart : Str
  rangeEnd : Str
  leaseSecs : ℕ
  dnsRegister : Bool
  dnsZone : Option Str
  serverId : Option Str
  interface : Option Str
  options : List DhcpOption
deriving DecidableEq

namespace Api

variable (K : Crates)

/-- `fam_ok`. -/
def famOk (family : IpFamily) (s : Str) : Bool :=
  (parseIpAddr s).any (familyMatches · family)

/-- `validate_scope`. -/
def validateScope (input : DhcpScopeInput) : Except AppError Unit :=
  if (K.parseIpNet input.subnet).isNone then .error (.validation "subnet" "invalid CIDR")
  else if !famOk input.family input.rangeStart then
    .error (.validation "range_start" "invalid address for family")
  else if !famOk input.family input.rangeEnd then
    .error (.validation "range_end" "invalid address for family")
  else if input.family = .V4 ∧
      input.serverId.any (fun sid => !sid.isEmpty && (parseIpv4Addr sid).isNone) then
    .error (.validation "server_id" "invalid IPv4 address")
  else validateDhcpOptions input.options

end Api

/-- The row that an accepted input leads to. A new row has the family of the input; an update leaves
the family that the row has. -/
def DhcpScopeInput.row (input : DhcpScopeInput) (id : ℕ) (family : IpFamily) : DhcpScope where
  id := id
  name := trim input.name
  enabled := input.enabled
  family := family
  subnet := input.subnet
  rangeStart := input.rangeStart
  rangeEnd := input.rangeEnd
  leaseSecs := input.leaseSecs
  dnsRegister := input.dnsRegister
  dnsZone := input.dnsZone
  serverId := input.serverId
  interface := input.interface.filter fun s => !(trim s).isEmpty
  options := input.options

section

variable {K : Crates} {input : DhcpScopeInput}

/-- An accepted input has a network and two addresses of its family. -/
lemma exists_of_validateScope (h : Api.validateScope K input = .ok ()) :
    ∃ net start stop, K.parseIpNet input.subnet = some net ∧
      parseIpAddr input.rangeStart = some start ∧ parseIpAddr input.rangeEnd = some stop ∧
      familyMatches start input.family = true ∧ familyMatches stop input.family = true := by
  unfold Api.validateScope at h
  split_ifs at h with hnet hstart hstop
  rw [Bool.not_eq_true, Option.isNone_eq_false_iff, Option.isSome_iff_exists] at hnet
  rw [Bool.not_eq_true', Bool.not_eq_false, Api.famOk, Option.any_eq_true] at hstart hstop
  obtain ⟨net, hnet⟩ := hnet
  obtain ⟨start, hstart, hstartFamily⟩ := hstart
  obtain ⟨stop, hstop, hstopFamily⟩ := hstop
  exact ⟨net, start, stop, hnet, hstart, hstop, hstartFamily, hstopFamily⟩

/-! ## Networks -/

/-- A number between two numbers with the same leading bits has them too. -/
lemma ushiftRight_eq_of_between {w k : ℕ} {a b c x : BitVec w} (ha : x >>> k = a >>> k)
    (hc : x >>> k = c >>> k) (hab : a.toNat ≤ b.toNat) (hbc : b.toNat ≤ c.toNat) :
    x >>> k = b >>> k := by
  have ha := congrArg BitVec.toNat ha
  have hc := congrArg BitVec.toNat hc
  apply BitVec.eq_of_toNat_eq
  simp only [BitVec.toNat_ushiftRight, Nat.shiftRight_eq_div_pow] at ha hc ⊢
  have hlow := Nat.div_le_div_right (c := 2 ^ k) hab
  have hhigh := Nat.div_le_div_right (c := 2 ^ k) hbc
  omega

lemma contains_v4_iff {net : IpNet} {a : Ipv4Addr} : net.contains (.v4 a) = true ↔
    ∃ x, net.addr = .v4 x ∧ x >>> (32 - net.prefixLen) = a >>> (32 - net.prefixLen) := by
  unfold IpNet.contains
  cases net.addr <;> simp

lemma contains_v6_iff {net : IpNet} {a : Ipv6Addr} : net.contains (.v6 a) = true ↔
    ∃ x, net.addr = .v6 x ∧ x >>> (128 - net.prefixLen) = a >>> (128 - net.prefixLen) := by
  unfold IpNet.contains
  cases net.addr <;> simp

/-- A network that contains two addresses contains those between them. -/
lemma contains_of_between {net : IpNet} {family : IpFamily} {start stop ip : IpAddr}
    (hstart : familyMatches start family = true) (hstop : familyMatches stop family = true)
    (hip : familyMatches ip family = true) (hlow : ipToU128 start ≤ ipToU128 ip)
    (hhigh : ipToU128 ip ≤ ipToU128 stop) (hcstart : net.contains start = true)
    (hcstop : net.contains stop = true) : net.contains ip = true := by
  cases family with
  | V4 =>
    obtain ⟨a, rfl⟩ := familyMatches_V4.mp hstart
    obtain ⟨b, rfl⟩ := familyMatches_V4.mp hip
    obtain ⟨c, rfl⟩ := familyMatches_V4.mp hstop
    obtain ⟨x, hx, ha⟩ := contains_v4_iff.mp hcstart
    obtain ⟨y, hy, hc⟩ := contains_v4_iff.mp hcstop
    obtain rfl := IpAddr.v4.inj (hx.symm.trans hy)
    exact contains_v4_iff.mpr ⟨x, hx, ushiftRight_eq_of_between ha hc hlow hhigh⟩
  | V6 =>
    obtain ⟨a, rfl⟩ := familyMatches_V6.mp hstart
    obtain ⟨b, rfl⟩ := familyMatches_V6.mp hip
    obtain ⟨c, rfl⟩ := familyMatches_V6.mp hstop
    obtain ⟨x, hx, ha⟩ := contains_v6_iff.mp hcstart
    obtain ⟨y, hy, hc⟩ := contains_v6_iff.mp hcstop
    obtain rfl := IpAddr.v6.inj (hx.symm.trans hy)
    exact contains_v6_iff.mpr ⟨x, hx, ushiftRight_eq_of_between ha hc hlow hhigh⟩

end

/-! ## Scopes that can be used -/

/-- Before there are any leases or reservations every client is given an address, and whatever there is
later, an address of the scope's family that comes from the pool is in the subnet. -/
structure IsUsable (K : Crates) (scope : DhcpScope) : Prop where
  serves : ∀ clientId requestedIp now, ∃ ip, allocate K scope [] [] clientId requestedIp now = some ip
  inSubnet : ∀ a : AllocateArgs, a.scope = scope → a.Unreserved → ∀ ip, a.allocated K = some ip →
    familyMatches ip scope.family = true →
      ∃ net, K.parseIpNet scope.subnet = some net ∧ net.contains ip = true

/-- The ends of the pool are in order, and both are in the subnet. -/
def PoolInSubnet (K : Crates) (input : DhcpScopeInput) : Prop :=
  ∃ net start stop, K.parseIpNet input.subnet = some net ∧ parseIpAddr input.rangeStart = some start ∧
    parseIpAddr input.rangeEnd = some stop ∧ ipToU128 start ≤ ipToU128 stop ∧
    net.contains start = true ∧ net.contains stop = true

/-- The allocator asked for an address of a scope without leases or reservations. -/
def freshArgs (scope : DhcpScope) (clientId : Str) (requestedIp : Option IpAddr) (now : ℤ) :
    AllocateArgs :=
  ⟨scope, [], [], clientId, requestedIp, now⟩

section

variable {K : Crates} {scope : DhcpScope} {clientId : Str} {requestedIp : Option IpAddr} {now : ℤ}

lemma unreserved_freshArgs : (freshArgs scope clientId requestedIp now).Unreserved := by
  intro r hr
  cases hr

/-- In a scope without leases or reservations every address of the range may be given. -/
lemma usable_freshArgs {ip : IpAddr} (h : (freshArgs scope clientId requestedIp now).InRange ip) :
    (freshArgs scope clientId requestedIp now).Usable K ip := by
  refine ⟨h, ?_⟩
  rintro (⟨r, hr, -⟩ | ⟨l, hl, -⟩)
  · cases hr
  · cases hl

/-- In a scope without leases or reservations a client is given the address of the range it asks for. -/
lemma allocated_freshArgs {ip : IpAddr}
    (h : (freshArgs scope clientId (some ip) now).InRange ip) :
    (freshArgs scope clientId (some ip) now).allocated K = some ip := by
  rw [AllocateArgs.allocated_eq_some_iff]
  refine .inr ⟨unreserved_freshArgs, .inr ⟨?_, .inl ⟨rfl, usable_freshArgs h⟩⟩⟩
  intro l hl
  cases hl

/-- Nothing is taken, so the scan finds the start of the pool at least. -/
lemma exists_allocate_of_isPool {start stop : IpAddr} (hpool : IsPool scope start stop) :
    ∃ ip, allocate K scope [] [] clientId requestedIp now = some ip := by
  cases hip : allocate K scope [] [] clientId requestedIp now with
  | some ip => exact ⟨ip, rfl⟩
  | none =>
    have hin : (freshArgs scope clientId requestedIp now).InRange start :=
      ⟨hpool.start_family, start, stop, hpool, le_rfl, hpool.le⟩
    obtain ⟨-, -, htaken⟩ := AllocateArgs.taken_of_exhausted
      (a := freshArgs scope clientId requestedIp now) unreserved_freshArgs (fun l hl => by cases hl) hpool hip
    refine absurd (htaken start ⟨hin, ?_⟩) (usable_freshArgs (K := K) hin).2
    intro _ start' hstart'
    obtain rfl := Option.some.inj (hstart'.symm.trans hpool.start_eq)
    unfold maxV6Scan
    omega

/-- An accepted scope can be used exactly when its row has the family of the input and its pool is in
order and in its subnet. -/
theorem isUsable_iff {input : DhcpScopeInput} (hvalid : Api.validateScope K input = .ok ()) (id : ℕ)
    (family : IpFamily) :
    IsUsable K (input.row id family) ↔ family = input.family ∧ PoolInSubnet K input := by
  obtain ⟨net, start, stop, hnet, hstart, hstop, hstartFamily, hstopFamily⟩ :=
    exists_of_validateScope hvalid
  constructor
  · intro h
    -- The row has a pool, since it serves an address.
    obtain ⟨ip, hip⟩ := h.serves [] none 0
    obtain ⟨start', stop', hpool, -⟩ :=
      AllocateArgs.exists_pool_of_allocated (a := freshArgs (input.row id family) [] none 0)
        unreserved_freshArgs hip
    obtain rfl : start' = start := Option.some.inj (hpool.start_eq.symm.trans hstart)
    obtain rfl : stop' = stop := Option.some.inj (hpool.stop_eq.symm.trans hstop)
    have hin : ∀ ip, familyMatches ip family = true → ipToU128 start' ≤ ipToU128 ip →
        ipToU128 ip ≤ ipToU128 stop' → net.contains ip = true := by
      intro ip hfam hlow hhigh
      obtain ⟨net', hnet', hcontains⟩ :=
        h.inSubnet (freshArgs (input.row id family) [] (some ip) 0) rfl unreserved_freshArgs ip
          (allocated_freshArgs ⟨hfam, start', stop', hpool, hlow, hhigh⟩) hfam
      obtain rfl := Option.some.inj (hnet'.symm.trans hnet)
      exact hcontains
    refine ⟨?_, net, start', stop', hnet, hstart, hstop, hpool.le,
      hin start' hpool.start_family le_rfl hpool.le, hin stop' hpool.stop_family hpool.le le_rfl⟩
    have hfam : familyMatches start' family = true := hpool.start_family
    revert hfam hstartFamily
    cases start' <;> cases family <;> cases input.family <;> simp [familyMatches]
  · rintro ⟨rfl, net', start', stop', hnet', hstart', hstop', hle, hcstart, hcstop⟩
    obtain rfl := Option.some.inj (hnet'.symm.trans hnet)
    obtain rfl := Option.some.inj (hstart'.symm.trans hstart)
    obtain rfl := Option.some.inj (hstop'.symm.trans hstop)
    have hpool : IsPool (input.row id input.family) start' stop' :=
      ⟨hstart, hstop, hstartFamily, hstopFamily, hle⟩
    constructor
    · exact fun clientId requestedIp now => exists_allocate_of_isPool hpool
    · rintro a ha hunres ip hip hfam
      obtain ⟨start, stop, hpool', hfrom⟩ := AllocateArgs.exists_pool_of_allocated hunres hip
      rw [ha] at hpool' hfrom
      obtain rfl := Option.some.inj (hpool'.start_eq.symm.trans hpool.start_eq)
      obtain rfl := Option.some.inj (hpool'.stop_eq.symm.trans hpool.stop_eq)
      obtain ⟨hlow, hhigh, -⟩ := allocateFromPool_spec hpool'.stop_family hpool'.le hfrom
      exact ⟨net', hnet, contains_of_between hpool'.start_family hpool'.stop_family hfam hlow hhigh
        hcstart hcstop⟩

end

/-- Crates that read one network. -/
def lanCrates : Crates :=
  { plainCrates with
    parseIpNet := fun cidr => if cidr = "192.168.1.0/24".toList then some ⟨.v4 0xc0a80100, 24⟩ else none }

/-- A scope of `192.168.1.0/24` with some pool. -/
def lanInput (rangeStart rangeEnd : Str) : DhcpScopeInput :=
  ⟨"lan", true, .V4, "192.168.1.0/24", rangeStart, rangeEnd, 3600, false, none, none, none, []⟩

/-- A pool in order and in the subnet makes a scope that can be used. -/
theorem isUsable_lan :
    IsUsable lanCrates ((lanInput "192.168.1.10" "192.168.1.99").row 1 .V4) := by
  refine (isUsable_iff (by decide +kernel) 1 .V4).mpr ⟨rfl, ⟨.v4 0xc0a80100, 24⟩,
    .v4 0xc0a8010a, .v4 0xc0a80163, by decide, ?_⟩
  decide +kernel

/-- A pool the wrong way round is accepted and serves nobody, and one outside the subnet is accepted and
gives an address that is not in it. -/
theorem not_isUsable_accepted :
    Api.validateScope lanCrates (lanInput "192.168.1.99" "192.168.1.10") = .ok () ∧
      ¬IsUsable lanCrates ((lanInput "192.168.1.99" "192.168.1.10").row 1 .V4) ∧
      Api.validateScope lanCrates (lanInput "10.0.0.1" "10.0.0.9") = .ok () ∧
      ¬IsUsable lanCrates ((lanInput "10.0.0.1" "10.0.0.9").row 1 .V4) := by
  refine ⟨by decide +kernel, fun h => ?_, by decide +kernel, fun h => ?_⟩
  · obtain ⟨ip, hip⟩ := h.serves [] none 0
    have hnone : allocate lanCrates ((lanInput "192.168.1.99" "192.168.1.10").row 1 .V4) [] [] [] none 0 =
        none := by decide +kernel
    rw [hnone] at hip
    cases hip
  · obtain ⟨net, hnet, hcontains⟩ := h.inSubnet
      (freshArgs ((lanInput "10.0.0.1" "10.0.0.9").row 1 .V4) [] none 0) rfl unreserved_freshArgs
      (.v4 0x0a000001) (by decide +kernel) rfl
    have hlan : lanCrates.parseIpNet "192.168.1.0/24" = some ⟨.v4 0xc0a80100, 24⟩ := by decide +kernel
    obtain rfl := Option.some.inj (hlan.symm.trans hnet)
    exact absurd hcontains (by decide)

end Nomina
