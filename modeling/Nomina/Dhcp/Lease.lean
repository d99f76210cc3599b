import Nomina.Db.Dhcp
import Nomina.Lib.Assoc

/-!
# Lease allocation

The allocation policy of `dhcp/lease.rs`, which chooses an address from a scope, its reservations
and its leases. The main fact is that the address chosen for a client is one reserved for it, or is
neither reserved nor held by another client.
-/

namespace Nomina

open Lib

variable (K : Crates)

/-! ## Policy -/

/-- Upper bound on the addresses an IPv6 pool scan probes. -/
def maxV6Scan : ℕ := 65536

/-- `lease_expired`: past its expiry, or without a readable one. -/
def leaseExpired (l : DhcpLease) (nowUnix : ℤ) : Bool :=
  match K.parseRfc3339 l.expiresAt with
  | some t => t ≤ nowUnix
  | none => true

/-- `is_holding`: offered or active, and not expired. -/
def isHolding (l : DhcpLease) (nowUnix : ℤ) : Bool :=
  (l.state == .Active || l.state == .Offered) && !leaseExpired K l nowUnix

/-- `family_matches`. -/
def familyMatches (ip : IpAddr) (family : IpFamily) : Bool :=
  match ip, family with
  | .v4 _, .V4 => true
  | .v6 _, .V6 => true
  | _, _ => false

/-- `ip_to_u128`. -/
def ipToU128 : IpAddr → ℕ
  | .v4 a => a.toNat
  | .v6 a => a.toNat

/-- `u128_to_ip`. -/
def u128ToIp (v : ℕ) (family : IpFamily) : IpAddr :=
  match family with
  | .V4 => .v4 (BitVec.ofNat 32 v)
  | .V6 => .v6 (BitVec.ofNat 128 v)

/-- The number of an address text of the family. -/
def addressOf (family : IpFamily) (ip : Str) : Option ℕ :=
  ((parseIpAddr ip).filter (familyMatches · family)).map ipToU128

/-- The addresses that are off-limits: those reserved, and those held by another client. -/
def usedAddresses (family : IpFamily) (reservations : List DhcpReservation)
    (leases : List DhcpLease) (clientId : Str) (nowUnix : ℤ) : List ℕ :=
  reservations.filterMap (addressOf family ·.ip) ++
    (leases.filter fun l => isHolding K l nowUnix && !eqIgnoreAsciiCase l.identifier clientId).filterMap
      (addressOf family ·.ip)

/-- The address of the first reservation of the client that is an address. -/
def reservedFor (reservations : List DhcpReservation) (clientId : Str) : Option IpAddr :=
  reservations.findSome? fun r =>
    if eqIgnoreAsciiCase r.identifier clientId then parseIpAddr r.ip else none

/-- The scan of the pool: `count` addresses from `n` on. -/
def scanPool (used : List ℕ) : (count n : ℕ) → Option ℕ
  | 0, _ => none
  | count + 1, n => if used.contains n then scanPool used count (n + 1) else some n

/-- The scan bound of a family. -/
def maxScan : IpFamily → ℕ
  | .V4 => 2 ^ 128 - 1
  | .V6 => maxV6Scan

/-- Whether an address is in the pool and not in use. -/
def isFree (used : List ℕ) (startN endN : ℕ) (ip : IpAddr) : Bool :=
  startN ≤ ipToU128 ip && ipToU128 ip ≤ endN && !used.contains (ipToU128 ip)

/-- The address of the client's first holding lease that is free. -/
def ownAddress (free : IpAddr → Bool) (leases : List DhcpLease) (clientId : Str)
    (nowUnix : ℤ) : Option IpAddr :=
  leases.findSome? fun l =>
    if eqIgnoreAsciiCase l.identifier clientId && isHolding K l nowUnix then
      (parseIpAddr l.ip).filter free
    else none

/-- The address asked for, when it is of the family and free. -/
def askedAddress (family : IpFamily) (free : IpAddr → Bool) (requestedIp : Option IpAddr) :
    Option IpAddr :=
  requestedIp.filter fun ip => familyMatches ip family && free ip

/-- The choice from the pool `[startN, endN]`: the client's own lease, the address it asks for, the
lowest free address. -/
def allocateFromPool (family : IpFamily) (startN endN : ℕ) (used : List ℕ)
    (leases : List DhcpLease) (clientId : Str) (requestedIp : Option IpAddr) (nowUnix : ℤ) :
    Option IpAddr :=
  let free := isFree used startN endN
  match ownAddress K free leases clientId nowUnix, askedAddress family free requestedIp with
  | some ip, _ => some ip
  | none, some ip => some ip
  | none, none =>
    (scanPool used (min (endN - startN + 1) (maxScan family)) startN).map (u128ToIp · family)

/-- `allocate`. -/
def allocate (scope : DhcpScope) (reservations : List DhcpReservation) (leases : List DhcpLease)
    (clientId : Str) (requestedIp : Option IpAddr) (nowUnix : ℤ) : Option IpAddr :=
  match reservedFor reservations clientId with
  | some ip => some ip
  | none =>
    match parseIpAddr scope.rangeStart, parseIpAddr scope.rangeEnd with
    | some start, some stop =>
      if !familyMatches start scope.family || !familyMatches stop scope.family then none
      else if ipToU128 stop < ipToU128 start then none
      else allocateFromPool K scope.family (ipToU128 start) (ipToU128 stop)
        (usedAddresses K scope.family reservations leases clientId nowUnix) leases clientId
        requestedIp nowUnix
    | _, _ => none

/-! ## What is chosen -/

section

variable {K : Crates} {family : IpFamily}

/-- The number of addresses of a family. -/
def familySize : IpFamily → ℕ
  | .V4 => 2 ^ 32
  | .V6 => 2 ^ 128

/-- An IPv4 address matches the family of IPv4. -/
lemma familyMatches_v4 (h : family = .V4) (a : Ipv4Addr) : familyMatches (.v4 a) family = true := by
  rw [h]
  rfl

lemma familyMatches_v6 (h : family = .V6) (a : Ipv6Addr) : familyMatches (.v6 a) family = true := by
  rw [h]
  rfl

/-- The number of an address is in the range of its family. -/
lemma ipToU128_lt {ip : IpAddr} (h : familyMatches ip family = true) :
    ipToU128 ip < familySize family := by
  cases ip with
  | v4 a =>
    cases family with
    | V4 => exact a.isLt
    | V6 => cases h
  | v6 a =>
    cases family with
    | V4 => cases h
    | V6 => exact a.isLt

/-- Addresses of a family are told apart by their numbers. -/
lemma ipToU128_injective {family : IpFamily} {ip ip' : IpAddr}
    (hip : familyMatches ip family = true) (hip' : familyMatches ip' family = true)
    (h : ipToU128 ip = ipToU128 ip') : ip = ip' := by
  cases family with
  | V4 =>
    cases ip with
    | v6 => cases hip
    | v4 =>
      cases ip' with
      | v6 => cases hip'
      | v4 => exact congrArg IpAddr.v4 (BitVec.eq_of_toNat_eq h)
  | V6 =>
    cases ip with
    | v4 => cases hip
    | v6 =>
      cases ip' with
      | v4 => cases hip'
      | v6 => exact congrArg IpAddr.v6 (BitVec.eq_of_toNat_eq h)

/-- A number in the range of the family is the number of its address. -/
lemma ipToU128_u128ToIp {n : ℕ} (h : n < familySize family) :
    ipToU128 (u128ToIp n family) = n := by
  cases family with
  | V4 => simpa [u128ToIp, ipToU128, familySize] using h
  | V6 => simpa [u128ToIp, ipToU128, familySize] using h

/-- The scan finds an unused number of the range it walks. -/
lemma scanPool_spec {used : List ℕ} {count n m : ℕ} (h : scanPool used count n = some m) :
    n ≤ m ∧ m < n + count ∧ m ∉ used := by
  induction count generalizing n with
  | zero => cases h
  | succ count ih =>
    unfold scanPool at h
    split at h
    · obtain ⟨hle, hlt, hused⟩ := ih h
      exact ⟨by omega, by omega, hused⟩
    · rename_i hnot
      cases h
      exact ⟨le_rfl, by omega, by simpa using hnot⟩

/-- An address chosen from the pool is in the pool and not in use. -/
lemma allocateFromPool_spec {startN : ℕ} {stop ip : IpAddr} {used : List ℕ}
    {leases : List DhcpLease} {clientId : Str} {requestedIp : Option IpAddr} {nowUnix : ℤ}
    (hstop : familyMatches stop family = true) (hle : startN ≤ ipToU128 stop)
    (h : allocateFromPool K family startN (ipToU128 stop) used leases clientId requestedIp nowUnix =
      some ip) : startN ≤ ipToU128 ip ∧ ipToU128 ip ≤ ipToU128 stop ∧ ipToU128 ip ∉ used := by
  unfold allocateFromPool at h
  dsimp only at h
  split at h
  · -- The client's own lease.
    rename_i own _ _ hown
    cases h
    obtain ⟨l, -, hl⟩ := List.exists_of_findSome?_eq_some hown
    split at hl
    · have hfree := (Option.filter_eq_some_iff.mp hl).2
      simpa [isFree, and_assoc] using hfree
    · cases hl
  · -- The address asked for.
    rename_i req _ hreq
    cases h
    have hfree := (Option.filter_eq_some_iff.mp hreq).2
    rw [Bool.and_eq_true] at hfree
    simpa [isFree, and_assoc] using hfree.2
  · -- The lowest free address: its number is in the range of the family.
    obtain ⟨n, hn, rfl⟩ := Option.map_eq_some_iff.mp h
    obtain ⟨hlow, hhigh, hused⟩ := scanPool_spec hn
    have hbound := ipToU128_lt hstop
    rw [ipToU128_u128ToIp (by omega)]
    exact ⟨hlow, by omega, hused⟩

/-- The reservation of a client is one of its reservations. -/
lemma mem_of_reservedFor {reservations : List DhcpReservation} {clientId : Str} {ip : IpAddr}
    (h : reservedFor reservations clientId = some ip) :
    ∃ r ∈ reservations, eqIgnoreAsciiCase r.identifier clientId = true ∧
      parseIpAddr r.ip = some ip := by
  unfold reservedFor at h
  obtain ⟨r, hr, hip⟩ := List.exists_of_findSome?_eq_some h
  split at hip
  · exact ⟨r, hr, ‹_›, hip⟩
  · cases hip

/-- The address of a holding lease of another client is in use. -/
lemma mem_usedAddresses {reservations : List DhcpReservation} {leases : List DhcpLease}
    {clientId : Str} {nowUnix : ℤ} {l : DhcpLease} {ip : IpAddr} (hl : l ∈ leases)
    (hhold : isHolding K l nowUnix = true) (hother : eqIgnoreAsciiCase l.identifier clientId = false)
    (hip : parseIpAddr l.ip = some ip) (hfam : familyMatches ip family = true) :
    ipToU128 ip ∈ usedAddresses K family reservations leases clientId nowUnix := by
  unfold usedAddresses
  refine List.mem_append_right _ (List.mem_filterMap.mpr ⟨l, ?_, ?_⟩)
  · simp [hl, hhold, hother]
  · simp [addressOf, hip, hfam]

/-- The pool of a scope, when its bounds are addresses of its family in order. -/
structure IsPool (scope : DhcpScope) (start stop : IpAddr) : Prop where
  start_eq : parseIpAddr scope.rangeStart = some start
  stop_eq : parseIpAddr scope.rangeEnd = some stop
  start_family : familyMatches start scope.family = true
  stop_family : familyMatches stop scope.family = true
  le : ipToU128 start ≤ ipToU128 stop

section Allocate

variable {scope : DhcpScope} {reservations : List DhcpReservation} {leases : List DhcpLease}
  {clientId : Str} {requestedIp : Option IpAddr} {nowUnix : ℤ} {ip : IpAddr}

/-- Without a reservation, the address comes from the pool. -/
lemma allocate_of_isPool {start stop : IpAddr} (hpool : IsPool scope start stop)
    (hres : reservedFor reservations clientId = none) :
    allocate K scope reservations leases clientId requestedIp nowUnix =
      allocateFromPool K scope.family (ipToU128 start) (ipToU128 stop)
        (usedAddresses K scope.family reservations leases clientId nowUnix) leases clientId
        requestedIp nowUnix := by
  have hle := hpool.le
  unfold allocate
  rw [hres, hpool.start_eq, hpool.stop_eq]
  dsimp only
  rw [hpool.start_family, hpool.stop_family, if_neg (by simp), if_neg (by omega)]

/-- An allocated address is the reserved one, or comes from the pool. -/
lemma allocate_cases
    (h : allocate K scope reservations leases clientId requestedIp nowUnix = some ip) :
    reservedFor reservations clientId = some ip ∨
      reservedFor reservations clientId = none ∧ ∃ start stop, IsPool scope start stop ∧
        allocateFromPool K scope.family (ipToU128 start) (ipToU128 stop)
          (usedAddresses K scope.family reservations leases clientId nowUnix) leases clientId
          requestedIp nowUnix = some ip := by
  unfold allocate at h
  split at h
  · rename_i ip' hres
    cases h
    exact .inl hres
  · rename_i hres
    right
    refine ⟨hres, ?_⟩
    split at h
    · rename_i start stop hstart hstop
      split at h
      · cases h
      · rename_i hfams
        split at h
        · cases h
        · rename_i hle
          simp only [Bool.or_eq_true, Bool.not_eq_true', not_or, Bool.not_eq_false] at hfams
          exact ⟨start, stop, ⟨hstart, hstop, hfams.1, hfams.2, by omega⟩, h⟩
    · cases h

/-- The address allocated to a client is reserved for it, or is not the address of a lease that
another client holds. -/
theorem allocate_spec
    (h : allocate K scope reservations leases clientId requestedIp nowUnix = some ip)
    (hfam : familyMatches ip scope.family = true) :
    (∃ r ∈ reservations, eqIgnoreAsciiCase r.identifier clientId = true ∧
        parseIpAddr r.ip = some ip) ∨
      ∀ l ∈ leases, isHolding K l nowUnix = true → eqIgnoreAsciiCase l.identifier clientId = false →
        parseIpAddr l.ip ≠ some ip := by
  rcases allocate_cases h with hres | ⟨-, start, stop, hpool, hip⟩
  · exact .inl (mem_of_reservedFor hres)
  · right
    obtain ⟨-, -, hfree⟩ := allocateFromPool_spec hpool.stop_family hpool.le hip
    intro l hl hhold hother hparse
    exact hfree (mem_usedAddresses hl hhold hother hparse hfam)

/-- The client's own lease comes first: when one of its holding leases is free in the pool and all
its holding leases are at that address, the pool gives that address. -/
lemma allocateFromPool_own {startN endN : ℕ} {used : List ℕ} {l : DhcpLease} (hl : l ∈ leases)
    (hid : eqIgnoreAsciiCase l.identifier clientId = true) (hhold : isHolding K l nowUnix = true)
    (hparse : parseIpAddr l.ip = some ip) (hlow : startN ≤ ipToU128 ip) (hhigh : ipToU128 ip ≤ endN)
    (hfree : ipToU128 ip ∉ used)
    (hall : ∀ m ∈ leases, eqIgnoreAsciiCase m.identifier clientId = true →
      isHolding K m nowUnix = true → parseIpAddr m.ip = some ip) :
    allocateFromPool K family startN endN used leases clientId requestedIp nowUnix = some ip := by
  have hown : ownAddress K (isFree used startN endN) leases clientId nowUnix = some ip := by
    refine findSome?_eq_of_unique hl ?_ ?_
    · rw [hid, hhold, hparse]
      simp [isFree, hlow, hhigh, hfree]
    · intro m hm ip' hip'
      split at hip'
      · rename_i hmine
        rw [Bool.and_eq_true] at hmine
        rw [hall m hm hmine.1 hmine.2] at hip'
        exact (Option.some.inj (Option.filter_eq_some_iff.mp hip').1).symm
      · cases hip'
  unfold allocateFromPool
  dsimp only
  rw [hown]

end Allocate

/-! ## Leases that hold nothing -/

section Filter

variable {p : DhcpLease → Bool} {leases : List DhcpLease} {nowUnix : ℤ}

/-- Leases that hold no address do not make addresses off-limits. -/
lemma usedAddresses_filter (h : ∀ l ∈ leases, isHolding K l nowUnix = true → p l = true)
    (family : IpFamily) (reservations : List DhcpReservation) (clientId : Str) :
    usedAddresses K family reservations (leases.filter p) clientId nowUnix =
      usedAddresses K family reservations leases clientId nowUnix := by
  unfold usedAddresses
  rw [List.filter_filter]
  congr 2
  refine List.filter_congr fun l hl => ?_
  cases hhold : isHolding K l nowUnix with
  | true => simp only [h l hl hhold, Bool.and_true]
  | false => rfl

/-- Leases that hold no address are not the client's own either. -/
lemma ownAddress_filter (h : ∀ l ∈ leases, isHolding K l nowUnix = true → p l = true)
    (free : IpAddr → Bool) (clientId : Str) :
    ownAddress K free (leases.filter p) clientId nowUnix = ownAddress K free leases clientId nowUnix := by
  unfold ownAddress
  refine findSome?_filter_of_none fun l hl hp => ?_
  have hnot : isHolding K l nowUnix = false := by
    by_contra hhold
    rw [h l hl (by simpa using hhold)] at hp
    cases hp
  rw [hnot, Bool.and_false]
  rfl

/-- So they do not matter to the allocator. -/
lemma allocate_filter (h : ∀ l ∈ leases, isHolding K l nowUnix = true → p l = true)
    (scope : DhcpScope) (reservations : List DhcpReservation) (clientId : Str)
    (requestedIp : Option IpAddr) :
    allocate K scope reservations (leases.filter p) clientId requestedIp nowUnix =
      allocate K scope reservations leases clientId requestedIp nowUnix := by
  unfold allocate allocateFromPool
  simp only [usedAddresses_filter h, ownAddress_filter h]

end Filter

end

end Nomina
