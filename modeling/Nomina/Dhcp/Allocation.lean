import Nomina.Dhcp.Protection

/-!
# The allocator against its policy

The allocator of `dhcp/lease.rs` with the checked arithmetic of its scan, and its policy stated on its
own: which addresses a client may use, and which of them it is to get. The main result is that the
allocator always returns, without overflow, and follows the policy.
-/

namespace Nomina

open Lib

/-! ## The scan with checked arithmetic -/

/-- The scan of the pool as the code runs it, over `u128` counters: `none` when one of them overflows,
and else the result. -/
def scanLoop (used : List ℕ) (endN maxScan n probed : ℕ) : Option (Option ℕ) :=
  if !used.contains n then some (some n)
  else if n = endN then some none
  else if _ : n + 1 < 2 ^ 128 ∧ probed + 1 < 2 ^ 128 then
    if maxScan ≤ probed + 1 then some none else scanLoop used endN maxScan (n + 1) (probed + 1)
  else none
termination_by 2 ^ 128 - n

/-- `allocate` as the code runs it: `none` when the scan overflows. -/
def allocateChecked (K : Crates) (scope : DhcpScope) (reservations : List DhcpReservation)
    (leases : List DhcpLease) (clientId : Str) (requestedIp : Option IpAddr) (nowUnix : ℤ) :
    Option (Option IpAddr) :=
  match reservedFor reservations clientId with
  | some ip => some (some ip)
  | none =>
    match parseIpAddr scope.rangeStart, parseIpAddr scope.rangeEnd with
    | some start, some stop =>
      if !familyMatches start scope.family || !familyMatches stop scope.family then some none
      else if ipToU128 stop < ipToU128 start then some none
      else
        let used := usedAddresses K scope.family reservations leases clientId nowUnix
        let free := isFree used (ipToU128 start) (ipToU128 stop)
        match ownAddress K free leases clientId nowUnix with
        | some ip => some (some ip)
        | none =>
          match askedAddress scope.family free requestedIp with
          | some ip => some (some ip)
          | none =>
            (scanLoop used (ipToU128 stop) (maxScan scope.family) (ipToU128 start) 0).map
              (Option.map (u128ToIp · scope.family))
    | _, _ => some none

lemma maxScan_pos (family : IpFamily) : 0 < maxScan family := by
  cases family <;> decide

lemma maxScan_lt (family : IpFamily) : maxScan family < 2 ^ 128 := by
  cases family <;> decide

lemma familySize_le (family : IpFamily) : familySize family ≤ 2 ^ 128 := by
  cases family <;> decide

/-- The scan returns: it stops at the end of the pool or at its bound, before a counter overflows. -/
lemma scanLoop_eq (used : List ℕ) {endN bound n probed : ℕ} (hend : endN < 2 ^ 128)
    (hbound : bound < 2 ^ 128) (hn : n ≤ endN) (hprobed : probed < bound) :
    scanLoop used endN bound n probed =
      some (scanPool used (min (endN - n + 1) (bound - probed)) n) := by
  -- The induction is on the part of the pool that is left.
  induction hleft : endN - n generalizing n probed with
  | zero =>
    obtain rfl : n = endN := by omega
    have hcount : min (0 + 1) (bound - probed) = 0 + 1 := by omega
    unfold scanLoop
    rw [hcount]
    unfold scanPool scanPool
    cases hused : used.contains n <;> simp
  | succ left ih =>
    obtain ⟨count, hcount⟩ : ∃ count, min (left + 1 + 1) (bound - probed) = count + 1 :=
      ⟨min (left + 1) (bound - probed - 1), by omega⟩
    unfold scanLoop
    rw [hcount]
    unfold scanPool
    cases hused : used.contains n with
    | false => simp
    | true =>
      rw [if_neg (by simp), if_neg (by omega), dif_pos (by omega), if_pos rfl]
      split
      · obtain rfl : count = 0 := by omega
        rfl
      · rw [ih (by omega) (by omega) (by omega)]
        have hrest : min (left + 1) (bound - (probed + 1)) = count := by omega
        rw [hrest]

section

variable {K : Crates} {scope : DhcpScope} {reservations : List DhcpReservation}
  {leases : List DhcpLease} {clientId : Str} {requestedIp : Option IpAddr} {nowUnix : ℤ}

/-- The pool gives the client's own address, else the one asked for, else the one the scan finds. -/
lemma allocateFromPool_eq (family : IpFamily) (startN endN : ℕ) (used : List ℕ) :
    allocateFromPool K family startN endN used leases clientId requestedIp nowUnix =
      (ownAddress K (isFree used startN endN) leases clientId nowUnix).or
        ((askedAddress family (isFree used startN endN) requestedIp).or
          ((scanPool used (min (endN - startN + 1) (maxScan family)) startN).map (u128ToIp · family))) := by
  unfold allocateFromPool
  dsimp only
  split
  · rename_i ip hown
    rw [hown, Option.some_or]
  · rename_i ip hown hasked
    rw [hown, hasked, Option.none_or, Option.some_or]
  · rename_i hown hasked
    rw [hown, hasked, Option.none_or, Option.none_or]

/-- The allocator always returns, and as without the checks. -/
lemma allocateChecked_eq :
    allocateChecked K scope reservations leases clientId requestedIp nowUnix =
      some (allocate K scope reservations leases clientId requestedIp nowUnix) := by
  unfold allocateChecked allocate
  cases reservedFor reservations clientId with
  | some ip => rfl
  | none =>
    cases parseIpAddr scope.rangeStart with
    | none => rfl
    | some start =>
      cases parseIpAddr scope.rangeEnd with
      | none => rfl
      | some stop =>
        dsimp only
        split
        · rfl
        · rename_i hfams
          split
          · rfl
          · rename_i hle
            -- The scan is reached with the bounds of an ordered pool.
            simp only [Bool.or_eq_true, Bool.not_eq_true', not_or, Bool.not_eq_false] at hfams
            have hstop := (ipToU128_lt hfams.2).trans_le (familySize_le scope.family)
            have hscan := scanLoop_eq
              (usedAddresses K scope.family reservations leases clientId nowUnix) hstop
              (maxScan_lt scope.family) (not_lt.mp hle) (maxScan_pos scope.family)
            rw [hscan, Nat.sub_zero, allocateFromPool_eq]
            cases ownAddress K (isFree _ (ipToU128 start) (ipToU128 stop)) leases clientId nowUnix with
            | some ip => rfl
            | none =>
              cases askedAddress scope.family (isFree _ (ipToU128 start) (ipToU128 stop)) requestedIp with
              | some ip => rfl
              | none => rfl

end

lemma familyMatches_V4 {ip : IpAddr} : familyMatches ip .V4 = true ↔ ∃ a, ip = .v4 a := by
  cases ip <;> simp [familyMatches]

lemma familyMatches_V6 {ip : IpAddr} : familyMatches ip .V6 = true ↔ ∃ a, ip = .v6 a := by
  cases ip <;> simp [familyMatches]

/-! ## The policy -/

/-- What the allocator is called with. -/
structure AllocateArgs where
  scope : DhcpScope
  reservations : List DhcpReservation
  leases : List DhcpLease
  clientId : Str
  requestedIp : Option IpAddr
  nowUnix : ℤ

namespace AllocateArgs

variable (K : Crates) (a : AllocateArgs)

/-- The address the allocator gives. -/
def allocated : Option IpAddr :=
  allocate K a.scope a.reservations a.leases a.clientId a.requestedIp a.nowUnix

/-- The lease rows are of the scope's family. -/
def RowsOfFamily : Prop :=
  ∀ l ∈ a.leases, ∀ ip, parseIpAddr l.ip = some ip → familyMatches ip a.scope.family = true

/-- A reservation gives the client an address. -/
def ReservedAt (r : DhcpReservation) (ip : IpAddr) : Prop :=
  eqIgnoreAsciiCase r.identifier a.clientId = true ∧ parseIpAddr r.ip = some ip

/-- No reservation gives the client an address. -/
def Unreserved : Prop :=
  ∀ r ∈ a.reservations, ∀ ip, ¬a.ReservedAt r ip

/-- The address is reserved, or another client holds it. -/
def Taken (ip : IpAddr) : Prop :=
  (∃ r ∈ a.reservations, parseIpAddr r.ip = some ip) ∨
    ∃ l ∈ a.leases, isHolding K l a.nowUnix = true ∧
      eqIgnoreAsciiCase l.identifier a.clientId = false ∧ parseIpAddr l.ip = some ip

/-- The address is of the scope's family and in its range. -/
def InRange (ip : IpAddr) : Prop :=
  familyMatches ip a.scope.family = true ∧ ∃ start stop, IsPool a.scope start stop ∧
    ipToU128 start ≤ ipToU128 ip ∧ ipToU128 ip ≤ ipToU128 stop

/-- The address may be given to the client: it is in the range of the scope and not taken. -/
def Usable (ip : IpAddr) : Prop :=
  a.InRange ip ∧ ¬a.Taken K ip

/-- The client holds the lease, at an address that it may be given. -/
def OwnAt (l : DhcpLease) (ip : IpAddr) : Prop :=
  eqIgnoreAsciiCase l.identifier a.clientId = true ∧ isHolding K l a.nowUnix = true ∧
    parseIpAddr l.ip = some ip ∧ a.Usable K ip

/-- The client holds no lease at an address that it may be given. -/
def Unleased : Prop :=
  ∀ l ∈ a.leases, ∀ ip, ¬a.OwnAt K l ip

/-- The client asks for no address that it may be given. -/
def Unasked : Prop :=
  ∀ ip, a.requestedIp = some ip → ¬a.Usable K ip

/-- The address is one that the scan reaches: all of an IPv4 range, the first 65536 addresses of an
IPv6 range. -/
def Scanned (ip : IpAddr) : Prop :=
  a.InRange ip ∧ (a.scope.family = .V6 → ∀ start, parseIpAddr a.scope.rangeStart = some start →
    ipToU128 ip < ipToU128 start + maxV6Scan)

/-- The addresses that are free in the pool of the arguments. -/
abbrev free (start stop : IpAddr) : IpAddr → Bool :=
  isFree (usedAddresses K a.scope.family a.reservations a.leases a.clientId a.nowUnix)
    (ipToU128 start) (ipToU128 stop)

/-- The client holds the lease, at an address whose number is free in the pool of the scope. -/
def HoldsAt (l : DhcpLease) (ip : IpAddr) : Prop :=
  eqIgnoreAsciiCase l.identifier a.clientId = true ∧ isHolding K l a.nowUnix = true ∧
    parseIpAddr l.ip = some ip ∧ ∃ start stop, IsPool a.scope start stop ∧ a.free K start stop ip = true

/-- The reservation of the client is the first one that gives it an address, and gives it this one. -/
def FirstReserved (ip : IpAddr) : Prop :=
  ∃ pre r post, a.reservations = pre ++ r :: post ∧ a.ReservedAt r ip ∧
    ∀ r' ∈ pre, ∀ ip', ¬a.ReservedAt r' ip'

/-- The first of the client's leases at a free address is at this one. -/
def FirstHeld (ip : IpAddr) : Prop :=
  ∃ pre l post, a.leases = pre ++ l :: post ∧ a.HoldsAt K l ip ∧
    ∀ l' ∈ pre, ∀ ip', ¬a.HoldsAt K l' ip'

/-- The address that the policy names: the reserved one; else that of the client's own lease; else the
one it asks for, if it may be given; else the lowest that the scan reaches and that may be given. -/
def Names (ip : IpAddr) : Prop :=
  a.FirstReserved ip ∨ a.Unreserved ∧ (a.FirstHeld K ip ∨
    (∀ l ∈ a.leases, ∀ ip', ¬a.HoldsAt K l ip') ∧ (a.requestedIp = some ip ∧ a.Usable K ip ∨
      a.Unasked K ∧ a.Scanned ip ∧ a.Usable K ip ∧ ∀ ip', a.Usable K ip' → ipToU128 ip ≤ ipToU128 ip'))

/-- The allocator returns, and gives the address that the policy of the scope names. -/
structure FollowsPolicy : Prop where
  returns : allocateChecked K a.scope a.reservations a.leases a.clientId a.requestedIp a.nowUnix =
    some (a.allocated K)
  reserved : ∀ pre r post ip, a.reservations = pre ++ r :: post → a.ReservedAt r ip →
    (∀ r' ∈ pre, ∀ ip', ¬a.ReservedAt r' ip') → a.allocated K = some ip
  usable : a.Unreserved → ∀ ip, a.allocated K = some ip → a.Usable K ip
  own : a.Unreserved → ∀ pre l post ip, a.leases = pre ++ l :: post → a.OwnAt K l ip →
    (∀ l' ∈ pre, ∀ ip', ¬a.OwnAt K l' ip') → a.allocated K = some ip
  requested : a.Unreserved → a.Unleased K → ∀ ip, a.requestedIp = some ip → a.Usable K ip →
    a.allocated K = some ip
  least : a.Unreserved → a.Unleased K → a.Unasked K → ∀ ip, a.allocated K = some ip →
    ∀ ip', a.Usable K ip' → ipToU128 ip ≤ ipToU128 ip'
  exhausted : a.allocated K = none → (¬∃ start stop, IsPool a.scope start stop) ∨
    a.Unleased K ∧ a.Unasked K ∧ ∀ ip, a.Scanned ip → a.Taken K ip

/-! ## The allocator follows the policy -/

section

variable {K : Crates} {a : AllocateArgs} {ip start stop : IpAddr}

/-- A text has the number of an address of the family when it is parsed as that address. -/
lemma addressOf_eq_some {family : IpFamily} {text : Str} (hip : familyMatches ip family = true) :
    addressOf family text = some (ipToU128 ip) ↔ parseIpAddr text = some ip := by
  unfold addressOf
  rw [Option.map_eq_some_iff]
  constructor
  · rintro ⟨ip', hfilter, heq⟩
    obtain ⟨hparse, hip'⟩ := Option.filter_eq_some_iff.mp hfilter
    rw [hparse, ipToU128_injective hip' hip heq]
  · intro h
    exact ⟨ip, Option.filter_eq_some_iff.mpr ⟨h, hip⟩, rfl⟩

/-- The addresses off-limits are those that are taken. -/
lemma mem_usedAddresses_iff (hip : familyMatches ip a.scope.family = true) :
    ipToU128 ip ∈ usedAddresses K a.scope.family a.reservations a.leases a.clientId a.nowUnix ↔
      a.Taken K ip := by
  unfold usedAddresses Taken
  rw [List.mem_append, List.mem_filterMap, List.mem_filterMap]
  refine or_congr ?_ ?_
  · simp only [addressOf_eq_some hip]
  · simp only [addressOf_eq_some hip, List.mem_filter, Bool.and_eq_true, Bool.not_eq_true', and_assoc]

/-- The addresses that are free are those that the client may be given. -/
lemma isFree_iff (hpool : IsPool a.scope start stop) (hip : familyMatches ip a.scope.family = true) :
    isFree (usedAddresses K a.scope.family a.reservations a.leases a.clientId a.nowUnix)
      (ipToU128 start) (ipToU128 stop) ip = true ↔ a.Usable K ip := by
  unfold isFree Usable InRange
  rw [Bool.and_eq_true, Bool.and_eq_true, decide_eq_true_eq, decide_eq_true_eq, Bool.not_eq_true',
    ← Bool.not_eq_true, List.contains_iff_mem, mem_usedAddresses_iff hip]
  refine and_congr_left' ?_
  constructor
  · rintro ⟨hlow, hhigh⟩
    exact ⟨hip, start, stop, hpool, hlow, hhigh⟩
  · rintro ⟨-, start', stop', hpool', hlow, hhigh⟩
    obtain rfl : start' = start := Option.some.inj (hpool'.start_eq.symm.trans hpool.start_eq)
    obtain rfl : stop' = stop := Option.some.inj (hpool'.stop_eq.symm.trans hpool.stop_eq)
    exact ⟨hlow, hhigh⟩

/-- A lease gives its address to the client when the client holds it at a free address. -/
lemma ownLease_iff (hpool : IsPool a.scope start stop) {l : DhcpLease} :
    (if eqIgnoreAsciiCase l.identifier a.clientId && isHolding K l a.nowUnix then
      (parseIpAddr l.ip).filter (a.free K start stop) else none) = some ip ↔ a.HoldsAt K l ip := by
  unfold HoldsAt
  rw [Option.ite_none_right_eq_some, Option.filter_eq_some_iff, Bool.and_eq_true, and_assoc]
  refine and_congr_right' (and_congr_right' (and_congr_right' ?_))
  constructor
  · exact fun hfree => ⟨start, stop, hpool, hfree⟩
  · rintro ⟨start', stop', hpool', hfree⟩
    obtain rfl : start' = start := Option.some.inj (hpool'.start_eq.symm.trans hpool.start_eq)
    obtain rfl : stop' = stop := Option.some.inj (hpool'.stop_eq.symm.trans hpool.stop_eq)
    exact hfree

/-- The client's own address is that of the first of its leases at a free address. -/
lemma ownAddress_eq_some_iff (hpool : IsPool a.scope start stop) :
    ownAddress K (a.free K start stop) a.leases a.clientId a.nowUnix = some ip ↔ a.FirstHeld K ip := by
  unfold ownAddress FirstHeld
  rw [List.findSome?_eq_some_iff]
  simp only [ownLease_iff hpool, Option.eq_none_iff_forall_ne_some, Ne]

/-- Without such a lease there is no own address. -/
lemma ownAddress_eq_none_iff (hpool : IsPool a.scope start stop) :
    ownAddress K (a.free K start stop) a.leases a.clientId a.nowUnix = none ↔
      ∀ l ∈ a.leases, ∀ ip', ¬a.HoldsAt K l ip' := by
  unfold ownAddress
  rw [List.findSome?_eq_none_iff]
  simp only [ownLease_iff hpool, Option.eq_none_iff_forall_ne_some, Ne]

/-- For rows of the scope's family, a free address is one that the client may be given. -/
lemma holdsAt_iff (hrows : a.RowsOfFamily) {l : DhcpLease} (hl : l ∈ a.leases) :
    a.HoldsAt K l ip ↔ a.OwnAt K l ip := by
  unfold HoldsAt OwnAt
  refine and_congr_right' (and_congr_right' (and_congr_right fun hparse => ?_))
  have hip := hrows l hl ip hparse
  constructor
  · rintro ⟨start, stop, hpool, hfree⟩
    exact (isFree_iff hpool hip).mp hfree
  · intro husable
    obtain ⟨-, start, stop, hpool, -⟩ := husable.1
    exact ⟨start, stop, hpool, (isFree_iff hpool hip).mpr husable⟩

lemma ownAddress_eq_some (hrows : a.RowsOfFamily) (hpool : IsPool a.scope start stop) :
    ownAddress K (a.free K start stop) a.leases a.clientId a.nowUnix = some ip ↔
      ∃ pre l post, a.leases = pre ++ l :: post ∧ a.OwnAt K l ip ∧
        ∀ l' ∈ pre, ∀ ip', ¬a.OwnAt K l' ip' := by
  rw [ownAddress_eq_some_iff hpool]
  refine exists_congr fun pre => exists_congr fun l => exists_congr fun post =>
    and_congr_right fun hsplit => ?_
  have hmem : ∀ l' ∈ pre, l' ∈ a.leases := fun l' hl' => hsplit ▸ List.mem_append_left _ hl'
  have hl : l ∈ a.leases := hsplit ▸ List.mem_append_right _ (List.mem_cons_self ..)
  refine and_congr (holdsAt_iff hrows hl) (forall₂_congr fun l' hl' => ?_)
  exact forall_congr' fun ip' => (holdsAt_iff hrows (hmem l' hl')).not

lemma ownAddress_eq_none (hrows : a.RowsOfFamily) (hpool : IsPool a.scope start stop) :
    ownAddress K (a.free K start stop) a.leases a.clientId a.nowUnix = none ↔ a.Unleased K := by
  rw [ownAddress_eq_none_iff hpool]
  exact forall₂_congr fun l hl => forall_congr' fun ip' => (holdsAt_iff hrows hl).not

/-- The address asked for is given when the client may have it. -/
lemma askedAddress_eq_some (hpool : IsPool a.scope start stop) :
    askedAddress a.scope.family (a.free K start stop) a.requestedIp = some ip ↔
      a.requestedIp = some ip ∧ a.Usable K ip := by
  unfold askedAddress
  rw [Option.filter_eq_some_iff, Bool.and_eq_true]
  refine and_congr_right' ⟨fun h => (isFree_iff hpool h.1).mp h.2, fun h => ?_⟩
  exact ⟨h.1.1, (isFree_iff hpool h.1.1).mpr h⟩

lemma askedAddress_eq_none (hpool : IsPool a.scope start stop) :
    askedAddress a.scope.family (a.free K start stop) a.requestedIp = none ↔ a.Unasked K := by
  rw [Option.eq_none_iff_forall_ne_some]
  refine forall_congr' fun ip => ?_
  rw [Ne, askedAddress_eq_some hpool, not_and]

/-- Every number that the scan passes is in use. -/
lemma scanPool_passes {used : List ℕ} {count n : ℕ} :
    ∀ m, n ≤ m → m < (scanPool used count n).getD (n + count) → m ∈ used := by
  induction count generalizing n with
  | zero =>
    intro m hle hlt
    change m < n + 0 at hlt
    omega
  | succ count ih =>
    intro m hle hlt
    unfold scanPool at hlt
    split at hlt
    · rename_i hused
      rcases hle.eq_or_lt with rfl | hlt'
      · exact List.contains_iff_mem.mp hused
      · refine ih m hlt' ?_
        rwa [Nat.succ_add_eq_add_succ]
    · change m < n at hlt
      omega

lemma mem_of_scanPool_eq_some {used : List ℕ} {count n m k : ℕ} (h : scanPool used count n = some m)
    (hle : n ≤ k) (hlt : k < m) : k ∈ used := by
  refine @scanPool_passes used count n k hle ?_
  rwa [h]

lemma mem_of_scanPool_eq_none {used : List ℕ} {count n k : ℕ} (h : scanPool used count n = none)
    (hle : n ≤ k) (hlt : k < n + count) : k ∈ used := by
  refine @scanPool_passes used count n k hle ?_
  rwa [h]

/-- The scan of the pool of the arguments. -/
abbrev scan (K : Crates) (a : AllocateArgs) (start stop : IpAddr) : Option ℕ :=
  scanPool (usedAddresses K a.scope.family a.reservations a.leases a.clientId a.nowUnix)
    (min (ipToU128 stop - ipToU128 start + 1) (maxScan a.scope.family)) (ipToU128 start)

/-- The scan gives the lowest address that the client may be given, and one that it reaches. -/
lemma scan_spec (hpool : IsPool a.scope start stop)
    (h : (a.scan K start stop).map (u128ToIp · a.scope.family) = some ip) :
    a.Scanned ip ∧ a.Usable K ip ∧ ∀ ip', a.Usable K ip' → ipToU128 ip ≤ ipToU128 ip' := by
  obtain ⟨n, hn, rfl⟩ := Option.map_eq_some_iff.mp h
  obtain ⟨hlow, hhigh, hfree⟩ := scanPool_spec hn
  have hle := hpool.le
  have hlt := ipToU128_lt hpool.stop_family
  have hnumber : ipToU128 (u128ToIp n a.scope.family) = n := ipToU128_u128ToIp (by omega)
  have hip : familyMatches (u128ToIp n a.scope.family) a.scope.family = true := by
    cases a.scope.family <;> rfl
  have hin : a.InRange (u128ToIp n a.scope.family) :=
    ⟨hip, start, stop, hpool, by rw [hnumber]; omega, by rw [hnumber]; omega⟩
  refine ⟨⟨hin, ?_⟩, ⟨hin, ?_⟩, ?_⟩
  · intro hfamily start' hstart'
    obtain rfl : start' = start := Option.some.inj (hstart'.symm.trans hpool.start_eq)
    have hbound : maxScan .V6 = maxV6Scan := rfl
    rw [hfamily] at hhigh
    rw [hnumber]
    omega
  · rwa [← mem_usedAddresses_iff hip, hnumber]
  · -- A lower address that may be given would have been passed.
    rintro ip' ⟨⟨hfam, start', stop', hpool', hlow', -⟩, hfree'⟩
    obtain rfl : start' = start := Option.some.inj (hpool'.start_eq.symm.trans hpool.start_eq)
    rw [hnumber]
    by_contra hgt
    exact hfree' ((mem_usedAddresses_iff hfam).mp
      (mem_of_scanPool_eq_some hn hlow' (not_le.mp hgt)))

/-- When the scan finds nothing, all that it reaches is taken. -/
lemma taken_of_scan (hpool : IsPool a.scope start stop) (h : a.scan K start stop = none)
    (hip : a.Scanned ip) : a.Taken K ip := by
  obtain ⟨⟨hfam, start', stop', hpool', hlow, hhigh⟩, hreach⟩ := hip
  obtain rfl : start' = start := Option.some.inj (hpool'.start_eq.symm.trans hpool.start_eq)
  obtain rfl : stop' = stop := Option.some.inj (hpool'.stop_eq.symm.trans hpool.stop_eq)
  refine (mem_usedAddresses_iff hfam).mp (mem_of_scanPool_eq_none h hlow ?_)
  have hlt := ipToU128_lt hfam
  cases hfamily : a.scope.family with
  | V4 =>
    have hsize : familySize .V4 = 2 ^ 32 := rfl
    have hbound : maxScan .V4 = 2 ^ 128 - 1 := rfl
    rw [hfamily, hsize] at hlt
    omega
  | V6 =>
    have hbound : maxScan .V6 = maxV6Scan := rfl
    have := hreach hfamily start' hpool.start_eq
    omega

/-- What the scan gives, for all that it reaches. -/
lemma scan_eq_some_iff (hpool : IsPool a.scope start stop) :
    (a.scan K start stop).map (u128ToIp · a.scope.family) = some ip ↔
      a.Scanned ip ∧ a.Usable K ip ∧ ∀ ip', a.Usable K ip' → ipToU128 ip ≤ ipToU128 ip' := by
  refine ⟨scan_spec hpool, ?_⟩
  rintro ⟨hscanned, husable, hleast⟩
  cases hscan : a.scan K start stop with
  | none => exact absurd (taken_of_scan hpool hscan hscanned) husable.2
  | some n =>
    have hgiven : (a.scan K start stop).map (u128ToIp · a.scope.family) =
        some (u128ToIp n a.scope.family) := by
      rw [hscan]
      rfl
    obtain ⟨-, husable', hleast'⟩ := scan_spec hpool hgiven
    have hnumber := Nat.le_antisymm (hleast' ip husable) (hleast _ husable')
    rw [Option.map_some, ipToU128_injective husable'.1.1 husable.1.1 hnumber]

/-- An address that comes from the pool is one that the client may have. -/
lemma usable_of_pool (hrows : a.RowsOfFamily) (hpool : IsPool a.scope start stop)
    (h : allocateFromPool K a.scope.family (ipToU128 start) (ipToU128 stop)
      (usedAddresses K a.scope.family a.reservations a.leases a.clientId a.nowUnix) a.leases a.clientId
      a.requestedIp a.nowUnix = some ip) : a.Usable K ip := by
  rw [allocateFromPool_eq, Option.or_eq_some_iff, Option.or_eq_some_iff] at h
  rcases h with hown | ⟨-, hasked | ⟨-, hscan⟩⟩
  · obtain ⟨_, _, _, -, hat, -⟩ := (ownAddress_eq_some hrows hpool).mp hown
    exact hat.2.2.2
  · exact ((askedAddress_eq_some hpool).mp hasked).2
  · exact (scan_spec hpool hscan).2.1

/-- The reservation for the client is the first one that gives it an address. -/
lemma reservedFor_eq_some : reservedFor a.reservations a.clientId = some ip ↔ a.FirstReserved ip := by
  unfold reservedFor FirstReserved ReservedAt
  simp only [List.findSome?_eq_some_iff, Option.ite_none_right_eq_some, Option.eq_none_iff_forall_ne_some,
    Ne]

lemma reservedFor_eq_none : reservedFor a.reservations a.clientId = none ↔ a.Unreserved := by
  unfold reservedFor Unreserved ReservedAt
  rw [List.findSome?_eq_none_iff]
  simp only [Option.ite_none_right_eq_some, Option.eq_none_iff_forall_ne_some, Ne]

/-- Without a reservation, what the client is given comes from the pool of the scope. -/
lemma exists_pool_of_allocated (h : a.Unreserved) (hsome : a.allocated K = some ip) :
    ∃ start stop, IsPool a.scope start stop ∧
      allocateFromPool K a.scope.family (ipToU128 start) (ipToU128 stop)
        (usedAddresses K a.scope.family a.reservations a.leases a.clientId a.nowUnix) a.leases a.clientId
        a.requestedIp a.nowUnix = some ip := by
  rcases allocate_cases hsome with hres | ⟨-, hpool⟩
  · rw [reservedFor_eq_none.mpr h] at hres
    cases hres
  · exact hpool

/-- The allocation from a pool. -/
lemma allocated_of_isPool (h : a.Unreserved) (hpool : IsPool a.scope start stop) :
    a.allocated K =
      (ownAddress K (a.free K start stop) a.leases a.clientId a.nowUnix).or
        ((askedAddress a.scope.family (a.free K start stop) a.requestedIp).or
          ((a.scan K start stop).map (u128ToIp · a.scope.family))) := by
  unfold allocated
  rw [allocate_of_isPool hpool (reservedFor_eq_none.mpr h), allocateFromPool_eq]

/-- The scan gives the least address that the client may have. -/
lemma least_of_scan (hunres : a.Unreserved) (hrows : a.RowsOfFamily) (hown : a.Unleased K)
    (hasked : a.Unasked K) (h : a.allocated K = some ip) {ip' : IpAddr} (hip' : a.Usable K ip') :
    ipToU128 ip ≤ ipToU128 ip' := by
  obtain ⟨-, start, stop, hpool, -⟩ := hip'.1
  rw [allocated_of_isPool hunres hpool, (ownAddress_eq_none hrows hpool).mpr hown,
    (askedAddress_eq_none hpool).mpr hasked, Option.none_or, Option.none_or] at h
  exact (scan_spec hpool h).2.2 ip' hip'

/-- When nothing is given from a pool, the scan has passed all that it reaches. -/
lemma taken_of_exhausted (hunres : a.Unreserved) (hrows : a.RowsOfFamily)
    (hpool : IsPool a.scope start stop) (h : a.allocated K = none) :
    a.Unleased K ∧ a.Unasked K ∧ ∀ ip, a.Scanned ip → a.Taken K ip := by
  rw [allocated_of_isPool hunres hpool, Option.or_eq_none_iff, Option.or_eq_none_iff,
    ownAddress_eq_none hrows hpool, askedAddress_eq_none hpool, Option.map_eq_none_iff] at h
  obtain ⟨hown, hasked, hscan⟩ := h
  exact ⟨hown, hasked, fun ip => taken_of_scan hpool hscan⟩

/-- The reservation of the client comes first. -/
lemma allocated_of_firstReserved (h : a.FirstReserved ip) : a.allocated K = some ip := by
  unfold allocated allocate
  rw [reservedFor_eq_some.mpr h]

/-- The allocator gives an address exactly when the policy names it. -/
theorem allocated_eq_some_iff : a.allocated K = some ip ↔ a.Names K ip := by
  unfold Names
  by_cases hunres : a.Unreserved
  · have hfirst : ¬a.FirstReserved ip := by
      rintro ⟨pre, r, post, hsplit, hat, -⟩
      exact hunres r (hsplit ▸ List.mem_append_right _ List.mem_cons_self) ip hat
    by_cases hpool : ∃ start stop, IsPool a.scope start stop
    · obtain ⟨start, stop, hpool⟩ := hpool
      rw [allocated_of_isPool hunres hpool, Option.or_eq_some_iff, Option.or_eq_some_iff,
        ownAddress_eq_some_iff hpool, ownAddress_eq_none_iff hpool, askedAddress_eq_some hpool,
        askedAddress_eq_none hpool, scan_eq_some_iff hpool]
      tauto
    · -- Without a pool, nothing is allocated and the policy names nothing.
      have hnone : a.allocated K ≠ some ip := by
        intro hsome
        obtain ⟨start, stop, h, -⟩ := exists_pool_of_allocated hunres hsome
        exact hpool ⟨start, stop, h⟩
      have hrange : ∀ ip', ¬a.InRange ip' := by
        rintro ip' ⟨-, start, stop, h, -⟩
        exact hpool ⟨start, stop, h⟩
      refine iff_of_false hnone ?_
      rintro (h | ⟨-, ⟨_, _, _, -, hat, -⟩ | ⟨-, h | h⟩⟩)
      · exact hfirst h
      · obtain ⟨start, stop, h, -⟩ := hat.2.2.2
        exact hpool ⟨start, stop, h⟩
      · exact hrange ip h.2.1
      · exact hrange ip h.2.1.1
  · obtain ⟨ip', hres⟩ : ∃ ip', a.FirstReserved ip' := by
      rw [← reservedFor_eq_none, ← Ne, Option.ne_none_iff_exists'] at hunres
      obtain ⟨ip', hres⟩ := hunres
      exact ⟨ip', reservedFor_eq_some.mp hres⟩
    rw [allocated_of_firstReserved hres, Option.some_inj]
    constructor
    · rintro rfl
      exact .inl hres
    · rintro (h | ⟨h, -⟩)
      · exact Option.some.inj ((reservedFor_eq_some.mpr hres).symm.trans (reservedFor_eq_some.mpr h))
      · exact absurd h hunres

/-- For lease rows of the scope's family, the allocator follows the policy. -/
theorem followsPolicy (K : Crates) (a : AllocateArgs) (hrows : a.RowsOfFamily) : a.FollowsPolicy K := by
  constructor
  case returns => exact allocateChecked_eq
  case reserved =>
    intro pre r post ip hsplit hat hpre
    exact allocated_of_firstReserved ⟨pre, r, post, hsplit, hat, hpre⟩
  case usable =>
    intro hunres ip hip
    obtain ⟨start, stop, hpool, hfrom⟩ := exists_pool_of_allocated hunres hip
    exact usable_of_pool hrows hpool hfrom
  case own =>
    intro hunres pre l post ip hsplit hat hpre
    obtain ⟨-, start, stop, hpool, -⟩ := hat.2.2.2.1
    rw [allocated_of_isPool hunres hpool,
      (ownAddress_eq_some hrows hpool).mpr ⟨pre, l, post, hsplit, hat, hpre⟩, Option.some_or]
  case requested =>
    intro hunres hown ip hreq hip
    obtain ⟨-, start, stop, hpool, -⟩ := hip.1
    rw [allocated_of_isPool hunres hpool, (ownAddress_eq_none hrows hpool).mpr hown,
      (askedAddress_eq_some hpool).mpr ⟨hreq, hip⟩, Option.none_or, Option.some_or]
  case least =>
    intro hunres hown hasked ip hip ip' hip'
    exact least_of_scan hunres hrows hown hasked hip hip'
  case exhausted =>
    intro hnone
    have hunres : a.Unreserved := by
      rw [← reservedFor_eq_none]
      cases hres : reservedFor a.reservations a.clientId with
      | none => rfl
      | some ip =>
        unfold allocated allocate at hnone
        rw [hres] at hnone
        cases hnone
    by_cases hpool : ∃ start stop, IsPool a.scope start stop
    · obtain ⟨start, stop, hpool⟩ := hpool
      exact .inr (taken_of_exhausted hunres hrows hpool hnone)
    · exact .inl hpool

end

end AllocateArgs

/-- Another client that asks for a held address. -/
def lanArgs : AllocateArgs :=
  ⟨lanScope, [], [lanLease], "bb:bb:bb:bb:bb:bb", some (.v4 0xc0a8010a), 60⟩

/-- It is given the next address. -/
theorem followsPolicy_lan : lanArgs.FollowsPolicy plainCrates ∧
    lanArgs.allocated plainCrates = some (.v4 0xc0a8010b) := by
  refine ⟨AllocateArgs.followsPolicy plainCrates lanArgs ?_, by decide +kernel⟩
  intro l hl ip hip
  rw [List.mem_singleton.mp hl] at hip
  have hparse : parseIpAddr lanLease.ip = some (.v4 0xc0a8010a) := by decide +kernel
  obtain rfl := Option.some.inj (hparse.symm.trans hip)
  rfl

end Nomina
