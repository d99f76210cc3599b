import Nomina.Dhcp.Options
import Nomina.Dhcp.V6
import Nomina.Lib.Slots

/-!
# DHCPv6 replies

`build_v6_reply` of `dhcp/server.rs`: the client's identifier, the server's, an identity association
with the assigned address and its timers, and the name server options of the scope. The reply is given
in closed form (`replyMessageV6`), and from it follow what a client reads and for which lease times the
timers are in order.
-/

namespace Nomina

open Lib Dhcp6Message

/-! ## The builder -/

/-- One round of the loop over the options of the scope. -/
def pushOptionV6 (reply : Dhcp6Message) (opt : DhcpOption) : Reader Dhcp6Message :=
  if opt.code = 23 ∨ opt.code = 24 then
    (Nomina.encodeOption opt).discard.map fun
      | some bytes => reply.setOption (UInt16.ofNat opt.code) bytes
      | none => reply
  else .ok reply

/-- The identity association of a reply, with `T1 = lease / 2` and `T2 = (lease / 5) * 4`. -/
def replyIaNa (iaid : UInt32) (assigned : Ipv6Addr) (lease : ℕ) : IaNa where
  iaid := iaid
  t1 := UInt32.ofNat (lease / 2)
  t2 := UInt32.ofNat (lease / 5 * 4)
  addresses := [⟨assigned, UInt32.ofNat lease, UInt32.ofNat lease⟩]

/-- `build_v6_reply`. -/
def buildV6Reply (r : V6Reply) : Reader Bytes := do
  let reply : Dhcp6Message := ⟨r.msgType, r.req.transactionId, []⟩
  let reply := match r.req.option 1 with
    | some cid => reply.setOption 1 cid
    | none => reply
  let reply := reply.setOption 2 r.serverDuid
  let iaid := ((← r.req.iaNa).map IaNa.iaid).getD 1
  let reply := reply.setOption 3 (encodeIaNa (replyIaNa iaid r.assigned r.scope.leaseSecs))
  return (← r.scope.options.foldlM pushOptionV6 reply).build

/-! ## Reading the request -/

section

variable {buf : Bytes}

lemma bytesAt_ne_panic {i k : ℕ} (h : i + k ≤ buf.length) : bytesAt buf i k ≠ .error .panic := by
  rw [bytesAt_of_le h]
  simp

/-- `parse_ia_addr` is never out of range. -/
lemma parseIaAddr_ne_panic (buf : Bytes) : parseIaAddr buf ≠ .error .panic := by
  unfold parseIaAddr
  split_ifs with hlen
  · simp [Reader.fail]
  · have hoctets : ((buf.drop 0).take 16).length = 16 := by
      rw [List.length_take, List.length_drop]
      omega
    rw [slice_of_le (by omega) (by omega), Nat.sub_zero]
    change (copyFromSlice 16 ((buf.drop 0).take 16) >>= _) ≠ _
    rw [copyFromSlice_of_length hoctets]
    refine Reader.bind_ne_panic (by simp) fun octets => ?_
    refine Reader.bind_ne_panic (bytesAt_ne_panic (by omega)) fun _ => ?_
    refine Reader.bind_ne_panic (bytesAt_ne_panic (by omega)) fun _ => ?_
    simp [pure, Except.pure]

/-- The loop over nested options is never out of range. -/
lemma foldlM_pushIaAddr_ne_panic (nested : List (UInt16 × Bytes)) (addresses : List IaAddress) :
    nested.foldlM pushIaAddr addresses ≠ .error .panic := by
  induction nested generalizing addresses with
  | nil => simp [pure, Except.pure]
  | cons o nested ih =>
    rw [List.foldlM_cons]
    refine Reader.bind_ne_panic ?_ ih
    unfold pushIaAddr
    split
    · exact Reader.bind_ne_panic (parseIaAddr_ne_panic o.2) fun a => by simp [pure, Except.pure]
    · simp [pure, Except.pure]

/-- `parse_ia_na` is never out of range. -/
lemma parseIaNa_ne_panic (buf : Bytes) : parseIaNa buf ≠ .error .panic := by
  unfold parseIaNa
  split_ifs with hlen
  · simp [Reader.fail]
  · refine Reader.bind_ne_panic (bytesAt_ne_panic (by omega)) fun _ => ?_
    refine Reader.bind_ne_panic (bytesAt_ne_panic (by omega)) fun _ => ?_
    refine Reader.bind_ne_panic (bytesAt_ne_panic (by omega)) fun _ => ?_
    refine Reader.bind_ne_panic ?_ fun rest => ?_
    · unfold sliceFrom
      rw [slice_of_le (by omega) le_rfl]
      simp
    · refine Reader.bind_ne_panic (parseOptions_ne_panic rest) fun nested => ?_
      refine Reader.bind_ne_panic (foldlM_pushIaAddr_ne_panic nested []) fun _ => ?_
      simp [pure, Except.pure]

/-- Reading the identity association of a message does not fail. -/
lemma exists_iaNa (m : Dhcp6Message) : ∃ ia, m.iaNa = .ok ia := by
  unfold iaNa
  cases m.option 3 with
  | none => exact ⟨none, rfl⟩
  | some value =>
    cases hparse : parseIaNa value with
    | ok ia => exact ⟨some ia, by simp only [hparse]; rfl⟩
    | error e =>
      cases e with
      | panic => exact absurd hparse (parseIaNa_ne_panic value)
      | error message => exact ⟨none, by simp only [hparse]; rfl⟩

end

/-! ## The message -/

/-- The identifier of the association that the reply answers: the request's, or else 1. -/
def requestIaid (req : Dhcp6Message) : UInt32 :=
  match req.iaNa with
  | .ok (some ia) => ia.iaid
  | _ => 1

/-- An entry on which the loop over the options of the scope panics. -/
def PanicsInLoopV6 (opt : DhcpOption) : Prop :=
  (opt.code = 23 ∨ opt.code = 24) ∧ PanicsOption opt

/-- What a round of the loop writes into the reply. -/
def writtenV6? (opt : DhcpOption) : Option (UInt16 × Bytes) :=
  if opt.code = 23 ∨ opt.code = 24 then (encoded? opt).map fun bytes => (UInt16.ofNat opt.code, bytes)
  else none

/-- The options that the builder sets before the loop. -/
def baseOptionsV6 (r : V6Reply) : List (UInt16 × Bytes) :=
  ((r.req.option 1).map fun cid => (1, cid)).toList ++ [(2, r.serverDuid),
    (3, encodeIaNa (replyIaNa (requestIaid r.req) r.assigned r.scope.leaseSecs))]

/-- The reply as a message. -/
def replyMessageV6 (r : V6Reply) : Dhcp6Message where
  msgType := r.msgType
  transactionId := r.req.transactionId
  options := putAll Prod.fst (r.scope.options.filterMap writtenV6?) (baseOptionsV6 r)

/-- A message is the reply that its arguments call for, with the timers in order. -/
structure AnswersWithV6 (r : V6Reply) (m : Dhcp6Message) : Prop where
  msgType : m.msgType = r.msgType
  transactionId : m.transactionId = r.req.transactionId
  distinct : (m.options.map Prod.fst).Nodup
  clientId : m.option 1 = r.req.option 1
  serverId : m.option 2 = some r.serverDuid
  iaNa : ∃ ia, m.iaNa = .ok (some ia) ∧ ia.iaid = requestIaid r.req ∧
    ia.addresses = [⟨r.assigned, UInt32.ofNat r.scope.leaseSecs, UInt32.ofNat r.scope.leaseSecs⟩] ∧
    ia.t1 ≤ ia.t2 ∧ ia.t2 ≤ UInt32.ofNat r.scope.leaseSecs

section

variable {r : V6Reply} {reply : Dhcp6Message}

/-- The loop panics on no list that is accepted. -/
lemma not_panicsInLoopV6_of_accepted {opts : List DhcpOption} (h : Api.validateDhcpOptions opts = .ok ()) :
    ∀ opt ∈ opts, ¬PanicsInLoopV6 opt :=
  fun _ hopt hpanic => not_panicsOption_of_accepted h hopt hpanic.2

/-- Setting an option puts it into its slot. -/
lemma setSlot_eq_put (code : UInt16) (value : Bytes) (opts : List (UInt16 × Bytes)) :
    setSlot code value opts = put Prod.fst (code, value) opts := by
  induction opts with
  | nil => rfl
  | cons o opts ih =>
    unfold setSlot put
    rw [ih]

/-- A round of the loop panics or puts what it writes into the options of the reply. -/
lemma rounds_pushOptionV6 : Reader.Rounds pushOptionV6 PanicsInLoopV6 writtenV6? fun reply w =>
    { reply with options := put Prod.fst w reply.options } := by
  have hround : ∀ opt reply, pushOptionV6 reply opt = if opt.code = 23 ∨ opt.code = 24 then
      (Nomina.encodeOption opt).discard.map fun value =>
        value.elim reply fun bytes => reply.setOption (UInt16.ofNat opt.code) bytes else .ok reply := by
    intro opt reply
    unfold pushOptionV6
    congr 2
    funext value
    cases value <;> rfl
  constructor
  · intro opt reply hpanic
    rw [hround, if_pos hpanic.1, encodeOption_eq_panic_iff.mpr hpanic.2]
    rfl
  · intro opt reply hpanic
    rw [hround]
    unfold writtenV6? encoded?
    split_ifs with hcode
    · cases hval : Nomina.encodeOption opt with
      | ok bytes =>
        simp only [Reader.discard, Except.map, Option.elim, Option.map, setOption, setSlot_eq_put]
      | error e =>
        cases e with
        | panic => exact absurd ⟨hcode, encodeOption_eq_panic_iff.mp hval⟩ hpanic
        | error message => rfl
    · rfl

/-- What the loop starts from. -/
lemma buildV6Reply_eq_foldlM (r : V6Reply) : buildV6Reply r =
    (r.scope.options.foldlM pushOptionV6 ⟨r.msgType, r.req.transactionId, baseOptionsV6 r⟩).map
      build := by
  obtain ⟨ia, hia⟩ := exists_iaNa r.req
  have hiaid : requestIaid r.req = (ia.map IaNa.iaid).getD 1 := by
    unfold requestIaid
    rw [hia]
    cases ia <;> rfl
  have hbase : ∀ reply : Dhcp6Message, (do
      return (← r.scope.options.foldlM pushOptionV6 reply).build : Reader Bytes) =
        (r.scope.options.foldlM pushOptionV6 reply).map build := by
    intro reply
    cases r.scope.options.foldlM pushOptionV6 reply <;> rfl
  unfold buildV6Reply
  simp only [hia, bind, Except.bind] at hbase ⊢
  rw [hbase]
  unfold baseOptionsV6
  rw [hiaid]
  cases r.req.option 1 <;> rfl

/-- The reply is built unless the loop over the options panics. -/
lemma buildV6Reply_eq (h : ∀ opt ∈ r.scope.options, ¬PanicsInLoopV6 opt) :
    buildV6Reply r = .ok (replyMessageV6 r).build := by
  rw [buildV6Reply_eq_foldlM, rounds_pushOptionV6.foldlM_eq_ok h]
  exact congrArg (fun m : Dhcp6Message => (Except.ok m.build : Reader Bytes))
    (List.foldl_hom (Dhcp6Message.mk r.msgType r.req.transactionId) fun _ _ => rfl)

/-- An entry on which the loop panics leaves no reply. -/
lemma buildV6Reply_panic (h : ∃ opt ∈ r.scope.options, PanicsInLoopV6 opt) :
    buildV6Reply r = .error .panic := by
  rw [buildV6Reply_eq_foldlM, rounds_pushOptionV6.foldlM_eq_panic h]
  rfl

/-! ## What the client reads -/

/-- An option is read as it comes through the wire. -/
lemma option_normaliseV6 (m : Dhcp6Message) (code : UInt16) :
    m.normalise.option code = (m.option code).map (List.take 65535) := by
  unfold Dhcp6Message.option normalise
  dsimp only
  rw [List.find?_map, Option.map_map, Option.map_map]
  rfl

/-- The options of a parsed message fit. -/
lemma length_le_of_parse {buf : Bytes} {m : Dhcp6Message} (h : parse buf = .ok m) {code : UInt16}
    {value : Bytes} (hvalue : m.option code = some value) : value.length ≤ 65535 := by
  have hsame : m.normalise = m := by
    have hparse := parse_build_eq m
    rw [build_of_parse_eq_ok h, h] at hparse
    exact (Except.ok.inj hparse).symm
  have htake := option_normaliseV6 m code
  rw [hsame, hvalue] at htake
  have hlen := congrArg List.length (Option.some.inj htake)
  rw [List.length_take] at hlen
  omega

/-- The loop writes the options 23 and 24 only. -/
lemma withKey_filterMap_writtenV6 (opts : List DhcpOption) {code : UInt16} (h23 : code ≠ 23)
    (h24 : code ≠ 24) : withKey Prod.fst code (opts.filterMap writtenV6?) = [] := by
  unfold withKey
  rw [List.filter_eq_nil_iff]
  intro w hmem hcode
  obtain ⟨opt, -, hw⟩ := List.mem_filterMap.mp hmem
  unfold writtenV6? at hw
  rw [Option.ite_none_right_eq_some] at hw
  obtain ⟨hopt, hw⟩ := hw
  obtain ⟨bytes, -, rfl⟩ := Option.map_eq_some_iff.mp hw
  have hcode := beq_iff_eq.mp hcode
  rcases hopt with hopt | hopt
  · rw [hopt] at hcode
    exact h23 hcode.symm
  · rw [hopt] at hcode
    exact h24 hcode.symm

/-- The options that are set before the loop are read back. -/
lemma option_replyMessageV6 (r : V6Reply) {code : UInt16} (h23 : code ≠ 23) (h24 : code ≠ 24) :
    (replyMessageV6 r).normalise.option code =
      (((baseOptionsV6 r).find? (·.1 == code)).map Prod.snd).map (List.take 65535) := by
  rw [option_normaliseV6]
  unfold Dhcp6Message.option replyMessageV6
  dsimp only
  rw [find?_putAll, withKey_filterMap_writtenV6 _ h23 h24]
  rfl

/-- The codes of the reply's options are distinct. -/
lemma nodup_replyMessageV6 (r : V6Reply) :
    ((replyMessageV6 r).normalise.options.map Prod.fst).Nodup := by
  have hbase : ((baseOptionsV6 r).map Prod.fst).Nodup := by
    unfold baseOptionsV6
    cases r.req.option 1 <;> simp
  have hcodes : (replyMessageV6 r).normalise.options.map Prod.fst =
      (replyMessageV6 r).options.map Prod.fst := by
    unfold normalise
    rw [List.map_map]
    rfl
  rw [hcodes]
  exact nodup_putAll hbase _

/-- The identity association of the reply is read back. -/
lemma iaNa_replyMessageV6 (r : V6Reply) : (replyMessageV6 r).normalise.iaNa =
    .ok (some (replyIaNa (requestIaid r.req) r.assigned r.scope.leaseSecs)) := by
  have hlen : (encodeIaNa (replyIaNa (requestIaid r.req) r.assigned r.scope.leaseSecs)).length = 40 := by
    simp [encodeIaNa, iaNaPayload, replyIaNa, Dhcp6Message.encodeOption, iaAddressOption]
  have hvalue : (replyMessageV6 r).normalise.option 3 =
      some (encodeIaNa (replyIaNa (requestIaid r.req) r.assigned r.scope.leaseSecs)) := by
    rw [option_replyMessageV6 r (by decide) (by decide)]
    have hbase : (baseOptionsV6 r).find? (·.1 == 3) =
        some (3, encodeIaNa (replyIaNa (requestIaid r.req) r.assigned r.scope.leaseSecs)) := by
      unfold baseOptionsV6
      cases r.req.option 1 <;> rfl
    rw [hbase, Option.map_some, Option.map_some]
    exact congrArg some (List.take_of_length_le (hlen.trans_le (by omega)))
  have hparse : parseIaNa (encodeIaNa (replyIaNa (requestIaid r.req) r.assigned r.scope.leaseSecs)) =
      .ok (replyIaNa (requestIaid r.req) r.assigned r.scope.leaseSecs) :=
    parseIaNa_iaNaPayload rfl (by unfold encodeIaNa at hlen; omega)
  unfold iaNa
  rw [hvalue]
  dsimp only
  rw [hparse]
  rfl

/-- The timers are in order except for three short leases, for which the division by 5 loses too much. -/
lemma timers_iff {lease : ℕ} (h : lease < 2 ^ 32) :
    UInt32.ofNat (lease / 2) ≤ UInt32.ofNat (lease / 5 * 4) ∧
      UInt32.ofNat (lease / 5 * 4) ≤ UInt32.ofNat lease ↔ lease ≠ 2 ∧ lease ≠ 3 ∧ lease ≠ 4 := by
  rw [UInt32.le_iff_toNat_le, UInt32.le_iff_toNat_le, UInt32.toNat_ofNat', UInt32.toNat_ofNat',
    UInt32.toNat_ofNat', Nat.mod_eq_of_lt h, Nat.mod_eq_of_lt (by omega), Nat.mod_eq_of_lt (by omega)]
  omega

/-- The reply to a parsed request can be built, is read back and is the one its arguments call for
exactly when the lease does not last 2, 3 or 4 seconds and the loop over the options panics on no
entry. -/
theorem answersWithV6_iff {buf : Bytes} (hreq : parse buf = .ok r.req)
    (hduid : r.serverDuid.length ≤ 65535) (hlease : r.scope.leaseSecs < 2 ^ 32) :
    (∃ bytes m, buildV6Reply r = .ok bytes ∧ parse bytes = .ok m ∧ AnswersWithV6 r m) ↔
      (r.scope.leaseSecs ≠ 2 ∧ r.scope.leaseSecs ≠ 3 ∧ r.scope.leaseSecs ≠ 4) ∧
        ∀ opt ∈ r.scope.options, ¬PanicsInLoopV6 opt := by
  rw [← timers_iff hlease]
  constructor
  · rintro ⟨bytes, m, hbuild, hparse, hanswers⟩
    have hopts : ∀ opt ∈ r.scope.options, ¬PanicsInLoopV6 opt := by
      intro opt hmem hpanic
      rw [buildV6Reply_panic ⟨opt, hmem, hpanic⟩] at hbuild
      cases hbuild
    rw [buildV6Reply_eq hopts] at hbuild
    obtain rfl := Except.ok.inj hbuild
    rw [parse_build_eq] at hparse
    obtain rfl := Except.ok.inj hparse
    obtain ⟨ia, hia, -, -, ht1, ht2⟩ := hanswers.iaNa
    rw [iaNa_replyMessageV6] at hia
    obtain rfl := Option.some.inj (Except.ok.inj hia)
    exact ⟨⟨ht1, ht2⟩, hopts⟩
  · rintro ⟨htimers, hopts⟩
    refine ⟨_, _, buildV6Reply_eq hopts, parse_build_eq _, ?_⟩
    constructor
    case msgType => rfl
    case transactionId => rfl
    case distinct => exact nodup_replyMessageV6 r
    case clientId =>
      rw [option_replyMessageV6 r (by decide) (by decide)]
      unfold baseOptionsV6
      cases hcid : r.req.option 1 with
      | none => rfl
      | some cid => exact congrArg some (List.take_of_length_le (length_le_of_parse hreq hcid))
    case serverId =>
      rw [option_replyMessageV6 r (by decide) (by decide)]
      unfold baseOptionsV6
      have hduid' := List.take_of_length_le hduid
      cases r.req.option 1 <;> exact congrArg some hduid'
    case iaNa => exact ⟨_, iaNa_replyMessageV6 r, rfl, rfl, htimers⟩

end

/-- A scope whose leases last some seconds. -/
def v6Scope (leaseSecs : ℕ) : DhcpScope :=
  ⟨2, "lan6", true, .V6, "2001:db8::/64", "2001:db8::10", "2001:db8::ff", leaseSecs, false, none,
    none, none, [⟨23, none, "2001:db8::53", .IpList⟩]⟩

/-- The advertisement that answers a SOLICIT from such a scope. -/
def advertisement (leaseSecs : ℕ) : V6Reply :=
  ⟨solicit, v6Scope leaseSecs, 0x20010db8000000000000000000000010, .Advertise,
    [0, 3, 0, 1, 0xde, 0xad, 0xbe, 0xef, 0, 2]⟩

/-- For a lease of an hour all is well. -/
theorem answersWithV6_hour :
    ∃ bytes m, buildV6Reply (advertisement 3600) = .ok bytes ∧ parse bytes = .ok m ∧
      AnswersWithV6 (advertisement 3600) m := by
  refine (answersWithV6_iff (parse_build_eq solicit) (by decide)
    (by decide)).mpr ⟨by decide, ?_⟩
  intro opt hmem hpanic
  rw [List.mem_singleton.mp hmem] at hpanic
  cases hpanic.2.1

/-- For a lease of four seconds T2 is zero and T1 is not. -/
theorem not_answersWithV6_four :
    parse solicit.build = .ok (advertisement 4).req ∧
      ¬∃ bytes m, buildV6Reply (advertisement 4) = .ok bytes ∧ parse bytes = .ok m ∧
        AnswersWithV6 (advertisement 4) m := by
  refine ⟨parse_build_eq solicit, ?_⟩
  rintro ⟨bytes, m, hbuild, hparse, hanswers⟩
  have hopts : ∀ opt ∈ (advertisement 4).scope.options, ¬PanicsInLoopV6 opt := by
    intro opt hmem hpanic
    rw [List.mem_singleton.mp hmem] at hpanic
    cases hpanic.2.1
  rw [buildV6Reply_eq hopts] at hbuild
  obtain rfl := Except.ok.inj hbuild
  rw [parse_build_eq] at hparse
  obtain rfl := Except.ok.inj hparse
  obtain ⟨ia, hia, -, -, ht1, -⟩ := hanswers.iaNa
  rw [iaNa_replyMessageV6] at hia
  obtain rfl := Option.some.inj (Except.ok.inj hia)
  exact absurd ht1 (by decide)

end Nomina
