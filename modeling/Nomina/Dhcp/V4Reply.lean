import Nomina.Dhcp.Options
import Nomina.Dhcp.V4

/-!
# DHCPv4 replies

`build_v4_reply` of `dhcp/server.rs`. The loop over the options writes into the slots of the reply, so
of the entries of one code the last one that can be encoded is sent; the message that comes out is
given in closed form (`replyMessage`), and what a client reads from it follows. The BOOTP fields are
not taken from the options that are sent but copied from the texts, entry by entry; the last section
says when the two agree.
-/

namespace Nomina

open Lib

variable (K : Crates)

/-! ## The builder -/

/-- `subnet_mask_v4`. -/
def subnetMaskV4 (subnet : Str) : Option Ipv4Addr :=
  match K.parseIpNet subnet with
  | some ⟨.v4 _, len⟩ => some (BitVec.allOnes 32 <<< (32 - len))
  | _ => none

/-- The server identifier of the replies from a scope. -/
def replyServerId (scope : DhcpScope) : Ipv4Addr :=
  (scope.serverId.bind parseIpv4Addr).getD 0

/-- Whether the loop over the options passes over a code: the options it sets itself, and codes that
DHCPv4 does not have. -/
def skipsCode (code : ℕ) : Bool :=
  code == 1 || code == 51 || code == 53 || code == 54 || 255 < code

/-- One round of the loop over the options. -/
def pushOption (reply : Dhcp4Message) (opt : DhcpOption) : Reader Dhcp4Message :=
  if skipsCode opt.code then .ok reply
  else (encodeOption opt).discard.map fun
    | some bytes => reply.setOption (UInt8.ofNat opt.code) bytes
    | none => reply

/-- A field has its length after its front is overwritten. -/
lemma length_copyFront {n : ℕ} (dst : Octets n) (src : Bytes) :
    (src.take n ++ dst.val.drop src.length).length = n := by
  have hdst := dst.property
  rw [List.length_append, List.length_take, List.length_drop]
  omega

/-- `dst[..k].copy_from_slice(&src[..k])` with as many bytes as both have. -/
def copyFront {n : ℕ} (dst : Octets n) (src : Bytes) : Octets n :=
  ⟨src.take n ++ dst.val.drop src.length, length_copyFront dst src⟩

/-- One round of the loop that mirrors options in the BOOTP fields. -/
def mirrorOption (reply : Dhcp4Message) (opt : DhcpOption) : Dhcp4Message :=
  if opt.code = 67 then { reply with file := copyFront reply.file (asBytes opt.value) }
  else if opt.code = 66 then
    match parseIpv4Addr (trim opt.value) with
    | some ip => { reply with siaddr := ip }
    | none => reply
  else reply

/-- The reply before its options are set. -/
def bareReply (r : V4Reply) : Dhcp4Message where
  op := 2
  htype := r.req.htype
  hlen := r.req.hlen
  hops := 0
  xid := r.req.xid
  secs := 0
  flags := r.req.flags
  ciaddr := r.req.ciaddr
  yiaddr := r.yiaddr
  siaddr := replyServerId r.scope
  giaddr := r.req.giaddr
  chaddr := r.req.chaddr
  sname := .replicate 64 0
  file := .replicate 128 0
  options := []

/-- `build_v4_reply`. -/
def buildV4Reply (r : V4Reply) : Reader Bytes :=
  let reply := (bareReply r).setMessageType r.msgType
  let reply := reply.setOption 54 (toBeBytes 4 (replyServerId r.scope).toNat)
  if r.msgType = .Nak then .ok { reply with yiaddr := 0 }.build
  else
    let reply :=
      if r.yiaddr = 0 then reply else reply.setOption 51 (toBeBytes 4 r.scope.leaseSecs)
    let reply := match subnetMaskV4 K r.scope.subnet with
      | some mask => reply.setOption 1 (toBeBytes 4 mask.toNat)
      | none => reply
    (r.mergedOpts.foldlM pushOption reply).map fun reply =>
      (r.mergedOpts.foldl mirrorOption reply).build

/-! ## The loop over the options -/

/-- What a round of the loop writes into the reply. -/
def written? (opt : DhcpOption) : Option (UInt8 × Bytes) :=
  if skipsCode opt.code then none
  else (encoded? opt).map fun bytes => (UInt8.ofNat opt.code, bytes)

/-- An entry on which the loop panics. -/
def PanicsInLoop (opt : DhcpOption) : Prop :=
  skipsCode opt.code = false ∧ PanicsOption opt

section

variable {opt : DhcpOption} {opts : List DhcpOption} {reply : Dhcp4Message}

/-- The loop panics only on hexadecimal values. -/
lemma not_panicsInLoop (h : ∀ opt ∈ opts, opt.kind ≠ .Hex) : ∀ opt ∈ opts, ¬PanicsInLoop opt :=
  fun opt hmem hpanic => h opt hmem hpanic.2.1

/-- The loop panics on no list that is accepted. -/
lemma not_panicsInLoop_of_accepted (h : Api.validateDhcpOptions opts = .ok ()) :
    ∀ opt ∈ opts, ¬PanicsInLoop opt :=
  fun _ hopt hpanic => not_panicsOption_of_accepted h hopt hpanic.2

/-- A round of the loop panics or puts what it writes into the options of the reply. -/
lemma rounds_pushOption : Reader.Rounds pushOption PanicsInLoop written? fun reply w =>
    { reply with options := put Prod.fst w reply.options } := by
  have hround : ∀ opt reply, pushOption reply opt = if skipsCode opt.code then .ok reply
      else (encodeOption opt).discard.map fun value =>
        value.elim reply fun bytes => reply.setOption (UInt8.ofNat opt.code) bytes := by
    intro opt reply
    unfold pushOption
    congr 2
    funext value
    cases value <;> rfl
  constructor
  · intro opt reply hpanic
    rw [hround, hpanic.1, encodeOption_eq_panic_iff.mpr hpanic.2]
    rfl
  · intro opt reply hpanic
    rw [hround]
    unfold written? encoded?
    cases hskip : skipsCode opt.code with
    | true => rfl
    | false =>
      cases hval : encodeOption opt with
      | ok bytes => rfl
      | error e =>
        cases e with
        | panic => exact absurd ⟨hskip, encodeOption_eq_panic_iff.mp hval⟩ hpanic
        | error message => rfl

/-- The loop puts what it writes into the options, one entry after the other. -/
lemma foldlM_pushOption (h : ∀ opt ∈ opts, ¬PanicsInLoop opt) (reply : Dhcp4Message) :
    opts.foldlM pushOption reply =
      .ok { reply with options := putAll Prod.fst (opts.filterMap written?) reply.options } := by
  rw [rounds_pushOption.foldlM_eq_ok h]
  exact congrArg Except.ok (List.foldl_hom (fun options => { reply with options := options }) fun _ _ => rfl)

/-! ## The BOOTP fields -/

/-- The texts that are copied into the `file` field, in order. -/
def bootfiles (opts : List DhcpOption) : List Bytes :=
  (withKey DhcpOption.code 67 opts).map fun opt => asBytes opt.value

/-- The addresses that are copied into the `siaddr` field, in order. -/
def nextServers (opts : List DhcpOption) : List Ipv4Addr :=
  (withKey DhcpOption.code 66 opts).filterMap fun opt => parseIpv4Addr (trim opt.value)

/-- The loop copies the texts one over the other and keeps the last address. -/
lemma foldl_mirrorOption (opts : List DhcpOption) (reply : Dhcp4Message) :
    opts.foldl mirrorOption reply = { reply with
      file := (bootfiles opts).foldl copyFront reply.file
      siaddr := (nextServers opts).getLast?.getD reply.siaddr } := by
  induction opts generalizing reply with
  | nil => rfl
  | cons opt opts ih =>
    rw [List.foldl_cons, ih]
    unfold bootfiles nextServers mirrorOption
    by_cases h67 : opt.code = 67
    · have h66 : opt.code ≠ 66 := by omega
      rw [if_pos h67, ← h67, withKey_cons_self, withKey_cons_of_ne h66]
      rfl
    · rw [if_neg h67, withKey_cons_of_ne h67]
      by_cases h66 : opt.code = 66
      · rw [if_pos h66, ← h66, withKey_cons_self, List.filterMap_cons]
        cases parseIpv4Addr (trim opt.value) with
        | none => rfl
        | some ip =>
          dsimp only
          rw [List.getLast?_cons]
          rfl
      · rw [if_neg h66, withKey_cons_of_ne h66]

end

/-! ## The message -/

/-- The options the builder sets itself. -/
def baseOptions (r : V4Reply) : List (UInt8 × Bytes) :=
  (53, [r.msgType.toU8]) :: (54, toBeBytes 4 (replyServerId r.scope).toNat) ::
    if r.msgType = .Nak then []
    else (if r.yiaddr = 0 then [] else [(51, toBeBytes 4 r.scope.leaseSecs)]) ++
      ((subnetMaskV4 K r.scope.subnet).map fun mask => (1, toBeBytes 4 mask.toNat)).toList

/-- The reply as a message. -/
def replyMessage (r : V4Reply) : Dhcp4Message :=
  if r.msgType = .Nak then { bareReply r with yiaddr := 0, options := baseOptions K r }
  else { bareReply r with
    options := putAll Prod.fst (r.mergedOpts.filterMap written?) (baseOptions K r)
    file := (bootfiles r.mergedOpts).foldl copyFront (.replicate 128 0)
    siaddr := (nextServers r.mergedOpts).getLast?.getD (replyServerId r.scope) }

section

variable {K : Crates} {r : V4Reply}

/-- The reply is built unless the loop over the options panics. -/
lemma buildV4Reply_eq (h : r.msgType = .Nak ∨ ∀ opt ∈ r.mergedOpts, ¬PanicsInLoop opt) :
    buildV4Reply K r = .ok (replyMessage K r).build := by
  unfold buildV4Reply replyMessage baseOptions
  by_cases hnak : r.msgType = .Nak
  · simp only [if_pos hnak]
    rfl
  · simp only [if_neg hnak]
    have hopts := h.resolve_left hnak
    rw [foldlM_pushOption hopts]
    simp only [Except.map]
    rw [foldl_mirrorOption]
    by_cases hy : r.yiaddr = 0
    · simp only [if_pos hy]
      cases subnetMaskV4 K r.scope.subnet with
      | none => rfl
      | some mask => rfl
    · simp only [if_neg hy]
      cases subnetMaskV4 K r.scope.subnet with
      | none => rfl
      | some mask => rfl

/-- An entry on which the loop panics leaves no reply. -/
lemma buildV4Reply_panic (hnak : r.msgType ≠ .Nak) (h : ∃ opt ∈ r.mergedOpts, PanicsInLoop opt) :
    buildV4Reply K r = .error .panic := by
  unfold buildV4Reply
  simp only [if_neg hnak]
  rw [rounds_pushOption.foldlM_eq_panic h]
  rfl

/-- The loop over the options panicked on none of them when a reply is built, if it is no NAK. -/
lemma buildable_of_ok {bytes : Bytes} (h : buildV4Reply K r = .ok bytes) :
    r.msgType = .Nak ∨ ∀ opt ∈ r.mergedOpts, ¬PanicsInLoop opt := by
  by_contra hpanics
  obtain ⟨hnak, hopts⟩ := not_or.mp hpanics
  simp only [not_forall, not_not, exists_prop] at hopts
  rw [buildV4Reply_panic hnak hopts] at h
  cases h

/-- What is read back of a reply that is built. -/
lemma eq_replyMessage {bytes : Bytes} {m : Dhcp4Message} (hbuild : buildV4Reply K r = .ok bytes)
    (hparse : Dhcp4Message.parse bytes = .ok m) : m = (replyMessage K r).normalise := by
  rw [buildV4Reply_eq (buildable_of_ok hbuild)] at hbuild
  obtain rfl := Except.ok.inj hbuild
  rw [Dhcp4Message.parse_build_eq] at hparse
  exact (Except.ok.inj hparse).symm

/-! ## What the client reads -/

/-- The value that is sent for a code the builder does not set itself: that of the last entry of the
code that can be encoded. -/
def sentValue (opts : List DhcpOption) (code : UInt8) : Option Bytes :=
  ((withKey DhcpOption.code code.toNat opts).filterMap encoded?).getLast?

/-- The codes that the builder sets itself, and those that are structural. -/
def reservedCodes : List UInt8 := [0, 1, 51, 53, 54, 255]

/-- What is written has the code of its entry, which is one the loop does not pass over. -/
lemma code_of_written {opt : DhcpOption} {w : UInt8 × Bytes} (h : written? opt = some w) :
    opt.code = w.1.toNat ∧ skipsCode opt.code = false := by
  unfold written? at h
  rw [Option.ite_none_left_eq_some] at h
  obtain ⟨hskip, h⟩ := h
  obtain ⟨bytes, -, rfl⟩ := Option.map_eq_some_iff.mp h
  rw [Bool.not_eq_true] at hskip
  refine ⟨?_, hskip⟩
  simp only [skipsCode, Bool.or_eq_false_iff, decide_eq_false_iff_not] at hskip
  rw [UInt8.toNat_ofNat']
  omega

/-- What the loop writes for a code is what the entries of the code are encoded to. -/
lemma withKey_filterMap_written (opts : List DhcpOption) {code : UInt8}
    (h : skipsCode code.toNat = false) :
    withKey Prod.fst code (opts.filterMap written?) =
      ((withKey DhcpOption.code code.toNat opts).filterMap encoded?).map fun bytes => (code, bytes) := by
  induction opts with
  | nil => rfl
  | cons opt opts ih =>
    by_cases hcode : opt.code = code.toNat
    · have hself : withKey DhcpOption.code code.toNat (opt :: opts) =
          opt :: withKey DhcpOption.code code.toNat opts := by
        rw [← hcode, withKey_cons_self]
      have hwritten : written? opt = (encoded? opt).map fun bytes => (code, bytes) := by
        unfold written?
        rw [hcode, h, UInt8.ofNat_toNat]
        rfl
      rw [hself, List.filterMap_cons, List.filterMap_cons, hwritten]
      cases encoded? opt with
      | none => exact ih
      | some bytes =>
        dsimp only [Option.map_some]
        rw [List.map_cons, ← ih]
        exact withKey_cons_self (a := (code, bytes)) _
    · rw [withKey_cons_of_ne hcode, ← ih, List.filterMap_cons]
      cases hw : written? opt with
      | none => rfl
      | some w =>
        refine withKey_cons_of_ne (a := w) ?_ _
        rintro rfl
        exact hcode (code_of_written hw).1

/-- The loop writes nothing for the codes it passes over. -/
lemma withKey_filterMap_skipped (opts : List DhcpOption) {code : UInt8}
    (h : skipsCode code.toNat = true) : withKey Prod.fst code (opts.filterMap written?) = [] := by
  unfold withKey
  rw [List.filter_eq_nil_iff]
  intro w hmem hcode
  obtain ⟨opt, -, hw⟩ := List.mem_filterMap.mp hmem
  obtain ⟨hopt, hskip⟩ := code_of_written hw
  rw [hopt, beq_iff_eq.mp hcode, h] at hskip
  cases hskip

/-- A message is the reply that its arguments call for: the header answers the request, the options
have distinct codes, those that the builder sets itself have the values of the scope, and every other
code has the last value in the list that can be encoded. -/
structure AnswersWith (K : Crates) (r : V4Reply) (m : Dhcp4Message) : Prop where
  op : m.op = 2
  htype : m.htype = r.req.htype
  hlen : m.hlen = r.req.hlen
  xid : m.xid = r.req.xid
  flags : m.flags = r.req.flags
  ciaddr : m.ciaddr = r.req.ciaddr
  giaddr : m.giaddr = r.req.giaddr
  chaddr : m.chaddr = r.req.chaddr
  distinct : (m.options.map Prod.fst).Nodup
  messageType : m.option 53 = some [r.msgType.toU8] ∧ m.messageType = some r.msgType
  serverId : m.option 54 = some (toBeBytes 4 (replyServerId r.scope).toNat)
  nak : r.msgType = .Nak → m.yiaddr = 0 ∧ ∀ code, code ≠ 53 → code ≠ 54 → m.option code = none
  yiaddr : r.msgType ≠ .Nak → m.yiaddr = r.yiaddr
  leaseTime : r.msgType ≠ .Nak →
    m.option 51 = if r.yiaddr = 0 then none else some (toBeBytes 4 r.scope.leaseSecs)
  subnetMask : r.msgType ≠ .Nak →
    m.option 1 = (subnetMaskV4 K r.scope.subnet).map fun mask => toBeBytes 4 mask.toNat
  others : r.msgType ≠ .Nak → ∀ code, code ∉ reservedCodes →
    m.option code = (sentValue r.mergedOpts code).map (List.take 255)

/-- The codes of the options the builder sets itself are distinct. -/
lemma nodup_baseOptions (K : Crates) (r : V4Reply) : ((baseOptions K r).map Prod.fst).Nodup := by
  unfold baseOptions
  cases subnetMaskV4 K r.scope.subnet <;> split_ifs <;> simp

/-- The options of the reply have distinct codes. -/
lemma nodup_replyMessage (K : Crates) (r : V4Reply) :
    ((replyMessage K r).options.map Prod.fst).Nodup := by
  unfold replyMessage
  split
  · exact nodup_baseOptions K r
  · exact nodup_putAll (nodup_baseOptions K r) _

/-- An option that the builder sets itself has the value it sets. -/
lemma option_base {code : UInt8} (h : skipsCode code.toNat = true) :
    (replyMessage K r).option code =
      ((baseOptions K r).find? (·.1 == code)).map Prod.snd := by
  unfold replyMessage Dhcp4Message.option
  split
  · rfl
  · dsimp only
    rw [find?_putAll, withKey_filterMap_skipped _ h]
    rfl

/-- Any other option has the value that is sent for it. -/
lemma option_others (hnak : r.msgType ≠ .Nak) {code : UInt8} (h : code ∉ reservedCodes) :
    (replyMessage K r).option code = sentValue r.mergedOpts code := by
  have hcodes : code ≠ 0 ∧ code ≠ 1 ∧ code ≠ 51 ∧ code ≠ 53 ∧ code ≠ 54 ∧ code ≠ 255 := by
    simpa [reservedCodes] using h
  obtain ⟨-, h1, h51, h53, h54, -⟩ := hcodes
  have hskip : skipsCode code.toNat = false := by
    have hlt := code.toNat_lt
    have h1 : code.toNat ≠ 1 := fun h => h1 (UInt8.toNat_inj.mp h)
    have h51 : code.toNat ≠ 51 := fun h => h51 (UInt8.toNat_inj.mp h)
    have h53 : code.toNat ≠ 53 := fun h => h53 (UInt8.toNat_inj.mp h)
    have h54 : code.toNat ≠ 54 := fun h => h54 (UInt8.toNat_inj.mp h)
    simp only [skipsCode, Bool.or_eq_false_iff, beq_eq_false_iff_ne, decide_eq_false_iff_not]
    omega
  have hbase : (baseOptions K r).find? (·.1 == code) = none := by
    unfold baseOptions
    cases subnetMaskV4 K r.scope.subnet <;> split_ifs <;>
      simp [h1.symm, h51.symm, h53.symm, h54.symm]
  unfold replyMessage Dhcp4Message.option sentValue
  rw [if_neg hnak]
  dsimp only
  rw [find?_putAll, withKey_filterMap_written _ hskip, hbase, Option.or_none, List.getLast?_map,
    Option.map_map]
  exact Option.map_id'

/-- The message that is read back from a reply is the one its arguments call for. -/
lemma answersWith_replyMessage (K : Crates) (r : V4Reply) :
    AnswersWith K r (replyMessage K r).normalise := by
  have hbase : ∀ code : UInt8, skipsCode code.toNat = true → code ≠ 0 → code ≠ 255 →
      (replyMessage K r).normalise.option code =
        (((baseOptions K r).find? (·.1 == code)).map Prod.snd).map (List.take 255) := by
    intro code hskip hpad hend
    rw [Dhcp4Message.option_normalise hpad hend, option_base hskip]
  have htype : (replyMessage K r).normalise.option 53 = some [r.msgType.toU8] := by
    rw [hbase 53 rfl (by decide) (by decide)]
    rfl
  constructor
  case distinct => exact Dhcp4Message.nodup_normalise (nodup_replyMessage K r)
  case messageType =>
    refine ⟨htype, ?_⟩
    unfold Dhcp4Message.messageType
    rw [htype]
    cases r.msgType <;> rfl
  case serverId =>
    rw [hbase 54 rfl (by decide) (by decide)]
    rfl
  case nak =>
    intro hnak
    have hopts : (replyMessage K r).normalise.options =
        [(53, [r.msgType.toU8]), (54, toBeBytes 4 (replyServerId r.scope).toNat)] := by
      unfold Dhcp4Message.normalise replyMessage baseOptions
      simp only [if_pos hnak]
      rfl
    refine ⟨?_, fun code h53 h54 => ?_⟩
    · unfold Dhcp4Message.normalise replyMessage
      rw [if_pos hnak]
    · unfold Dhcp4Message.option
      rw [hopts]
      simp [h53.symm, h54.symm]
  case leaseTime =>
    intro hnak
    rw [hbase 51 rfl (by decide) (by decide)]
    unfold baseOptions
    rw [if_neg hnak]
    cases subnetMaskV4 K r.scope.subnet <;> split_ifs <;> rfl
  case subnetMask =>
    intro hnak
    rw [hbase 1 rfl (by decide) (by decide)]
    unfold baseOptions
    rw [if_neg hnak]
    cases subnetMaskV4 K r.scope.subnet <;> split_ifs <;> rfl
  case others =>
    intro hnak code hcode
    have hpad : code ≠ 0 := fun h => hcode (by rw [h]; decide)
    have hend : code ≠ 255 := fun h => hcode (by rw [h]; decide)
    rw [Dhcp4Message.option_normalise hpad hend, option_others hnak hcode]
  case yiaddr =>
    intro hnak
    unfold Dhcp4Message.normalise replyMessage
    rw [if_neg hnak]
    rfl
  all_goals
    unfold Dhcp4Message.normalise replyMessage
    split <;> rfl

/-- The reply can be built, is read back and is the one its arguments call for: exactly when the loop over
the options panics on no entry, where a NAK has no such loop; so always when the options are accepted. -/
theorem answersWith_accepted (K : Crates) (r : V4Reply) :
    ((∃ bytes m, buildV4Reply K r = .ok bytes ∧ Dhcp4Message.parse bytes = .ok m ∧ AnswersWith K r m) ↔
      r.msgType = .Nak ∨ ∀ opt ∈ r.mergedOpts, ¬PanicsInLoop opt) ∧
    (Api.validateDhcpOptions r.mergedOpts = .ok () →
      ∃ bytes m, buildV4Reply K r = .ok bytes ∧ Dhcp4Message.parse bytes = .ok m ∧ AnswersWith K r m) := by
  have hiff : (∃ bytes m, buildV4Reply K r = .ok bytes ∧ Dhcp4Message.parse bytes = .ok m ∧
      AnswersWith K r m) ↔ r.msgType = .Nak ∨ ∀ opt ∈ r.mergedOpts, ¬PanicsInLoop opt := by
    constructor
    · rintro ⟨bytes, m, hbuild, -⟩
      exact buildable_of_ok hbuild
    · intro h
      exact ⟨_, _, buildV4Reply_eq h, Dhcp4Message.parse_build_eq _, answersWith_replyMessage K r⟩
  exact ⟨hiff, fun haccepted => hiff.mpr (.inr (not_panicsInLoop_of_accepted haccepted))⟩

end

/-- A scope to boot from. -/
def pxeScope : DhcpScope :=
  ⟨1, "lan", true, .V4, "192.168.1.0/24", "192.168.1.10", "192.168.1.99", 3600, false, none,
    some "192.168.1.1", none, []⟩

/-- The offer of an address with some options. -/
def offerWith (opts : List DhcpOption) : V4Reply :=
  ⟨Dhcp4Message.discover, pxeScope, opts, 0xc0a80132, .Offer⟩

/-- Two name servers and a lease time. -/
def twoServers : List DhcpOption :=
  [⟨6, none, "1.1.1.1", .Ip⟩, ⟨51, none, "5", .U32⟩, ⟨6, none, "9.9.9.9", .Ip⟩]

/-- An offer with options that are accepted: of two name servers the last one is sent, and a lease time of
the list is not. -/
theorem answersWith_accepted_twice : ∃ bytes m, buildV4Reply plainCrates (offerWith twoServers) = .ok bytes ∧
    Dhcp4Message.parse bytes = .ok m ∧ m.option 6 = some [9, 9, 9, 9] ∧ m.option 51 = some [0, 0, 14, 16] := by
  obtain ⟨bytes, m, hbuild, hparse, hanswers⟩ :=
    (answersWith_accepted plainCrates (offerWith twoServers)).2 (by decide +kernel)
  refine ⟨bytes, m, hbuild, hparse, ?_, ?_⟩
  · rw [hanswers.others (by decide) 6 (by decide)]
    decide +kernel
  · rw [hanswers.leaseTime (by decide)]
    decide +kernel

/-! ## The BOOTP fields against the options sent -/

/-- The address that a value is a literal of. -/
def literalIpv4 (v : Bytes) : Option Ipv4Addr :=
  (utf8 v).bind parseIpv4Addr

/-- The first bytes of a value, padded with zeros to `n` bytes. -/
def padTo (n : ℕ) (v : Bytes) : Bytes :=
  v.take n ++ List.replicate (n - v.length) 0

/-- The BOOTP fields of a message say what its options 67 and 66 say. -/
structure MirrorsPxe (scope : DhcpScope) (m : Dhcp4Message) : Prop where
  file : m.file.val = padTo 128 ((m.option 67).getD [])
  siaddr : m.siaddr = ((m.option 66).bind literalIpv4).getD (replyServerId scope)

/-- The byte at a place that is left when texts are copied one over the other over zeros: that of the
last one that reaches the place. -/
def overlaidByte (texts : List Bytes) (i : ℕ) : UInt8 :=
  (((texts.filter (i < ·.length)).getLast?).bind (·[i]?)).getD 0

/-- At every place of the `file` field, the last text of an entry 67 that reaches it has the byte of the
value that is sent for 67; where none reaches, this value is over or zero. -/
def BootfileAgrees (opts : List DhcpOption) : Prop :=
  ∀ i < 128, overlaidByte (bootfiles opts) i = (((sentValue opts 67).getD [])[i]?).getD 0

/-- The last text of an entry 66 that is an address once it is trimmed, or else the server identifier,
is the address that the value sent for 66 is a literal of, or else the server identifier. -/
def NextServerAgrees (scope : DhcpScope) (opts : List DhcpOption) : Prop :=
  (nextServers opts).getLast?.getD (replyServerId scope) =
    (((sentValue opts 66).map (List.take 255)).bind literalIpv4).getD (replyServerId scope)

section

variable {K : Crates} {r : V4Reply}

/-- The byte at a place after one text is copied. -/
lemma getElem?_copyFront {n i : ℕ} (hi : i < n) (dst : Octets n) (src : Bytes) :
    (copyFront dst src).val[i]? = if i < src.length then src[i]? else dst.val[i]? := by
  unfold copyFront
  dsimp only
  split_ifs with hlen
  · rw [List.getElem?_append_left (by rw [List.length_take]; omega), List.getElem?_take_of_lt hi]
  · rw [List.getElem?_append_right (by rw [List.length_take]; omega), List.getElem?_drop,
      List.length_take]
    congr 1
    omega

/-- The byte at a place after texts are copied one over the other is that of the last one that reaches
the place. -/
lemma getElem?_foldl_copyFront {n i : ℕ} (hi : i < n) (texts : List Bytes) (dst : Octets n) :
    (texts.foldl copyFront dst).val[i]? =
      ((texts.filter (i < ·.length)).getLast?.bind (·[i]?)).or dst.val[i]? := by
  induction texts using List.reverseRecOn with
  | nil => rfl
  | append_singleton texts text ih =>
    rw [List.foldl_append, List.foldl_cons, List.foldl_nil, getElem?_copyFront hi, ih,
      List.filter_append, List.filter_singleton]
    by_cases hlen : i < text.length
    · simp [hlen]
    · simp [hlen]

/-- The `file` field of the reply, byte by byte. -/
lemma getElem?_file {i : ℕ} (hi : i < 128) (texts : List Bytes) :
    (texts.foldl copyFront (.replicate 128 0)).val[i]? = some (overlaidByte texts i) := by
  rw [getElem?_foldl_copyFront hi]
  have hzero : (Octets.replicate 128 0).val[i]? = some 0 := by
    unfold Octets.replicate
    dsimp only
    rw [List.getElem?_replicate, if_pos hi]
  rw [hzero]
  unfold overlaidByte
  cases ((texts.filter (i < ·.length)).getLast?).bind (·[i]?) <;> rfl

/-- A padded value, byte by byte. -/
lemma getElem?_padTo {n i : ℕ} (hi : i < n) (v : Bytes) : (padTo n v)[i]? = some (v[i]?.getD 0) := by
  unfold padTo
  by_cases hlen : i < v.length
  · rw [List.getElem?_append_left (by rw [List.length_take]; omega), List.getElem?_take_of_lt hi,
      List.getElem?_eq_getElem hlen]
    rfl
  · rw [List.getElem?_append_right (by rw [List.length_take]; omega), List.length_take,
      List.getElem?_replicate, if_pos (by omega), List.getElem?_eq_none (by omega)]
    rfl

/-- A padded value fills the field. -/
lemma length_padTo (n : ℕ) (v : Bytes) : (padTo n v).length = n := by
  unfold padTo
  rw [List.length_append, List.length_take, List.length_replicate]
  omega

/-- The `file` field mirrors a value exactly when it does byte by byte. -/
lemma file_eq_padTo_iff (texts : List Bytes) (v : Bytes) :
    (texts.foldl copyFront (.replicate 128 0)).val = padTo 128 v ↔
      ∀ i < 128, overlaidByte texts i = v[i]?.getD 0 := by
  constructor
  · intro h i hi
    have hfile := getElem?_file hi texts
    rw [h, getElem?_padTo hi] at hfile
    exact (Option.some.inj hfile).symm
  · intro h
    refine List.ext_getElem? fun i => ?_
    by_cases hi : i < 128
    · rw [getElem?_file hi, getElem?_padTo hi, h i hi]
    · rw [List.getElem?_eq_none, List.getElem?_eq_none]
      · rw [length_padTo]
        omega
      · have hlen := (texts.foldl copyFront (.replicate 128 0)).property
        omega

/-- A field does not see what an option loses when it is cut. -/
lemma padTo_take {n k : ℕ} (h : n ≤ k) (v : Bytes) : padTo n (v.take k) = padTo n v := by
  refine List.ext_getElem? fun i => ?_
  by_cases hi : i < n
  · rw [getElem?_padTo hi, getElem?_padTo hi, List.getElem?_take_of_lt (by omega)]
  · rw [List.getElem?_eq_none, List.getElem?_eq_none] <;> rw [length_padTo] <;> omega

/-- The BOOTP fields of a reply say what its options say exactly when the texts and the values do, as the
builder goes through the list. -/
theorem mirrorsPxe_iff {bytes : Bytes} {m : Dhcp4Message} (hnak : r.msgType ≠ .Nak)
    (hbuild : buildV4Reply K r = .ok bytes) (hparse : Dhcp4Message.parse bytes = .ok m) :
    MirrorsPxe r.scope m ↔ BootfileAgrees r.mergedOpts ∧ NextServerAgrees r.scope r.mergedOpts := by
  obtain rfl := eq_replyMessage hbuild hparse
  have hanswers := (answersWith_replyMessage K r).others hnak
  have hfile : (replyMessage K r).normalise.file =
      (bootfiles r.mergedOpts).foldl copyFront (.replicate 128 0) := by
    unfold Dhcp4Message.normalise replyMessage
    rw [if_neg hnak]
  have hsiaddr : (replyMessage K r).normalise.siaddr =
      (nextServers r.mergedOpts).getLast?.getD (replyServerId r.scope) := by
    unfold Dhcp4Message.normalise replyMessage
    rw [if_neg hnak]
  have hbootfile : padTo 128 (((replyMessage K r).normalise.option 67).getD []) =
      padTo 128 ((sentValue r.mergedOpts 67).getD []) := by
    rw [hanswers 67 (by decide)]
    cases sentValue r.mergedOpts 67 with
    | none => rfl
    | some v => exact padTo_take (by omega) v
  constructor
  · intro h
    refine ⟨?_, ?_⟩
    · have hmirror := h.file
      rw [hfile, hbootfile] at hmirror
      exact (file_eq_padTo_iff _ _).mp hmirror
    · have hmirror := h.siaddr
      rw [hsiaddr, hanswers 66 (by decide)] at hmirror
      exact hmirror
  · rintro ⟨hboot, hnext⟩
    refine ⟨?_, ?_⟩
    · rw [hfile, hbootfile]
      exact (file_eq_padTo_iff _ _).mpr hboot
    · rw [hsiaddr, hanswers 66 (by decide)]
      exact hnext

/-- One boot file given as text is mirrored. -/
theorem mirrorsPxe_one_text :
    ∃ bytes m, buildV4Reply plainCrates (offerWith [⟨67, none, "pxelinux.0", .Text⟩]) = .ok bytes ∧
      Dhcp4Message.parse bytes = .ok m ∧ MirrorsPxe pxeScope m := by
  have hbuild := buildV4Reply_eq (K := plainCrates)
    (r := offerWith [⟨67, none, "pxelinux.0", .Text⟩]) (.inr (not_panicsInLoop (by decide)))
  refine ⟨_, _, hbuild, Dhcp4Message.parse_build_eq _, ?_⟩
  refine (mirrorsPxe_iff (by decide) hbuild (Dhcp4Message.parse_build_eq _)).mpr ⟨?_, ?_⟩
  · unfold BootfileAgrees
    decide +kernel
  · unfold NextServerAgrees
    decide +kernel

end

/-- A boot file that overrides a longer one leaves the end of it in the `file` field. -/
theorem not_mirrorsPxe_shorter :
    ∃ bytes m, buildV4Reply plainCrates
        (offerWith [⟨67, none, "pxelinux.0", .Text⟩, ⟨67, none, "boot.c32", .Text⟩]) = .ok bytes ∧
      Dhcp4Message.parse bytes = .ok m ∧ ¬MirrorsPxe pxeScope m := by
  refine ⟨_, _, buildV4Reply_eq (.inr (not_panicsInLoop (by decide))),
    Dhcp4Message.parse_build_eq _, ?_⟩
  intro h
  exact absurd h.file (by decide +kernel)

end Nomina
