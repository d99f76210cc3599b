import Nomina.Dhcp.Messages

/-!
# The DHCPv6 codec

`Dhcp6Message::parse` and `Dhcp6Message::build` of `dhcp/v6.rs`, and the IA_NA option with the
address options nested in it. A stream of options has one form only, so the parser and the builder
are inverse to each other in both directions; the same option stream is used at both levels.
-/

namespace Nomina

open Lib

/-- `Dhcp6MessageType::from_u8`. -/
def Dhcp6MessageType.fromU8 (v : UInt8) : Option Dhcp6MessageType :=
  match v.toNat with
  | 1 => some .Solicit
  | 2 => some .Advertise
  | 3 => some .Request
  | 4 => some .Confirm
  | 5 => some .Renew
  | 6 => some .Rebind
  | 7 => some .Reply
  | 8 => some .Release
  | 9 => some .Decline
  | 11 => some .InformationRequest
  | _ => none

/-- `Dhcp6MessageType::to_u8`. -/
def Dhcp6MessageType.toU8 : Dhcp6MessageType → UInt8
  | .Solicit => 1
  | .Advertise => 2
  | .Request => 3
  | .Confirm => 4
  | .Renew => 5
  | .Rebind => 6
  | .Reply => 7
  | .Release => 8
  | .Decline => 9
  | .InformationRequest => 11

/-- The code of a message type stands for this type and no other code does. -/
lemma Dhcp6MessageType.fromU8_eq_some_iff {v : UInt8} {t : Dhcp6MessageType} :
    fromU8 v = some t ↔ v = t.toU8 := by
  constructor
  · intro h
    apply UInt8.toNat_inj.mp
    unfold fromU8 at h
    split at h <;> first | cases h; assumption | cases h
  · rintro rfl
    cases t <;> rfl

/-- `IaAddress`: an IA Address option inside an IA_NA. -/
structure IaAddress where
  addr : Ipv6Addr
  preferred : UInt32
  valid : UInt32
deriving DecidableEq

/-- `IaNa`: an identity association for non-temporary addresses. -/
structure IaNa where
  iaid : UInt32
  t1 : UInt32
  t2 : UInt32
  addresses : List IaAddress
deriving DecidableEq

namespace Dhcp6Message

/-! ## Building -/

/-- The bytes that `push_option` appends. -/
def encodeOption (o : UInt16 × Bytes) : Bytes :=
  let len := min o.2.length 65535
  toBeBytes 2 o.1.toNat ++ (toBeBytes 2 (UInt16.ofNat len).toNat ++ o.2.take len)

/-- `Dhcp6Message::build`. -/
def build (m : Dhcp6Message) : Bytes :=
  [m.msgType.toU8] ++ (m.transactionId.val ++ m.options.flatMap encodeOption)

/-- The loop of `Dhcp6Message::set_option`: the first slot of the code, else a new one. -/
def setSlot (code : UInt16) (value : Bytes) : List (UInt16 × Bytes) → List (UInt16 × Bytes)
  | [] => [(code, value)]
  | o :: opts => if o.1 = code then (code, value) :: opts else o :: setSlot code value opts

/-- `Dhcp6Message::set_option`. -/
def setOption (m : Dhcp6Message) (code : UInt16) (value : Bytes) : Dhcp6Message :=
  { m with options := setSlot code value m.options }

/-- The option that carries an address. -/
def iaAddressOption (a : IaAddress) : UInt16 × Bytes :=
  (5, toBeBytes 16 a.addr.toNat ++ (toBeBytes 4 a.preferred.toNat ++ toBeBytes 4 a.valid.toNat))

/-- The value of an IA_NA option with some options nested in it. -/
def iaNaPayload (iaid t1 t2 : UInt32) (nested : List (UInt16 × Bytes)) : Bytes :=
  toBeBytes 4 iaid.toNat ++ (toBeBytes 4 t1.toNat ++ (toBeBytes 4 t2.toNat ++
    nested.flatMap encodeOption))

/-- `encode_ia_na`. -/
def encodeIaNa (ia : IaNa) : Bytes :=
  iaNaPayload ia.iaid ia.t1 ia.t2 (ia.addresses.map iaAddressOption)

/-! ## Parsing -/

/-- The loop of `parse_options` from the offset `i` on. -/
def parseOptionsFrom (buf : Bytes) (i : ℕ) (out : List (UInt16 × Bytes)) :
    Reader (List (UInt16 × Bytes)) :=
  if i < buf.length then
    if buf.length < i + 4 then Reader.fail "truncated option header".toList
    else do
      let code := UInt16.ofNat (ofBeBytes (← bytesAt buf i 2))
      let len := (UInt16.ofNat (ofBeBytes (← bytesAt buf (i + 2) 2))).toNat
      if buf.length < i + 4 + len then
        Reader.fail ("option ".toList ++ Nat.toDigits 10 code.toNat ++ ": length ".toList ++
          Nat.toDigits 10 len ++ " runs past end of buffer".toList)
      else
        let value ← slice buf (i + 4) (i + 4 + len)
        parseOptionsFrom buf (i + 4 + len) (out ++ [(code, value)])
  else pure out
termination_by buf.length - i

/-- `parse_options`. -/
def parseOptions (buf : Bytes) : Reader (List (UInt16 × Bytes)) :=
  parseOptionsFrom buf 0 []

/-- `Dhcp6Message::parse`. -/
def parse (buf : Bytes) : Reader Dhcp6Message :=
  if buf.length < 4 then
    Reader.fail ("frame too short: ".toList ++ Nat.toDigits 10 buf.length ++
      " bytes (need 4)".toList)
  else do
    let code ← index buf 0
    match Dhcp6MessageType.fromU8 code with
    | none => Reader.fail ("unknown DHCPv6 message type ".toList ++ Nat.toDigits 10 code.toNat)
    | some msgType =>
      let transactionId ← copyFromSlice 3 (← bytesAt buf 1 3)
      let options ← parseOptions (← sliceFrom buf 4)
      return { msgType, transactionId, options }

/-- `parse_ia_addr`. -/
def parseIaAddr (buf : Bytes) : Reader IaAddress :=
  if buf.length < 24 then Reader.fail "IA Address too short".toList
  else do
    let octets ← copyFromSlice 16 (← slice buf 0 16)
    return {
      addr := BitVec.ofNat 128 (ofBeBytes octets.val)
      preferred := UInt32.ofNat (ofBeBytes (← bytesAt buf 16 4))
      valid := UInt32.ofNat (ofBeBytes (← bytesAt buf 20 4)) }

/-- One round of the loop of `parse_ia_na` over the nested options. -/
def pushIaAddr (addresses : List IaAddress) (o : UInt16 × Bytes) : Reader (List IaAddress) :=
  if o.1 = 5 then do return addresses ++ [← parseIaAddr o.2] else return addresses

/-- `parse_ia_na`. -/
def parseIaNa (buf : Bytes) : Reader IaNa :=
  if buf.length < 12 then Reader.fail "IA_NA too short".toList
  else do
    let iaid := UInt32.ofNat (ofBeBytes (← bytesAt buf 0 4))
    let t1 := UInt32.ofNat (ofBeBytes (← bytesAt buf 4 4))
    let t2 := UInt32.ofNat (ofBeBytes (← bytesAt buf 8 4))
    let nested ← parseOptions (← sliceFrom buf 12)
    let addresses ← nested.foldlM pushIaAddr []
    return { iaid, t1, t2, addresses }

/-- `Dhcp6Message::ia_na`. -/
def iaNa (m : Dhcp6Message) : Reader (Option IaNa) :=
  match m.option 3 with
  | none => .ok none
  | some value => Reader.discard (parseIaNa value)

/-! ## Streams of options -/

/-- The value of an option as it comes through the wire. -/
def wireOption (o : UInt16 × Bytes) : UInt16 × Bytes :=
  (o.1, o.2.take 65535)

/-- An option is its code, the length of what is left of its value and that. -/
lemma encodeOption_eq (o : UInt16 × Bytes) :
    ∃ len : UInt16, len.toNat = (wireOption o).2.length ∧
      encodeOption o = toBeBytes 2 o.1.toNat ++ (toBeBytes 2 len.toNat ++ (wireOption o).2) := by
  refine ⟨UInt16.ofNat (min o.2.length 65535), ?_, ?_⟩
  · unfold wireOption
    rw [List.length_take, UInt16.toNat_ofNat']
    omega
  · have htake : o.2.take (min o.2.length 65535) = o.2.take 65535 := by
      rw [Nat.min_comm, ← List.take_eq_take_min]
    simp only [encodeOption, wireOption, htake]

/-- At the end of the buffer the loop is done. -/
lemma parseOptionsFrom_nil (pre : Bytes) (out : List (UInt16 × Bytes)) :
    parseOptionsFrom (pre ++ []) pre.length out = .ok out := by
  rw [parseOptionsFrom, if_neg (by simp)]
  rfl

/-- A header that is cut off is refused. -/
lemma parseOptionsFrom_truncated (pre : Bytes) {bs : Bytes} (out : List (UInt16 × Bytes))
    (hne : bs ≠ []) (hlen : bs.length < 4) :
    parseOptionsFrom (pre ++ bs) pre.length out =
      Reader.fail "truncated option header".toList := by
  have hpos := List.length_pos_iff.mpr hne
  rw [parseOptionsFrom, if_pos (by simp; omega), if_pos (by simp; omega)]

/-- What a round of the loop does with the header of an option. -/
lemma parseOptionsFrom_header (pre : Bytes) (code len : UInt16) (rest : Bytes)
    (out : List (UInt16 × Bytes)) :
    parseOptionsFrom (pre ++ (toBeBytes 2 code.toNat ++ (toBeBytes 2 len.toNat ++ rest)))
        pre.length out =
      if rest.length < len.toNat then
        Reader.fail ("option ".toList ++ Nat.toDigits 10 code.toNat ++ ": length ".toList ++
          Nat.toDigits 10 len.toNat ++ " runs past end of buffer".toList)
      else
        parseOptionsFrom (pre ++ (toBeBytes 2 code.toNat ++ (toBeBytes 2 len.toNat ++ rest)))
          (pre.length + 4 + len.toNat) (out ++ [(code, rest.take len.toNat)]) := by
  have hcode : bytesAt (pre ++ (toBeBytes 2 code.toNat ++ (toBeBytes 2 len.toNat ++ rest)))
      pre.length 2 = .ok (toBeBytes 2 code.toNat) := by
    rw [bytesAt_append_right le_rfl, Nat.sub_self, bytesAt_append_left (by simp)]
  have hlen : bytesAt (pre ++ (toBeBytes 2 code.toNat ++ (toBeBytes 2 len.toNat ++ rest)))
      (pre.length + 2) 2 = .ok (toBeBytes 2 len.toNat) := by
    rw [bytesAt_append_right (by omega), Nat.add_sub_cancel_left, bytesAt_append_right (by simp),
      length_toBeBytes, bytesAt_append_left (by simp)]
  have hlength : (pre ++ (toBeBytes 2 code.toNat ++ (toBeBytes 2 len.toNat ++ rest))).length =
      pre.length + 4 + rest.length := by
    simp only [List.length_append, length_toBeBytes]
    omega
  have hguard : (pre ++ (toBeBytes 2 code.toNat ++ (toBeBytes 2 len.toNat ++ rest))).length <
      pre.length + 4 + len.toNat ↔ rest.length < len.toNat := by omega
  rw [parseOptionsFrom, if_pos (by omega), if_neg (by omega), hcode]
  simp only [bind, Except.bind, hlen, u16_ofBeBytes_toBeBytes, hguard]
  split
  · rfl
  · rename_i hle
    have hvalue : slice (pre ++ (toBeBytes 2 code.toNat ++ (toBeBytes 2 len.toNat ++ rest)))
        (pre.length + 4) (pre.length + 4 + len.toNat) = .ok (rest.take len.toNat) := by
      rw [slice_append_right (by omega) (by omega), Nat.add_assoc, Nat.add_sub_cancel_left,
        Nat.add_sub_cancel_left, slice_append_right (by simp) (by omega), length_toBeBytes,
        slice_append_right (by simp) (by omega), length_toBeBytes,
        slice_of_le (by omega) (by omega), Nat.sub_self, List.drop_zero]
      congr 2
      omega
    rw [hvalue]

/-- What the loop does with an option whose value is complete. -/
lemma parseOptionsFrom_option (pre : Bytes) (code len : UInt16) (value rest : Bytes)
    (out : List (UInt16 × Bytes)) (hlen : len.toNat = value.length) :
    ∃ pre' : Bytes,
      parseOptionsFrom (pre ++ (toBeBytes 2 code.toNat ++ (toBeBytes 2 len.toNat ++
          (value ++ rest)))) pre.length out =
        parseOptionsFrom (pre' ++ rest) pre'.length (out ++ [(code, value)]) := by
  refine ⟨pre ++ (toBeBytes 2 code.toNat ++ (toBeBytes 2 len.toNat ++ value)), ?_⟩
  have hoff : (pre ++ (toBeBytes 2 code.toNat ++ (toBeBytes 2 len.toNat ++ value))).length =
      pre.length + 4 + len.toNat := by
    simp only [List.length_append, length_toBeBytes]
    omega
  rw [parseOptionsFrom_header, if_neg (by simp [hlen]), List.take_left' hlen.symm, hoff]
  simp only [List.append_assoc]

/-- The loop reads back what was built. -/
lemma parseOptionsFrom_flatMap (opts : List (UInt16 × Bytes)) (pre : Bytes)
    (out : List (UInt16 × Bytes)) :
    parseOptionsFrom (pre ++ opts.flatMap encodeOption) pre.length out =
      .ok (out ++ opts.map wireOption) := by
  induction opts generalizing pre out with
  | nil => rw [List.flatMap_nil, parseOptionsFrom_nil, List.map_nil, List.append_nil]
  | cons o opts ih =>
    obtain ⟨len, hlen, henc⟩ := encodeOption_eq o
    rw [List.flatMap_cons, henc, List.append_assoc, List.append_assoc]
    obtain ⟨pre', hpre'⟩ :=
      parseOptionsFrom_option pre o.1 len (wireOption o).2 (opts.flatMap encodeOption) out hlen
    rw [hpre', ih, List.map_cons, List.append_assoc]
    rfl

/-- The loop goes through a stream of built options, or it reports an error. -/
lemma exists_options_or_fail (n : ℕ) (bs : Bytes) (hn : bs.length ≤ n) (pre : Bytes)
    (out : List (UInt16 × Bytes)) :
    (∃ opts : List (UInt16 × Bytes), (∀ o ∈ opts, o.2.length ≤ 65535) ∧
        opts.flatMap encodeOption = bs) ∨
      ∃ e, parseOptionsFrom (pre ++ bs) pre.length out = Reader.fail e := by
  induction n generalizing bs pre out with
  | zero =>
    have hnil : bs = [] := List.length_eq_zero_iff.mp (by omega)
    exact .inl ⟨[], by simp, hnil.symm⟩
  | succ n ih =>
    by_cases hne : bs = []
    · exact .inl ⟨[], by simp, hne.symm⟩
    by_cases hshort : bs.length < 4
    · exact .inr ⟨_, parseOptionsFrom_truncated pre out hne hshort⟩
    have hfour : 2 + 2 ≤ bs.length := by
      omega
    obtain ⟨code, bs₁, rfl, h₁⟩ := exists_u16_append hfour
    obtain ⟨len, rest, rfl, -⟩ := exists_u16_append (n := 0) h₁
    by_cases hlen : rest.length < len.toNat
    · right
      rw [parseOptionsFrom_header, if_pos hlen]
      exact ⟨_, rfl⟩
    have hval : len.toNat = (rest.take len.toNat).length := by
      rw [List.length_take]
      omega
    have hfit : (rest.take len.toNat).length ≤ 65535 := by
      have hlt := len.toNat_lt
      omega
    have hrest : (rest.drop len.toNat).length ≤ n := by
      simp only [List.length_append, length_toBeBytes, List.length_drop] at hn ⊢
      omega
    obtain ⟨pre', hpre'⟩ :=
      parseOptionsFrom_option pre code len (rest.take len.toNat) (rest.drop len.toNat) out hval
    rw [List.take_append_drop] at hpre'
    rw [hpre']
    apply (ih _ hrest pre' _).imp_left
    rintro ⟨opts, hopts, hbs⟩
    refine ⟨(code, rest.take len.toNat) :: opts, ?_, ?_⟩
    · intro o ho
      rcases List.mem_cons.mp ho with rfl | ho
      · exact hfit
      · exact hopts o ho
    · obtain ⟨len', hlen', henc⟩ := encodeOption_eq (code, rest.take len.toNat)
      have hwire : wireOption (code, rest.take len.toNat) = (code, rest.take len.toNat) := by
        unfold wireOption
        rw [List.take_of_length_le hfit]
      rw [hwire] at hlen' henc
      have heq : len' = len := UInt16.toNat_inj.mp (hlen'.trans hval.symm)
      rw [List.flatMap_cons, hbs, henc, heq]
      simp

/-- Options that fit come through as they are. -/
lemma map_wireOption {opts : List (UInt16 × Bytes)} (h : ∀ o ∈ opts, o.2.length ≤ 65535) :
    opts.map wireOption = opts := by
  refine (List.map_congr_left fun o ho => ?_).trans (List.map_id _)
  unfold wireOption
  rw [List.take_of_length_le (h o ho)]
  rfl

/-- `parse_options` reads back what was built. -/
lemma parseOptions_flatMap (opts : List (UInt16 × Bytes)) :
    parseOptions (opts.flatMap encodeOption) = .ok (opts.map wireOption) :=
  parseOptionsFrom_flatMap opts [] []

/-- `parse_options` returns options exactly when the bytes are built from them. -/
theorem parseOptions_eq_ok_iff {bs : Bytes} {opts : List (UInt16 × Bytes)} :
    parseOptions bs = .ok opts ↔
      (∀ o ∈ opts, o.2.length ≤ 65535) ∧ opts.flatMap encodeOption = bs := by
  constructor
  · intro h
    obtain ⟨opts', hopts', hbs⟩ | ⟨e, he⟩ := exists_options_or_fail bs.length bs le_rfl [] []
    · have hparse := parseOptions_flatMap opts'
      rw [hbs, h, map_wireOption hopts'] at hparse
      cases hparse
      exact ⟨hopts', hbs⟩
    · cases h.symm.trans he
  · rintro ⟨hopts, rfl⟩
    rw [parseOptions_flatMap, map_wireOption hopts]

/-- `parse_options` is never out of range. -/
theorem parseOptions_ne_panic (bs : Bytes) : parseOptions bs ≠ .error .panic := by
  intro h
  obtain ⟨opts, hopts⟩ | ⟨e, he⟩ := exists_options_or_fail bs.length bs le_rfl [] []
  · cases h.symm.trans (parseOptions_eq_ok_iff.mpr hopts)
  · cases h.symm.trans he

/-! ## Messages -/

/-- What the parser does with a type, a transaction id and the rest. -/
lemma parse_append (code : UInt8) (transactionId : Octets 3) (rest : Bytes) :
    parse ([code] ++ (transactionId.val ++ rest)) =
      match Dhcp6MessageType.fromU8 code with
      | none => Reader.fail ("unknown DHCPv6 message type ".toList ++ Nat.toDigits 10 code.toNat)
      | some msgType => (parseOptions rest).map fun options => ⟨msgType, transactionId, options⟩ := by
  have htid := transactionId.property
  have hlen : ¬ ([code] ++ (transactionId.val ++ rest)).length < 4 := by
    simp [htid]
  have hcode : index ([code] ++ (transactionId.val ++ rest)) 0 = .ok code := rfl
  have htransaction : bytesAt ([code] ++ (transactionId.val ++ rest)) 1 3 =
      .ok transactionId.val := by
    rw [bytesAt_append_right (by simp), List.length_singleton, Nat.sub_self,
      bytesAt_append_left htid]
  have hrest : sliceFrom ([code] ++ (transactionId.val ++ rest)) 4 = .ok rest := by
    rw [← List.append_assoc]
    exact sliceFrom_append _ (by simp [htid])
  unfold parse
  rw [if_neg hlen, hcode, htransaction, hrest]
  simp only [bind, Except.bind]
  split
  · rfl
  · simp only [copyFromSlice_val]
    match parseOptions rest with
    | .error e => rfl
    | .ok opts => rfl

/-- The message with its options as they come through the wire. -/
def normalise (m : Dhcp6Message) : Dhcp6Message :=
  { m with options := m.options.map wireOption }

/-- A built message is read back with its options cut. -/
lemma parse_build_eq (m : Dhcp6Message) : parse m.build = .ok m.normalise := by
  have hcode : Dhcp6MessageType.fromU8 m.msgType.toU8 = some m.msgType :=
    Dhcp6MessageType.fromU8_eq_some_iff.mpr rfl
  unfold build
  rw [parse_append, hcode, parseOptions_flatMap]
  rfl

/-- What was parsed is built again byte for byte. -/
lemma build_of_parse_eq_ok {buf : Bytes} {m : Dhcp6Message} (h : parse buf = .ok m) :
    m.build = buf := by
  by_cases hlen : buf.length < 4
  · unfold parse at h
    rw [if_pos hlen] at h
    cases h
  have hfour : 3 + 1 ≤ buf.length := by
    omega
  obtain ⟨code, buf₁, rfl, h₁⟩ := exists_byte_append hfour
  obtain ⟨transactionId, rest, rfl, -⟩ := exists_octets_append (n := 0) 3 h₁
  rw [parse_append] at h
  match hcode : Dhcp6MessageType.fromU8 code, hopts : parseOptions rest with
  | none, _ =>
    rw [hcode] at h
    cases h
  | some msgType, .error e =>
    rw [hcode, hopts] at h
    cases h
  | some msgType, .ok opts =>
    rw [hcode, hopts] at h
    cases h
    obtain ⟨-, hbuilt⟩ := parseOptions_eq_ok_iff.mp hopts
    unfold build
    rw [hbuilt, Dhcp6MessageType.fromU8_eq_some_iff.mp hcode]

/-- The parser and the builder are inverse to each other: a message whose options fit is read back
as it is, and what was parsed is built again byte for byte. -/
theorem parse_build_inverse :
    (∀ m : Dhcp6Message, (∀ o ∈ m.options, o.2.length ≤ 65535) → parse m.build = .ok m) ∧
      ∀ (buf : Bytes) (m : Dhcp6Message), parse buf = .ok m → m.build = buf := by
  constructor
  · intro m hfit
    rw [parse_build_eq]
    unfold normalise
    rw [map_wireOption hfit]
  · intro buf m h
    exact build_of_parse_eq_ok h

/-- A SOLICIT with a client identifier. -/
def solicit : Dhcp6Message :=
  ⟨.Solicit, ⟨[0xab, 0xcd, 0xef], rfl⟩, [(1, [0, 3, 0, 1, 0xde, 0xad, 0xbe, 0xef, 0, 1])]⟩

/-- The SOLICIT is read back. -/
theorem parse_build_inverse_solicit :
    (∀ o ∈ solicit.options, o.2.length ≤ 65535) ∧ parse solicit.build = .ok solicit ∧
      solicit.build.length = 18 := by
  refine ⟨by decide, parse_build_inverse.1 solicit (by decide), ?_⟩
  decide

/-! ## Identity associations -/

/-- An address option is read back. -/
lemma parseIaAddr_iaAddressOption (a : IaAddress) :
    parseIaAddr (iaAddressOption a).2 = .ok a := by
  have haddr : slice (iaAddressOption a).2 0 16 = .ok (toBeBytes 16 a.addr.toNat) :=
    slice_append_left (by simp)
  have hpreferred : bytesAt (iaAddressOption a).2 16 4 = .ok (toBeBytes 4 a.preferred.toNat) := by
    unfold iaAddressOption
    rw [bytesAt_append_right (by simp), length_toBeBytes, Nat.sub_self,
      bytesAt_append_left (by simp)]
  have hvalid : bytesAt (iaAddressOption a).2 20 4 = .ok (toBeBytes 4 a.valid.toNat) := by
    unfold iaAddressOption
    rw [bytesAt_append_right (by simp), length_toBeBytes, bytesAt_append_right (by simp),
      length_toBeBytes, Nat.sub_self, bytesAt_of_le (by simp), List.drop_zero,
      List.take_of_length_le (by simp)]
  have hoctets := copyFromSlice_of_length (length_toBeBytes 16 a.addr.toNat)
  have hword : BitVec.ofNat 128 (ofBeBytes (toBeBytes 16 a.addr.toNat)) = a.addr :=
    bitVec_ofBeBytes_toBeBytes (k := 16) a.addr
  unfold parseIaAddr
  rw [if_neg (by simp [iaAddressOption]), haddr, hpreferred, hvalid]
  simp only [bind, Except.bind, hoctets, hword, u32_ofBeBytes_toBeBytes]
  rfl

/-- The loop over the nested options collects the addresses and passes over everything else. -/
lemma foldlM_pushIaAddr {nested : List (UInt16 × Bytes)} {addresses : List IaAddress}
    (h : nested.filter (fun o => o.1 = 5) = addresses.map iaAddressOption) (acc : List IaAddress) :
    nested.foldlM pushIaAddr acc = .ok (acc ++ addresses) := by
  induction nested generalizing addresses acc with
  | nil =>
    have hnil : addresses = [] := by simpa using h.symm
    rw [hnil, List.append_nil]
    rfl
  | cons o nested ih =>
    rw [List.foldlM_cons]
    by_cases hcode : o.1 = 5
    · rw [List.filter_cons_of_pos (by simpa using hcode)] at h
      obtain ⟨a, as, rfl, ha, has⟩ := List.map_eq_cons_iff.mp h.symm
      have hpush : pushIaAddr acc o = .ok (acc ++ [a]) := by
        unfold pushIaAddr
        rw [if_pos hcode, ← ha, parseIaAddr_iaAddressOption]
        rfl
      rw [hpush]
      refine (ih has.symm _).trans ?_
      rw [List.append_assoc, List.singleton_append]
    · rw [List.filter_cons_of_neg (by simpa using hcode)] at h
      have hpush : pushIaAddr acc o = .ok acc := if_neg hcode
      rw [hpush]
      exact ih h acc

/-- The options in a stream are not longer than the stream. -/
lemma length_le_of_mem_flatMap {opts : List (UInt16 × Bytes)} {n : ℕ} (hn : n ≤ 65535)
    (h : (opts.flatMap encodeOption).length ≤ n) : ∀ o ∈ opts, o.2.length ≤ 65535 := by
  intro o ho
  by_contra hlong
  have hle : (encodeOption o).length ≤ (opts.flatMap encodeOption).length := by
    obtain ⟨before, after, rfl⟩ := List.append_of_mem ho
    simp only [List.flatMap_append, List.flatMap_cons, List.length_append]
    omega
  have hlen : (encodeOption o).length = 4 + 65535 := by
    simp only [encodeOption, List.length_append, length_toBeBytes, List.length_take]
    omega
  omega

/-- The value of an IA_NA option is read back, whatever else is nested in it. -/
lemma parseIaNa_iaNaPayload {ia : IaNa} {nested : List (UInt16 × Bytes)}
    (hnested : nested.filter (fun o => o.1 = 5) = ia.addresses.map iaAddressOption)
    (hfit : (iaNaPayload ia.iaid ia.t1 ia.t2 nested).length ≤ 65535) :
    parseIaNa (iaNaPayload ia.iaid ia.t1 ia.t2 nested) = .ok ia := by
  have hlen : (iaNaPayload ia.iaid ia.t1 ia.t2 nested).length =
      12 + (nested.flatMap encodeOption).length := by
    simp only [iaNaPayload, List.length_append, length_toBeBytes]
    omega
  have hoptions : parseOptions (nested.flatMap encodeOption) = .ok nested :=
    parseOptions_eq_ok_iff.mpr ⟨length_le_of_mem_flatMap (n := 65523) (by omega) (by omega), rfl⟩
  have hiaid : bytesAt (iaNaPayload ia.iaid ia.t1 ia.t2 nested) 0 4 =
      .ok (toBeBytes 4 ia.iaid.toNat) :=
    bytesAt_append_left (by simp)
  have ht1 : bytesAt (iaNaPayload ia.iaid ia.t1 ia.t2 nested) 4 4 =
      .ok (toBeBytes 4 ia.t1.toNat) := by
    unfold iaNaPayload
    rw [bytesAt_append_right (by simp), length_toBeBytes, Nat.sub_self,
      bytesAt_append_left (by simp)]
  have ht2 : bytesAt (iaNaPayload ia.iaid ia.t1 ia.t2 nested) 8 4 =
      .ok (toBeBytes 4 ia.t2.toNat) := by
    unfold iaNaPayload
    rw [bytesAt_append_right (by simp), length_toBeBytes, bytesAt_append_right (by simp),
      length_toBeBytes, Nat.sub_self, bytesAt_append_left (by simp)]
  have hrest : sliceFrom (iaNaPayload ia.iaid ia.t1 ia.t2 nested) 12 =
      .ok (nested.flatMap encodeOption) := by
    unfold iaNaPayload
    rw [← List.append_assoc, ← List.append_assoc]
    exact sliceFrom_append _ (by simp)
  unfold parseIaNa
  rw [if_neg (by omega), hiaid, ht1, ht2, hrest]
  simp only [bind, Except.bind, hoptions, foldlM_pushIaAddr hnested, u32_ofBeBytes_toBeBytes]
  rfl

/-- The option that was set is the first one of its code. -/
lemma find?_setSlot (code : UInt16) (value : Bytes) (opts : List (UInt16 × Bytes)) :
    ((setSlot code value opts).map wireOption).find? (fun o => o.1 == code) =
      some (code, value.take 65535) := by
  induction opts with
  | nil =>
    simp [setSlot, wireOption]
  | cons o opts ih =>
    unfold setSlot
    split
    · simp [wireOption]
    · rename_i hne
      have hskip : ((wireOption o).1 == code) = false := beq_false_of_ne hne
      rw [List.map_cons, List.find?_cons_of_neg (by simp [hskip])]
      exact ih

/-- A value that fits is found again in the message that was built and parsed. -/
lemma option_normalise_setOption (m : Dhcp6Message) (code : UInt16) {value : Bytes}
    (hfit : value.length ≤ 65535) : (m.setOption code value).normalise.option code = some value := by
  unfold option normalise setOption
  rw [find?_setSlot, Option.map_some, List.take_of_length_le hfit]

/-- An identity association survives building and parsing a message that carries it, also when
further options that are no addresses are nested in it. -/
theorem iaNa_parse_build (ia : IaNa) (m : Dhcp6Message) :
    ((encodeIaNa ia).length ≤ 65535 →
        (parse (m.setOption 3 (encodeIaNa ia)).build >>= iaNa) = .ok (some ia)) ∧
      ∀ nested : List (UInt16 × Bytes),
        nested.filter (fun o => o.1 = 5) = ia.addresses.map iaAddressOption →
          (iaNaPayload ia.iaid ia.t1 ia.t2 nested).length ≤ 65535 →
            (parse (m.setOption 3 (iaNaPayload ia.iaid ia.t1 ia.t2 nested)).build >>= iaNa) =
              .ok (some ia) := by
  have hpayload (nested : List (UInt16 × Bytes))
      (hnested : nested.filter (fun o => o.1 = 5) = ia.addresses.map iaAddressOption)
      (hfit : (iaNaPayload ia.iaid ia.t1 ia.t2 nested).length ≤ 65535) :
      (parse (m.setOption 3 (iaNaPayload ia.iaid ia.t1 ia.t2 nested)).build >>= iaNa) =
        .ok (some ia) := by
    rw [parse_build_eq]
    simp only [bind, Except.bind, iaNa]
    rw [option_normalise_setOption m 3 hfit]
    dsimp only
    rw [parseIaNa_iaNaPayload hnested hfit]
    rfl
  refine ⟨fun hfit => hpayload _ ?_ hfit, hpayload⟩
  apply List.filter_eq_self.mpr
  intro o ho
  obtain ⟨a, -, rfl⟩ := List.mem_map.mp ho
  rfl

/-- An association with one address. -/
def lanAssociation : IaNa :=
  ⟨1, 1800, 2880, [⟨0x20010db8000000000000000000000010, 3600, 7200⟩]⟩

/-- The association is found again when a status code stands before its address. -/
theorem iaNa_parse_build_status :
    (parse (solicit.setOption 3 (iaNaPayload 1 1800 2880
      [(13, [0, 0]), iaAddressOption ⟨0x20010db8000000000000000000000010, 3600, 7200⟩])).build >>=
        iaNa) = .ok (some lanAssociation) :=
  (iaNa_parse_build lanAssociation solicit).2 _ (by decide) (by decide)

end Dhcp6Message

end Nomina
