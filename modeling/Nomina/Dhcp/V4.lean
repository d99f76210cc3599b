import Nomina.Dhcp.Messages
import Nomina.Lib.Slots

/-!
# The DHCPv4 codec

`Dhcp4Message::parse` and `Dhcp4Message::build` of `dhcp/v4.rs`. The parser reads by index, so it
could run out of range; that it never does is part of what is proved here.

`OptionStream` is the grammar of the options region, said without offsets. The loop of `parse_options`
is compared with it once, in `parseOptions_eq_ok_iff` and `parseOptionsFrom_ne_panic`; the round trips
and the characterisation of the accepted frames rest on these.
-/

namespace Nomina

open Lib

/-- `Dhcp4MessageType::to_u8`. -/
def Dhcp4MessageType.toU8 : Dhcp4MessageType → UInt8
  | .Discover => 1
  | .Offer => 2
  | .Request => 3
  | .Decline => 4
  | .Ack => 5
  | .Nak => 6
  | .Release => 7
  | .Inform => 8

namespace Dhcp4Message

/-- `MAGIC_COOKIE`. -/
def magicCookie : Bytes := [0x63, 0x82, 0x53, 0x63]

/-- `COOKIE_OFFSET`: the length of the fixed header. -/
abbrev cookieOffset : ℕ := 236

/-- `MIN_LEN`. -/
abbrev minLen : ℕ := cookieOffset + 4

/-- `PAD`. -/
abbrev padCode : UInt8 := 0

/-- `END`. -/
abbrev endCode : UInt8 := 255

/-! ## Building -/

/-- `Dhcp4Message::set_option`. -/
def setOption (m : Dhcp4Message) (code : UInt8) (value : Bytes) : Dhcp4Message :=
  { m with options := put Prod.fst (code, value) m.options }

/-- `Dhcp4Message::set_message_type`. -/
def setMessageType (m : Dhcp4Message) (mt : Dhcp4MessageType) : Dhcp4Message :=
  m.setOption 53 [mt.toU8]

/-- One round of the options loop of `Dhcp4Message::build`. -/
def encodeOption (o : UInt8 × Bytes) : Bytes :=
  if o.1 = padCode ∨ o.1 = endCode then []
  else
    let len := min o.2.length 255
    o.1 :: UInt8.ofNat len :: o.2.take len

/-- The fixed header of a message. -/
def header (m : Dhcp4Message) : Bytes :=
  [m.op] ++ ([m.htype] ++ ([m.hlen] ++ ([m.hops] ++ (toBeBytes 4 m.xid.toNat ++
    (toBeBytes 2 m.secs.toNat ++ (toBeBytes 2 m.flags.toNat ++ (toBeBytes 4 m.ciaddr.toNat ++
    (toBeBytes 4 m.yiaddr.toNat ++ (toBeBytes 4 m.siaddr.toNat ++ (toBeBytes 4 m.giaddr.toNat ++
    (m.chaddr.val ++ (m.sname.val ++ m.file.val))))))))))))

/-- `Dhcp4Message::build`. -/
def build (m : Dhcp4Message) : Bytes :=
  m.header ++ (magicCookie ++ (m.options.flatMap encodeOption ++ [endCode]))

/-! ## Parsing -/

/-- The loop of `parse_options` from the offset `i` on. -/
def parseOptionsFrom (buf : Bytes) (i : ℕ) (out : List (UInt8 × Bytes)) :
    Reader (List (UInt8 × Bytes)) :=
  if i < buf.length then do
    let code ← index buf i
    if code = padCode then parseOptionsFrom buf (i + 1) out
    else if code = endCode then pure out
    else if buf.length ≤ i + 1 then
      Reader.fail ("option ".toList ++ Nat.toDigits 10 code.toNat ++ ": missing length byte".toList)
    else
      let len := (← index buf (i + 1)).toNat
      if buf.length < i + 2 + len then
        Reader.fail ("option ".toList ++ Nat.toDigits 10 code.toNat ++ ": length ".toList ++
          Nat.toDigits 10 len ++ " runs past end of buffer".toList)
      else
        let value ← slice buf (i + 2) (i + 2 + len)
        parseOptionsFrom buf (i + 2 + len) (out ++ [(code, value)])
  else pure out
termination_by buf.length - i

/-- `parse_options`. -/
def parseOptions (buf : Bytes) : Reader (List (UInt8 × Bytes)) :=
  parseOptionsFrom buf 0 []

/-- `Ipv4Addr::new` of four bytes of the buffer. -/
def ipv4At (buf : Bytes) (i : ℕ) : Reader Ipv4Addr := do
  return BitVec.ofNat 32 (ofBeBytes (← bytesAt buf i 4))

/-- `Dhcp4Message::parse`. -/
def parse (buf : Bytes) : Reader Dhcp4Message :=
  if buf.length < minLen then
    Reader.fail ("frame too short: ".toList ++ Nat.toDigits 10 buf.length ++
      " bytes (need at least 240)".toList)
  else do
    let cookie ← slice buf cookieOffset (cookieOffset + 4)
    if cookie ≠ magicCookie then
      Reader.fail "missing or invalid DHCP magic cookie".toList
    else
      let chaddr ← copyFromSlice 16 (← slice buf 28 44)
      let sname ← copyFromSlice 64 (← slice buf 44 108)
      let file ← copyFromSlice 128 (← slice buf 108 236)
      let options ← parseOptions (← sliceFrom buf minLen)
      return {
        op := ← index buf 0
        htype := ← index buf 1
        hlen := ← index buf 2
        hops := ← index buf 3
        xid := UInt32.ofNat (ofBeBytes (← bytesAt buf 4 4))
        secs := UInt16.ofNat (ofBeBytes (← bytesAt buf 8 2))
        flags := UInt16.ofNat (ofBeBytes (← bytesAt buf 10 2))
        ciaddr := ← ipv4At buf 12
        yiaddr := ← ipv4At buf 16
        siaddr := ← ipv4At buf 20
        giaddr := ← ipv4At buf 24
        chaddr, sname, file, options }

/-! ## The grammar of the options -/

/-- A byte string is a sequence of PAD bytes and options, ended by END or by the end of the
string. -/
inductive OptionStream : Bytes → List (UInt8 × Bytes) → Prop
  | done : OptionStream [] []
  | stop (rest : Bytes) : OptionStream (endCode :: rest) []
  | skip {bs : Bytes} {opts : List (UInt8 × Bytes)} :
      OptionStream bs opts → OptionStream (padCode :: bs) opts
  | option {code len : UInt8} {value bs : Bytes} {opts : List (UInt8 × Bytes)} :
      code ≠ padCode → code ≠ endCode → value.length = len.toNat → OptionStream bs opts →
        OptionStream (code :: len :: (value ++ bs)) ((code, value) :: opts)

/-- At the end of the buffer the loop is done. -/
lemma parseOptionsFrom_nil (pre : Bytes) (out : List (UInt8 × Bytes)) :
    parseOptionsFrom (pre ++ []) pre.length out = .ok out := by
  rw [parseOptionsFrom, if_neg (by simp)]
  rfl

/-- What a round of the loop does with the byte it finds. -/
lemma parseOptionsFrom_cons (pre : Bytes) (code : UInt8) (bs : Bytes)
    (out : List (UInt8 × Bytes)) :
    parseOptionsFrom (pre ++ code :: bs) pre.length out =
      if code = padCode then parseOptionsFrom ((pre ++ [code]) ++ bs) (pre ++ [code]).length out
      else if code = endCode then .ok out
      else match bs with
        | [] => Reader.fail ("option ".toList ++ Nat.toDigits 10 code.toNat ++
            ": missing length byte".toList)
        | len :: rest =>
          if rest.length < len.toNat then
            Reader.fail ("option ".toList ++ Nat.toDigits 10 code.toNat ++ ": length ".toList ++
              Nat.toDigits 10 len.toNat ++ " runs past end of buffer".toList)
          else
            parseOptionsFrom ((pre ++ code :: len :: rest.take len.toNat) ++ rest.drop len.toNat)
              (pre ++ code :: len :: rest.take len.toNat).length
              (out ++ [(code, rest.take len.toNat)]) := by
  have hcode : index (pre ++ code :: bs) pre.length = .ok code := by
    rw [index_append_right le_rfl, Nat.sub_self, index_cons_zero]
  rw [parseOptionsFrom, if_pos (by simp), hcode]
  simp only [bind, Except.bind]
  split
  · simp
  split
  · rfl
  match bs with
  | [] => rw [if_pos (by simp)]
  | len :: rest =>
    have hlen : index (pre ++ code :: len :: rest) (pre.length + 1) = .ok len := by
      rw [index_append_right (by omega), Nat.add_sub_cancel_left]
      rfl
    rw [if_neg (by simp), hlen]
    dsimp only
    have hguard : (pre ++ code :: len :: rest).length < pre.length + 2 + len.toNat ↔
        rest.length < len.toNat := by
      simp only [List.length_append, List.length_cons]
      omega
    simp only [hguard]
    split
    · rfl
    · rename_i hle
      have hvalue : slice (pre ++ code :: len :: rest) (pre.length + 2)
          (pre.length + 2 + len.toNat) = .ok (rest.take len.toNat) := by
        rw [slice_append_right (by omega) (by omega), Nat.add_assoc, Nat.add_sub_cancel_left,
          Nat.add_sub_cancel_left, slice_of_le (by omega) (by simp; omega), Nat.add_sub_cancel_left]
        rfl
      rw [hvalue]
      have hoff : (pre ++ code :: len :: rest.take len.toNat).length =
          pre.length + 2 + len.toNat := by
        simp only [List.length_append, List.length_cons, List.length_take]
        omega
      have hbuf : (pre ++ code :: len :: rest.take len.toNat) ++ rest.drop len.toNat =
          pre ++ code :: len :: rest := by
        simp
      rw [hoff, hbuf]

/-- The loop returns the options of a stream of the grammar. -/
lemma parseOptionsFrom_of_stream {bs : Bytes} {opts : List (UInt8 × Bytes)}
    (h : OptionStream bs opts) (pre : Bytes) (out : List (UInt8 × Bytes)) :
    parseOptionsFrom (pre ++ bs) pre.length out = .ok (out ++ opts) := by
  induction h generalizing pre out with
  | done => rw [parseOptionsFrom_nil, List.append_nil]
  | stop rest => rw [parseOptionsFrom_cons, if_neg (by decide), if_pos rfl, List.append_nil]
  | skip _ ih => rw [parseOptionsFrom_cons, if_pos rfl, ih]
  | option hpad hend hlen _ ih =>
    rw [parseOptionsFrom_cons, if_neg hpad, if_neg hend]
    dsimp only
    rw [if_neg (by simp [hlen]), List.take_left' hlen, List.drop_left' hlen, ih]
    simp

/-- The loop goes through a stream of the grammar, or it reports an error. -/
lemma exists_stream_or_fail (n : ℕ) (bs : Bytes) (hn : bs.length ≤ n) (pre : Bytes)
    (out : List (UInt8 × Bytes)) :
    (∃ opts, OptionStream bs opts) ∨
      ∃ e, parseOptionsFrom (pre ++ bs) pre.length out = Reader.fail e := by
  induction n generalizing bs pre out with
  | zero =>
    have hnil : bs = [] := List.length_eq_zero_iff.mp (by omega)
    exact .inl ⟨[], hnil ▸ .done⟩
  | succ n ih =>
    match bs with
    | [] => exact .inl ⟨[], .done⟩
    | code :: bs =>
      have hbs : bs.length ≤ n := by simpa using hn
      rw [parseOptionsFrom_cons]
      by_cases hpad : code = padCode
      · rw [if_pos hpad]
        apply (ih bs hbs (pre ++ [code]) out).imp_left
        rintro ⟨opts, hopts⟩
        exact ⟨opts, hpad ▸ .skip hopts⟩
      by_cases hend : code = endCode
      · exact .inl ⟨[], hend ▸ .stop bs⟩
      rw [if_neg hpad, if_neg hend]
      match bs with
      | [] => exact .inr ⟨_, rfl⟩
      | len :: rest =>
        dsimp only
        by_cases hlen : rest.length < len.toNat
        · exact .inr ⟨_, if_pos hlen⟩
        rw [if_neg hlen]
        have hrest : (rest.drop len.toNat).length ≤ n := by
          simp only [List.length_drop, List.length_cons] at hbs ⊢
          omega
        apply (ih _ hrest _ _).imp_left
        rintro ⟨opts, hopts⟩
        have htake : (rest.take len.toNat).length = len.toNat := by
          rw [List.length_take]
          omega
        have hstream := OptionStream.option hpad hend htake hopts
        rw [List.take_append_drop] at hstream
        exact ⟨_, hstream⟩

/-- `parse_options` returns options exactly when the region is a stream of these options. -/
theorem parseOptions_eq_ok_iff {bs : Bytes} {opts : List (UInt8 × Bytes)} :
    parseOptions bs = .ok opts ↔ OptionStream bs opts := by
  constructor
  · intro h
    obtain ⟨opts', hopts'⟩ | ⟨e, he⟩ := exists_stream_or_fail bs.length bs le_rfl [] []
    · have h' : parseOptions bs = .ok opts' := parseOptionsFrom_of_stream hopts' [] []
      rw [h] at h'
      cases h'
      exact hopts'
    · cases h.symm.trans he
  · intro h
    exact parseOptionsFrom_of_stream h [] []

/-- `parse_options` is never out of range. -/
theorem parseOptions_ne_panic (bs : Bytes) : parseOptions bs ≠ .error .panic := by
  intro h
  obtain ⟨opts, hopts⟩ | ⟨e, he⟩ := exists_stream_or_fail bs.length bs le_rfl [] []
  · cases h.symm.trans (parseOptions_eq_ok_iff.mpr hopts)
  · cases h.symm.trans he

/-! ## Frames -/

/-- The fixed header takes the bytes before the cookie. -/
@[simp] lemma length_header (m : Dhcp4Message) : m.header.length = cookieOffset := by
  simp [header, m.chaddr.property, m.sname.property, m.file.property]

/-- Every long enough frame is a header, four bytes and the rest. -/
lemma exists_header_append {buf : Bytes} (h : minLen ≤ buf.length) :
    ∃ (m : Dhcp4Message) (cookie : Octets 4) (rest : Bytes),
      buf = m.header ++ (cookie.val ++ rest) := by
  obtain ⟨op, buf₁, rfl, h₁⟩ := exists_byte_append (n := 239) h
  obtain ⟨htype, buf₂, rfl, h₂⟩ := exists_byte_append (n := 238) h₁
  obtain ⟨hlen, buf₃, rfl, h₃⟩ := exists_byte_append (n := 237) h₂
  obtain ⟨hops, buf₄, rfl, h₄⟩ := exists_byte_append (n := 236) h₃
  obtain ⟨xid, buf₅, rfl, h₅⟩ := exists_u32_append (n := 232) h₄
  obtain ⟨secs, buf₆, rfl, h₆⟩ := exists_u16_append (n := 230) h₅
  obtain ⟨flags, buf₇, rfl, h₇⟩ := exists_u16_append (n := 228) h₆
  obtain ⟨ciaddr, buf₈, rfl, h₈⟩ := exists_bitVec_append (n := 224) 4 h₇
  obtain ⟨yiaddr, buf₉, rfl, h₉⟩ := exists_bitVec_append (n := 220) 4 h₈
  obtain ⟨siaddr, buf₁₀, rfl, h₁₀⟩ := exists_bitVec_append (n := 216) 4 h₉
  obtain ⟨giaddr, buf₁₁, rfl, h₁₁⟩ := exists_bitVec_append (n := 212) 4 h₁₀
  obtain ⟨chaddr, buf₁₂, rfl, h₁₂⟩ := exists_octets_append (n := 196) 16 h₁₁
  obtain ⟨sname, buf₁₃, rfl, h₁₃⟩ := exists_octets_append (n := 132) 64 h₁₂
  obtain ⟨file, buf₁₄, rfl, h₁₄⟩ := exists_octets_append (n := 4) 128 h₁₃
  obtain ⟨cookie, rest, rfl, -⟩ := exists_octets_append (n := 0) 4 h₁₄
  refine ⟨⟨op, htype, hlen, hops, xid, secs, flags, ciaddr, yiaddr, siaddr, giaddr, chaddr, sname,
    file, []⟩, cookie, rest, ?_⟩
  simp only [header, List.append_assoc]

/-- What the parser does with a header, four bytes and the rest. -/
lemma parse_header_append (m : Dhcp4Message) (cookie : Octets 4) (rest : Bytes) :
    parse (m.header ++ (cookie.val ++ rest)) =
      if cookie.val ≠ magicCookie then
        Reader.fail "missing or invalid DHCP magic cookie".toList
      else (parseOptions rest).map fun options => { m with options } := by
  have hchaddr := m.chaddr.property
  have hsname := m.sname.property
  have hfile := m.file.property
  have hcookie := cookie.property
  have hlen : ¬ (m.header ++ (cookie.val ++ rest)).length < minLen := by
    simp [hcookie]
  have hrest : sliceFrom (m.header ++ (cookie.val ++ rest)) minLen = .ok rest := by
    rw [← List.append_assoc]
    exact sliceFrom_append _ (by simp [hcookie])
  have hmagic : slice (m.header ++ (cookie.val ++ rest)) cookieOffset (cookieOffset + 4) =
      .ok cookie.val := by
    rw [slice_append_right (by simp) (by omega), length_header, Nat.sub_self,
      Nat.add_sub_cancel_left, slice_append_left hcookie]
  unfold parse
  rw [if_neg hlen, hrest, hmagic]
  simp (disch := simp [hchaddr, hsname, hfile]) only [header, List.append_assoc, index_append_left,
    index_append_right, index_cons_zero, slice_append_right, slice_append_left,
    bytesAt_append_right, bytesAt_append_left, ipv4At, List.length_cons, List.length_nil,
    length_toBeBytes, hchaddr, hsname, Nat.reduceSub, Nat.reduceAdd, Nat.sub_self, bind,
    Except.bind]
  split
  · rfl
  · simp only [copyFromSlice_val]
    match parseOptions rest with
    | .error e => rfl
    | .ok opts =>
      have hword (x : Ipv4Addr) : BitVec.ofNat 32 (ofBeBytes (toBeBytes 4 x.toNat)) = x :=
        bitVec_ofBeBytes_toBeBytes (k := 4) x
      simp only [pure, Except.pure, Except.map, u16_ofBeBytes_toBeBytes, u32_ofBeBytes_toBeBytes,
        hword]

/-- A frame that is too short is refused. -/
lemma parse_of_short {buf : Bytes} (h : buf.length < minLen) : ∃ e, parse buf = Reader.fail e := by
  unfold parse
  exact ⟨_, if_pos h⟩

/-- The message read from a header, four bytes and the rest. -/
lemma parse_header_append_eq_ok {m m' : Dhcp4Message} {cookie : Octets 4} {rest : Bytes} :
    parse (m.header ++ (cookie.val ++ rest)) = .ok m' ↔
      cookie.val = magicCookie ∧ OptionStream rest m'.options ∧
        m' = { m with options := m'.options } := by
  rw [parse_header_append, ← parseOptions_eq_ok_iff]
  constructor
  · intro h
    split at h
    · cases h
    · rename_i hcookie
      match hopts : parseOptions rest with
      | .error e =>
        rw [hopts] at h
        cases h
      | .ok opts =>
        rw [hopts] at h
        cases h
        exact ⟨not_not.mp hcookie, rfl, rfl⟩
  · rintro ⟨hcookie, hopts, hm'⟩
    rw [if_neg (not_not.mpr hcookie), hopts, hm']
    rfl

/-- An option as it comes through the wire: not at all if its code is structural, else with at most
255 bytes. -/
def wireOption (o : UInt8 × Bytes) : Option (UInt8 × Bytes) :=
  if o.1 = padCode ∨ o.1 = endCode then none else some (o.1, o.2.take 255)

/-- The message with its options as they come through the wire. -/
def normalise (m : Dhcp4Message) : Dhcp4Message :=
  { m with options := m.options.filterMap wireOption }

/-- The built options, END and anything behind it are a stream of the options that come through. -/
lemma optionStream_flatMap (opts : List (UInt8 × Bytes)) (rest : Bytes) :
    OptionStream (opts.flatMap encodeOption ++ endCode :: rest) (opts.filterMap wireOption) := by
  induction opts with
  | nil => exact .stop rest
  | cons o opts ih =>
    obtain ⟨code, value⟩ := o
    rw [List.flatMap_cons]
    by_cases hcode : code = padCode ∨ code = endCode
    · have hskip : encodeOption (code, value) = [] := if_pos hcode
      have hnone : wireOption (code, value) = none := if_pos hcode
      rw [hskip, List.nil_append, List.filterMap_cons_none hnone]
      exact ih
    · have hkeep : encodeOption (code, value) =
          code :: UInt8.ofNat (min value.length 255) :: value.take 255 := by
        unfold encodeOption
        rw [if_neg hcode, List.take_eq_take_min, Nat.min_comm]
      have hsome : wireOption (code, value) = some (code, value.take 255) := if_neg hcode
      have hlen : (value.take 255).length = (UInt8.ofNat (min value.length 255)).toNat := by
        rw [List.length_take, UInt8.toNat_ofNat']
        omega
      obtain ⟨hpad, hend⟩ := not_or.mp hcode
      rw [hkeep, List.filterMap_cons_some hsome, List.cons_append, List.cons_append,
        List.append_assoc]
      exact .option hpad hend hlen ih

/-- A built message is read back with its options normalised. -/
lemma parse_build_eq (m : Dhcp4Message) : parse m.build = .ok m.normalise := by
  have hstream := optionStream_flatMap m.options []
  unfold build
  rw [parse_header_append m ⟨magicCookie, rfl⟩, if_neg (by simp),
    parseOptions_eq_ok_iff.mpr hstream]
  rfl

/-- An option is found in the message that was built and parsed, cut, unless its code is structural. -/
lemma option_normalise {code : UInt8} (hpad : code ≠ padCode) (hend : code ≠ endCode)
    (m : Dhcp4Message) : m.normalise.option code = (m.option code).map (List.take 255) := by
  unfold option normalise
  dsimp only
  induction m.options with
  | nil => rfl
  | cons o opts ih =>
    by_cases hcode : o.1 = padCode ∨ o.1 = endCode
    · have hskip : (o.1 == code) = false := by
        rw [beq_eq_false_iff_ne]
        rintro rfl
        exact hcode.elim hpad hend
      rw [List.filterMap_cons_none (show wireOption o = none from if_pos hcode), ih,
        List.find?_cons_of_neg (by simp [hskip])]
    · rw [List.filterMap_cons_some (show wireOption o = some (o.1, o.2.take 255) from if_neg hcode)]
      rw [List.find?_cons, List.find?_cons]
      dsimp only
      cases o.1 == code with
      | true => rfl
      | false => exact ih

/-- The codes stay distinct on the wire. -/
lemma nodup_normalise {m : Dhcp4Message} (h : (m.options.map Prod.fst).Nodup) :
    (m.normalise.options.map Prod.fst).Nodup := by
  refine h.sublist ?_
  unfold normalise
  dsimp only
  induction m.options with
  | nil => exact .slnil
  | cons o opts ih =>
    by_cases hcode : o.1 = padCode ∨ o.1 = endCode
    · rw [List.filterMap_cons_none (show wireOption o = none from if_pos hcode), List.map_cons]
      exact ih.cons o.1
    · rw [List.filterMap_cons_some (show wireOption o = some (o.1, o.2.take 255) from if_neg hcode)]
      exact ih.cons_cons o.1

/-- Options that are not structural and short enough come through as they are. -/
lemma normalise_eq_self {m : Dhcp4Message}
    (h : ∀ o ∈ m.options, o.1 ≠ padCode ∧ o.1 ≠ endCode ∧ o.2.length ≤ 255) : m.normalise = m := by
  have hopts : m.options.filterMap wireOption = m.options := by
    refine (List.filterMap_congr fun o ho => ?_).trans (List.filterMap_some)
    obtain ⟨hpad, hend, hlen⟩ := h o ho
    unfold wireOption
    rw [if_neg (not_or.mpr ⟨hpad, hend⟩), List.take_of_length_le hlen]
  unfold normalise
  rw [hopts]

/-- The options of a stream are not structural, and a length byte tells their lengths. -/
lemma OptionStream.proper {bs : Bytes} {opts : List (UInt8 × Bytes)} (h : OptionStream bs opts) :
    ∀ o ∈ opts, o.1 ≠ padCode ∧ o.1 ≠ endCode ∧ o.2.length ≤ 255 := by
  induction h with
  | done => simp
  | stop rest => simp
  | skip _ ih => exact ih
  | @option code len value bs opts hpad hend hlen _ ih =>
    have hlt := len.toNat_lt
    exact List.forall_mem_cons.mpr ⟨⟨hpad, hend, by dsimp only; omega⟩, ih⟩

/-- An accepted frame is a header, the cookie and a stream of options. -/
lemma exists_of_parse_eq_ok {buf : Bytes} {m : Dhcp4Message} (h : parse buf = .ok m) :
    ∃ rest, buf = m.header ++ (magicCookie ++ rest) ∧ OptionStream rest m.options := by
  by_cases hlen : buf.length < minLen
  · obtain ⟨e, he⟩ := parse_of_short hlen
    cases h.symm.trans he
  obtain ⟨m₀, cookie, rest, rfl⟩ := exists_header_append (not_lt.mp hlen)
  obtain ⟨hcookie, hstream, hm⟩ := parse_header_append_eq_ok.mp h
  refine ⟨rest, ?_, hstream⟩
  rw [hcookie, hm]
  rfl

/-- A frame with the cookie and a stream of options is accepted. -/
lemma exists_parse_eq_ok {buf : Bytes} {opts : List (UInt8 × Bytes)} (hlen : minLen ≤ buf.length)
    (hcookie : (buf.drop cookieOffset).take 4 = magicCookie)
    (hopts : OptionStream (buf.drop minLen) opts) : ∃ m, parse buf = .ok m ∧ m.options = opts := by
  obtain ⟨m, cookie, rest, rfl⟩ := exists_header_append hlen
  rw [List.drop_left' (length_header m), List.take_left' cookie.property] at hcookie
  have hrest : (m.header ++ (cookie.val ++ rest)).drop minLen = rest := by
    rw [← List.append_assoc, List.drop_left' (by simp [cookie.property])]
  rw [hrest] at hopts
  exact ⟨{ m with options := opts }, parse_header_append_eq_ok.mpr ⟨hcookie, hopts, rfl⟩, rfl⟩

/-- Building and parsing: every message is read back with its options normalised, a message whose
options need no normalisation is read back as it is, and building and parsing again what was parsed
gives the same message. -/
theorem parse_build (m : Dhcp4Message) :
    parse m.build = .ok m.normalise ∧
      ((∀ o ∈ m.options, o.1 ≠ padCode ∧ o.1 ≠ endCode ∧ o.2.length ≤ 255) →
        parse m.build = .ok m) ∧
      ∀ buf, parse buf = .ok m → parse m.build = .ok m := by
  have hproper (h : ∀ o ∈ m.options, o.1 ≠ padCode ∧ o.1 ≠ endCode ∧ o.2.length ≤ 255) :
      parse m.build = .ok m := by
    rw [parse_build_eq, normalise_eq_self h]
  refine ⟨parse_build_eq m, hproper, ?_⟩
  intro buf hbuf
  obtain ⟨rest, -, hstream⟩ := exists_of_parse_eq_ok hbuf
  exact hproper hstream.proper

/-- A DISCOVER with a wish for an address. -/
def discover : Dhcp4Message :=
  ⟨1, 1, 6, 0, 0x12345678, 0, 0x8000, 0, 0, 0, 0, .replicate 16 0xde, .replicate 64 0,
    .replicate 128 0, [(53, [1]), (50, [192, 168, 1, 50])]⟩

/-- The DISCOVER is read back. -/
theorem parse_build_discover :
    (∀ o ∈ discover.options, o.1 ≠ padCode ∧ o.1 ≠ endCode ∧ o.2.length ≤ 255) ∧
      parse discover.build = .ok discover :=
  ⟨by decide, (parse_build discover).2.1 (by decide)⟩

/-- The parser is never out of range. -/
lemma parse_ne_panic (buf : Bytes) : parse buf ≠ .error .panic := by
  intro h
  by_cases hlen : buf.length < minLen
  · obtain ⟨e, he⟩ := parse_of_short hlen
    cases h.symm.trans he
  obtain ⟨m, cookie, rest, rfl⟩ := exists_header_append (not_lt.mp hlen)
  rw [parse_header_append] at h
  split at h
  · cases h
  · match hopts : parseOptions rest with
    | .ok opts =>
      rw [hopts] at h
      cases h
    | .error e =>
      rw [hopts] at h
      cases h
      exact parseOptions_ne_panic rest hopts

/-- The parser accepts exactly the frames of at least 240 bytes with the cookie at offset 236 whose
rest is a stream of options, it returns these options, and it is never out of range. -/
theorem parse_accepts (buf : Bytes) :
    ((∃ m, parse buf = .ok m) ↔
      minLen ≤ buf.length ∧ (buf.drop cookieOffset).take 4 = magicCookie ∧
        ∃ opts, OptionStream (buf.drop minLen) opts) ∧
      (∀ m, parse buf = .ok m →
        ∀ opts, OptionStream (buf.drop minLen) opts ↔ opts = m.options) ∧
      parse buf ≠ .error .panic := by
  have hsound (m : Dhcp4Message) (h : parse buf = .ok m) :
      minLen ≤ buf.length ∧ (buf.drop cookieOffset).take 4 = magicCookie ∧
        OptionStream (buf.drop minLen) m.options := by
    obtain ⟨rest, rfl, hstream⟩ := exists_of_parse_eq_ok h
    have hrest : (m.header ++ (magicCookie ++ rest)).drop minLen = rest := by
      rw [← List.append_assoc, List.drop_left' (by simp [magicCookie])]
    rw [List.drop_left' (length_header m), List.take_left' (by rfl), hrest]
    exact ⟨by simp [magicCookie], rfl, hstream⟩
  refine ⟨⟨?_, ?_⟩, ?_, parse_ne_panic buf⟩
  · rintro ⟨m, hm⟩
    obtain ⟨hlen, hcookie, hopts⟩ := hsound m hm
    exact ⟨hlen, hcookie, m.options, hopts⟩
  · rintro ⟨hlen, hcookie, opts, hopts⟩
    obtain ⟨m, hm, -⟩ := exists_parse_eq_ok hlen hcookie hopts
    exact ⟨m, hm⟩
  · intro m hm opts
    obtain ⟨hlen, hcookie, hm'⟩ := hsound m hm
    constructor
    · intro hopts
      exact Except.ok.inj ((parseOptions_eq_ok_iff.mpr hopts).symm.trans
        (parseOptions_eq_ok_iff.mpr hm'))
    · rintro rfl
      exact hm'

end Dhcp4Message

end Nomina
