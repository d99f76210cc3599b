import Nomina.State
import Nomina.Lib.Utf8

/-!
# DHCP option values

`encode_option` of `dhcp/options.rs`, which turns the text of an option into the bytes it is sent as.
Hexadecimal values are decoded by slicing the text two bytes at a time and reading each slice with the
integer parser of the standard library; what this accepts, refuses and panics on is compared with the
texts of hexadecimal digits.
-/

namespace Nomina

open Lib

/-! ## Encoding -/

/-- An error about an option: `option {code}: {what} {text}` with the text in backquotes. -/
def invalidOption {α : Type} (code : ℕ) (what text : Str) : Reader α :=
  Reader.fail ("option ".toList ++ Nat.toDigits 10 code ++ ": ".toList ++ what ++ " `".toList ++ text ++
    "`".toList)

/-- `ip_bytes`. -/
def ipBytes : IpAddr → Bytes
  | .v4 a => toBeBytes 4 a.toNat
  | .v6 a => toBeBytes 16 a.toNat

/-- Read an address of an option. -/
def parseOptionIp (code : ℕ) (shown text : Str) : Reader IpAddr :=
  match parseIpAddr text with
  | some ip => .ok ip
  | none => invalidOption code "invalid IP" shown

/-- `parse_int` for an unsigned type of `k` bytes, with `to_be_bytes` of the result. -/
def parseIntBytes (k : ℕ) (s : Str) (code : ℕ) : Reader Bytes :=
  match fromStrRadix 10 (256 ^ k - 1) (trim s) with
  | some v => .ok (toBeBytes k v)
  | none => invalidOption code "invalid integer" s

/-- `parse_bool`. -/
def parseBool (s : Str) (code : ℕ) : Reader Bool :=
  let word := toAsciiLowercase (trim s)
  if ["true".toList, "1".toList, "yes".toList, "on".toList].contains word then .ok true
  else if ["false".toList, "0".toList, "no".toList, "off".toList].contains word then .ok false
  else invalidOption code "invalid bool" s

/-- The characters that `decode_hex` drops. -/
def isSeparator (c : Char) : Bool :=
  c == ':' || c == ' ' || c == '-' || c == '\t' || c == '\n' || c == '\r'

/-- The text that `decode_hex` decodes. -/
def cleanHex (s : Str) : Str :=
  s.filter fun c => !isSeparator c

/-- The loop of `decode_hex` over the text that is left, which has that many pairs of bytes. -/
def decodePairs (code : ℕ) : (pairs : ℕ) → Str → Reader Bytes
  | 0, _ => .ok []
  | pairs + 1, s =>
    match splitAtByte 2 s with
    | none => .error .panic
    | some (pair, rest) =>
      match fromStrRadix 16 255 pair with
      | none => invalidOption code "invalid hex" pair
      | some b => (decodePairs code pairs rest).map (UInt8.ofNat b :: ·)

/-- `decode_hex`. -/
def decodeHex (s : Str) (code : ℕ) : Reader Bytes :=
  let len := (asBytes (cleanHex s)).length
  if len % 2 ≠ 0 then
    Reader.fail ("option ".toList ++ Nat.toDigits 10 code ++
      ": hex needs an even number of digits".toList)
  else decodePairs code (len / 2) (cleanHex s)

/-- `encode_option`. -/
def encodeOption (opt : DhcpOption) : Reader Bytes :=
  match opt.kind with
  | .Ip => (parseOptionIp opt.code opt.value (trim opt.value)).map ipBytes
  | .IpList => do
    let toks := (opt.value.splitOnP fun c => c == ',' || isWhitespace c).filter (!·.isEmpty)
    let ips ← toks.mapM fun tok => parseOptionIp opt.code tok tok
    let out := ips.flatMap ipBytes
    if out.isEmpty then
      Reader.fail ("option ".toList ++ Nat.toDigits 10 opt.code ++ ": empty IP list".toList)
    else return out
  | .U8 => parseIntBytes 1 opt.value opt.code
  | .U16 => parseIntBytes 2 opt.value opt.code
  | .U32 => parseIntBytes 4 opt.value opt.code
  | .Bool => (parseBool opt.value opt.code).map fun b => [if b then 1 else 0]
  | .Text => .ok (asBytes opt.value)
  | .Hex => decodeHex opt.value opt.code

/-- `encode_option(opt).ok()`. -/
def encoded? (opt : DhcpOption) : Option Bytes :=
  match encodeOption opt with
  | .ok bytes => some bytes
  | .error _ => none

/-! ## Texts of pairs -/

/-- Two hexadecimal digits and the byte they denote. -/
def HexPair (a b : Char) (v : UInt8) : Prop :=
  ∃ x y, toDigit 16 a = some x ∧ toDigit 16 b = some y ∧ v = UInt8.ofNat (x * 16 + y)

/-- Two characters that the integer parser reads as a byte: digits, or a plus sign and a digit. -/
def RadixPair (a b : Char) (v : UInt8) : Prop :=
  HexPair a b v ∨ a = '+' ∧ ∃ y, toDigit 16 b = some y ∧ v = UInt8.ofNat y

/-- A text of pairs of characters and the bytes they denote. -/
inductive PairText (P : Char → Char → UInt8 → Prop) : Str → Bytes → Prop
  | nil : PairText P [] []
  | pair {a b : Char} {v : UInt8} {s : Str} {bytes : Bytes} :
      P a b v → PairText P s bytes → PairText P (a :: b :: s) (v :: bytes)

/-- The texts of an even number of hexadecimal digits, with the bytes they denote pairwise. -/
abbrev HexText : Str → Bytes → Prop := PairText HexPair

/-- The texts whose pairs the integer parser reads. -/
abbrev RadixText : Str → Bytes → Prop := PairText RadixPair

/-- The decoder meets a pair boundary inside a character: behind some pairs that it reads (which may
be none) a character covers the offset two bytes on. -/
def CutsCharacter (s : Str) : Prop :=
  ∃ p q bytes, s = p ++ q ∧ RadixText p bytes ∧ Straddles 2 q

section

variable {P Q : Char → Char → UInt8 → Prop} {s : Str} {bytes : Bytes} {code : ℕ}

lemma PairText.imp (h : ∀ a b v, P a b v → Q a b v) (hs : PairText P s bytes) : PairText Q s bytes := by
  induction hs with
  | nil => exact .nil
  | pair hpair _ ih => exact .pair (h _ _ _ hpair) ih

/-- A hexadecimal digit is below 16. -/
lemma lt_of_toDigit {radix : ℕ} {c : Char} {d : ℕ} (h : toDigit radix c = some d) : d < radix := by
  unfold toDigit at h
  dsimp only at h
  rw [Option.ite_none_right_eq_some] at h
  cases h.2
  exact h.1

/-- What the integer parser reads from a slice of two bytes, it reads from two characters. -/
lemma radixPair_of_fromStrRadix (hlen : (asBytes s).length = 2) {n : ℕ}
    (h : fromStrRadix 16 255 s = some n) : ∃ a b, s = [a, b] ∧ RadixPair a b (UInt8.ofNat n) := by
  obtain ⟨digits, ds, hne, hs, hds, hn, -⟩ := fromStrRadix_eq_some_iff.mp h
  have hbytes := length_asBytes_of_digits hds
  rcases hs with rfl | rfl
  · -- Two digits.
    obtain ⟨a, b, rfl⟩ := List.length_eq_two.mp (hbytes.symm.trans hlen)
    simp only [List.mapM_cons, List.mapM_nil, Option.bind_eq_bind, Option.bind_eq_some_iff] at hds
    obtain ⟨x, hx, _, ⟨y, hy, _, hnil, hys⟩, hds⟩ := hds
    cases hnil
    cases hys
    cases hds
    refine ⟨a, b, rfl, .inl ⟨x, y, hx, hy, ?_⟩⟩
    rw [← hn]
    simp [ofDigitsBE]
  · -- A plus sign and one digit.
    have hone : digits.length = 1 := by
      rw [length_asBytes_cons, hbytes] at hlen
      have hplus : '+'.utf8Size = 1 := rfl
      omega
    obtain ⟨b, rfl⟩ := List.length_eq_one_iff.mp hone
    simp only [List.mapM_cons, List.mapM_nil, Option.bind_eq_bind, Option.bind_eq_some_iff] at hds
    obtain ⟨y, hy, _, hnil, hds⟩ := hds
    cases hnil
    cases hds
    refine ⟨'+', b, rfl, .inr ⟨rfl, y, hy, ?_⟩⟩
    rw [← hn]
    simp [ofDigitsBE]

/-- The pairs that the integer parser reads. -/
lemma fromStrRadix_of_radixPair {a b : Char} {v : UInt8} (h : RadixPair a b v) :
    ∃ n, fromStrRadix 16 255 [a, b] = some n ∧ v = UInt8.ofNat n := by
  rcases h with ⟨x, y, hx, hy, rfl⟩ | ⟨rfl, y, hy, rfl⟩
  · refine ⟨x * 16 + y, ?_, rfl⟩
    have hxlt := lt_of_toDigit hx
    have hylt := lt_of_toDigit hy
    refine fromStrRadix_eq_some_iff.mpr ⟨[a, b], [x, y], by simp, .inl rfl, ?_, ?_, by omega⟩
    · simp [hx, hy]
    · simp [ofDigitsBE]
  · refine ⟨y, ?_, rfl⟩
    have hylt := lt_of_toDigit hy
    refine fromStrRadix_eq_some_iff.mpr ⟨[b], [y], by simp, .inr rfl, ?_, ?_, by omega⟩
    · simp [hy]
    · simp [ofDigitsBE]

/-- The characters of a pair take one byte each. -/
lemma RadixPair.utf8Size {a b : Char} {v : UInt8} (h : RadixPair a b v) :
    a.utf8Size = 1 ∧ b.utf8Size = 1 := by
  rcases h with ⟨x, y, hx, hy, -⟩ | ⟨rfl, y, hy, -⟩
  · exact ⟨utf8Size_of_toDigit hx, utf8Size_of_toDigit hy⟩
  · exact ⟨rfl, utf8Size_of_toDigit hy⟩

/-- The slice of two bytes at the front of a pair is the pair. -/
lemma splitAtByte_radixPair {a b : Char} {v : UInt8} (h : RadixPair a b v) (s : Str) :
    splitAtByte 2 (a :: b :: s) = some ([a, b], s) := by
  obtain ⟨ha, hb⟩ := h.utf8Size
  cases s <;> simp [splitAtByte, ha, hb]

/-- A pair denotes one byte. -/
lemma RadixPair.unique {a b : Char} {v w : UInt8} (hv : RadixPair a b v) (hw : RadixPair a b w) :
    v = w := by
  obtain ⟨n, hn, rfl⟩ := fromStrRadix_of_radixPair hv
  obtain ⟨m, hm, rfl⟩ := fromStrRadix_of_radixPair hw
  rw [Option.some.inj (hn.symm.trans hm)]

/-- No character covers the boundary behind a pair. -/
lemma RadixPair.not_straddles {a b : Char} {v : UInt8} (h : RadixPair a b v) (s : Str) :
    ¬Straddles 2 (a :: b :: s) := by
  intro hcut
  have hnone := splitAtByte_eq_none_iff.mpr (.inr hcut)
  rw [splitAtByte_radixPair h] at hnone
  cases hnone

/-! ## The loop -/

/-- One round of the loop: it reads a pair and goes on, panics inside a character, or refuses. -/
lemma decodePairs_cases (code : ℕ) {pairs : ℕ} {s : Str} (hlen : (asBytes s).length = 2 * (pairs + 1)) :
    (∃ a b v rest, s = a :: b :: rest ∧ RadixPair a b v ∧ (asBytes rest).length = 2 * pairs ∧
      decodePairs code (pairs + 1) s = (decodePairs code pairs rest).map (v :: ·)) ∨
    (Straddles 2 s ∧ decodePairs code (pairs + 1) s = .error .panic) ∨
    ((∀ a b v rest, s = a :: b :: rest → ¬RadixPair a b v) ∧ ¬Straddles 2 s ∧
      ∃ e, decodePairs code (pairs + 1) s = Reader.fail e) := by
  simp only [decodePairs]
  cases hsplit : splitAtByte 2 s with
  | none =>
    have hcut : Straddles 2 s := (splitAtByte_eq_none_iff.mp hsplit).resolve_left (by omega)
    exact .inr (.inl ⟨hcut, rfl⟩)
  | some parts =>
    obtain ⟨pair, rest⟩ := parts
    obtain ⟨rfl, hpair⟩ := splitAtByte_eq_some hsplit
    have hrest : (asBytes rest).length = 2 * pairs := by
      rw [asBytes_append, List.length_append, hpair] at hlen
      omega
    dsimp only
    cases hread : fromStrRadix 16 255 pair with
    | some n =>
      obtain ⟨a, b, rfl, hab⟩ := radixPair_of_fromStrRadix hpair hread
      exact .inl ⟨a, b, _, rest, rfl, hab, hrest, rfl⟩
    | none =>
      refine .inr (.inr ⟨?_, ?_, _, rfl⟩)
      · intro a b v rest' hs hab
        rw [hs, splitAtByte_radixPair hab] at hsplit
        cases hsplit
        obtain ⟨n, hn, -⟩ := fromStrRadix_of_radixPair hab
        cases hread.symm.trans hn
      · intro hcut
        rw [splitAtByte_eq_none_iff.mpr (.inr hcut)] at hsplit
        cases hsplit

/-- The loop decodes exactly the texts whose pairs the integer parser reads. -/
lemma decodePairs_eq_ok_iff {pairs : ℕ} (hlen : (asBytes s).length = 2 * pairs) :
    decodePairs code pairs s = .ok bytes ↔ RadixText s bytes := by
  induction pairs generalizing s bytes with
  | zero =>
    obtain rfl := eq_nil_of_length_asBytes hlen
    unfold decodePairs
    constructor
    · intro h
      cases h
      exact .nil
    · intro h
      cases h
      rfl
  | succ pairs ih =>
    rcases decodePairs_cases code hlen with ⟨a, b, v, rest, rfl, hab, hrest, hrun⟩ |
      ⟨hcut, hrun⟩ | ⟨hnone, -, e, hrun⟩
    · rw [hrun]
      constructor
      · intro h
        cases hres : decodePairs code pairs rest with
        | error e =>
          rw [hres] at h
          cases h
        | ok bs =>
          rw [hres] at h
          cases h
          exact .pair hab ((ih hrest).mp hres)
      · intro h
        cases h with
        | pair hab' hbs =>
          rw [(ih hrest).mpr hbs, hab.unique hab']
          rfl
    · rw [hrun]
      refine iff_of_false (by simp) fun h => ?_
      cases h with
      | nil => simp at hlen
      | pair hab _ => exact hab.not_straddles _ hcut
    · rw [hrun]
      refine iff_of_false (by simp [Reader.fail]) fun h => ?_
      cases h with
      | nil => simp at hlen
      | pair hab _ => exact hnone _ _ _ _ rfl hab

/-- Reading a pair neither makes nor hides a cut behind it. -/
lemma RadixPair.cutsCharacter_iff {a b : Char} {v : UInt8} (h : RadixPair a b v) (s : Str) :
    CutsCharacter (a :: b :: s) ↔ CutsCharacter s := by
  constructor
  · rintro ⟨p, q, bytes, hs, hp, hcut⟩
    cases hp with
    | nil =>
      rw [List.nil_append] at hs
      exact absurd (hs ▸ hcut) (h.not_straddles s)
    | pair hab hp =>
      cases hs
      exact ⟨_, q, _, rfl, hp, hcut⟩
  · rintro ⟨p, q, bytes, rfl, hp, hcut⟩
    exact ⟨a :: b :: p, q, v :: bytes, rfl, .pair h hp, hcut⟩

/-- The loop panics exactly at a pair boundary inside a character. -/
lemma decodePairs_eq_panic_iff {pairs : ℕ} (hlen : (asBytes s).length = 2 * pairs) :
    decodePairs code pairs s = .error .panic ↔ CutsCharacter s := by
  induction pairs generalizing s with
  | zero =>
    obtain rfl := eq_nil_of_length_asBytes hlen
    refine iff_of_false (by simp [decodePairs]) ?_
    rintro ⟨p, q, bytes, hs, -, a, c, b, hq, -⟩
    rw [hq] at hs
    simp at hs
  | succ pairs ih =>
    rcases decodePairs_cases code hlen with ⟨a, b, v, rest, rfl, hab, hrest, hrun⟩ |
      ⟨hcut, hrun⟩ | ⟨hnone, hstraddle, e, hrun⟩
    · rw [hrun, hab.cutsCharacter_iff, ← ih hrest]
      cases decodePairs code pairs rest <;> simp [Except.map]
    · rw [hrun]
      exact iff_of_true rfl ⟨[], s, [], rfl, .nil, hcut⟩
    · rw [hrun]
      refine iff_of_false (by simp [Reader.fail]) ?_
      rintro ⟨p, q, bytes, rfl, hp, hcut⟩
      cases hp with
      | nil => exact hstraddle hcut
      | pair hab _ => exact hnone _ _ _ _ rfl hab

/-! ## Hexadecimal values -/

/-- A text of digits is one that the integer parser reads, without a plus sign. -/
lemma hexText_iff : HexText s bytes ↔ RadixText s bytes ∧ '+' ∉ s := by
  constructor
  · intro h
    refine ⟨h.imp fun a b v => .inl, ?_⟩
    induction h with
    | nil => exact List.not_mem_nil
    | pair hab _ ih =>
      obtain ⟨x, y, hx, hy, -⟩ := hab
      rw [List.mem_cons, List.mem_cons, not_or, not_or]
      refine ⟨?_, ?_, ih⟩
      · rintro rfl
        rw [toDigit_plus] at hx
        cases hx
      · rintro rfl
        rw [toDigit_plus] at hy
        cases hy
  · rintro ⟨h, hplus⟩
    induction h with
    | nil => exact .nil
    | pair hab _ ih =>
      rw [List.mem_cons, List.mem_cons, not_or, not_or] at hplus
      exact .pair (hab.resolve_right fun h => hplus.1 h.1.symm) (ih hplus.2.2)

/-- Pairs take an even number of bytes. -/
lemma even_of_radixText (h : RadixText s bytes) : (asBytes s).length % 2 = 0 := by
  induction h with
  | nil => rfl
  | pair hab _ ih =>
    obtain ⟨ha, hb⟩ := hab.utf8Size
    rw [length_asBytes_cons, length_asBytes_cons, ha, hb]
    omega

/-- Decoding succeeds exactly on the texts whose pairs the integer parser reads. -/
lemma decodeHex_eq_ok_iff : decodeHex s code = .ok bytes ↔ RadixText (cleanHex s) bytes := by
  unfold decodeHex
  dsimp only
  split
  · rename_i hodd
    exact iff_of_false (by simp [Reader.fail]) fun h => hodd (even_of_radixText h)
  · rename_i heven
    exact decodePairs_eq_ok_iff (by omega)

/-- Decoding panics on the texts of even length with a pair boundary inside a character. -/
def PanicsHex (s : Str) : Prop :=
  (asBytes (cleanHex s)).length % 2 = 0 ∧ CutsCharacter (cleanHex s)

lemma decodeHex_eq_panic_iff : decodeHex s code = .error .panic ↔ PanicsHex s := by
  unfold decodeHex PanicsHex
  dsimp only
  split
  · rename_i hodd
    exact iff_of_false (by simp [Reader.fail]) fun h => hodd h.1
  · rename_i heven
    rw [decodePairs_eq_panic_iff (by omega)]
    exact (and_iff_right (not_not.mp heven)).symm

/-- Decoding a value follows its digits: it does not panic, and it returns bytes exactly when the text
without separators is an even number of hexadecimal digits that denote them pairwise; it refuses every
other text. -/
structure FollowsDigits (s : Str) (code : ℕ) : Prop where
  noPanic : decodeHex s code ≠ .error .panic
  ok_iff : ∀ bytes, decodeHex s code = .ok bytes ↔ HexText (cleanHex s) bytes
  err : (¬∃ bytes, HexText (cleanHex s) bytes) → ∃ e, decodeHex s code = Reader.fail e

/-- Decoding follows the digits exactly when no pair boundary is inside a character and, if there is a
plus sign, some pair is neither two digits nor a plus sign and a digit. -/
theorem followsDigits_iff (s : Str) (code : ℕ) : FollowsDigits s code ↔
    ¬PanicsHex s ∧ ('+' ∈ cleanHex s → ¬∃ bytes, RadixText (cleanHex s) bytes) := by
  constructor
  · intro h
    refine ⟨fun hpanic => h.noPanic (decodeHex_eq_panic_iff.mpr hpanic), ?_⟩
    rintro hplus ⟨bytes, hbytes⟩
    have hhex := (h.ok_iff bytes).mp (decodeHex_eq_ok_iff.mpr hbytes)
    exact (hexText_iff.mp hhex).2 hplus
  · rintro ⟨hpanic, hplus⟩
    have hne : decodeHex s code ≠ .error .panic := fun h => hpanic (decodeHex_eq_panic_iff.mp h)
    have hok : ∀ bytes, decodeHex s code = .ok bytes ↔ HexText (cleanHex s) bytes := by
      intro bytes
      rw [decodeHex_eq_ok_iff, hexText_iff]
      exact ⟨fun h => ⟨h, fun hmem => hplus hmem ⟨bytes, h⟩⟩, fun h => h.1⟩
    refine ⟨hne, hok, fun hnone => ?_⟩
    cases hres : decodeHex s code with
    | ok bytes => exact absurd ⟨bytes, (hok bytes).mp hres⟩ hnone
    | error e =>
      cases e with
      | panic => exact absurd hres hne
      | error message => exact ⟨message, rfl⟩

/-- A plus sign is taken for a digit, and a character of three bytes stops the decoder. -/
theorem not_followsDigits_plus : ¬FollowsDigits "+f" 43 ∧ ¬FollowsDigits "a€" 43 ∧
    decodeHex "+f" 43 = .ok [15] ∧ decodeHex "a€" 43 = .error .panic := by
  have hplus : decodeHex "+f" 43 = .ok [15] := by decide +kernel
  have hcut : decodeHex "a€" 43 = .error .panic := by decide +kernel
  refine ⟨fun h => ?_, fun h => h.noPanic hcut, hplus, hcut⟩
  exact (hexText_iff.mp ((h.ok_iff [15]).mp hplus)).2 (by decide)

end

/-! ## Values that cannot be encoded -/

/-- Encoding an option panics when it is entered in hexadecimal and decoding its value panics. -/
def PanicsOption (opt : DhcpOption) : Prop :=
  opt.kind = .Hex ∧ PanicsHex opt.value

lemma parseOptionIp_ne_panic (code : ℕ) (shown text : Str) :
    parseOptionIp code shown text ≠ .error .panic := by
  unfold parseOptionIp
  split <;> simp [invalidOption, Reader.fail]

lemma parseIntBytes_ne_panic (k : ℕ) (s : Str) (code : ℕ) :
    parseIntBytes k s code ≠ .error .panic := by
  unfold parseIntBytes
  split <;> simp [invalidOption, Reader.fail]

lemma parseBool_ne_panic (s : Str) (code : ℕ) : parseBool s code ≠ .error .panic := by
  unfold parseBool
  dsimp only
  split_ifs <;> simp [invalidOption, Reader.fail]

/-- Nothing else of the encoder panics. -/
lemma encodeOption_eq_panic_iff {opt : DhcpOption} :
    encodeOption opt = .error .panic ↔ PanicsOption opt := by
  unfold encodeOption PanicsOption
  cases opt.kind with
  | Hex => simp [decodeHex_eq_panic_iff]
  | Ip => exact iff_of_false (Reader.map_ne_panic (parseOptionIp_ne_panic _ _ _)) (by simp)
  | IpList =>
    refine iff_of_false (Reader.bind_ne_panic ?_ fun ips => ?_) (by simp)
    · exact Reader.mapM_ne_panic (fun tok => parseOptionIp_ne_panic opt.code tok tok) _
    · dsimp only
      split <;> simp [Reader.fail, pure, Except.pure]
  | U8 => exact iff_of_false (parseIntBytes_ne_panic _ _ _) (by simp)
  | U16 => exact iff_of_false (parseIntBytes_ne_panic _ _ _) (by simp)
  | U32 => exact iff_of_false (parseIntBytes_ne_panic _ _ _) (by simp)
  | Bool => exact iff_of_false (Reader.map_ne_panic (parseBool_ne_panic _ _)) (by simp)
  | Text => exact iff_of_false (by simp) (by simp)

/-! ## Options that are accepted -/

/-- `validate_dhcp_options`: every option can be encoded. -/
def Api.validateDhcpOptions : List DhcpOption → Except AppError Unit
  | [] => .ok ()
  | o :: options =>
    match encodeOption o with
    | .ok _ => validateDhcpOptions options
    | .error (.error e) => .error (.validation "options"
        ("option ".toList ++ Nat.toDigits 10 o.code ++ ": ".toList ++ e))
    | .error .panic => .error .panic

/-- Every option of an accepted list can be encoded. -/
lemma exists_encodeOption_of_accepted {opts : List DhcpOption} (h : Api.validateDhcpOptions opts = .ok ())
    {opt : DhcpOption} (hopt : opt ∈ opts) : ∃ bytes, encodeOption opt = .ok bytes := by
  induction opts with
  | nil => exact absurd hopt List.not_mem_nil
  | cons o opts ih =>
    unfold Api.validateDhcpOptions at h
    split at h
    · rename_i bytes hbytes
      rcases List.mem_cons.mp hopt with rfl | hopt
      · exact ⟨bytes, hbytes⟩
      · exact ih h hopt
    · cases h
    · cases h

/-- So none of them panics. -/
lemma not_panicsOption_of_accepted {opts : List DhcpOption} (h : Api.validateDhcpOptions opts = .ok ())
    {opt : DhcpOption} (hopt : opt ∈ opts) : ¬PanicsOption opt := by
  intro hpanic
  obtain ⟨bytes, hbytes⟩ := exists_encodeOption_of_accepted h hopt
  rw [encodeOption_eq_panic_iff.mpr hpanic] at hbytes
  cases hbytes

end Nomina
