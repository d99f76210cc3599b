import Nomina.Lib.Bytes

/-!
# Texts as bytes

The UTF-8 bytes of a text, slices of a text at byte offsets, and the integers that
`from_str_radix` reads. A slice that ends inside a character has no text; this is where Rust panics.
-/

namespace Lib

/-- `str::as_bytes`. -/
def asBytes (s : Str) : Bytes :=
  s.flatMap String.utf8EncodeChar

/-- `&s[..n]` and `&s[n..]`, unless `n` is past the end or inside a character. -/
def splitAtByte (n : ℕ) : Str → Option (Str × Str)
  | [] => if n = 0 then some ([], []) else none
  | c :: s =>
    if n = 0 then some ([], c :: s)
    else if c.utf8Size ≤ n then (splitAtByte (n - c.utf8Size) s).map fun p => (c :: p.1, p.2)
    else none

/-- The text behind a plus sign, if it starts with one. -/
def dropPlus : Str → Str
  | '+' :: s => s
  | s => s

/-- `from_str_radix` of an unsigned integer type with the largest value `bound`: digits, with or
without a plus sign before them. -/
def fromStrRadix (radix bound : ℕ) (s : Str) : Option ℕ :=
  let digits := dropPlus s
  if digits.isEmpty then none
  else ((digits.mapM (toDigit radix)).map (ofDigitsBE radix)).filter (· ≤ bound)

/-! ## Lengths -/

@[simp] lemma asBytes_nil : asBytes [] = [] := rfl

@[simp] lemma asBytes_append (s t : Str) : asBytes (s ++ t) = asBytes s ++ asBytes t :=
  List.flatMap_append

@[simp] lemma length_asBytes_cons (c : Char) (s : Str) :
    (asBytes (c :: s)).length = c.utf8Size + (asBytes s).length := by
  simp [asBytes]

/-- An ASCII character is the character of its byte. -/
lemma ofNat_byte {c : Char} (h : c.toNat < 128) :
    Char.ofNat (UInt8.ofNat c.toNat).toNat = c := by
  have hbyte : (UInt8.ofNat c.toNat).toNat = c.toNat := by
    rw [UInt8.toNat_ofNat']
    omega
  rw [hbyte, Char.ofNat_toNat]

/-- The bytes of ASCII text are those of its characters. -/
lemma asBytes_of_ascii {s : Str} (h : ∀ c ∈ s, c.toNat < 128) :
    asBytes s = s.map fun c => UInt8.ofNat c.toNat := by
  unfold asBytes
  rw [List.map_eq_flatMap]
  refine List.flatMap_congr fun c hc => ?_
  have hlt : c.val.toNat ≤ 0x7f := Nat.lt_succ_iff.mp (h c hc)
  unfold String.utf8EncodeChar
  dsimp only
  rw [if_pos hlt]
  rfl

/-- A text without bytes is empty. -/
lemma eq_nil_of_length_asBytes {s : Str} (h : (asBytes s).length = 0) : s = [] := by
  cases s with
  | nil => rfl
  | cons c s =>
    rw [length_asBytes_cons] at h
    have := c.utf8Size_pos
    omega

/-- A digit is an ASCII character. -/
lemma utf8Size_of_toDigit {radix : ℕ} {c : Char} {d : ℕ} (h : toDigit radix c = some d) :
    c.utf8Size = 1 := by
  have hz : c ≤ 'z' := by
    by_contra hz
    have hdigit : ¬('0' ≤ c ∧ c ≤ '9') := fun hc => hz (hc.2.trans (by decide))
    have hlower : ¬('a' ≤ c ∧ c ≤ 'z') := fun hc => hz hc.2
    have hupper : ¬('A' ≤ c ∧ c ≤ 'Z') := fun hc => hz (hc.2.trans (by decide))
    unfold toDigit at h
    rw [if_neg hdigit, if_neg hlower, if_neg hupper, if_neg (lt_irrefl radix)] at h
    cases h
  rw [Char.utf8Size_eq_one_iff]
  exact UInt32.le_trans hz (by decide)

/-- Digits take one byte each. -/
lemma length_asBytes_of_digits {radix : ℕ} {digits : Str} {ds : List ℕ}
    (h : digits.mapM (toDigit radix) = some ds) : (asBytes digits).length = digits.length := by
  induction digits generalizing ds with
  | nil => rfl
  | cons c digits ih =>
    rw [List.mapM_cons] at h
    obtain ⟨d, hd, hrest⟩ := Option.bind_eq_some_iff.mp h
    obtain ⟨ds', hds', -⟩ := Option.bind_eq_some_iff.mp hrest
    rw [length_asBytes_cons, utf8Size_of_toDigit hd, ih hds', List.length_cons]
    omega

/-! ## Integers -/

/-- A plus sign is no digit. -/
lemma toDigit_plus (radix : ℕ) : toDigit radix '+' = none := by
  simp [toDigit]

/-- A text is what stands behind its plus sign, or has none. -/
lemma dropPlus_cases (s : Str) : s = dropPlus s ∨ s = '+' :: dropPlus s := by
  unfold dropPlus
  split
  · exact .inr rfl
  · exact .inl rfl

/-- Digits have no plus sign before them. -/
lemma dropPlus_of_digits {radix : ℕ} {digits : Str} {ds : List ℕ}
    (h : digits.mapM (toDigit radix) = some ds) : dropPlus digits = digits := by
  unfold dropPlus
  split
  · rw [List.mapM_cons, toDigit_plus] at h
    cases h
  · rfl

/-- The texts that are read as a number: its digits, with or without a plus sign. -/
lemma fromStrRadix_eq_some_iff {radix bound v : ℕ} {s : Str} :
    fromStrRadix radix bound s = some v ↔
      ∃ digits ds, digits ≠ [] ∧ (s = digits ∨ s = '+' :: digits) ∧
        digits.mapM (toDigit radix) = some ds ∧ ofDigitsBE radix ds = v ∧ v ≤ bound := by
  have hread : fromStrRadix radix bound s = some v ↔ dropPlus s ≠ [] ∧
      ∃ ds, (dropPlus s).mapM (toDigit radix) = some ds ∧ ofDigitsBE radix ds = v ∧ v ≤ bound := by
    unfold fromStrRadix
    rw [Option.ite_none_left_eq_some, Option.filter_eq_some_iff, Option.map_eq_some_iff,
      List.isEmpty_iff, decide_eq_true_eq]
    refine and_congr_right' ?_
    rw [← exists_and_right]
    exact exists_congr fun ds => and_assoc
  rw [hread]
  constructor
  · rintro ⟨hne, ds, hds, hv⟩
    exact ⟨dropPlus s, ds, hne, dropPlus_cases s, hds, hv⟩
  · rintro ⟨digits, ds, hne, rfl | rfl, hds, hv⟩
    · rw [dropPlus_of_digits hds]
      exact ⟨hne, ds, hds, hv⟩
    · exact ⟨hne, ds, hds, hv⟩

/-! ## Slices -/

/-- A character of the text covers the byte offset `n`: it starts before it and ends behind it. -/
def Straddles (n : ℕ) (s : Str) : Prop :=
  ∃ a c b, s = a ++ c :: b ∧ (asBytes a).length < n ∧ n < (asBytes a).length + c.utf8Size

/-- A text is split in two parts of which the first has the length asked for. -/
lemma splitAtByte_eq_some {n : ℕ} {s a b : Str} (h : splitAtByte n s = some (a, b)) :
    s = a ++ b ∧ (asBytes a).length = n := by
  induction s generalizing n a b with
  | nil =>
    unfold splitAtByte at h
    split at h
    · cases h
      exact ⟨rfl, by simp [*]⟩
    · cases h
  | cons c s ih =>
    unfold splitAtByte at h
    split_ifs at h with hzero hfits
    · cases h
      exact ⟨rfl, by simp [hzero]⟩
    · obtain ⟨⟨a', b'⟩, hsplit, hp⟩ := Option.map_eq_some_iff.mp h
      cases hp
      obtain ⟨rfl, hlen⟩ := ih hsplit
      refine ⟨rfl, ?_⟩
      rw [length_asBytes_cons, hlen]
      omega

/-- A text is not split past its end or inside a character. -/
lemma splitAtByte_eq_none_iff {n : ℕ} {s : Str} :
    splitAtByte n s = none ↔ (asBytes s).length < n ∨ Straddles n s := by
  induction s generalizing n with
  | nil =>
    unfold splitAtByte
    constructor
    · intro h
      split at h
      · cases h
      · exact .inl (Nat.pos_of_ne_zero ‹_›)
    · rintro (h | ⟨a, c, b, h, -⟩)
      · rw [if_neg (Nat.pos_iff_ne_zero.mp h)]
      · simp at h
  | cons c s ih =>
    unfold splitAtByte
    by_cases hzero : n = 0
    · subst hzero
      simp [Straddles]
    rw [if_neg hzero]
    by_cases hfits : c.utf8Size ≤ n
    · rw [if_pos hfits, Option.map_eq_none_iff, ih, length_asBytes_cons]
      refine or_congr (by omega) ?_
      constructor
      · rintro ⟨a, d, b, rfl, hstart, hend⟩
        exact ⟨c :: a, d, b, rfl, by rw [length_asBytes_cons]; omega, by rw [length_asBytes_cons]; omega⟩
      · rintro ⟨a, d, b, h, hstart, hend⟩
        cases a with
        | nil =>
          cases h
          rw [asBytes_nil, List.length_nil] at hend
          omega
        | cons e a =>
          cases h
          rw [length_asBytes_cons] at hstart hend
          exact ⟨a, d, b, rfl, by omega, by omega⟩
    · rw [if_neg hfits]
      refine iff_of_true rfl (.inr ⟨[], c, s, rfl, ?_, ?_⟩)
      · exact Nat.pos_of_ne_zero hzero
      · simpa using hfits

end Lib
