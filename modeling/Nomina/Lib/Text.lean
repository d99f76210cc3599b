import Mathlib.Algebra.GroupWithZero.Nat
import Mathlib.Algebra.Ring.Int.Defs
import Mathlib.Data.Char
import Mathlib.Data.List.DropRight
import Mathlib.Data.List.Lex
import Mathlib.Tactic.Common

/-!
# Text

Character strings as lists of characters, with the string operations of the Rust standard
library that a program on dotted names uses: ASCII case folding, trimming, splitting at a
separator, joining and suffix tests.

The last section relates splitting at a dot to the suffixes of a string that start right after a
dot: walking up the parts of `a.b.c` visits exactly `b.c` and `c`.
-/

namespace Lib

/-- A string, as the list of its characters. -/
abbrev Str := List Char

instance : Coe String Str := ⟨String.toList⟩

/-! ## ASCII case -/

/-- `str::to_ascii_lowercase`. -/
def toAsciiLowercase (s : Str) : Str :=
  s.map Char.toLower

/-- `str::to_ascii_uppercase`. -/
def toAsciiUppercase (s : Str) : Str :=
  s.map Char.toUpper

/-- `str::eq_ignore_ascii_case`. -/
def eqIgnoreAsciiCase (a b : Str) : Bool :=
  toAsciiLowercase a == toAsciiLowercase b

/-- Two strings are equal up to ASCII case exactly when they fold to the same string. -/
lemma eqIgnoreAsciiCase_iff {a b : Str} :
    eqIgnoreAsciiCase a b = true ↔ toAsciiLowercase a = toAsciiLowercase b := by
  simp [eqIgnoreAsciiCase]

/-- Folding a character twice is folding it once. -/
lemma toLower_toLower (c : Char) : c.toLower.toLower = c.toLower := by
  unfold Char.toLower
  grind

/-- Folding a string twice is folding it once. -/
@[simp] lemma toAsciiLowercase_idem (s : Str) :
    toAsciiLowercase (toAsciiLowercase s) = toAsciiLowercase s := by
  unfold toAsciiLowercase
  rw [List.map_map]
  exact List.map_congr_left fun c _ => toLower_toLower c

/-! ## Trimming -/

/-- The characters of the Unicode property `White_Space`, as `char::is_whitespace` has them. -/
def isWhitespace (c : Char) : Bool :=
  let n := c.toNat
  (0x9 ≤ n && n ≤ 0xd) || n == 0x20 || n == 0x85 || n == 0xa0 || n == 0x1680 ||
    (0x2000 ≤ n && n ≤ 0x200a) || n == 0x2028 || n == 0x2029 || n == 0x202f || n == 0x205f ||
    n == 0x3000

/-- `str::trim`. -/
def trim (s : Str) : Str :=
  (s.dropWhile isWhitespace).rdropWhile isWhitespace

/-- `str::trim_end_matches` with a single character. -/
def trimEndMatches (c : Char) (s : Str) : Str :=
  s.rdropWhile (· == c)

/-- Trimming a string without blanks leaves it alone. -/
lemma trim_eq_self {s : Str} (h : ∀ c ∈ s, isWhitespace c = false) : trim s = s := by
  have hfront : s.dropWhile isWhitespace = s := by
    cases s with
    | nil => rfl
    | cons c s => rw [List.dropWhile_cons_of_neg (by simp [h c List.mem_cons_self])]
  unfold trim
  rw [hfront, List.rdropWhile_eq_self_iff]
  intro hs
  simp [h _ (List.getLast_mem hs)]

/-- What is left after trimming is part of the string. -/
lemma trim_isInfix (s : Str) : trim s <:+: s :=
  (List.rdropWhile_prefix _ _).isInfix.trans (List.dropWhile_suffix _).isInfix

/-- A string that trimming leaves alone has no blank at its end. -/
lemma rdropWhile_of_trim {s : Str} (h : trim s = s) : s.rdropWhile isWhitespace = s := by
  have hidem := List.rdropWhile_idempotent isWhitespace (s.dropWhile isWhitespace)
  unfold trim at h
  rwa [h] at hidem

/-- A string that is trimmed at both ends starts with a character that stays. -/
lemma head?_trimmed {p : Char → Bool} {s : Str} {c : Char}
    (h : ((s.dropWhile p).rdropWhile p).head? = some c) : p c = false := by
  obtain ⟨rest, hrest⟩ := List.head?_eq_some_iff.mp h
  obtain ⟨t, ht⟩ := List.rdropWhile_prefix p (s.dropWhile p)
  have hhead := List.head?_dropWhile_not p s
  rw [← ht, hrest] at hhead
  exact hhead

/-- It ends with a character that stays. -/
lemma getLast?_rdropWhile {p : Char → Bool} {s : Str} {c : Char}
    (h : (s.rdropWhile p).getLast? = some c) : p c = false := by
  obtain ⟨front, hfront⟩ := List.getLast?_eq_some_iff.mp h
  have hlast := List.rdropWhile_last_not p s (by simp [hfront])
  simpa [hfront] using hlast

/-- Trimming twice is trimming once. -/
lemma trim_trim (s : Str) : trim (trim s) = trim s := by
  have hfront : (trim s).dropWhile isWhitespace = trim s := by
    cases hs : trim s with
    | nil => rfl
    | cons c rest =>
      have hc : isWhitespace c = false := head?_trimmed (s := s) (by
        change (trim s).head? = some c
        rw [hs]
        rfl)
      rw [List.dropWhile_cons_of_neg (by simp [hc])]
  change ((trim s).dropWhile isWhitespace).rdropWhile isWhitespace = trim s
  rw [hfront]
  exact List.rdropWhile_idempotent isWhitespace (s.dropWhile isWhitespace)

/-- Dropping from the end of a string with a part that stays. -/
lemma rdropWhile_append {p : Char → Bool} (s : Str) {t : Str} (h : t.rdropWhile p ≠ []) :
    (s ++ t).rdropWhile p = s ++ t.rdropWhile p := by
  unfold List.rdropWhile at h ⊢
  rw [List.reverse_append, List.dropWhile_append, if_neg (by simpa using h), List.reverse_append,
    List.reverse_reverse]

/-- Trimming a character twice is trimming it once. -/
@[simp] lemma trimEndMatches_idem (c : Char) (s : Str) :
    trimEndMatches c (trimEndMatches c s) = trimEndMatches c s := by
  unfold trimEndMatches
  exact List.rdropWhile_idempotent _ s

/-- What is trimmed at the end. -/
lemma exists_trimmed (c : Char) (s : Str) :
    ∃ k, s = trimEndMatches c s ++ List.replicate k c := by
  refine ⟨(s.rtakeWhile (· == c)).length, ?_⟩
  have hall : s.rtakeWhile (· == c) = List.replicate (s.rtakeWhile (· == c)).length c := by
    refine List.eq_replicate_of_mem fun d hd => ?_
    simpa using List.mem_rtakeWhile_imp hd
  rw [← hall]
  exact List.rdropWhile_append_rtakeWhile.symm

/-- The characters that are left when a character is trimmed were there before. -/
lemma mem_of_mem_trimEndMatches {c d : Char} {s : Str} (h : d ∈ trimEndMatches c s) : d ∈ s :=
  (List.rdropWhile_prefix _ s).subset h

/-- Folding moves the letters of the range `A` to `Z` and nothing else. -/
lemma toNat_toLower (c : Char) :
    c.toLower.toNat = if 65 ≤ c.toNat ∧ c.toNat ≤ 90 then c.toNat + 32 else c.toNat := by
  have hlow : 65 ≤ c.val ↔ 65 ≤ c.toNat := UInt32.le_iff_toNat_le
  have hhigh : c.val ≤ 90 ↔ c.toNat ≤ 90 := UInt32.le_iff_toNat_le
  unfold Char.toLower
  by_cases h : 65 ≤ c.toNat ∧ c.toNat ≤ 90
  · rw [if_pos h, dif_pos ⟨hlow.mpr h.1, hhigh.mpr h.2⟩]
    have hsum : (c.val + 32).toNat = c.val.toNat + 32 := by
      rw [UInt32.toNat_add]
      have : c.val.toNat ≤ 90 := h.2
      exact Nat.mod_eq_of_lt (by simp; omega)
    exact hsum
  · rw [if_neg h, dif_neg fun hv => h ⟨hlow.mp hv.1, hhigh.mp hv.2⟩]

/-- A character that is no letter is folded to itself, and no other one is folded to it. -/
lemma toLower_eq_iff {c d : Char} (hd : d.toNat < 65) : c.toLower = d ↔ c = d := by
  rw [← Char.toNat_inj, ← Char.toNat_inj, toNat_toLower]
  split <;> omega

/-- Folding commutes with the trimming of dots. -/
lemma trimEndMatches_toAsciiLowercase (s : Str) :
    trimEndMatches '.' (toAsciiLowercase s) = toAsciiLowercase (trimEndMatches '.' s) := by
  have hdot : (fun c : Char => c == '.') ∘ Char.toLower = fun c => c == '.' := by
    funext c
    rw [Function.comp_apply, Bool.eq_iff_iff, beq_iff_eq, beq_iff_eq, toLower_eq_iff (by decide)]
  unfold trimEndMatches toAsciiLowercase List.rdropWhile
  rw [← List.map_reverse, List.dropWhile_map, hdot, List.map_reverse]

/-- Folding turns no character into a blank. -/
lemma isWhitespace_toLower (c : Char) : isWhitespace c.toLower = isWhitespace c := by
  unfold isWhitespace
  dsimp only
  rw [toNat_toLower, Bool.eq_iff_iff]
  split
  · simp only [Bool.or_eq_true, Bool.and_eq_true, decide_eq_true_eq, beq_iff_eq]
    omega
  · rfl

/-- Folding commutes with the trimming of blanks. -/
lemma trim_toAsciiLowercase (s : Str) : trim (toAsciiLowercase s) = toAsciiLowercase (trim s) := by
  have hblank : isWhitespace ∘ Char.toLower = isWhitespace := funext isWhitespace_toLower
  unfold trim toAsciiLowercase List.rdropWhile
  rw [List.dropWhile_map, hblank, ← List.map_reverse, List.dropWhile_map, hblank, List.map_reverse]

/-! ## Splitting, joining and suffixes -/

/-- `str::split` with a single character. -/
def split (c : Char) (s : Str) : List Str :=
  s.splitOn c

/-- The parts between separators have no separator in them. -/
lemma forall_of_mem_splitOnP {p : Char → Bool} {s part : Str} (h : part ∈ s.splitOnP p) :
    ∀ c ∈ part, p c = false := by
  induction s generalizing part with
  | nil =>
    rw [List.splitOnP_nil, List.mem_singleton] at h
    rw [h]
    exact fun c hc => absurd hc List.not_mem_nil
  | cons d s ih =>
    rw [List.splitOnP_cons_eq_if_modifyHead] at h
    split at h
    · rcases List.mem_cons.mp h with rfl | h
      · exact fun c hc => absurd hc List.not_mem_nil
      · exact ih h
    · rename_i hd
      cases hparts : s.splitOnP p with
      | nil => exact absurd hparts (List.splitOnP_ne_nil _ _)
      | cons first rest =>
        rw [hparts, List.modifyHead_cons] at h
        rcases List.mem_cons.mp h with rfl | h
        · intro c hc
          rcases List.mem_cons.mp hc with rfl | hc
          · simpa using hd
          · refine ih ?_ c hc
            rw [hparts]
            exact List.mem_cons_self
        · refine ih ?_
          rw [hparts]
          exact List.mem_cons_of_mem _ h

/-- The parts of a split have no separator in them. -/
lemma notMem_of_mem_split {c : Char} {s part : Str} (h : part ∈ split c s) : c ∉ part := by
  intro hc
  have := forall_of_mem_splitOnP h c hc
  simp at this

/-- A string without the separator is one part. -/
lemma split_eq_singleton {c : Char} {s : Str} (h : c ∉ s) : split c s = [s] := by
  unfold split List.splitOn
  refine List.splitOnP_eq_singleton fun d hd => ?_
  rw [beq_eq_false_iff_ne]
  rintro rfl
  exact h hd

/-- The parts of a string with the separator in it are those before and those after it. -/
lemma split_append_cons (c : Char) (s t : Str) : split c (s ++ c :: t) = split c s ++ split c t :=
  List.splitOn_append_cons_self s t

/-- The `*` of a wildcard is a label. -/
lemma split_wildcard (s : Str) : split '.' ('*' :: '.' :: s) = ['*'] :: split '.' s :=
  split_append_cons '.' ['*'] s

lemma split_ne_nil (c : Char) (s : Str) : split c s ≠ [] :=
  List.splitOn_ne_nil c s

/-- `str::split_whitespace`. -/
def splitWhitespace (s : Str) : List Str :=
  (s.splitOnP isWhitespace).filter (fun part => !part.isEmpty)

/-- `str::split_once` with a single character. -/
def splitOnce (c : Char) (s : Str) : Option (Str × Str) :=
  if s.contains c then some (s.takeWhile (· != c), (s.dropWhile (· != c)).drop 1) else none

/-- A string is split at the first of the characters. -/
lemma splitOnce_append {c : Char} {a : Str} (h : c ∉ a) (b : Str) :
    splitOnce c (a ++ c :: b) = some (a, b) := by
  have hne : ∀ d ∈ a, (d != c) = true := by
    intro d hd
    rw [bne_iff_ne]
    rintro rfl
    exact h hd
  have hcontains : (a ++ c :: b).contains c = true := by simp
  unfold splitOnce
  rw [if_pos hcontains, List.takeWhile_append_of_pos hne, List.dropWhile_append_of_pos hne,
    List.takeWhile_cons_of_neg (by simp), List.dropWhile_cons_of_neg (by simp), List.append_nil]
  rfl

/-- `str::replace` of a single character by a string. -/
def replaceChar (c : Char) (by' s : Str) : Str :=
  s.flatMap fun d => if d == c then by' else [d]

/-- `[str]::join`. -/
def join (sep : Str) (parts : List Str) : Str :=
  sep.intercalate parts

/-- `str::ends_with`. -/
def endsWith (s suffix : Str) : Bool :=
  suffix.isSuffixOf s

/-- `str::strip_prefix`. -/
def stripPrefix (s pre : Str) : Option Str :=
  if pre.isPrefixOf s then some (s.drop pre.length) else none

lemma isSome_stripPrefix {s pre : Str} : (stripPrefix s pre).isSome = true ↔ pre <+: s := by
  unfold stripPrefix
  rw [← List.isPrefixOf_iff_prefix]
  split <;> simp_all

/-- `str::strip_suffix`. -/
def stripSuffix (s suffix : Str) : Option Str :=
  if suffix.isSuffixOf s then some (s.take (s.length - suffix.length)) else none

/-- A string ends with a suffix exactly when it is that suffix behind some prefix. -/
lemma endsWith_iff {s suffix : Str} :
    endsWith s suffix = true ↔ ∃ pre, s = pre ++ suffix := by
  unfold endsWith
  rw [List.isSuffixOf_iff_suffix]
  exact ⟨fun ⟨pre, h⟩ => ⟨pre, h.symm⟩, fun ⟨pre, h⟩ => ⟨pre, h.symm⟩⟩

/-- Stripping a suffix that was appended gives the string back. -/
@[simp] lemma stripSuffix_append (s suffix : Str) : stripSuffix (s ++ suffix) suffix = some s := by
  unfold stripSuffix
  have h : suffix.isSuffixOf (s ++ suffix) = true :=
    List.isSuffixOf_iff_suffix.mpr (List.suffix_append s suffix)
  simp [h]

/-- What is left when a suffix is stripped is what stands before it. -/
lemma stripSuffix_eq_some {s suffix rest : Str} :
    stripSuffix s suffix = some rest ↔ s = rest ++ suffix := by
  constructor
  · intro h
    unfold stripSuffix at h
    split at h
    · rename_i hsuffix
      obtain ⟨pre, rfl⟩ := List.isSuffixOf_iff_suffix.mp hsuffix
      cases h
      simp
    · cases h
  · rintro rfl
    exact stripSuffix_append rest suffix

/-- Folding a joined string folds the separator and the parts. -/
lemma toAsciiLowercase_join (sep : Str) (parts : List Str) :
    toAsciiLowercase (join sep parts) =
      join (toAsciiLowercase sep) (parts.map toAsciiLowercase) := by
  unfold join toAsciiLowercase
  induction parts with
  | nil => rfl
  | cons p ps ih =>
    cases ps with
    | nil => simp
    | cons q ps => simp only [List.intercalate_cons_cons, List.map_append, ih, List.map_cons]

/-- Joining two nonempty lists of parts puts one separator between the two joins. -/
lemma join_append (sep : Str) {as bs : List Str} (ha : as ≠ []) (hb : bs ≠ []) :
    join sep (as ++ bs) = join sep as ++ sep ++ join sep bs := by
  unfold join
  induction as with
  | nil => exact absurd rfl ha
  | cons a as ih =>
    by_cases h : as = []
    · subst h
      simp [List.intercalate_cons_of_ne_nil hb]
    · rw [List.cons_append, List.intercalate_cons_of_ne_nil (by simp [h]),
        List.intercalate_cons_of_ne_nil h, ih h]
      simp

/-- Parts with a separator behind each of them are the joined parts with one at the end. -/
lemma flatMap_append_sep (sep : Str) {parts : List Str} (h : parts ≠ []) :
    (parts.flatMap fun part => part ++ sep) = join sep parts ++ sep := by
  induction parts with
  | nil => exact absurd rfl h
  | cons part parts ih =>
    by_cases hnil : parts = []
    · simp [hnil, join]
    · have hcons : join sep (part :: parts) = part ++ sep ++ join sep parts :=
        List.intercalate_cons_of_ne_nil hnil
      rw [List.flatMap_cons, ih hnil, hcons, List.append_assoc _ _ sep]

/-- Splitting at a character and joining with it gives the string back. -/
@[simp] lemma join_split (c : Char) (s : Str) : join [c] (split c s) = s := by
  simp [join, split]

/-- Strings with the same parts are the same. -/
lemma split_inj {c : Char} {s t : Str} : split c s = split c t ↔ s = t := by
  refine ⟨fun h => ?_, congrArg (split c)⟩
  rw [← join_split c s, h, join_split]

/-- The parts of a string are the last parts of another one exactly when the other one is this string, or
ends in it behind the separator. -/
lemma split_suffix_iff {c : Char} {s t : Str} :
    split c s <:+ split c t ↔ t = s ∨ ∃ pre, t = pre ++ c :: s := by
  constructor
  · rintro ⟨front, hfront⟩
    have hjoin := congrArg (join [c]) hfront
    rw [join_split] at hjoin
    by_cases hnil : front = []
    · subst hnil
      rw [List.nil_append, join_split] at hjoin
      exact .inl hjoin.symm
    · rw [join_append [c] hnil (split_ne_nil c s), join_split, List.append_assoc] at hjoin
      exact .inr ⟨join [c] front, hjoin.symm⟩
  · rintro (rfl | ⟨pre, rfl⟩)
    · exact List.suffix_rfl
    · rw [split_append_cons]
      exact List.suffix_append _ _

/-- A nonempty string without blanks. -/
structure IsField (s : Str) : Prop where
  ne_nil : s ≠ []
  noBlank : ∀ c ∈ s, isWhitespace c = false

/-- A field is one piece. -/
lemma IsField.splitWhitespace {s : Str} (h : IsField s) : splitWhitespace s = [s] := by
  unfold Lib.splitWhitespace
  rw [List.splitOnP_eq_singleton h.noBlank]
  exact List.filter_eq_self.mpr (by simp [h.ne_nil])

/-- The pieces between blanks are fields. -/
lemma isField_of_mem_splitWhitespace {s part : Str} (h : part ∈ splitWhitespace s) : IsField part := by
  obtain ⟨hmem, hne⟩ := List.mem_filter.mp h
  exact ⟨by simpa using hne, forall_of_mem_splitOnP hmem⟩

/-- A field before a blank is the first piece. -/
lemma IsField.splitWhitespace_append {s : Str} (h : IsField s) (rest : Str) :
    Lib.splitWhitespace (s ++ ' ' :: rest) = s :: Lib.splitWhitespace rest := by
  unfold Lib.splitWhitespace
  rw [List.splitOnP_append_cons_of_forall_mem h.noBlank ' ' (by decide), List.filter_cons_of_pos]
  simp [h.ne_nil]

/-! ## Walking up a dotted string -/

/-- The strings met when the leftmost dot-separated parts of `s` are dropped one by one, from the
longest to the shortest: for `a.b.c` these are `b.c` and `c`. -/
def dotParents (s : Str) : List Str :=
  let labels := split '.' s
  (List.range' 1 (labels.length - 1)).map fun i => join ['.'] (labels.drop i)

/-- The dotted parents of a string are exactly its suffixes that start right after a dot. -/
lemma mem_dotParents {s e : Str} : e ∈ dotParents s ↔ ∃ pre, s = pre ++ '.' :: e := by
  unfold dotParents
  simp only [List.mem_map, List.mem_range'_1]
  constructor
  · rintro ⟨i, hi, rfl⟩
    have htake : (split '.' s).take i ≠ [] := by
      apply List.ne_nil_of_length_pos
      rw [List.length_take]
      omega
    have hdrop : (split '.' s).drop i ≠ [] := by
      apply List.ne_nil_of_length_pos
      rw [List.length_drop]
      omega
    refine ⟨join ['.'] ((split '.' s).take i), ?_⟩
    have hjoin := join_append ['.'] htake hdrop
    rw [List.take_append_drop, join_split] at hjoin
    simpa using hjoin
  · rintro ⟨pre, rfl⟩
    have hsplit := split_append_cons '.' pre e
    have hpre : 0 < (split '.' pre).length := List.length_pos_iff.mpr (split_ne_nil '.' pre)
    have he : 0 < (split '.' e).length := List.length_pos_iff.mpr (split_ne_nil '.' e)
    refine ⟨(split '.' pre).length, ?_, ?_⟩
    · rw [hsplit, List.length_append]
      omega
    · rw [hsplit, List.drop_left, join_split]

/-- Each of the dotted parents stands after a dot at the end of those before it. -/
lemma pairwise_dotParents (s : Str) : (dotParents s).Pairwise fun a b => ∃ pre, a = pre ++ '.' :: b := by
  unfold dotParents
  rw [List.pairwise_map]
  refine List.Pairwise.imp_of_mem ?_ List.pairwise_lt_range'
  intro i j hi hj hlt
  rw [List.mem_range'_1] at hi hj
  have htake : ((split '.' s).drop i).take (j - i) ≠ [] := by
    apply List.ne_nil_of_length_pos
    rw [List.length_take, List.length_drop]
    omega
  have hdrop : (split '.' s).drop j ≠ [] := by
    apply List.ne_nil_of_length_pos
    rw [List.length_drop]
    omega
  have hparts : ((split '.' s).drop i).take (j - i) ++ (split '.' s).drop j = (split '.' s).drop i := by
    have hrest := List.take_append_drop (j - i) ((split '.' s).drop i)
    rwa [List.drop_drop, Nat.add_sub_cancel' hlt.le] at hrest
  refine ⟨join ['.'] (((split '.' s).drop i).take (j - i)), ?_⟩
  have hjoin := join_append ['.'] htake hdrop
  rwa [hparts, List.append_assoc] at hjoin

/-- Of two strings that stand after a dot at the end of the same string, one stands after a dot at the
end of the other, or they are the same. -/
lemma dotted_suffix_cases {a b p q : Str} (h : a ++ '.' :: p = b ++ '.' :: q) :
    p = q ∨ (∃ x, p = x ++ '.' :: q) ∨ ∃ x, q = x ++ '.' :: p := by
  rcases List.append_eq_append_iff.mp h with ⟨c, -, hc⟩ | ⟨c, -, hc⟩
  · cases c with
    | nil => exact .inl (List.cons.inj hc).2
    | cons d c => exact .inr (.inl ⟨c, (List.cons.inj hc).2⟩)
  · cases c with
    | nil => exact .inl (List.cons.inj hc).2.symm
    | cons d c => exact .inr (.inr ⟨c, (List.cons.inj hc).2⟩)

end Lib
