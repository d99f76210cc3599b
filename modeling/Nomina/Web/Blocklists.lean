import Nomina.Dns.BlockEntries

/-!
# Parsing of blocklists

A downloaded list is read line by line, and the domains of its lines are sorted and deduplicated. The
result is the strictly increasing list of these domains, so it depends on the set of lines only. A domain
that a line was read as is itself a line that is read as it, in both formats, so reading the result again
gives it back.
-/

namespace Nomina

open Lib

/-! ## Lines -/

/-- Joined lines are read as these lines. -/
lemma lines_join {ds : List Str} (h : ∀ d ∈ ds, d ≠ [] ∧ '\n' ∉ d ∧ '\r' ∉ d) :
    lines (join ['\n'] ds) = ds := by
  by_cases hnil : ds = []
  · subst hnil
    rfl
  have hsplit : split '\n' (join ['\n'] ds) = ds :=
    List.splitOn_intercalate '\n' (fun d hd => (h d hd).2.1) hnil
  have hstrip : ∀ d ∈ ds.dropLast, (stripSuffix d ['\r']).getD d = d := by
    intro d hd
    cases hs : stripSuffix d ['\r'] with
    | none => rfl
    | some rest =>
      have hd' := (h d (List.dropLast_subset ds hd)).2.2
      rw [stripSuffix_eq_some.mp hs] at hd'
      simp at hd'
  have hlast : ¬(ds.getLast hnil).isEmpty := by
    rw [List.isEmpty_iff]
    exact (h _ (List.getLast_mem hnil)).1
  unfold lines
  dsimp only
  rw [hsplit, List.map_congr_left hstrip, List.map_id', List.getLast?_eq_some_getLast hnil,
    Option.toList_some, List.filter_cons_of_pos (by simpa using hlast), List.filter_nil,
    List.dropLast_append_getLast]

/-! ## The domain of a line -/

/-- The characters `[a-z0-9._*-]`. -/
def isDomainChar (c : Char) : Bool :=
  c.isLower || c.isDigit || c == '.' || c == '_' || c == '*' || c == '-'

/-- A text that a line is read as. -/
structure IsDomain (d : Str) : Prop where
  chars : ∀ c ∈ d, isDomainChar c = true
  dot : '.' ∈ d
  last : d.getLast? ≠ some '.'
  remote : d ≠ "localhost.localdomain".toList

lemma isAlphanum_eq (c : Char) : c.isAlphanum = (c.isUpper || c.isLower || c.isDigit) :=
  rfl

/-- In lowercase, what the parser admits is `[a-z0-9._*-]`. -/
lemma isDomainChar_toLower {c : Char}
    (h : (c.toLower.isAlphanum || c.toLower == '.' || c.toLower == '-' || c.toLower == '_' ||
      c.toLower == '*') = true) : isDomainChar c.toLower = true := by
  have hupper : c.toLower.isUpper = false := by
    rw [Bool.eq_false_iff]
    intro hup
    have hrange : 'A'.val ≤ c.toLower.val ∧ c.toLower.val ≤ 'Z'.val := of_decide_eq_true hup
    have hlow : 65 ≤ c.toLower.toNat := UInt32.le_iff_toNat_le.mp hrange.1
    have hhigh : c.toLower.toNat ≤ 90 := UInt32.le_iff_toNat_le.mp hrange.2
    rw [toNat_toLower] at hlow hhigh
    split at hlow <;> split at hhigh <;> omega
  unfold isDomainChar
  rw [isAlphanum_eq, hupper] at h
  grind

lemma admitted_of_isDomainChar {c : Char} (h : isDomainChar c = true) :
    (c.isAlphanum || c == '.' || c == '-' || c == '_' || c == '*') = true := by
  unfold isDomainChar at h
  rw [isAlphanum_eq]
  grind

/-- A domain has no blank in it, no character that starts a comment, and no capital. -/
lemma plain_of_isDomainChar {c : Char} (h : isDomainChar c = true) :
    isWhitespace c = false ∧ c ≠ '#' ∧ c ≠ '!' ∧ c.toLower = c := by
  have hchar : (97 ≤ c.toNat ∧ c.toNat ≤ 122) ∨ (48 ≤ c.toNat ∧ c.toNat ≤ 57) ∨ c.toNat = 46 ∨
      c.toNat = 95 ∨ c.toNat = 42 ∨ c.toNat = 45 := by
    have hlower : c.isLower = (decide (c.val ≥ 'a'.val) && decide (c.val ≤ 'z'.val)) := rfl
    simp only [isDomainChar, hlower, Char.isDigit, Bool.or_eq_true, decide_eq_true_eq, beq_iff_eq,
      Bool.and_eq_true, ← Char.toNat_inj, ge_iff_le, UInt32.le_iff_toNat_le] at h
    simp only [or_assoc] at h
    exact h
  refine ⟨?_, ?_, ?_, Char.toNat_inj.mp ?_⟩
  · simp only [isWhitespace, Bool.or_eq_false_iff, Bool.and_eq_false_iff, decide_eq_false_iff_not,
      beq_eq_false_iff_ne]
    omega
  · rintro rfl
    revert hchar
    decide
  · rintro rfl
    revert hchar
    decide
  · rw [toNat_toLower, if_neg (by omega)]

/-- The last character of a text whose dots at the end are trimmed. -/
lemma getLast?_trimEndMatches (s : Str) : (trimEndMatches '.' s).getLast? ≠ some '.' := by
  intro h
  exact absurd (getLast?_rdropWhile (p := (· == '.')) h) (by decide)

lemma isDomain_of_lineDomain {format : BlocklistFormat} {raw d : Str}
    (h : lineDomain format raw = some d) : IsDomain d := by
  unfold lineDomain at h
  dsimp only at h
  split at h
  · cases h
  · split at h
    · cases h
    · split at h
      · cases h
      · rename_i hexcluded
        split at h
        · rename_i hall
          cases h
          simp only [Bool.or_eq_true, not_or, beq_iff_eq, Bool.not_eq_true, List.contains_eq_mem,
            Bool.not_eq_false', decide_eq_true_eq] at hexcluded
          obtain ⟨⟨⟨⟨-, -⟩, hremote⟩, -⟩, hdot⟩ := hexcluded
          refine ⟨fun c hc => ?_, ?_, ?_, hremote⟩
          · have hadmitted := List.all_eq_true.mp hall c hc
            obtain ⟨b, -, rfl⟩ := List.mem_map.mp hc
            exact isDomainChar_toLower hadmitted
          · simpa using hdot
          · rw [← trimEndMatches_toAsciiLowercase]
            exact getLast?_trimEndMatches _
        · cases h

/-- A domain is a line. -/
lemma IsDomain.isLine {d : Str} (h : IsDomain d) : d ≠ [] ∧ '\n' ∉ d ∧ '\r' ∉ d := by
  have hblank : ∀ c ∈ d, isWhitespace c = false := fun c hc => (plain_of_isDomainChar (h.chars c hc)).1
  refine ⟨List.ne_nil_of_mem h.dot, fun hc => ?_, fun hc => ?_⟩
  · exact absurd (hblank _ hc) (by decide)
  · exact absurd (hblank _ hc) (by decide)

/-- A domain is read as itself, in both formats. -/
lemma IsDomain.lineDomain_self {d : Str} (h : IsDomain d) (format : BlocklistFormat) :
    lineDomain format d = some d := by
  have hplain := fun c hc => plain_of_isDomainChar (h.chars c hc)
  have hfield : IsField d := ⟨List.ne_nil_of_mem h.dot, fun c hc => (hplain c hc).1⟩
  have hne : d.isEmpty = false := by simpa using hfield.ne_nil
  have htrim : trim d = d := trim_eq_self hfield.noBlank
  have hcomment : split '#' d = [d] := split_eq_singleton fun hc => (hplain _ hc).2.1 rfl
  have hcandidate : lineCandidate format d = d := by
    unfold lineCandidate
    rw [hfield.splitWhitespace]
    cases format <;> rfl
  have hdots : trimEndMatches '.' d = d := by
    refine List.rdropWhile_eq_self_iff.mpr fun hd hlast => h.last ?_
    rw [List.getLast?_eq_some_getLast hd, beq_iff_eq.mp hlast]
  have hlower : toAsciiLowercase d = d :=
    (List.map_congr_left fun c hc => (hplain c hc).2.2.2).trans (List.map_id d)
  have hhead : (d.head? == some '#' || d.head? == some '!') = false := by
    cases d with
    | nil => rfl
    | cons c d =>
      obtain ⟨-, hhash, hbang, -⟩ := hplain c List.mem_cons_self
      simp [hhash, hbang]
  have hexcluded : (d.isEmpty || d == "localhost".toList || d == "localhost.localdomain".toList ||
      d == "broadcasthost".toList || !d.contains '.') = false := by
    have hlocal : d ≠ "localhost".toList := by
      rintro rfl
      exact absurd h.dot (by decide)
    have hbroadcast : d ≠ "broadcasthost".toList := by
      rintro rfl
      exact absurd h.dot (by decide)
    simp only [Bool.or_eq_false_iff, beq_eq_false_iff_ne]
    exact ⟨⟨⟨⟨hne, hlocal⟩, h.remote⟩, hbroadcast⟩, by simpa using h.dot⟩
  have hall : (d.all fun c => c.isAlphanum || c == '.' || c == '-' || c == '_' || c == '*') = true :=
    List.all_eq_true.mpr fun c hc => admitted_of_isDomainChar (h.chars c hc)
  unfold lineDomain
  dsimp only
  rw [htrim, Bool.or_assoc, hne, hhead, Bool.or_false, if_neg Bool.false_ne_true, hcomment, List.head?_cons,
    Option.getD_some, htrim, hne, if_neg Bool.false_ne_true, hcandidate, htrim, hdots, hlower, hexcluded,
    if_neg Bool.false_ne_true, hall, if_pos rfl]

/-! ## The parser -/

/-- A domain is listed exactly when one of the lines is read as it. -/
lemma mem_parseBlocklist {text d : Str} {format : BlocklistFormat} :
    d ∈ parseBlocklist text format ↔ ∃ l ∈ lines text, lineDomain format l = some d := by
  have hsorted := List.pairwise_insertionSort (· ≤ ·) ((lines text).filterMap (lineDomain format))
  unfold parseBlocklist
  rw [hsorted.destutter_eq_dedup, List.mem_dedup, List.mem_insertionSort, List.mem_filterMap]

lemma parseBlocklist_strict (text : Str) (format : BlocklistFormat) :
    (parseBlocklist text format).Pairwise (· < ·) := by
  have hsorted := List.pairwise_insertionSort (· ≤ ·) ((lines text).filterMap (lineDomain format))
  have hnodup : (parseBlocklist text format).Nodup := by
    unfold parseBlocklist
    rw [hsorted.destutter_eq_dedup]
    exact List.nodup_dedup _
  have hle : (parseBlocklist text format).Pairwise (· ≤ ·) :=
    hsorted.sublist (List.destutter_sublist _ _)
  exact (hle.and hnodup).imp fun h => lt_of_le_of_ne h.1 h.2

/-- A strictly increasing list is determined by its members. -/
lemma eq_of_strict_of_mem {α : Type*} [LinearOrder α] {l l' : List α} (hl : l.Pairwise (· < ·))
    (hl' : l'.Pairwise (· < ·)) (hmem : ∀ a, a ∈ l ↔ a ∈ l') : l = l' := by
  have hperm : l.Perm l' :=
    (List.perm_ext_iff_of_nodup (hl.imp ne_of_lt) (hl'.imp ne_of_lt)).mpr hmem
  exact hperm.eq_of_pairwise (fun a b _ _ hab hba => absurd hba hab.asymm) hl hl'

lemma isDomain_of_mem_parseBlocklist {text d : Str} {format : BlocklistFormat}
    (h : d ∈ parseBlocklist text format) : IsDomain d := by
  obtain ⟨l, -, hl⟩ := mem_parseBlocklist.mp h
  exact isDomain_of_lineDomain hl

/-- Every list is parsed into a strictly increasing list of domains of `[a-z0-9._*-]` with a dot that is
not at the end. It depends on the set of the lines only, and parsing it again, in either format, gives it
back. -/
theorem parseBlocklist_spec (text : Str) (format : BlocklistFormat) :
    (parseBlocklist text format).Pairwise (· < ·) ∧
      (∀ d ∈ parseBlocklist text format,
        (∀ c ∈ d, isDomainChar c = true) ∧ '.' ∈ d ∧ d.getLast? ≠ some '.') ∧
      (∀ text', (∀ l, l ∈ lines text' ↔ l ∈ lines text) →
        parseBlocklist text' format = parseBlocklist text format) ∧
      ∀ format', parseBlocklist (join ['\n'] (parseBlocklist text format)) format' =
        parseBlocklist text format := by
  have hdomain : ∀ d ∈ parseBlocklist text format, IsDomain d :=
    fun d hd => isDomain_of_mem_parseBlocklist hd
  refine ⟨parseBlocklist_strict text format, fun d hd => ?_, fun text' hlines => ?_, fun format' => ?_⟩
  · exact ⟨(hdomain d hd).chars, (hdomain d hd).dot, (hdomain d hd).last⟩
  · refine eq_of_strict_of_mem (parseBlocklist_strict _ _) (parseBlocklist_strict _ _) fun d => ?_
    rw [mem_parseBlocklist, mem_parseBlocklist]
    simp only [hlines]
  · refine eq_of_strict_of_mem (parseBlocklist_strict _ _) (parseBlocklist_strict _ _) fun d => ?_
    have hread : lines (join ['\n'] (parseBlocklist text format)) = parseBlocklist text format :=
      lines_join fun d hd => (hdomain d hd).isLine
    rw [mem_parseBlocklist, hread]
    constructor
    · rintro ⟨l, hl, hd⟩
      rw [(hdomain l hl).lineDomain_self format'] at hd
      cases hd
      exact hl
    · exact fun hd => ⟨d, hd, (hdomain d hd).lineDomain_self format'⟩

end Nomina
