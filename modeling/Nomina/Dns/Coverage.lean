import Nomina.Dns.Filter

/-!
# Patterns

`domain_covers` of `models.rs` compares texts: a pattern covers its domain and what ends in a dot and its
domain. It is the same to compare labels: those of the pattern, without a leading `*`, are the last labels
of the name. Filtering and forwarding choose among the patterns that cover a name, and these are in a line,
from the shortest domain to the longest one.
-/

namespace Nomina

open Lib

/-- The domain of a pattern, without a leading `*.`. -/
def underlying (pattern : Str) : Str :=
  (stripPrefix pattern ['*', '.']).getD pattern

/-- Whether a pattern starts with `*.`. -/
def isWildcard (pattern : Str) : Bool :=
  (stripPrefix pattern ['*', '.']).isSome

/-- A pattern is its domain, behind `*.` for a wildcard. -/
lemma eq_of_isWildcard (pattern : Str) :
    pattern = if isWildcard pattern then '*' :: '.' :: underlying pattern else underlying pattern := by
  unfold isWildcard underlying stripPrefix
  split
  · rename_i h
    obtain ⟨rest, rfl⟩ := List.isPrefixOf_iff_prefix.mp h
    rfl
  · rfl

/-- A pattern without `*.` is its domain. -/
lemma underlying_eq_self {pattern : Str} (h : isWildcard pattern = false) : underlying pattern = pattern := by
  have hpattern := eq_of_isWildcard pattern
  rw [h, if_neg Bool.false_ne_true] at hpattern
  exact hpattern.symm

/-- Patterns of the same kind with the same domain are the same. -/
lemma eq_of_underlying_eq {p q : Str} (hdomain : underlying p = underlying q)
    (hkind : isWildcard p = isWildcard q) : p = q := by
  rw [eq_of_isWildcard p, eq_of_isWildcard q, hdomain, hkind]

/-- A pattern covers its domain and the names that end in a dot and its domain. -/
lemma domainCovers_iff {pattern name : Str} :
    domainCovers pattern name = true ↔
      name = underlying pattern ∨ ∃ pre, name = pre ++ '.' :: underlying pattern := by
  unfold domainCovers underlying
  simp only [Bool.or_eq_true, beq_iff_eq, endsWith_iff]

/-! ## Labels -/

/-- The labels that a pattern asks for: all of them, without a leading `*` that further labels follow. -/
def patternLabels (pattern : Str) : List Str :=
  let labels := split '.' pattern
  if labels.head? = some ['*'] ∧ 2 ≤ labels.length then labels.tail else labels

/-- A text with a first label `*` and further ones starts with `*.`. -/
lemma isWildcard_of_labels {pattern : Str} (hhead : (split '.' pattern).head? = some ['*'])
    (hlong : 2 ≤ (split '.' pattern).length) : isWildcard pattern = true := by
  obtain ⟨labels, hlabels⟩ := List.head?_eq_some_iff.mp hhead
  rw [hlabels, List.length_cons] at hlong
  have hne : labels ≠ [] := List.ne_nil_of_length_pos (by omega)
  have hjoin := join_append ['.'] (List.cons_ne_nil ['*'] []) hne
  rw [List.singleton_append, ← hlabels, join_split] at hjoin
  rw [hjoin]
  rfl

/-- The labels that a pattern asks for are those of its domain. -/
lemma patternLabels_eq (pattern : Str) : patternLabels pattern = split '.' (underlying pattern) := by
  unfold patternLabels
  dsimp only
  cases hkind : isWildcard pattern with
  | true =>
    have hpattern := eq_of_isWildcard pattern
    rw [hkind, if_pos rfl] at hpattern
    have hsplit := split_wildcard (underlying pattern)
    rw [← hpattern] at hsplit
    have hpos : 0 < (split '.' (underlying pattern)).length :=
      List.length_pos_iff.mpr (split_ne_nil '.' (underlying pattern))
    rw [hsplit, if_pos ⟨rfl, by rw [List.length_cons]; omega⟩, List.tail_cons]
  | false =>
    rw [underlying_eq_self hkind, if_neg]
    rintro ⟨hhead, hlong⟩
    rw [isWildcard_of_labels hhead hlong] at hkind
    cases hkind

/-- A pattern covers the names whose last labels are those of its domain. -/
lemma domainCovers_iff_split {pattern name : Str} :
    domainCovers pattern name = true ↔ split '.' (underlying pattern) <:+ split '.' name := by
  rw [domainCovers_iff, split_suffix_iff]

/-! ## The order of patterns -/

section Order

variable {p q r name : Str}

lemma domainCovers_refl (p : Str) : domainCovers p p = true := by
  rw [domainCovers_iff_split, ← patternLabels_eq]
  unfold patternLabels
  dsimp only
  split
  · exact List.tail_suffix _
  · exact List.suffix_rfl

/-- What is covered by a domain is covered by the patterns that cover the domain. -/
lemma domainCovers_trans (hq : isWildcard q = false) (hpq : domainCovers p q = true)
    (hqr : domainCovers q r = true) : domainCovers p r = true := by
  rw [domainCovers_iff_split] at hpq hqr ⊢
  rw [underlying_eq_self hq] at hqr
  exact hpq.trans hqr

/-- Domains that cover each other are the same. -/
lemma domainCovers_antisymm (hp : isWildcard p = false) (hq : isWildcard q = false)
    (hpq : domainCovers p q = true) (hqp : domainCovers q p = true) : p = q := by
  rw [domainCovers_iff_split] at hpq hqp
  rw [underlying_eq_self hp] at hpq
  rw [underlying_eq_self hq] at hqp
  exact split_inj.mp (hpq.eq_of_length_le hqp.length_le)

/-- Of two patterns that cover the same name, one covers the domain of the other. -/
lemma domainCovers_underlying_or (hp : domainCovers p name = true) (hq : domainCovers q name = true) :
    domainCovers p (underlying q) = true ∨ domainCovers q (underlying p) = true := by
  rw [domainCovers_iff_split] at hp hq ⊢
  rw [domainCovers_iff_split]
  exact List.suffix_or_suffix_of_suffix hp hq

/-- A pattern covers another one when it covers its domain. -/
lemma domainCovers_of_underlying (h : domainCovers p (underlying q) = true) : domainCovers p q = true := by
  rw [domainCovers_iff_split] at h ⊢
  exact h.trans (domainCovers_iff_split.mp (domainCovers_refl q))

end Order

/-- A pattern covers a name exactly when its labels, without a leading `*`, are the last labels of the name.
Every pattern covers itself, covering is transitive and antisymmetric where the patterns have no `*.`, and of
two patterns that cover the same name one covers the other. -/
theorem domainCovers_spec :
    (∀ p n, domainCovers p n = true ↔ patternLabels p <:+ split '.' n) ∧
      (∀ p, domainCovers p p = true) ∧
      (∀ p q r, isWildcard q = false → domainCovers p q = true → domainCovers q r = true →
        domainCovers p r = true) ∧
      (∀ p q, isWildcard p = false → isWildcard q = false → domainCovers p q = true →
        domainCovers q p = true → p = q) ∧
      ∀ p q n, domainCovers p n = true → domainCovers q n = true →
        domainCovers p q = true ∨ domainCovers q p = true := by
  refine ⟨fun p n => ?_, domainCovers_refl, fun p q r hq hpq hqr => domainCovers_trans hq hpq hqr,
    fun p q hp hq hpq hqp => domainCovers_antisymm hp hq hpq hqp, fun p q n hp hq => ?_⟩
  · rw [patternLabels_eq]
    exact domainCovers_iff_split
  · rcases domainCovers_underlying_or hp hq with h | h
    · exact .inl (domainCovers_of_underlying h)
    · exact .inr (domainCovers_of_underlying h)

/-- The domain `com` covers `ads.example.com`, as `example.com` does, and is not covered by it; a name that
only ends in the letters of a domain has other labels. -/
theorem domainCovers_ads :
    domainCovers "com" "ads.example.com" = true ∧
      (domainCovers "com" "*.example.com" = true ∨ domainCovers "*.example.com" "com" = true) ∧
      ¬patternLabels "example.com" <:+ split '.' "notexample.com" ∧
      ¬domainCovers "example.com" "com" = true := by
  obtain ⟨hlabels, -, htrans, hantisymm, hline⟩ := domainCovers_spec
  exact ⟨htrans "com" "example.com" "ads.example.com" (by decide) (by decide) (by decide),
    hline "com" "*.example.com" "ads.example.com" (by decide) (by decide),
    fun h => absurd ((hlabels "example.com" "notexample.com").mpr h) (by decide),
    fun h => absurd (hantisymm "com" "example.com" (by decide) (by decide) (by decide) h) (by decide)⟩

end Nomina
