import Nomina.Dns.Coverage
import Nomina.Dns.FilterRules
import Nomina.Lib.Assoc

/-!
# The most specific pattern

Of the patterns that cover a name the one with the longest domain is meant to win. Conditional
forwarding ranks its rules by the number of labels of the pattern, in which a leading `*.` counts as
one; rewrites are tried in alphabetical order. Both are therefore shadowed by broader patterns, and
the results say exactly when.
-/

namespace Nomina

open Lib

/-! ## Patterns -/

/-- The number of labels of the domain of a pattern. -/
def specificity (pattern : Str) : ℕ :=
  labelCount (underlying pattern)

/-- The label count of a pattern counts the `*` of a wildcard. -/
lemma labelCount_eq (pattern : Str) :
    labelCount pattern = specificity pattern + if isWildcard pattern then 1 else 0 := by
  conv_lhs => rw [eq_of_isWildcard pattern]
  unfold specificity labelCount
  cases isWildcard pattern with
  | false => rfl
  | true => rw [if_pos rfl, if_pos rfl, split_wildcard, List.length_cons]

/-- Of patterns that cover the same name, the less specific one covers the domain of the other. -/
lemma covers_iff_specificity_le {p q name : Str} (hp : domainCovers p name = true)
    (hq : domainCovers q name = true) :
    domainCovers p (underlying q) = true ↔ specificity p ≤ specificity q := by
  have hline := domainCovers_underlying_or hp hq
  unfold specificity labelCount
  simp only [domainCovers_iff_split] at hline ⊢
  refine ⟨List.IsSuffix.length_le, fun hle => hline.elim id fun h => ?_⟩
  exact h.eq_of_length_le hle ▸ List.suffix_rfl

/-- Patterns that cover the same name and are equally specific have the same domain. -/
lemma underlying_eq_of_covers {p q name : Str} (hp : domainCovers p name = true)
    (hq : domainCovers q name = true) (h : specificity p = specificity q) :
    underlying p = underlying q := by
  have hcovers := (covers_iff_specificity_le hp hq).mpr h.le
  rw [domainCovers_iff_split] at hcovers
  exact split_inj.mp (hcovers.eq_of_length h)

/-! ## Conditional forwarding -/

section Conditional

variable {builds : List Forwarder → Bool} {t : FilterTables} {name : Str}

/-- An enabled forward with forwarders covers the name. -/
def ConditionalForward.Applies (cf : ConditionalForward) (name : Str) : Prop :=
  cf.enabled = true ∧ cf.forwarders ≠ [] ∧ domainCovers (storedDomain cf.domain) name = true

/-- Of the forwards that apply to the name this is one with the longest domain. -/
def ConditionalForward.Longest (cf : ConditionalForward) (t : FilterTables) (name : Str) : Prop :=
  cf ∈ t.forwards ∧ cf.Applies name ∧ ∀ cf' ∈ t.forwards, cf'.Applies name →
    specificity (storedDomain cf'.domain) ≤ specificity (storedDomain cf.domain)

/-- A name is forwarded by a forward with the longest domain, and by none if none applies. -/
def ForwardsMostSpecific (t : FilterTables) (rules : List ConditionalRule) (name : Str) : Prop :=
  (matchFor rules name = none ↔ ∀ cf ∈ t.forwards, ¬cf.Applies name) ∧
    ∀ up, matchFor rules name = some up →
      ∃ cf : ConditionalForward, cf.Longest t name ∧ up = .Forward cf.forwarders

/-- The forward with the longest domain has no wildcard, and a wildcard for the domain one label
shorter stands before it in the order of the stored domains and has other forwarders. -/
def ForwardOvertaken (t : FilterTables) (name : Str) : Prop :=
  ∃ cf : ConditionalForward, cf.Longest t name ∧ ∃ w ∈ t.forwards, w.Applies name ∧
    (∀ cf' : ConditionalForward, cf'.Longest t name → isWildcard (storedDomain cf'.domain) = false) ∧
    isWildcard (storedDomain w.domain) = true ∧
    specificity (storedDomain w.domain) + 1 = specificity (storedDomain cf.domain) ∧
    w.domain < cf.domain ∧ w.forwarders ≠ cf.forwarders

/-- The forwards with their rules, in the order in which they are tried. -/
def sortedForwards (builds : List Forwarder → Bool) (t : FilterTables) :
    List (ConditionalForward × ConditionalRule) :=
  ((Db.listConditionalForwards t).filterMap fun cf =>
    (conditionalRule builds cf).map fun rule => (cf, rule)).insertionSort
      fun p q => labelCount q.2.domain ≤ labelCount p.2.domain

lemma buildConditional_eq : buildConditional builds t = (sortedForwards builds t).map Prod.snd := by
  have hpairs : (Db.listConditionalForwards t).filterMap (conditionalRule builds) =
      ((Db.listConditionalForwards t).filterMap fun cf =>
        (conditionalRule builds cf).map fun rule => (cf, rule)).map Prod.snd := by
    rw [List.map_filterMap]
    refine List.filterMap_congr fun cf _ => ?_
    rw [Option.map_map]
    exact Option.map_id'.symm
  unfold buildConditional sortedForwards
  rw [hpairs]
  exact (List.map_insertionSort
    (fun p q : ConditionalForward × ConditionalRule => labelCount q.2.domain ≤ labelCount p.2.domain)
    (fun r s : ConditionalRule => labelCount s.domain ≤ labelCount r.domain) _ _
    fun _ _ _ _ => Iff.rfl).symm

/-- Patterns with more labels come first, and among those with as many labels the first by stored
domain. -/
lemma pairwise_sortedForwards : (sortedForwards builds t).Pairwise fun p q =>
    labelCount q.2.domain ≤ labelCount p.2.domain ∧
      (labelCount p.2.domain ≤ labelCount q.2.domain → p.1.domain ≤ q.1.domain) := by
  have : Std.Total (fun p q : ConditionalForward × ConditionalRule =>
      labelCount q.2.domain ≤ labelCount p.2.domain) :=
    ⟨fun p q => Nat.le_total _ _⟩
  have : IsTrans (ConditionalForward × ConditionalRule)
      (fun p q => labelCount q.2.domain ≤ labelCount p.2.domain) :=
    ⟨fun _ _ _ h h' => Nat.le_trans h' h⟩
  refine pairwise_insertionSort_stable
    (S := fun p q : ConditionalForward × ConditionalRule => p.1.domain ≤ q.1.domain) ?_
  refine List.Pairwise.filterMap _ ?_
    (List.pairwise_insertionSort (fun r s : ConditionalForward => r.domain ≤ s.domain) t.forwards)
  intro cf cf' hle p hp q hq
  obtain ⟨rule, -, rfl⟩ := Option.map_eq_some_iff.mp hp
  obtain ⟨rule', -, rfl⟩ := Option.map_eq_some_iff.mp hq
  exact hle

/-- The pairs are of the rows that have a rule. -/
lemma mem_sortedForwards {p : ConditionalForward × ConditionalRule} :
    p ∈ sortedForwards builds t ↔ p.1 ∈ t.forwards ∧ conditionalRule builds p.1 = some p.2 := by
  unfold sortedForwards Db.listConditionalForwards
  simp only [(List.perm_insertionSort _ _).mem_iff, List.mem_filterMap, Option.map_eq_some_iff]
  constructor
  · rintro ⟨cf, hcf, rule, hrule, rfl⟩
    exact ⟨hcf, hrule⟩
  · rintro ⟨hcf, hrule⟩
    exact ⟨p.1, hcf, p.2, hrule, rfl⟩

/-- A resolver that is built has the forwarders it is built for. -/
lemma buildForwardResolver_eq_some {forwarders : List Forwarder} {up : Upstream}
    (h : buildForwardResolver builds forwarders = some up) : up = .Forward forwarders := by
  unfold buildForwardResolver at h
  split at h
  · cases h
  · split at h
    · exact (Option.some.inj h).symm
    · cases h

/-- Where the resolvers build, the rows with a rule are the enabled ones with forwarders. -/
lemma conditionalRule_eq_some_iff {cf : ConditionalForward} {rule : ConditionalRule}
    (hbuild : cf.forwarders ≠ [] → (buildForwardResolver builds cf.forwarders).isSome = true) :
    conditionalRule builds cf = some rule ↔ (cf.enabled = true ∧ cf.forwarders ≠ []) ∧
      rule = ⟨storedDomain cf.domain, .Forward cf.forwarders⟩ := by
  unfold conditionalRule
  cases cf.enabled with
  | false => simp
  | true =>
    by_cases hnil : cf.forwarders = []
    · simp [hnil]
    · obtain ⟨up, hup⟩ := Option.isSome_iff_exists.mp (hbuild hnil)
      rw [hup, buildForwardResolver_eq_some hup, if_neg (by simpa using hnil), Option.map_some,
        Option.some.injEq]
      exact ⟨fun h => ⟨⟨rfl, hnil⟩, h.symm⟩, fun h => h.2.symm⟩

/-- The resolvers of all forwards build. -/
def ResolversBuild (builds : List Forwarder → Bool) (t : FilterTables) : Prop :=
  ∀ cf ∈ t.forwards, cf.forwarders ≠ [] →
    (buildForwardResolver builds cf.forwarders).isSome = true

/-- The pairs that cover a name are of the rows that apply to it. -/
lemma mem_sortedForwards_covers (hbuild : ResolversBuild builds t)
    {p : ConditionalForward × ConditionalRule} :
    p ∈ sortedForwards builds t ∧ domainCovers p.2.domain name = true ↔
      (p.1 ∈ t.forwards ∧ p.1.Applies name) ∧
        p.2 = ⟨storedDomain p.1.domain, .Forward p.1.forwarders⟩ := by
  rw [mem_sortedForwards]
  unfold ConditionalForward.Applies
  constructor
  · rintro ⟨⟨hmem, hrule⟩, hcovers⟩
    obtain ⟨⟨henabled, hnil⟩, hp⟩ := (conditionalRule_eq_some_iff (hbuild _ hmem)).mp hrule
    rw [hp] at hcovers
    exact ⟨⟨hmem, henabled, hnil, hcovers⟩, hp⟩
  · rintro ⟨⟨hmem, henabled, hnil, hcovers⟩, hp⟩
    refine ⟨⟨hmem, (conditionalRule_eq_some_iff (hbuild _ hmem)).mpr ⟨⟨henabled, hnil⟩, hp⟩⟩, ?_⟩
    rw [hp]
    exact hcovers

/-- A name is forwarded by the first pair that covers it. -/
lemma matchFor_buildConditional : matchFor (buildConditional builds t) name =
    ((sortedForwards builds t).find? fun p => domainCovers p.2.domain name).map (·.2.upstream) := by
  unfold matchFor
  rw [buildConditional_eq, List.find?_map, Option.map_map]
  rfl

/-- The forward that is chosen for a name: none that applies has a pattern with more labels, and none
with as many stands before it. -/
structure ConditionalForward.Chosen (cf : ConditionalForward) (t : FilterTables) (name : Str) :
    Prop where
  mem : cf ∈ t.forwards
  applies : cf.Applies name
  first : ∀ cf' ∈ t.forwards, cf'.Applies name →
    labelCount (storedDomain cf'.domain) ≤ labelCount (storedDomain cf.domain) ∧
      (labelCount (storedDomain cf.domain) ≤ labelCount (storedDomain cf'.domain) →
        cf.domain ≤ cf'.domain)

variable (name) in
/-- No forward is chosen where none applies, and else the upstream is that of the chosen one. -/
lemma matchFor_cases (hbuild : ResolversBuild builds t) :
    (matchFor (buildConditional builds t) name = none ∧ ∀ cf ∈ t.forwards, ¬cf.Applies name) ∨
      ∃ cf : ConditionalForward, cf.Chosen t name ∧
        matchFor (buildConditional builds t) name = some (.Forward cf.forwarders) := by
  rw [matchFor_buildConditional]
  cases hfind : (sortedForwards builds t).find? fun p => domainCovers p.2.domain name with
  | none =>
    refine .inl ⟨rfl, fun cf hcf happlies => ?_⟩
    have hpair := (mem_sortedForwards_covers hbuild
      (p := (cf, ⟨storedDomain cf.domain, .Forward cf.forwarders⟩))).mpr ⟨⟨hcf, happlies⟩, rfl⟩
    exact List.find?_eq_none.mp hfind _ hpair.1 hpair.2
  | some p =>
    have hcovers : domainCovers p.2.domain name = true :=
      List.find?_some (p := fun p : ConditionalForward × ConditionalRule =>
        domainCovers p.2.domain name) hfind
    obtain ⟨⟨hmem, happlies⟩, hp⟩ := (mem_sortedForwards_covers hbuild).mp
      ⟨List.mem_of_find?_eq_some hfind, hcovers⟩
    refine .inr ⟨p.1, ⟨hmem, happlies, ?_⟩, ?_⟩
    · intro cf hcf happlies'
      have hpair := (mem_sortedForwards_covers hbuild
        (p := (cf, ⟨storedDomain cf.domain, .Forward cf.forwarders⟩))).mpr ⟨⟨hcf, happlies'⟩, rfl⟩
      rcases rel_of_find?_eq_some pairwise_sortedForwards hfind hpair.1 hpair.2 with heq | hrel
      · rw [← heq]
        exact ⟨le_rfl, fun _ => le_rfl⟩
      · rw [hp] at hrel
        exact hrel
    · rw [Option.map_some, hp]

/-- The label count of a pattern is its specificity, or one more. -/
lemma labelCount_bounds (pattern : Str) :
    specificity pattern ≤ labelCount pattern ∧ labelCount pattern ≤ specificity pattern + 1 := by
  rw [labelCount_eq]
  split <;> omega

/-- A chosen forward that is not as specific as another one is a wildcard, the other one is not and has
one label more, and the chosen one stands before it. -/
lemma ConditionalForward.Chosen.of_lt {w cf : ConditionalForward} (hw : w.Chosen t name)
    (hcf : cf ∈ t.forwards) (happlies : cf.Applies name)
    (hlt : specificity (storedDomain w.domain) < specificity (storedDomain cf.domain)) :
    isWildcard (storedDomain w.domain) = true ∧ isWildcard (storedDomain cf.domain) = false ∧
      specificity (storedDomain w.domain) + 1 = specificity (storedDomain cf.domain) ∧
      w.domain < cf.domain := by
  obtain ⟨hle, htie⟩ := hw.first cf hcf happlies
  have hwcount := labelCount_eq (storedDomain w.domain)
  have hcount := labelCount_eq (storedDomain cf.domain)
  cases hwild : isWildcard (storedDomain w.domain) with
  | false =>
    rw [hwild] at hwcount
    have hbound := (labelCount_bounds (storedDomain cf.domain)).1
    simp only [Bool.false_eq_true, if_false] at hwcount
    omega
  | true =>
    cases hkind : isWildcard (storedDomain cf.domain) with
    | true =>
      rw [hwild] at hwcount
      rw [hkind] at hcount
      simp only [if_true] at hwcount hcount
      omega
    | false =>
      rw [hwild] at hwcount
      rw [hkind] at hcount
      simp only [if_true, Bool.false_eq_true, if_false] at hwcount hcount
      refine ⟨rfl, rfl, by omega, lt_of_le_of_ne (htie (by omega)) ?_⟩
      intro heq
      rw [heq, hkind] at hwild
      cases hwild

/-- Stored forwards are told apart by the domain and the kind of their patterns. -/
lemma forward_eq (hdistinct : (t.forwards.map fun cf => storedDomain cf.domain).Nodup)
    {cf cf' : ConditionalForward} (hmem : cf ∈ t.forwards) (hmem' : cf' ∈ t.forwards)
    (happlies : cf.Applies name) (happlies' : cf'.Applies name)
    (hspec : specificity (storedDomain cf.domain) = specificity (storedDomain cf'.domain))
    (hkind : isWildcard (storedDomain cf.domain) = isWildcard (storedDomain cf'.domain)) :
    cf = cf' := by
  have hdomain : storedDomain cf.domain = storedDomain cf'.domain :=
    eq_of_underlying_eq (underlying_eq_of_covers happlies.2.2 happlies'.2.2 hspec) hkind
  exact List.inj_on_of_nodup_map hdistinct hmem hmem' hdomain

/-- An overtaken forward is not where the chosen forward leads. -/
lemma ForwardOvertaken.forwarders_ne (h : ForwardOvertaken t name)
    (hdistinct : (t.forwards.map fun cf => storedDomain cf.domain).Nodup) {w : ConditionalForward}
    (hw : w.Chosen t name) {cf : ConditionalForward} (hcf : cf.Longest t name) :
    w.forwarders ≠ cf.forwarders := by
  obtain ⟨cf', hcf', v, hv, hvapplies, hplain, hwild, hspec, hlt, hforwarders⟩ := h
  have hsame : cf = cf' := forward_eq hdistinct hcf.1 hcf'.1 hcf.2.1 hcf'.2.1
    (le_antisymm (hcf'.2.2 cf hcf.1 hcf.2.1) (hcf.2.2 cf' hcf'.1 hcf'.2.1))
    ((hplain cf hcf).trans (hplain cf' hcf').symm)
  subst hsame
  have hvcount := labelCount_eq (storedDomain v.domain)
  rw [hwild, if_pos rfl] at hvcount
  -- The chosen forward has as many labels as the wildcard `v`, and is it or the longest one.
  obtain ⟨hvle, hvtie⟩ := hw.first v hv hvapplies
  rcases (hcf.2.2 w hw.mem hw.applies).lt_or_eq with hshorter | heq
  · obtain ⟨hwwild, -, hwspec, -⟩ := hw.of_lt hcf.1 hcf.2.1 hshorter
    have hwv : w = v := forward_eq hdistinct hw.mem hv hw.applies hvapplies (by omega)
      (hwwild.trans hwild.symm)
    rw [hwv]
    exact hforwarders
  · have hwlongest : w.Longest t name :=
      ⟨hw.mem, hw.applies, fun cf' hcf' happlies => by rw [heq]; exact hcf.2.2 cf' hcf' happlies⟩
    have hwplain := hplain w hwlongest
    have hwcf : w = cf := forward_eq hdistinct hw.mem hcf.1 hw.applies hcf.2.1 heq
      (hwplain.trans (hplain cf hcf).symm)
    subst hwcf
    have hwcount := labelCount_eq (storedDomain w.domain)
    rw [hwplain] at hwcount
    simp only [Bool.false_eq_true, if_false] at hwcount
    exact absurd hlt (not_lt.mpr (hvtie (by omega)))

/-- Where no forward is overtaken, the chosen forward leads where a longest one leads. -/
lemma ConditionalForward.Chosen.exists_longest (hnot : ¬ForwardOvertaken t name)
    {w : ConditionalForward} (hw : w.Chosen t name) :
    ∃ cf : ConditionalForward, cf.Longest t name ∧ w.forwarders = cf.forwarders := by
  obtain ⟨cf, hcf, happlies, hmax⟩ :=
    exists_mem_max (P := fun cf : ConditionalForward => cf.Applies name)
      (fun cf => specificity (storedDomain cf.domain)) ⟨w, hw.mem, hw.applies⟩
  rcases (hmax w hw.mem hw.applies).lt_or_eq with hlt | heq
  · obtain ⟨hwwild, -, hwspec, hwlt⟩ := hw.of_lt hcf happlies hlt
    refine ⟨cf, ⟨hcf, happlies, hmax⟩, ?_⟩
    by_contra hforwarders
    refine hnot ⟨cf, ⟨hcf, happlies, hmax⟩, w, hw.mem, hw.applies, fun cf' hcf' => ?_, hwwild, hwspec,
      hwlt, hforwarders⟩
    exact (hw.of_lt hcf'.1 hcf'.2.1 (hlt.trans_le (hcf'.2.2 cf hcf happlies))).2.1
  · refine ⟨w, ⟨hw.mem, hw.applies, fun cf' hcf' happlies' => ?_⟩, rfl⟩
    rw [heq]
    exact hmax cf' hcf' happlies'

/-- The forward chosen for a name leads where a longest one leads, unless that is overtaken. -/
theorem forwardsMostSpecific_iff (builds : List Forwarder → Bool) (t : FilterTables) (name : Str)
    (hbuild : ResolversBuild builds t)
    (hdistinct : (t.forwards.map fun cf => storedDomain cf.domain).Nodup) :
    ForwardsMostSpecific t (buildConditional builds t) name ↔ ¬ForwardOvertaken t name := by
  rcases matchFor_cases name hbuild with ⟨hnone, hnot⟩ | ⟨w, hw, hsome⟩
  · refine iff_of_true ⟨iff_of_true hnone hnot, fun up hup => ?_⟩ ?_
    · rw [hnone] at hup
      cases hup
    · rintro ⟨cf, ⟨hcf, happlies, -⟩, -⟩
      exact hnot cf hcf happlies
  · constructor
    · rintro ⟨-, hlongest⟩ hovertaken
      obtain ⟨cf, hcf, hup⟩ := hlongest _ hsome
      exact hovertaken.forwarders_ne hdistinct hw hcf (Upstream.Forward.inj hup)
    · intro hnot
      obtain ⟨cf, hcf, hforwarders⟩ := hw.exists_longest hnot
      refine ⟨iff_of_false ?_ fun hnone => hnone w hw.mem hw.applies, fun up hup => ?_⟩
      · rw [hsome]
        exact Option.some_ne_none _
      · refine ⟨cf, hcf, ?_⟩
        rw [← hforwarders]
        exact Option.some.inj (hup.symm.trans hsome)

/-- A forwarder over UDP. -/
def udpForwarder (addr : Str) : Forwarder :=
  ⟨addr, .Udp, 53, none⟩

/-- A forward for everything below `corp.example` and one for `a.corp.example`. -/
def officeForwards : FilterTables :=
  ⟨[], [], [], [], [⟨1, "*.corp.example", [udpForwarder "10.0.0.1"], true⟩,
    ⟨2, "a.corp.example", [udpForwarder "10.0.0.2"], true⟩]⟩

/-- The resolvers of these forwards build, and their domains differ. -/
lemma officeForwards_valid : ResolversBuild (fun _ => true) officeForwards ∧
    (officeForwards.forwards.map fun cf => storedDomain cf.domain).Nodup := by
  unfold ResolversBuild
  exact ⟨by decide, by decide⟩

/-- The name `a.corp.example` is forwarded by the wildcard above it. -/
theorem forwardsMostSpecific_office :
    ResolversBuild (fun _ => true) officeForwards ∧
    (officeForwards.forwards.map fun cf => storedDomain cf.domain).Nodup ∧
    ¬ForwardsMostSpecific officeForwards (buildConditional (fun _ => true) officeForwards)
      "a.corp.example" := by
  refine ⟨officeForwards_valid.1, officeForwards_valid.2, fun h => ?_⟩
  have hup : matchFor (buildConditional (fun _ => true) officeForwards) "a.corp.example" =
      some (.Forward [udpForwarder "10.0.0.1"]) := by
    decide +kernel
  obtain ⟨cf, ⟨hcf, -, hmax⟩, heq⟩ := h.2 _ hup
  have hlonger := hmax ⟨2, "a.corp.example", [udpForwarder "10.0.0.2"], true⟩ (by decide)
    (by unfold ConditionalForward.Applies; decide)
  rcases List.mem_cons.mp hcf with rfl | hcf
  · revert hlonger
    decide
  · rw [List.mem_singleton.mp hcf] at heq
    revert heq
    decide

/-- The forwards for `b.corp.example`, which only the wildcard covers. -/
theorem forwardsMostSpecific_office_below :
    ForwardsMostSpecific officeForwards (buildConditional (fun _ => true) officeForwards)
      "b.corp.example" ↔ ¬ForwardOvertaken officeForwards "b.corp.example" :=
  forwardsMostSpecific_iff (fun _ => true) officeForwards "b.corp.example" officeForwards_valid.1
    officeForwards_valid.2

end Conditional

/-! ## Rewrites -/

section Rewrites

variable {K : Crates} {order : IterationOrder (ℕ × List Str)} {t : FilterTables} {name : Str}

/-- An enabled rewrite with a valid target covers the name. -/
def Rewrite.Applies (K : Crates) (r : Rewrite) (name : Str) : Prop :=
  r.enabled = true ∧ (rewriteTarget K r.target).isSome = true ∧
    domainCovers (storedDomain r.domain) name = true

/-- Of the rewrites that apply to the name this is one with the longest domain. -/
def Rewrite.Longest (K : Crates) (r : Rewrite) (t : FilterTables) (name : Str) : Prop :=
  r ∈ t.rewrites ∧ r.Applies K name ∧ ∀ r' ∈ t.rewrites, r'.Applies K name →
    specificity (storedDomain r'.domain) ≤ specificity (storedDomain r.domain)

/-- A name that a rewrite applies to is rewritten to the target of one with the longest domain. -/
def RewritesMostSpecific (K : Crates) (t : FilterTables) (f : FilterSet) (name : Str) : Prop :=
  (∃ r ∈ t.rewrites, r.Applies K name) →
    ∃ r : Rewrite, r.Longest K t name ∧ ∃ target, rewriteTarget K r.target = some target ∧
      f.decide name = .rewrite target

/-- The alphabetically first of the rewrites that apply to the name is for a shorter domain than the
longest ones, and has another target. -/
def RewriteShadowed (K : Crates) (t : FilterTables) (name : Str) : Prop :=
  ∃ r ∈ t.rewrites, r.Applies K name ∧
    (∀ r' ∈ t.rewrites, r'.Applies K name → r.domain ≤ r'.domain) ∧
    ∀ s : Rewrite, s.Longest K t name →
      specificity (storedDomain r.domain) < specificity (storedDomain s.domain) ∧
        rewriteTarget K r.target ≠ rewriteTarget K s.target

/-- A row has a rule that covers the name exactly when it applies. -/
lemma any_rewriteRule_iff {r : Rewrite} :
    (rewriteRule K r).any (fun rule => domainCovers rule.1 name) = true ↔ r.Applies K name := by
  unfold Rewrite.Applies
  rw [Option.any_eq_true]
  constructor
  · rintro ⟨rule, hrule, hcovers⟩
    obtain ⟨henabled, htarget, hpattern⟩ := rewriteRule_eq_some.mp hrule
    rw [hpattern] at hcovers
    exact ⟨henabled, by rw [htarget]; rfl, hcovers⟩
  · rintro ⟨henabled, htarget, hcovers⟩
    obtain ⟨target, htarget⟩ := Option.isSome_iff_exists.mp htarget
    exact ⟨(storedDomain r.domain, target), rewriteRule_eq_some.mpr ⟨henabled, htarget, rfl⟩, hcovers⟩

variable (order) in
/-- A name that a rewrite applies to is rewritten to the target of the alphabetically first one. -/
lemma decide_rewrite_first (blockingEnabled : Bool) (h : ∃ r ∈ t.rewrites, r.Applies K name) :
    ∃ r ∈ t.rewrites, r.Applies K name ∧
      (∀ r' ∈ t.rewrites, r'.Applies K name → r.domain ≤ r'.domain) ∧
      ∃ target, rewriteTarget K r.target = some target ∧
        (FilterSet.buildFrom K order t blockingEnabled).decide name = .rewrite target := by
  have hmem : ∀ r, r ∈ Db.listRewrites t ↔ r ∈ t.rewrites := fun r =>
    (List.perm_insertionSort _ _).mem_iff
  have hsorted : (Db.listRewrites t).Pairwise fun r s => r.domain ≤ s.domain :=
    List.pairwise_insertionSort _ _
  unfold FilterSet.decide FilterSet.buildFrom
  rw [List.find?_filterMap]
  cases hfind : (Db.listRewrites t).find?
      fun r => (rewriteRule K r).any fun rule => domainCovers rule.1 name with
  | none =>
    obtain ⟨r, hr, happlies⟩ := h
    exact absurd (any_rewriteRule_iff.mpr happlies)
      (List.find?_eq_none.mp hfind r ((hmem r).mpr hr))
  | some r =>
    have happlies : r.Applies K name := any_rewriteRule_iff.mp
      (List.find?_some (p := fun r => (rewriteRule K r).any fun rule => domainCovers rule.1 name) hfind)
    obtain ⟨target, htarget⟩ := Option.isSome_iff_exists.mp happlies.2.1
    have hrule : rewriteRule K r = some (storedDomain r.domain, target) :=
      rewriteRule_eq_some.mpr ⟨happlies.1, htarget, rfl⟩
    refine ⟨r, (hmem r).mp (List.mem_of_find?_eq_some hfind), happlies, ?_, target, htarget, ?_⟩
    · intro r' hr' happlies'
      rcases rel_of_find?_eq_some hsorted hfind ((hmem r').mpr hr')
        (any_rewriteRule_iff.mpr happlies') with rfl | hle
      · exact le_rfl
      · exact hle
    · rw [Option.bind_some, hrule]

/-- The rewrite of a name leads where a longest one leads, unless a shorter one shadows those. -/
theorem rewritesMostSpecific_iff (K : Crates) (order : IterationOrder (ℕ × List Str))
    (t : FilterTables) (blockingEnabled : Bool) (name : Str)
    (hdistinct : (t.rewrites.map fun r => storedDomain r.domain).Nodup) :
    RewritesMostSpecific K t (.buildFrom K order t blockingEnabled) name ↔
      ¬RewriteShadowed K t name := by
  constructor
  · rintro h ⟨r, hr, happlies, hfirst, hshadows⟩
    obtain ⟨s, hs, target, htarget, hdecide⟩ := h ⟨r, hr, happlies⟩
    obtain ⟨r', hr', happlies', hfirst', target', htarget', hdecide'⟩ :=
      decide_rewrite_first order blockingEnabled ⟨r, hr, happlies⟩
    have hdomain : r'.domain = r.domain :=
      le_antisymm (hfirst' r hr happlies) (hfirst r' hr' happlies')
    have hsame : r' = r := List.inj_on_of_nodup_map hdistinct hr' hr (by rw [hdomain])
    have htargets : target' = target := Decision.rewrite.inj (hdecide'.symm.trans hdecide)
    apply (hshadows s hs).2
    rw [← hsame, htarget', htarget, htargets]
  · intro h hsome
    obtain ⟨r, hr, happlies, hfirst, target, htarget, hdecide⟩ :=
      decide_rewrite_first order blockingEnabled hsome
    by_contra hnot
    refine h ⟨r, hr, happlies, hfirst, fun s hs => ⟨?_, ?_⟩⟩
    · by_contra hle
      refine hnot ⟨r, ⟨hr, happlies, fun r' hr' happlies' => ?_⟩, target, htarget, hdecide⟩
      exact (hs.2.2 r' hr' happlies').trans (not_lt.mp hle)
    · intro htargets
      exact hnot ⟨s, hs, target, htargets ▸ htarget, hdecide⟩

/-- A rewrite of everything below `example.com`, and one of `www.example.com`. -/
def wwwRewrites : FilterTables :=
  ⟨[], [], [], [⟨1, "example.com", "10.0.0.1", true⟩, ⟨2, "www.example.com", "10.0.0.2", true⟩], []⟩

/-- The name `www.example.com` is rewritten to the target of `example.com`. -/
theorem rewritesMostSpecific_www :
    (wwwRewrites.rewrites.map fun r => storedDomain r.domain).Nodup ∧
    ¬RewritesMostSpecific plainCrates wwwRewrites
      (.buildFrom plainCrates .plain wwwRewrites true) "www.example.com" := by
  refine ⟨by decide, fun h => ?_⟩
  have happlies : Rewrite.Applies plainCrates ⟨2, "www.example.com", "10.0.0.2", true⟩
      "www.example.com" := by
    unfold Rewrite.Applies
    decide
  have hdecide : (FilterSet.buildFrom plainCrates .plain wwwRewrites true).decide "www.example.com" =
      .rewrite (.ip (.v4 0x0a000001)) := by
    decide +kernel
  obtain ⟨r, ⟨hr, -, hmax⟩, target, htarget, hrewrite⟩ := h ⟨_, by decide, happlies⟩
  have hlonger := hmax _ (by decide) happlies
  rcases List.mem_cons.mp hr with rfl | hr
  · revert hlonger
    decide
  · have htargets : target = .ip (.v4 0x0a000001) :=
      Decision.rewrite.inj (hrewrite.symm.trans hdecide)
    rw [List.mem_singleton.mp hr, htargets] at htarget
    revert htarget
    decide +kernel

/-- The rewrites of `example.com`, which the longer one does not cover. -/
theorem rewritesMostSpecific_example :
    RewritesMostSpecific plainCrates wwwRewrites
        (.buildFrom plainCrates .plain wwwRewrites true) "example.com" ↔
      ¬RewriteShadowed plainCrates wwwRewrites "example.com" :=
  rewritesMostSpecific_iff plainCrates .plain wwwRewrites true "example.com" (by decide)

end Rewrites

end Nomina
