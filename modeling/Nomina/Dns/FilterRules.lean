import Nomina.Dns.Filter
import Nomina.Models

/-!
# Building the filter

`FilterSet::build_from` and `ConditionalSet::build_from`: the rows of the filter tables, the queries
that read them, and the sets that the query path consults. A hash map is iterated over in some order,
which the results do not depend on.

The main result is the precedence of rewrites, allow rules, deny rules and blocklists. The switch for
blocklist filtering also turns the deny rules off, and nothing else departs from the contract.
-/

namespace Nomina

open Lib

/-! ## Tables -/

/-- A row of `blocklists`. -/
structure Blocklist where
  id : ℕ
  enabled : Bool
deriving DecidableEq

/-- A row of `blocklist_entries`. -/
structure BlocklistEntry where
  blocklistId : ℕ
  domain : Str
deriving DecidableEq

/-- A row of `block_rules`, with the text of its action. -/
structure BlockRule where
  id : ℕ
  domain : Str
  action : Str
deriving DecidableEq

/-- A row of `rewrites`. -/
structure Rewrite where
  id : ℕ
  domain : Str
  target : Str
  enabled : Bool
deriving DecidableEq

/-- A row of `conditional_forwards`. -/
structure ConditionalForward where
  id : ℕ
  domain : Str
  forwarders : List Forwarder
  enabled : Bool
deriving DecidableEq

/-- The tables that filtering and conditional forwarding are built from. -/
structure FilterTables where
  blocklists : List Blocklist
  entries : List BlocklistEntry
  rules : List BlockRule
  rewrites : List Rewrite
  forwards : List ConditionalForward
deriving DecidableEq

/-- A manual rule blocks or allows. -/
inductive RuleAction
  | Deny | Allow
deriving DecidableEq

/-- The action of a rule: what cannot be read denies. -/
def BlockRule.ruleAction (r : BlockRule) : RuleAction :=
  if r.action = "allow" then .Allow else .Deny

/-- `Db::enabled_block_domains_by_list`. -/
def Db.enabledBlockDomainsByList (t : FilterTables) : List (ℕ × Str) :=
  (t.entries.filter fun e => t.blocklists.any fun b => b.id == e.blocklistId && b.enabled).map
    fun e => (e.blocklistId, e.domain)

/-- `Db::list_block_rules`. -/
def Db.listBlockRules (t : FilterTables) : List BlockRule :=
  t.rules.insertionSort fun r s => r.domain ≤ s.domain

/-- `Db::list_rewrites`. -/
def Db.listRewrites (t : FilterTables) : List Rewrite :=
  t.rewrites.insertionSort fun r s => r.domain ≤ s.domain

/-- `Db::list_conditional_forwards`. -/
def Db.listConditionalForwards (t : FilterTables) : List ConditionalForward :=
  t.forwards.insertionSort fun r s => r.domain ≤ s.domain

/-! ## The sets -/

/-- A stored domain as the filter compares it: without trailing dots, in lowercase. -/
def storedDomain (domain : Str) : Str :=
  toAsciiLowercase (trimEndMatches '.' domain)

/-- The domains of the enabled lists, grouped by list. -/
def blockSources (domains : List (ℕ × Str)) : List (ℕ × List Str) :=
  (domains.map Prod.fst).dedup.map fun id =>
    (id, (domains.filter fun d => d.1 == id).map fun d => toAsciiLowercase d.2)

variable (K : Crates) (order : IterationOrder (ℕ × List Str))

/-- The target of a rewrite: an address, or else a name; `none` when it is neither. -/
def rewriteTarget (target : Str) : Option RewriteTarget :=
  match parseIpAddr (trim target) with
  | some ip => some (.ip ip)
  | none =>
    match K.fromUtf8 (if endsWith target ['.'] then target else trim target ++ ['.']) with
    | .ok n => some (.name n)
    | .error _ => none

/-- A rewrite row as a pattern with its target; disabled rows and invalid targets are skipped. -/
def rewriteRule (r : Rewrite) : Option (Str × RewriteTarget) :=
  if r.enabled then (rewriteTarget K r.target).map fun target => (storedDomain r.domain, target)
  else none

/-- `FilterSet::build_from`. -/
def FilterSet.buildFrom (t : FilterTables) (blockingEnabled : Bool) : FilterSet where
  blockingEnabled := blockingEnabled
  blocklists := order.arrange (blockSources (Db.enabledBlockDomainsByList t))
  denyRules := ((Db.listBlockRules t).filter (·.ruleAction = .Deny)).map (storedDomain ·.domain)
  allowRules := ((Db.listBlockRules t).filter (·.ruleAction = .Allow)).map (storedDomain ·.domain)
  rewrites := (Db.listRewrites t).filterMap (rewriteRule K)

section Conditional

variable (builds : List Forwarder → Bool)

/-- `build_forward_resolver`, which needs a forwarder with a valid address; `builds` tells whether the
resolver library then builds a resolver for the forwarders. -/
def buildForwardResolver (forwarders : List Forwarder) : Option Upstream :=
  if forwarders.all fun f => (parseIpAddr f.addr).isNone then none
  else if builds forwarders then some (.Forward forwarders)
  else none

/-- The rule of a conditional forward; disabled rows, rows without forwarders and those without a
resolver are skipped. -/
def conditionalRule (cf : ConditionalForward) : Option ConditionalRule :=
  if !cf.enabled || cf.forwarders.isEmpty then none
  else (buildForwardResolver builds cf.forwarders).map fun up => ⟨storedDomain cf.domain, up⟩

/-- `domain.split('.').count()`. -/
def labelCount (domain : Str) : ℕ :=
  (split '.' domain).length

/-- `ConditionalSet::build_from`. -/
def buildConditional (t : FilterTables) : List ConditionalRule :=
  ((Db.listConditionalForwards t).filterMap (conditionalRule builds)).insertionSort
    fun r s => labelCount s.domain ≤ labelCount r.domain

end Conditional

/-! ## What covers a name -/

namespace FilterTables

variable (t : FilterTables) (name : Str)

/-- An enabled rewrite with a valid target covers the name. -/
def Rewritten : Prop :=
  ∃ r ∈ t.rewrites, r.enabled = true ∧ (rewriteTarget K r.target).isSome = true ∧
    domainCovers (storedDomain r.domain) name = true

/-- A rule with the action covers the name. -/
def Ruled (action : RuleAction) : Prop :=
  ∃ r ∈ t.rules, r.ruleAction = action ∧ domainCovers (storedDomain r.domain) name = true

/-- The blocklist is enabled and contains the name. -/
def ListedBy (id : ℕ) : Prop :=
  (∃ b ∈ t.blocklists, b.id = id ∧ b.enabled = true) ∧
    ∃ e ∈ t.entries, e.blocklistId = id ∧ toAsciiLowercase e.domain = name

end FilterTables

variable {K} {order} {t : FilterTables} {name : Str}

/-- The rule of a rewrite row is its pattern with its target. -/
lemma rewriteRule_eq_some {r : Rewrite} {rule : Str × RewriteTarget} :
    rewriteRule K r = some rule ↔
      r.enabled = true ∧ rewriteTarget K r.target = some rule.2 ∧ rule.1 = storedDomain r.domain := by
  unfold rewriteRule
  cases r.enabled with
  | false => simp
  | true =>
    simp only [if_true, Option.map_eq_some_iff, true_and]
    constructor
    · rintro ⟨target, htarget, rfl⟩
      exact ⟨htarget, rfl⟩
    · rintro ⟨htarget, hpattern⟩
      exact ⟨rule.2, htarget, by rw [← hpattern]⟩

variable (order) in
/-- The rewrites of the set that cover a name come from the rows that do. -/
lemma exists_rewrite_iff (blockingEnabled : Bool) :
    (∃ rule ∈ (FilterSet.buildFrom K order t blockingEnabled).rewrites,
      domainCovers rule.1 name = true) ↔ t.Rewritten K name := by
  unfold FilterSet.buildFrom Db.listRewrites FilterTables.Rewritten
  simp only [List.mem_filterMap, (List.perm_insertionSort _ _).mem_iff, rewriteRule_eq_some]
  constructor
  · rintro ⟨rule, ⟨r, hr, henabled, htarget, hpattern⟩, hcovers⟩
    refine ⟨r, hr, henabled, ?_, ?_⟩
    · rw [htarget]
      rfl
    · rwa [← hpattern]
  · rintro ⟨r, hr, henabled, htarget, hcovers⟩
    obtain ⟨target, htarget⟩ := Option.isSome_iff_exists.mp htarget
    exact ⟨(storedDomain r.domain, target), ⟨r, hr, henabled, htarget, rfl⟩, hcovers⟩

/-- The patterns of one action that cover a name come from the rules that do. -/
lemma any_rules_iff {action : RuleAction} :
    (((Db.listBlockRules t).filter (·.ruleAction = action)).map (storedDomain ·.domain)).any
      (domainCovers · name) = true ↔ t.Ruled name action := by
  unfold Db.listBlockRules FilterTables.Ruled
  simp only [List.any_map, List.any_eq_true, List.mem_filter, (List.perm_insertionSort _ _).mem_iff,
    decide_eq_true_eq, Function.comp_apply, and_assoc]

/-- The allow rules of the set cover a name when those of the table do. -/
lemma any_allowRules_iff {blockingEnabled : Bool} :
    (FilterSet.buildFrom K order t blockingEnabled).allowRules.any (domainCovers · name) = true ↔
      t.Ruled name .Allow :=
  any_rules_iff

/-- The deny rules of the set cover a name when those of the table do. -/
lemma any_denyRules_iff {blockingEnabled : Bool} :
    (FilterSet.buildFrom K order t blockingEnabled).denyRules.any (domainCovers · name) = true ↔
      t.Ruled name .Deny :=
  any_rules_iff

/-- A pair of the enabled domains is an entry of an enabled list. -/
lemma mem_enabledBlockDomainsByList {d : ℕ × Str} :
    d ∈ Db.enabledBlockDomainsByList t ↔
      (∃ b ∈ t.blocklists, b.id = d.1 ∧ b.enabled = true) ∧
        ∃ e ∈ t.entries, e.blocklistId = d.1 ∧ e.domain = d.2 := by
  unfold Db.enabledBlockDomainsByList
  simp only [List.mem_map, List.mem_filter, List.any_eq_true, Bool.and_eq_true, beq_iff_eq]
  constructor
  · rintro ⟨e, ⟨he, b, hb, hid, henabled⟩, rfl⟩
    exact ⟨⟨b, hb, hid, henabled⟩, e, he, rfl, rfl⟩
  · rintro ⟨⟨b, hb, hid, henabled⟩, e, he, heid, hdomain⟩
    refine ⟨e, ⟨he, b, hb, hid.trans heid.symm, henabled⟩, ?_⟩
    rw [heid, hdomain]

variable (order) in
/-- A source of blocked domains has the name exactly when its list is enabled and contains it. -/
lemma mem_blockSources_iff {id : ℕ} :
    (∃ b ∈ order.arrange (blockSources (Db.enabledBlockDomainsByList t)),
      b.1 = id ∧ b.2.contains name = true) ↔ t.ListedBy name id := by
  unfold blockSources FilterTables.ListedBy
  simp only [(order.perm _).mem_iff, List.mem_map, List.mem_dedup, List.contains_iff_mem]
  constructor
  · rintro ⟨b, ⟨id', -, rfl⟩, rfl, hname⟩
    obtain ⟨d, hd, hname⟩ := List.mem_map.mp hname
    obtain ⟨hd, hid⟩ := List.mem_filter.mp hd
    obtain ⟨hlist, e, he, heid, hdomain⟩ := mem_enabledBlockDomainsByList.mp hd
    rw [eq_of_beq hid] at hlist heid
    exact ⟨hlist, e, he, heid, by rw [hdomain, hname]⟩
  · rintro ⟨hlist, e, he, heid, hname⟩
    have hd : (id, e.domain) ∈ Db.enabledBlockDomainsByList t :=
      mem_enabledBlockDomainsByList.mpr ⟨hlist, e, he, heid, rfl⟩
    refine ⟨_, ⟨id, ⟨_, hd, rfl⟩, rfl⟩, rfl, List.mem_map.mpr ⟨(id, e.domain), ?_, hname⟩⟩
    exact List.mem_filter.mpr ⟨hd, beq_self_eq_true _⟩

/-! ## Precedence -/

variable (K order) in
/-- Some list blocks the name exactly when an enabled list contains it. -/
lemma any_blocklists_iff (blockingEnabled : Bool) :
    (FilterSet.buildFrom K order t blockingEnabled).blocklists.any (·.2.contains name) = true ↔
      ∃ id, t.ListedBy name id := by
  simp only [← mem_blockSources_iff order, List.any_eq_true]
  constructor
  · rintro ⟨b, hb, hname⟩
    exact ⟨b.1, b, hb, rfl, hname⟩
  · rintro ⟨id, b, hb, -, hname⟩
    exact ⟨b, hb, hname⟩

/-- A hit is attributed to an enabled list that contains the name. -/
lemma listedBy_of_blocklistHit {blockingEnabled : Bool} {id : ℕ}
    (h : (FilterSet.buildFrom K order t blockingEnabled).blocklistHit name = some id) :
    t.ListedBy name id := by
  obtain ⟨b, hb, rfl⟩ := Option.map_eq_some_iff.mp h
  refine mem_blockSources_iff order |>.mp ⟨b, List.mem_of_find?_eq_some hb, rfl, ?_⟩
  exact List.find?_some (p := fun b : ℕ × List Str => b.2.contains name) hb

/-- A hit is attributed whenever an enabled list contains the name. -/
lemma blocklistHit_isSome_iff {blockingEnabled : Bool} :
    ((FilterSet.buildFrom K order t blockingEnabled).blocklistHit name).isSome = true ↔
      ∃ id, t.ListedBy name id := by
  rw [← any_blocklists_iff K order blockingEnabled]
  unfold FilterSet.blocklistHit
  rw [Option.isSome_map, List.find?_isSome, List.any_eq_true]

variable (K order t name) in
/-- The contract of the filter: a rewrite comes before an allow rule, that before a deny rule and the
blocklists, of which only the blocklists can be switched off; and a block is attributed to an enabled
list that contains the name, if there is one. -/
structure FilterContract (blockingEnabled : Bool) (f : FilterSet) : Prop where
  rewrite : t.Rewritten K name → ∃ target, f.decide name = .rewrite target
  allow : ¬t.Rewritten K name → t.Ruled name .Allow → f.decide name = .allow
  block : ¬t.Rewritten K name → ¬t.Ruled name .Allow →
    t.Ruled name .Deny ∨ blockingEnabled = true ∧ (∃ id, t.ListedBy name id) →
      f.decide name = .block
  pass : ¬t.Rewritten K name → ¬t.Ruled name .Allow → ¬t.Ruled name .Deny →
    ¬(blockingEnabled = true ∧ ∃ id, t.ListedBy name id) → f.decide name = .pass
  hit : f.decide name = .block → ((f.blocklistHit name).isSome = true ↔ ∃ id, t.ListedBy name id)
  hit_listed : ∀ id, f.blocklistHit name = some id → t.ListedBy name id

/-- A name covered by a rewrite is rewritten. -/
lemma decide_of_rewritten (blockingEnabled : Bool) (h : t.Rewritten K name) :
    ∃ target, (FilterSet.buildFrom K order t blockingEnabled).decide name = .rewrite target := by
  obtain ⟨rule, hrule, hcovers⟩ :=
    exists_rewrite_iff order blockingEnabled |>.mpr h
  unfold FilterSet.decide
  cases hfind : (FilterSet.buildFrom K order t blockingEnabled).rewrites.find?
      fun rw => domainCovers rw.1 name with
  | some found => exact ⟨found.2, rfl⟩
  | none => exact absurd hcovers (List.find?_eq_none.mp hfind rule hrule)

/-- A name that no rewrite covers is allowed, blocked or passed. -/
lemma decide_of_not_rewritten (blockingEnabled : Bool) (h : ¬t.Rewritten K name) :
    (FilterSet.buildFrom K order t blockingEnabled).decide name =
      if (FilterSet.buildFrom K order t blockingEnabled).allowRules.any (domainCovers · name) then
        .allow
      else if blockingEnabled &&
          ((FilterSet.buildFrom K order t blockingEnabled).blocklists.any (·.2.contains name) ||
            (FilterSet.buildFrom K order t blockingEnabled).denyRules.any (domainCovers · name)) then
        .block
      else .pass := by
  have hfind : (FilterSet.buildFrom K order t blockingEnabled).rewrites.find?
      (fun rw => domainCovers rw.1 name) = none := by
    rw [List.find?_eq_none]
    intro rule hrule hcovers
    exact h (exists_rewrite_iff order blockingEnabled |>.mp ⟨rule, hrule, hcovers⟩)
  unfold FilterSet.decide
  rw [hfind]
  rfl

variable (order) in
/-- A name that no rewrite and no allow rule covers is blocked exactly when blocking is enabled and a
list or a deny rule says so. -/
lemma decide_of_not_allowed (blockingEnabled : Bool) (h : ¬t.Rewritten K name)
    (hallow : ¬t.Ruled name .Allow) :
    (blockingEnabled = true ∧ ((∃ id, t.ListedBy name id) ∨ t.Ruled name .Deny) ∧
        (FilterSet.buildFrom K order t blockingEnabled).decide name = .block) ∨
      ¬(blockingEnabled = true ∧ ((∃ id, t.ListedBy name id) ∨ t.Ruled name .Deny)) ∧
        (FilterSet.buildFrom K order t blockingEnabled).decide name = .pass := by
  have hsource : (blockingEnabled &&
      ((FilterSet.buildFrom K order t blockingEnabled).blocklists.any (·.2.contains name) ||
        (FilterSet.buildFrom K order t blockingEnabled).denyRules.any (domainCovers · name))) = true ↔
      blockingEnabled = true ∧ ((∃ id, t.ListedBy name id) ∨ t.Ruled name .Deny) := by
    rw [Bool.and_eq_true, Bool.or_eq_true, any_blocklists_iff, any_denyRules_iff]
  rw [decide_of_not_rewritten blockingEnabled h, if_neg (mt any_allowRules_iff.mp hallow)]
  by_cases hblock : blockingEnabled = true ∧ ((∃ id, t.ListedBy name id) ∨ t.Ruled name .Deny)
  · exact .inl ⟨hblock.1, hblock.2, if_pos (hsource.mpr hblock)⟩
  · exact .inr ⟨hblock, if_neg (mt hsource.mp hblock)⟩

/-- The filter meets its contract for a name exactly when blocking is enabled, or no deny rule covers
the name, or a rewrite or an allow rule covers it. -/
theorem filterContract_iff (K : Crates) (order : IterationOrder (ℕ × List Str)) (t : FilterTables)
    (blockingEnabled : Bool) (name : Str) :
    FilterContract K t name blockingEnabled (.buildFrom K order t blockingEnabled) ↔
      blockingEnabled = true ∨ ¬t.Ruled name .Deny ∨ t.Ruled name .Allow ∨ t.Rewritten K name := by
  constructor
  · intro h
    by_contra hcontra
    push Not at hcontra
    obtain ⟨henabled, hdeny, hallow, hrewritten⟩ := hcontra
    have hblock := h.block hrewritten hallow (.inl hdeny)
    rcases decide_of_not_allowed order blockingEnabled hrewritten hallow with
      ⟨h', -⟩ | ⟨-, hpass⟩
    · exact henabled h'
    · rw [hpass] at hblock
      cases hblock
  · intro h
    refine ⟨decide_of_rewritten blockingEnabled, ?_, ?_, ?_, fun _ => blocklistHit_isSome_iff,
      fun id => listedBy_of_blocklistHit⟩
    · intro hrewritten hallow
      rw [decide_of_not_rewritten blockingEnabled hrewritten]
      exact if_pos (any_allowRules_iff.mpr hallow)
    · intro hrewritten hallow hblock
      rcases decide_of_not_allowed order blockingEnabled hrewritten hallow with
        ⟨-, -, hdecide⟩ | ⟨hnone, -⟩
      · exact hdecide
      · exfalso
        rcases hblock with hdeny | ⟨henabled, hlisted⟩
        · rcases h with henabled | hnot | hallow' | hrewritten'
          · exact hnone ⟨henabled, .inr hdeny⟩
          · exact hnot hdeny
          · exact hallow hallow'
          · exact hrewritten hrewritten'
        · exact hnone ⟨henabled, .inl hlisted⟩
    · intro hrewritten hallow hdeny hlisted
      rcases decide_of_not_allowed order blockingEnabled hrewritten hallow with
        ⟨henabled, hsource, -⟩ | ⟨-, hdecide⟩
      · rcases hsource with hlist | hrule
        · exact absurd ⟨henabled, hlist⟩ hlisted
        · exact absurd hrule hdeny
      · exact hdecide

/-- Tables with a single deny rule, for `ads.example`. -/
def denyTables : FilterTables :=
  ⟨[], [], [⟨1, "ads.example", "deny"⟩], [], []⟩

/-- With blocking disabled a deny rule does not block, although only the blocklists are switched
off. -/
theorem filterContract_denied :
    ¬FilterContract plainCrates denyTables "ads.example" false
      (.buildFrom plainCrates .plain denyTables false) := by
  intro h
  have hrewritten : ¬denyTables.Rewritten plainCrates "ads.example" := by
    rintro ⟨r, hr, -⟩
    cases hr
  have hallow : ¬denyTables.Ruled "ads.example" .Allow := by
    unfold FilterTables.Ruled
    decide
  have hdeny : denyTables.Ruled "ads.example" .Deny := by
    unfold FilterTables.Ruled
    decide
  have hdecide := h.block hrewritten hallow (.inl hdeny)
  revert hdecide
  decide

end Nomina
