import Nomina.Web.ListRefresh

/-!
# Accepted rows are effective

What the handlers accept is what the filter and the conditional forwarding can use. In every run the manual
rules and the rewrites have domains that are patterns as they are stored, the targets of the rewrites are
addresses or names, and the conditional forwards have forwarders with addresses; so what is built from the
tables has all of them. There is one exception: an update of a rewrite stores its target as it was given,
and a target with blanks around it that ends in a dot is checked as one name but read as another.
-/

namespace Nomina

open Lib Sql FilterJob FilterServer

/-! ## Valid rows -/

section Rows

variable (K : Crates)

/-- What `normalize_domain` returns: a text that the filter compares as it is, and a name. -/
structure ValidDomain (d : Str) : Prop where
  ne_nil : d ≠ []
  stored : storedDomain d = d
  name : ∃ n, K.fromUtf8 ((stripPrefix d "*.".toList).getD d ++ ['.']) = .ok n

/-- The rows of the tables are what the handlers accept. -/
structure ValidRows (t : FilterDb) : Prop where
  rules : ∀ r ∈ t.rules, ValidDomain K r.domain ∧ ∃ action : RuleAction, r.action = action.text
  rewrites : ∀ r ∈ t.rewrites, ValidDomain K r.domain ∧ validateRewriteTarget K r.target = .ok ()
  forwards : ∀ cf ∈ t.forwards, ValidDomain K cf.domain ∧ validateForwarders cf.forwarders = .ok ()

variable {K}

lemma validDomain_of_normalizeDomain {domain d : Str} (h : normalizeDomain K domain = .ok d) :
    ValidDomain K d := by
  unfold normalizeDomain at h
  dsimp only at h
  split at h
  · cases h
  · rename_i hne
    split at h
    · cases h
    · rename_i n hn
      cases h
      refine ⟨fun hnil => hne (List.isEmpty_iff.mpr hnil), ?_, n, hn⟩
      unfold storedDomain
      rw [trimEndMatches_toAsciiLowercase, trimEndMatches_idem, toAsciiLowercase_idem]

/-- A target is checked without the blanks around it. -/
lemma validateRewriteTarget_trim (target : Str) :
    validateRewriteTarget K (trim target) = validateRewriteTarget K target := by
  unfold validateRewriteTarget
  rw [trim_trim]

/-- A dot at the end of a target is at the end of the trimmed target. -/
lemma endsWith_trim {target : Str} (h : endsWith target ['.'] = true) :
    endsWith (trim target) ['.'] = true := by
  obtain ⟨pre, rfl⟩ := endsWith_iff.mp h
  have hdot : isWhitespace '.' = false := by decide
  by_cases hpre : pre.dropWhile isWhitespace = []
  · refine endsWith_iff.mpr ⟨[], ?_⟩
    unfold trim
    rw [List.dropWhile_append, hpre]
    rfl
  · refine endsWith_iff.mpr ⟨pre.dropWhile isWhitespace, ?_⟩
    unfold trim
    rw [List.dropWhile_append, if_neg (by simpa using hpre), List.rdropWhile_concat_neg]
    simp [hdot]

/-- An accepted target is read as it was checked, unless it has blanks around it and ends in a dot. -/
lemma isSome_rewriteTarget {target : Str} (h : validateRewriteTarget K target = .ok ())
    (hclean : target = trim target ∨ endsWith (trim target) ['.'] = false) :
    (rewriteTarget K target).isSome = true := by
  unfold validateRewriteTarget at h
  unfold rewriteTarget
  dsimp only at h
  cases hip : parseIpAddr (trim target) with
  | some ip => rfl
  | none =>
    rw [hip, Option.isSome_none, if_neg Bool.false_ne_true] at h
    have hread : (if endsWith target ['.'] then target else trim target ++ ['.']) =
        if endsWith (trim target) ['.'] then trim target else trim target ++ ['.'] := by
      rcases hclean with hclean | hclean
      · rw [← hclean]
      · have hdot : endsWith target ['.'] = false := by
          rw [Bool.eq_false_iff]
          intro hdot
          rw [endsWith_trim hdot] at hclean
          cases hclean
        rw [hdot, hclean]
        rfl
    rw [hread]
    cases hn : K.fromUtf8 (if endsWith (trim target) ['.'] then trim target else trim target ++ ['.']) with
    | ok n => rfl
    | error e =>
      rw [hn] at h
      cases h

/-- Accepted forwarders have addresses. -/
lemma buildForwardResolver_of_valid {forwarders : List Forwarder} (builds : List Forwarder → Bool)
    (h : validateForwarders forwarders = .ok ()) :
    buildForwardResolver builds forwarders =
      if builds forwarders then some (.Forward forwarders) else none := by
  unfold validateForwarders at h
  cases forwarders with
  | nil => cases h
  | cons f rest =>
    have hchecked : Api.checkForwarder f = .ok () := by
      cases hf : Api.checkForwarder f with
      | ok u => rfl
      | error e =>
        change Except.mapError _ (Api.checkForwarder f >>= fun _ => rest.forM Api.checkForwarder) = _ at h
        rw [hf] at h
        cases h
    have haddr : (parseIpAddr f.addr).isNone = false := by
      unfold Api.checkForwarder at hchecked
      rw [Bool.eq_false_iff]
      intro hnone
      rw [if_pos hnone] at hchecked
      cases hchecked
    unfold buildForwardResolver
    rw [List.all_cons, haddr, Bool.false_and, if_neg Bool.false_ne_true]

end Rows

/-! ## What the requests write -/

section Writes

variable {K : Crates}

/-- The relation that valid rows are inherited by. -/
def FilterDb.Inherits (K : Crates) (t t' : FilterDb) : Prop :=
  ValidRows K t → ValidRows K t'

instance : IsPreorder FilterDb (FilterDb.Inherits K) where
  refl _ := id
  trans _ _ _ h h' := h' ∘ h

/-- Changes of the blocklists and the settings. -/
lemma FilterDb.inherits_of_rows {t t' : FilterDb} (hrules : t'.rules = t.rules)
    (hrewrites : t'.rewrites = t.rewrites) (hforwards : t'.forwards = t.forwards) : Inherits K t t' :=
  fun h => ⟨hrules ▸ h.rules, hrewrites ▸ h.rewrites, hforwards ▸ h.forwards⟩

/-- A property of all rows of a table, after the row with an id was changed. -/
lemma forall_mem_map_if {ρ : Type} {P : ρ → Prop} {l : List ρ} {c : ρ → Prop} [DecidablePred c] {f : ρ → ρ}
    (h : ∀ r ∈ l, P r) (hf : ∀ r, P r → P (f r)) : ∀ r ∈ l.map fun r => if c r then f r else r, P r := by
  intro r hr
  obtain ⟨r', hr', rfl⟩ := List.mem_map.mp hr
  split
  · exact hf r' (h r' hr')
  · exact h r' hr'

lemma inherits_mapRewrite {id : ℕ} {f : Rewrite → Rewrite}
    (hf : ∀ r, ValidDomain K r.domain ∧ validateRewriteTarget K r.target = .ok () →
      ValidDomain K (f r).domain ∧ validateRewriteTarget K (f r).target = .ok ()) :
    Sql.Keeps (FilterDb.Inherits K) (update (FilterDb.mapRewrite · id f)) :=
  .update fun _ h => ⟨h.rules, forall_mem_map_if h.rewrites hf, h.forwards⟩

lemma inherits_mapForward {id : ℕ} {f : ConditionalForward → ConditionalForward}
    (hf : ∀ cf, ValidDomain K cf.domain ∧ validateForwarders cf.forwarders = .ok () →
      ValidDomain K (f cf).domain ∧ validateForwarders (f cf).forwarders = .ok ()) :
    Sql.Keeps (FilterDb.Inherits K) (update (FilterDb.mapForward · id f)) :=
  .update fun _ h => ⟨h.rules, h.rewrites, forall_mem_map_if h.forwards hf⟩

lemma inherits_update {f : FilterDb → FilterDb} (h : ∀ t, FilterDb.Inherits K t (f t)) :
    Sql.Keeps (FilterDb.Inherits K) (update f) :=
  .update h

lemma inherits_updateBlocklist (id : ℕ) (name : Option Str) (enabled : Option Bool) :
    Sql.Keeps (FilterDb.Inherits K) (Db.updateBlocklist id name enabled) :=
  .bind (Db.keeps_forM fun _ => inherits_update fun _ => FilterDb.inherits_of_rows rfl rfl rfl) fun _ =>
    Db.keeps_forM fun _ => inherits_update fun _ => FilterDb.inherits_of_rows rfl rfl rfl

lemma inherits_createBlockRule {domain d : Str} (hd : normalizeDomain K domain = .ok d)
    (action : RuleAction) : Sql.Keeps (FilterDb.Inherits K) (Db.createBlockRule d action) :=
  Db.keeps_insertReturning fun _ h => ⟨List.forall_mem_append.mpr ⟨h.rules,
    List.forall_mem_singleton.mpr ⟨validDomain_of_normalizeDomain hd, action, rfl⟩⟩, h.rewrites, h.forwards⟩

lemma inherits_createRewrite {domain d target : Str} (hd : normalizeDomain K domain = .ok d)
    (htarget : validateRewriteTarget K target = .ok ()) :
    Sql.Keeps (FilterDb.Inherits K) (Db.createRewrite d (trim target)) :=
  Db.keeps_insertReturning fun _ h => ⟨h.rules, List.forall_mem_append.mpr ⟨h.rewrites,
    List.forall_mem_singleton.mpr
      ⟨validDomain_of_normalizeDomain hd, (validateRewriteTarget_trim target).trans htarget⟩⟩, h.forwards⟩

lemma inherits_updateRewrite {id : ℕ} {domain d target : Option Str} {enabled : Option Bool}
    (hd : domain.mapM (normalizeDomain K) = .ok d)
    (htarget : target.forM (validateRewriteTarget K) = .ok ()) :
    Sql.Keeps (FilterDb.Inherits K) (Db.updateRewrite id d target enabled) := by
  have hdomain : Sql.Keeps (FilterDb.Inherits K)
      (d.forM fun domain => update (FilterDb.mapRewrite · id fun r => { r with domain })) := by
    cases domain with
    | none =>
      cases hd
      exact .pure ()
    | some raw =>
      cases hraw : normalizeDomain K raw with
      | error e =>
        rw [Option.mapM_some, hraw] at hd
        cases hd
      | ok domain =>
        rw [Option.mapM_some, hraw] at hd
        cases hd
        exact inherits_mapRewrite fun r h => ⟨validDomain_of_normalizeDomain hraw, h.2⟩
  have hrewrite : Sql.Keeps (FilterDb.Inherits K)
      (target.forM fun target => update (FilterDb.mapRewrite · id fun r => { r with target })) := by
    cases target with
    | none => exact .pure ()
    | some target => exact inherits_mapRewrite fun r h => ⟨h.1, htarget⟩
  exact .bind hdomain fun _ => .bind hrewrite fun _ =>
    Db.keeps_forM fun _ => inherits_mapRewrite fun r h => h

lemma inherits_createConditionalForward {domain d : Str} {forwarders : List Forwarder}
    (hd : normalizeDomain K domain = .ok d) (hforwarders : validateForwarders forwarders = .ok ()) :
    Sql.Keeps (FilterDb.Inherits K) (Db.createConditionalForward d forwarders) :=
  Db.keeps_insertReturning fun _ h => ⟨h.rules, h.rewrites, List.forall_mem_append.mpr ⟨h.forwards,
    List.forall_mem_singleton.mpr ⟨validDomain_of_normalizeDomain hd, hforwarders⟩⟩⟩

lemma inherits_updateConditionalForward {id : ℕ} {forwarders : Option (List Forwarder)}
    {enabled : Option Bool} (hforwarders : forwarders.forM validateForwarders = .ok ()) :
    Sql.Keeps (FilterDb.Inherits K) (Db.updateConditionalForward id forwarders enabled) := by
  have hforward : Sql.Keeps (FilterDb.Inherits K) (forwarders.forM fun forwarders =>
      update (FilterDb.mapForward · id fun cf => { cf with forwarders })) := by
    cases forwarders with
    | none => exact .pure ()
    | some forwarders => exact inherits_mapForward fun cf h => ⟨h.1, hforwarders⟩
  exact .bind hforward fun _ => Db.keeps_forM fun _ => inherits_mapForward fun cf h => h

/-- What a request stores has passed its checks. -/
lemma inherits_writes (request : FilterRequest) : request.WritesKeep K (FilterDb.Inherits K) := by
  cases request with
  | createBlocklist name url format refreshNow =>
    exact Db.keeps_insertReturning fun t => FilterDb.inherits_of_rows rfl rfl rfl
  | updateBlocklist id name enabled => exact inherits_updateBlocklist id name enabled
  | deleteBlocklist id => exact inherits_update fun t => FilterDb.inherits_of_rows rfl rfl rfl
  | refreshBlocklist id => trivial
  | refreshAllBlocklists => trivial
  | refreshTimer => trivial
  | createBlockRule domain action => exact fun d hd => inherits_createBlockRule hd action
  | deleteBlockRule id =>
    exact inherits_update fun t h =>
      ⟨fun r hr => h.rules r (List.mem_of_mem_filter hr), h.rewrites, h.forwards⟩
  | createRewrite domain target => exact fun d hd htarget => inherits_createRewrite hd htarget
  | updateRewrite id domain target enabled => exact fun d hd htarget => inherits_updateRewrite hd htarget
  | deleteRewrite id =>
    exact inherits_update fun t h =>
      ⟨h.rules, fun r hr => h.rewrites r (List.mem_of_mem_filter hr), h.forwards⟩
  | createConditional domain forwarders =>
    exact fun d hd hforwarders => inherits_createConditionalForward hd hforwarders
  | updateConditional id forwarders enabled =>
    exact fun hforwarders => inherits_updateConditionalForward hforwarders
  | deleteConditional id =>
    exact inherits_update fun t h =>
      ⟨h.rules, h.rewrites, fun cf hcf => h.forwards cf (List.mem_of_mem_filter hcf)⟩
  | putSettings u => exact fun _ => inherits_update fun t => FilterDb.inherits_of_rows rfl rfl rfl

end Writes

/-! ## The result -/

/-- The patterns of the manual rules with an action. -/
def FilterSet.patterns (f : FilterSet) : RuleAction → List Str
  | .Deny => f.denyRules
  | .Allow => f.allowRules

lemma RuleAction.text_ruleAction {r : BlockRule} {action : RuleAction} (h : r.action = action.text) :
    r.ruleAction = action := by
  unfold BlockRule.ruleAction
  rw [h]
  cases action <;> decide

section Effective

variable {K : Crates} {t : FilterDb} {order : IterationOrder (ℕ × List Str)} {blocking : Bool}
  {builds : List Forwarder → Bool}

/-- The filter has the manual rules, with their domains as they are stored. -/
lemma ValidRows.rule_built (h : ValidRows K t) {r : BlockRule} (hr : r ∈ t.rules) :
    ∃ action : RuleAction, r.action = action.text ∧
      r.domain ∈ (FilterSet.buildFrom K order t.filterTables blocking).patterns action := by
  obtain ⟨hdomain, action, haction⟩ := h.rules r hr
  refine ⟨action, haction, ?_⟩
  have hmem : r.domain ∈ ((Db.listBlockRules t.filterTables).filter (·.ruleAction = action)).map
      (storedDomain ·.domain) := by
    refine List.mem_map.mpr ⟨r, List.mem_filter.mpr ⟨?_, ?_⟩, hdomain.stored⟩
    · exact (List.perm_insertionSort _ _).mem_iff.mpr hr
    · rw [RuleAction.text_ruleAction haction, decide_eq_true_eq]
  cases action with
  | Deny => exact hmem
  | Allow => exact hmem

/-- The filter has an enabled rewrite whose target is read. -/
lemma ValidRows.rewrite_built (h : ValidRows K t) {r : Rewrite} (hr : r ∈ t.rewrites)
    (henabled : r.enabled = true)
    (hclean : r.target = trim r.target ∨ endsWith (trim r.target) ['.'] = false) :
    ∃ target, rewriteTarget K r.target = some target ∧
      (r.domain, target) ∈ (FilterSet.buildFrom K order t.filterTables blocking).rewrites := by
  obtain ⟨hdomain, htarget⟩ := h.rewrites r hr
  obtain ⟨target, hread⟩ := Option.isSome_iff_exists.mp (isSome_rewriteTarget htarget hclean)
  refine ⟨target, hread, List.mem_filterMap.mpr ⟨r, ?_, ?_⟩⟩
  · exact (List.perm_insertionSort _ _).mem_iff.mpr hr
  · exact rewriteRule_eq_some.mpr ⟨henabled, hread, hdomain.stored.symm⟩

/-- The conditional forwarding has an enabled forward for which the library builds a resolver. -/
lemma ValidRows.forward_built (h : ValidRows K t) {cf : ConditionalForward} (hcf : cf ∈ t.forwards)
    (henabled : cf.enabled = true) (hbuilds : builds cf.forwarders = true) :
    ⟨cf.domain, .Forward cf.forwarders⟩ ∈ buildConditional builds t.filterTables := by
  obtain ⟨hdomain, hforwarders⟩ := h.forwards cf hcf
  unfold buildConditional
  rw [(List.perm_insertionSort _ _).mem_iff]
  refine List.mem_filterMap.mpr ⟨cf, (List.perm_insertionSort _ _).mem_iff.mpr hcf, ?_⟩
  have hne : cf.forwarders.isEmpty = false := by
    rw [Bool.eq_false_iff]
    intro hnil
    unfold validateForwarders at hforwarders
    rw [if_pos hnil] at hforwarders
    cases hforwarders
  unfold conditionalRule
  rw [henabled, hne, buildForwardResolver_of_valid builds hforwarders, if_pos hbuilds, hdomain.stored]
  rfl

end Effective

/-- In every run that starts with accepted rows: the filter that is built from the tables has every manual
rule, with its domain as it is stored, and every enabled rewrite whose target has no blanks around it or does
not end in a dot, with the target that is read from its text; the conditional forwarding has every enabled
forward for which the library builds a resolver. -/
theorem effective_of_run (K : Crates) (T : Api.TsigCrates) (order : IterationOrder (ℕ × List Str))
    (builds : List Forwarder → Bool) (t : FilterDb) (ht : ValidRows K t) (faults : List Bool)
    (replies : List (Except Str Str)) (as : List (PoolStep FilterRequest))
    (p : Pool FilterServer AppError FilterReply)
    (hrun : run (Pool.step (FilterRequest.handle K T order builds))
      ⟨.initial K order builds t faults replies, []⟩ as = some p) (blocking : Bool) :
    (∀ r ∈ p.shared.db.rules, ∃ action : RuleAction, r.action = action.text ∧
      r.domain ∈ (FilterSet.buildFrom K order p.shared.db.filterTables blocking).patterns action) ∧
    (∀ r ∈ p.shared.db.rewrites, r.enabled = true →
      r.target = trim r.target ∨ endsWith (trim r.target) ['.'] = false →
      ∃ target, rewriteTarget K r.target = some target ∧ (r.domain, target) ∈
        (FilterSet.buildFrom K order p.shared.db.filterTables blocking).rewrites) ∧
    ∀ cf ∈ p.shared.db.forwards, cf.enabled = true → builds cf.forwarders = true →
      ⟨cf.domain, .Forward cf.forwarders⟩ ∈ buildConditional builds p.shared.db.filterTables := by
  have hrelated : p.shared.Related (FilterDb.Inherits K) t :=
    related_of_run (fun _ _ => FilterDb.inherits_of_rows rfl rfl rfl)
      (fun _ _ _ => FilterDb.inherits_of_rows rfl rfl rfl) (fun request _ => inherits_writes request) hrun
  have hvalid : ValidRows K p.shared.db := hrelated t List.mem_cons_self ht
  exact ⟨fun r hr => hvalid.rule_built hr, fun r hr henabled hclean => hvalid.rewrite_built hr henabled hclean,
    fun cf hcf henabled hbuilds => hvalid.forward_built hcf henabled hbuilds⟩

/-- A rewrite is created, and its target is in the filter. -/
theorem effective_created :
    ∃ p, runDownloading [] (.start (.createRewrite "NAS.lan." " 192.168.1.10 ") :: turns 0 5) = some p ∧
      ∃ target, rewriteTarget plainCrates "192.168.1.10" = some target ∧ ("nas.lan".toList, target) ∈
        (FilterSet.buildFrom plainCrates .plain p.shared.db.filterTables true).rewrites := by
  have hempty : ValidRows plainCrates noFilterDb := ⟨nofun, nofun, nofun⟩
  obtain ⟨p, hp, hstate⟩ := (Option.any_eq_true _ _).mp (show
    (runDownloading [] (.start (.createRewrite "NAS.lan." " 192.168.1.10 ") :: turns 0 5)).any
      (fun p => p.shared.db.rewrites == [⟨1, "nas.lan", "192.168.1.10", true⟩]) = true by decide +kernel)
  rw [beq_iff_eq] at hstate
  refine ⟨p, hp, (effective_of_run plainCrates Api.plainTsig .plain (fun _ => true) noFilterDb hempty []
    [.ok []] _ p hp true).2.1 ⟨1, "nas.lan", "192.168.1.10", true⟩ ?_ rfl (.inl (by decide))⟩
  rw [hstate]
  exact List.mem_singleton_self _

end Nomina
