import Nomina.Lib.Derived
import Nomina.Web.ListRefresh

/-!
# Reloading the filter

The filter and the conditional forwarding in place are what the database and the applied settings make of
them, in every run of a database that refuses nothing: as soon as no request and no refresh is under way, and
as long as no reload puts a value in place that has seen fewer changes than the one it replaces. A reload
reads the switch for blocking before the tables, so it has seen the changes before its first turn.
-/

namespace Nomina

open Lib Sql FilterJob FilterServer

variable {α : Type}

section Filter

variable (K : Crates) (T : Api.TsigCrates) (order : IterationOrder (ℕ × List Str))
  (builds : List Forwarder → Bool)

/-! ## The filter -/

/-- The filter, derived from the tables and the switch for blocking. -/
def derivedFilter : Derived FilterServer (FilterTables × Bool) FilterSet where
  source := filterSource
  value := (·.filter)
  derive src := .buildFrom K order src.1 src.2
  changes := (·.filterStamp.changes)
  seen := (·.filterStamp.seen)
  ok s := s.conn.faults = []

/-- The conditional forwarding, derived from its rows. -/
def derivedConditional : Derived FilterServer (List ConditionalForward) (List ConditionalRule) where
  source s := s.db.forwards
  value := (·.conditional)
  derive forwards := buildConditional builds ⟨[], [], [], [], forwards⟩
  changes := (·.conditionalStamp.changes)
  seen := (·.conditionalStamp.seen)
  ok s := s.conn.faults = []

variable {K order builds}

section Turns

variable {s s' : FilterServer} (hok : s'.conn.faults = [])

include hok

/-- What is written down counts a change of what the filter is made of. -/
lemma counted_recorded (hfilter : s'.filter = s.filter) (hstamp : s'.filterStamp = s.filterStamp) :
    (derivedFilter K order).Counted s (s.recorded s') where
  ok := hok
  value := hfilter
  seen := by
    change s'.filterStamp.seen = _
    rw [hstamp]
    rfl
  source := by
    change s'.filterSource = s.filterSource ∧ s'.filterStamp.changes + _ = s.filterStamp.changes ∨
      s'.filterStamp.changes + _ = s.filterStamp.changes + 1
    rw [hstamp]
    split
    · rename_i h
      exact .inl ⟨h, rfl⟩
    · exact .inr rfl

/-- Nothing is counted when this is as it was. -/
lemma neutral_recorded (hfilter : s'.filter = s.filter) (hstamp : s'.filterStamp = s.filterStamp)
    (hsource : s'.filterSource = s.filterSource) : (derivedFilter K order).Neutral s (s.recorded s') where
  ok _ := hok
  source := hsource
  value := hfilter
  changes := by
    change s'.filterStamp.changes + _ = s.filterStamp.changes
    rw [hstamp, if_pos hsource]
    rfl
  seen := by
    change s'.filterStamp.seen = _
    rw [hstamp]
    rfl

/-- The same for the conditional forwards. -/
lemma countedConditional_recorded (hvalue : s'.conditional = s.conditional)
    (hstamp : s'.conditionalStamp = s.conditionalStamp) :
    (derivedConditional builds).Counted s (s.recorded s') where
  ok := hok
  value := hvalue
  seen := by
    change s'.conditionalStamp.seen = _
    rw [hstamp]
    rfl
  source := by
    change s'.db.forwards = s.db.forwards ∧ s'.conditionalStamp.changes + _ = s.conditionalStamp.changes ∨
      s'.conditionalStamp.changes + _ = s.conditionalStamp.changes + 1
    rw [hstamp]
    split
    · rename_i h
      exact .inl ⟨h, rfl⟩
    · exact .inr rfl

lemma neutralConditional_recorded (hvalue : s'.conditional = s.conditional)
    (hstamp : s'.conditionalStamp = s.conditionalStamp) (hsource : s'.db.forwards = s.db.forwards) :
    (derivedConditional builds).Neutral s (s.recorded s') where
  ok _ := hok
  source := hsource
  value := hvalue
  changes := by
    change s'.conditionalStamp.changes + _ = s.conditionalStamp.changes
    rw [hstamp, if_pos hsource]
    rfl
  seen := by
    change s'.conditionalStamp.seen = _
    rw [hstamp]
    rfl

end Turns

/-! ## Reloads -/

variable (K order) in
/-- A load reads the tables and changes nothing. -/
lemma evals_filterLoad (blocking : Bool) (t : FilterDb) :
    Evals (FilterSet.load K order blocking) t (.ok (.buildFrom K order t.filterTables blocking)) t := by
  refine .bind (.unwrapOr _ (.select _ t)) ?_
  refine .bind (.unwrapOr _ (.select _ t)) ?_
  exact .bind (.unwrapOr _ (.select _ t)) (.pure _ t)

variable (builds) in
lemma evals_loadConditional (t : FilterDb) :
    Evals (loadConditional builds) t (.ok (buildConditional builds t.filterTables)) t :=
  .bind (.unwrapOr _ (.select _ t)) (.pure _ t)

/-- A reload puts the filter in place that the switch and the tables make. -/
lemma pays_reloadFilter : (derivedFilter K order).Pays (reloadFilter K order) := by
  refine Derived.Pays.refresh (n := Prod.snd) (fun _ => rfl) (fun b s hs => ?_) (fun b f s => ?_)
    (fun s₀ s₁ f s hs hsource hload => ?_)
  · obtain ⟨hres, htables, hfaults, -⟩ := evals_filterLoad K order b.1 s.db s.conn rfl hs.ok
    refine ⟨neutral_recorded hfaults rfl rfl ?_, _, congrArg (Except.mapError AppError.db) hres⟩
    unfold filterSource FilterServer.db
    rw [htables]
  · exact ⟨fun h => h, rfl, rfl, rfl⟩
  · obtain ⟨hres, -⟩ := evals_filterLoad K order s₀.settings.blockingEnabled s₁.db s₁.conn
      rfl hs.ok
    have hf : Except.mapError AppError.db ((FilterSet.load K order s₀.settings.blockingEnabled).result
        s₁.conn) = .ok f := hload
    rw [hres] at hf
    cases hf
    -- The switch was read in the first state, the tables in the second; the source is that of both.
    have htables : (filterSource s₁).1 = (filterSource s₀).1 := congrArg Prod.fst hsource
    change FilterSet.buildFrom K order (filterSource s₁).1 _ = FilterSet.buildFrom K order (filterSource s₀).1 _
    rw [htables]
    rfl

lemma pays_reloadConditional : (derivedConditional builds).Pays (reloadConditional builds) := by
  refine Derived.Pays.refresh (n := id) (fun _ => rfl) (fun b s hs => ?_) (fun b f s => ?_)
    (fun s₀ s₁ f s hs hsource hload => ?_)
  · obtain ⟨hres, htables, hfaults, -⟩ := evals_loadConditional builds s.db s.conn rfl hs.ok
    refine ⟨neutralConditional_recorded hfaults rfl rfl ?_, _, congrArg (Except.mapError AppError.db) hres⟩
    exact congrArg FilterDb.forwards htables
  · exact ⟨fun h => h, rfl, rfl, rfl⟩
  · obtain ⟨hres, -⟩ := evals_loadConditional builds s₁.db s₁.conn rfl hs.ok
    have hf : Except.mapError AppError.db ((loadConditional builds).result s₁.conn) = .ok f := hload
    rw [hres] at hf
    cases hf
    change buildConditional builds ⟨[], [], [], [], s₁.db.forwards⟩ = _
    rw [show s₁.db.forwards = s₀.db.forwards from hsource]
    rfl

/-! ## Turns of the handlers -/

/-- The rows that the filter is made of are the same. -/
def FilterDb.SameRows (t t' : FilterDb) : Prop :=
  { t'.filterTables with forwards := [] } = { t.filterTables with forwards := [] }

instance : IsPreorder FilterDb FilterDb.SameRows where
  refl _ := rfl
  trans _ _ _ h h' := h'.trans h

/-- The conditional forwards are the same. -/
def FilterDb.SameForwards (t t' : FilterDb) : Prop :=
  t'.forwards = t.forwards

instance : IsPreorder FilterDb FilterDb.SameForwards where
  refl _ := rfl
  trans _ _ _ h h' := h'.trans h

lemma filterSource_eq {s s' : FilterServer} (hrows : s.db.SameRows s'.db)
    (hsettings : s'.settings.blockingEnabled = s.settings.blockingEnabled) :
    s'.filterSource = s.filterSource :=
  Prod.ext hrows hsettings

section Calls

variable {m : Sql FilterDb α}

/-- A call that fails has left the tables as they were. -/
lemma tables_of_call_error (hm : Clean m) {s : FilterServer} (hs : s.conn.faults = []) {e : AppError}
    (he : (m.result s.conn).mapError AppError.db = .error e) : (m.after s.conn).tables = s.db := by
  cases hres : m.result s.conn with
  | ok a =>
    rw [hres] at he
    cases he
  | error e' => exact hm.error _ e' hs hres

lemma commits_call (hm : Clean m) : (derivedFilter K order).Commits (call m) := by
  refine Derived.Commits.atomically fun s hs => ⟨counted_recorded (hm.faults _ hs.ok) rfl rfl, fun e he => ?_⟩
  have htables := tables_of_call_error hm hs.ok he
  have hneutral : (derivedFilter K order).Neutral s (s.recorded { s with conn := m.after s.conn }) :=
    neutral_recorded (hm.faults _ hs.ok) rfl rfl (filterSource_eq (htables ▸ refl_of FilterDb.SameRows s.db) rfl)
  exact hneutral.changes

lemma commitsConditional_call (hm : Clean m) : (derivedConditional builds).Commits (call m) := by
  refine Derived.Commits.atomically fun s hs =>
    ⟨countedConditional_recorded (hm.faults _ hs.ok) rfl rfl, fun e he => ?_⟩
  have htables := tables_of_call_error hm hs.ok he
  have hneutral : (derivedConditional builds).Neutral s (s.recorded { s with conn := m.after s.conn }) :=
    neutralConditional_recorded (hm.faults _ hs.ok) rfl rfl (congrArg FilterDb.forwards htables)
  exact hneutral.changes

lemma owes_tryCall (hm : Unfaulted m) : (derivedFilter K order).Owes (tryCall m) :=
  .atomically fun _ hs => ⟨counted_recorded (hm _ hs.ok) rfl rfl, _, rfl⟩

lemma settles_call (hm : Unfaulted m) (hrows : Sql.Keeps FilterDb.SameRows m) :
    (derivedFilter K order).Settles (call m) :=
  .atomically fun s hs => neutral_recorded (hm _ hs.ok) rfl rfl (filterSource_eq (hrows s.conn) rfl)

lemma settlesConditional_call (hm : Unfaulted m) (hforwards : Sql.Keeps FilterDb.SameForwards m) :
    (derivedConditional builds).Settles (call m) :=
  .atomically fun s hs => neutralConditional_recorded (hm _ hs.ok) rfl rfl (hforwards s.conn)

lemma settlesConditional_tryCall (hm : Unfaulted m) (hforwards : Sql.Keeps FilterDb.SameForwards m) :
    (derivedConditional builds).Settles (tryCall m) :=
  .atomically fun s hs => neutralConditional_recorded (hm _ hs.ok) rfl rfl (hforwards s.conn)

end Calls

/-! ## Refreshes of the blocklists -/

lemma unfaulted_replaceBlocklistEntries (id : ℕ) (domains : List Str) (error : Option Str) :
    Unfaulted (Db.replaceBlocklistEntries id domains error) := by
  refine .transaction (.bind (Smooth.update _).faults fun _ => ?_)
  exact .bind (.forM fun _ => .statement _ _) fun _ => (Smooth.update _).faults

/-- A refresh does not touch the conditional forwards. -/
lemma sameForwards_replaceBlocklistEntries (id : ℕ) (domains : List Str) (error : Option Str) :
    Sql.Keeps FilterDb.SameForwards (Db.replaceBlocklistEntries id domains error) := by
  refine .transaction (.bind (.update fun _ => rfl) fun _ => ?_)
  exact .bind (Db.keeps_insertEntries id domains fun _ _ => rfl) fun _ => .update fun _ => rfl

/-- A download leaves the database and what is in place as they are. -/
lemma owes_fetchBlocklist (url : Str) (format : BlocklistFormat) :
    (derivedFilter K order).Owes (fetchBlocklist url format) := by
  refine .atomically fun s hs => ?_
  split
  · exact ⟨⟨hs.ok, rfl, rfl, .inl ⟨rfl, rfl⟩⟩, _, rfl⟩
  · exact ⟨⟨hs.ok, rfl, rfl, .inl ⟨rfl, rfl⟩⟩, _, rfl⟩
  · exact ⟨⟨hs.ok, rfl, rfl, .inl ⟨rfl, rfl⟩⟩, _, rfl⟩

lemma settlesConditional_fetchBlocklist (url : Str) (format : BlocklistFormat) :
    (derivedConditional builds).Settles (fetchBlocklist url format) := by
  refine .atomically fun s hs => ?_
  split
  · exact ⟨id, rfl, rfl, rfl, rfl⟩
  · exact ⟨id, rfl, rfl, rfl, rfl⟩
  · exact ⟨id, rfl, rfl, rfl, rfl⟩

lemma owes_refreshOne (id : ℕ) : (derivedFilter K order).Owes (refreshOne id) := by
  refine (owes_tryCall (Smooth.select _).faults).bind fun r => ?_
  split
  · refine (owes_fetchBlocklist _ _).bind fun r => ?_
    split
    · exact (owes_tryCall (unfaulted_replaceBlocklistEntries id _ none)).bind fun _ => .pure _
    · exact (owes_tryCall (Smooth.update _).faults).bind fun _ => .pure _
  · exact .pure _

lemma settlesConditional_refreshOne (id : ℕ) : (derivedConditional builds).Settles (refreshOne id) := by
  refine (settlesConditional_tryCall (Smooth.select _).faults (.select _)).bind fun r => ?_
  split
  · refine (settlesConditional_fetchBlocklist _ _).bind fun r => ?_
    split
    · exact (settlesConditional_tryCall (unfaulted_replaceBlocklistEntries id _ none)
        (sameForwards_replaceBlocklistEntries id _ none)).bind fun _ => .pure _
    · exact (settlesConditional_tryCall (m := Db.setBlocklistError id _) (Smooth.update _).faults
        (.update fun _ => rfl)).bind fun _ => .pure _
  · exact .pure _

lemma owes_refreshEnabled (lists : List BlocklistRow) : (derivedFilter K order).Owes (refreshEnabled lists) := by
  induction lists with
  | nil => exact .pure _
  | cons list lists ih =>
    unfold refreshEnabled
    split
    · exact (owes_refreshOne list.id).bind fun _ => ih
    · exact ih

lemma settlesConditional_refreshEnabled (lists : List BlocklistRow) :
    (derivedConditional builds).Settles (refreshEnabled lists) := by
  induction lists with
  | nil => exact .pure _
  | cons list lists ih =>
    unfold refreshEnabled
    split
    · exact (settlesConditional_refreshOne list.id).bind fun _ => ih
    · exact ih

lemma pays_refreshAllLists : (derivedFilter K order).Pays (refreshAllLists K order) := by
  refine (owes_tryCall (Smooth.select _).faults).pays fun lists => ?_
  refine (owes_refreshEnabled _).pays fun _ => ?_
  exact pays_reloadFilter.attempt.bind fun _ => .pure _

/-! ## Reloads of the other value -/

lemma settles_reloadConditional : (derivedFilter K order).Settles (reloadConditional builds) := by
  refine .bind (.atomically fun s _ => ⟨id, rfl, rfl, rfl, rfl⟩) fun changes => ?_
  refine (settles_call (fun c hc => ?_) (keeps_loadConditional builds)).bind fun conditional => ?_
  · obtain ⟨-, -, hfaults, -⟩ := evals_loadConditional builds c.tables c rfl hc
    exact hfaults
  · exact .atomically fun s _ => ⟨id, rfl, rfl, rfl, rfl⟩

lemma settlesConditional_reloadFilter : (derivedConditional builds).Settles (reloadFilter K order) := by
  refine .bind (.atomically fun s _ => ⟨id, rfl, rfl, rfl, rfl⟩) fun ⟨blocking, changes⟩ => ?_
  refine (settlesConditional_call (fun c hc => ?_) (keeps_loadFilter K order blocking)).bind fun filter => ?_
  · obtain ⟨-, -, hfaults, -⟩ := evals_filterLoad K order blocking c.tables c rfl hc
    exact hfaults
  · exact .atomically fun s _ => ⟨id, rfl, rfl, rfl, rfl⟩

lemma settlesConditional_refreshAllLists : (derivedConditional builds).Settles (refreshAllLists K order) := by
  refine (settlesConditional_tryCall (Smooth.select _).faults (.select _)).bind fun lists => ?_
  refine (settlesConditional_refreshEnabled _).bind fun _ => ?_
  exact settlesConditional_reloadFilter.attempt.bind fun _ => .pure _

/-- The switch for blocking is part of what the filter is made of. -/
lemma settles_applySettings (settings : Settings) :
    (derivedFilter K order).Settles (applySettings K order builds settings) := by
  have hmodify : (derivedFilter K order).Owes (modify fun s => s.recorded { s with settings }) :=
    .atomically fun s hs => ⟨counted_recorded hs.ok rfl rfl, _, rfl⟩
  refine (hmodify.pays fun _ => pays_reloadFilter.attempt.bind fun _ => ?_).settles
  exact settles_reloadConditional.attempt.bind fun _ => .pure _

lemma settlesConditional_applySettings (settings : Settings) :
    (derivedConditional builds).Settles (applySettings K order builds settings) := by
  refine .bind (.atomically fun s hs => neutralConditional_recorded hs.ok rfl rfl rfl) fun _ => ?_
  refine settlesConditional_reloadFilter.attempt.bind fun _ => ?_
  exact pays_reloadConditional.settles.attempt.bind fun _ => .pure _

end Filter

/-! ## Requests -/

section Requests

variable {τ δ : Type} {D : Derived FilterServer τ δ}

/-- Nothing is owed after a write and a reload. -/
structure Covers (D : Derived FilterServer τ δ) (m : Sql FilterDb α) (reload : FilterJob Unit) : Prop where
  settles : ∀ {β : Type} {k : α → FilterJob β}, (∀ a, D.Settles (k a)) → D.Settles (do
    let a ← call m
    reload
    k a)

lemma Covers.of_settles {m : Sql FilterDb α} {reload : FilterJob Unit} (hm : D.Settles (call m))
    (hreload : D.Settles reload) : Covers D m reload :=
  ⟨fun hk => hm.bind fun a => hreload.bind fun _ => hk a⟩

lemma Covers.of_commits {m : Sql FilterDb α} {reload : FilterJob Unit} (hm : D.Commits (call m))
    (hreload : D.Pays reload) : Covers D m reload :=
  ⟨fun hk => hm.settles fun a => hreload.bind fun _ => hk a⟩

variable {K : Crates} {T : Api.TsigCrates} {order : IterationOrder (ℕ × List Str)}
  {builds : List Forwarder → Bool}

lemma clean_insertReturning (clash : FilterDb → Bool) (row : FilterDb → ℕ × FilterDb) :
    Clean (Db.insertReturning clash row) := by
  unfold Db.insertReturning execute
  exact .statement _ _

/-- An optional update. -/
lemma smooth_forM {v : Option α} {f : α → FilterDb → FilterDb} : Smooth (v.forM fun a => update (f a)) := by
  cases v with
  | none => exact .pure ()
  | some a => exact .update _

variable (D K order builds) in
/-- What the steps of requests owe is covered. -/
structure StepsSettle : Prop where
  reads : ∀ {α : Type} (f : FilterDb → α), D.Settles (call (select f))
  filter : ∀ {α : Type} {m : Sql FilterDb α}, Clean m → Sql.Keeps FilterDb.SameForwards m →
    Covers D m (reloadFilter K order)
  forwards : ∀ {α : Type} {m : Sql FilterDb α}, Clean m → Sql.Keeps FilterDb.SameRows m →
    Covers D m (reloadConditional builds)
  refresh : ∀ (id : ℕ) {k : FilterJob FilterReply}, D.Settles k → D.Settles (do
    refreshOne id
    reloadFilter K order
    k)
  refreshNew : ∀ (m : Sql FilterDb ℕ) {k : ℕ → FilterJob FilterReply}, Clean m →
    Sql.Keeps FilterDb.SameForwards m → (∀ id, D.Settles (k id)) → D.Settles (do
      let id ← call m
      refreshOne id
      reloadFilter K order
      k id)
  refreshAll : D.Settles (refreshAllLists K order)
  settings : ∀ settings, D.Settles (call (Db.putSettings settings))
  apply : ∀ settings, D.Settles (applySettings K order builds settings)

namespace StepsSettle

/-- A query at the end of a request. -/
lemma query (h : StepsSettle D K order builds) {f : FilterDb → α} {reply : α → FilterReply} :
    D.Settles (call (select f) >>= fun a => pure (reply a)) :=
  (h.reads f).bind fun _ => .pure _

lemma createBlocklist (h : StepsSettle D K order builds) (name url : Str) (format : BlocklistFormat)
    (refreshNow : Bool) : D.Settles (Api.createBlocklist K order name url format refreshNow) := by
  refine (Derived.Settles.ofExcept _).bind fun _ => ?_
  have hkeeps : Sql.Keeps FilterDb.SameForwards (Db.createBlocklist (trim name) (trim url) format true) :=
    Db.keeps_insertReturning fun _ => rfl
  cases refreshNow with
  | true => exact h.refreshNew _ (clean_insertReturning _ _) hkeeps fun _ => h.query
  | false => exact (h.filter (clean_insertReturning _ _) hkeeps).settles fun _ => h.query

lemma updateBlocklist (h : StepsSettle D K order builds) (id : ℕ) (name : Option Str)
    (enabled : Option Bool) : D.Settles (Api.updateBlocklist K order id name enabled) := by
  have hkeeps : Sql.Keeps FilterDb.SameForwards (Db.updateBlocklist id name enabled) :=
    .bind (Db.keeps_forM fun _ => .update fun _ => rfl) fun _ => Db.keeps_forM fun _ => .update fun _ => rfl
  exact (h.filter (smooth_forM.bind fun _ => smooth_forM).clean hkeeps).settles fun _ => h.query

lemma deleteBlocklist (h : StepsSettle D K order builds) (id : ℕ) :
    D.Settles (Api.deleteBlocklist K order id) := by
  have hm : Covers D (Db.deleteBlocklist id) (reloadFilter K order) :=
    h.filter (Smooth.update _).clean (.update fun _ => rfl)
  exact hm.settles fun _ => .pure _

lemma refreshBlocklist (h : StepsSettle D K order builds) (id : ℕ) :
    D.Settles (Api.refreshBlocklist K order id) := by
  refine h.refresh id ((h.reads _).bind fun list => ?_)
  cases list with
  | some b => exact .pure _
  | none => exact .ofExcept _

lemma createBlockRule (h : StepsSettle D K order builds) (domain : Str) (action : RuleAction) :
    D.Settles (Api.createBlockRule K order domain action) := by
  refine (Derived.Settles.ofExcept _).bind fun d => ?_
  have hm : Covers D (Db.createBlockRule d action) (reloadFilter K order) :=
    h.filter (clean_insertReturning _ _) (Db.keeps_insertReturning fun _ => rfl)
  exact hm.settles fun _ => h.query

lemma deleteBlockRule (h : StepsSettle D K order builds) (id : ℕ) :
    D.Settles (Api.deleteBlockRule K order id) := by
  have hm : Covers D (Db.deleteBlockRule id) (reloadFilter K order) :=
    h.filter (Smooth.update _).clean (.update fun _ => rfl)
  exact hm.settles fun _ => .pure _

lemma createRewrite (h : StepsSettle D K order builds) (domain target : Str) :
    D.Settles (Api.createRewrite K order domain target) := by
  refine (Derived.Settles.ofExcept _).bind fun d => ?_
  refine (Derived.Settles.ofExcept _).bind fun _ => ?_
  have hm : Covers D (Db.createRewrite d (trim target)) (reloadFilter K order) :=
    h.filter (clean_insertReturning _ _) (Db.keeps_insertReturning fun _ => rfl)
  exact hm.settles fun _ => h.query

lemma updateRewrite (h : StepsSettle D K order builds) (id : ℕ) (domain target : Option Str)
    (enabled : Option Bool) : D.Settles (Api.updateRewrite K order id domain target enabled) := by
  refine (Derived.Settles.ofExcept _).bind fun _ => ?_
  refine (Derived.Settles.ofExcept _).bind fun d => ?_
  have hkeeps : Sql.Keeps FilterDb.SameForwards (Db.updateRewrite id d target enabled) :=
    .bind (Db.keeps_forM fun _ => .update fun _ => rfl) fun _ =>
      .bind (Db.keeps_forM fun _ => .update fun _ => rfl) fun _ =>
        Db.keeps_forM fun _ => .update fun _ => rfl
  have hclean : Clean (Db.updateRewrite id d target enabled) :=
    (smooth_forM.bind fun _ => smooth_forM.bind fun _ => smooth_forM).clean
  exact (h.filter hclean hkeeps).settles fun _ => h.query

lemma deleteRewrite (h : StepsSettle D K order builds) (id : ℕ) :
    D.Settles (Api.deleteRewrite K order id) := by
  have hm : Covers D (Db.deleteRewrite id) (reloadFilter K order) :=
    h.filter (Smooth.update _).clean (.update fun _ => rfl)
  exact hm.settles fun _ => .pure _

lemma createConditional (h : StepsSettle D K order builds) (domain : Str) (forwarders : List Forwarder) :
    D.Settles (Api.createConditional K builds domain forwarders) := by
  refine (Derived.Settles.ofExcept _).bind fun d => ?_
  refine (Derived.Settles.ofExcept _).bind fun _ => ?_
  have hm : Covers D (Db.createConditionalForward d forwarders) (reloadConditional builds) :=
    h.forwards (clean_insertReturning _ _) (Db.keeps_insertReturning fun _ => rfl)
  exact hm.settles fun _ => h.query

lemma updateConditional (h : StepsSettle D K order builds) (id : ℕ) (forwarders : Option (List Forwarder))
    (enabled : Option Bool) : D.Settles (Api.updateConditional builds id forwarders enabled) := by
  refine (Derived.Settles.ofExcept _).bind fun _ => ?_
  have hkeeps : Sql.Keeps FilterDb.SameRows (Db.updateConditionalForward id forwarders enabled) :=
    .bind (Db.keeps_forM fun _ => .update fun _ => rfl) fun _ => Db.keeps_forM fun _ => .update fun _ => rfl
  exact (h.forwards (smooth_forM.bind fun _ => smooth_forM).clean hkeeps).settles fun _ => h.query

lemma deleteConditional (h : StepsSettle D K order builds) (id : ℕ) :
    D.Settles (Api.deleteConditional builds id) := by
  have hm : Covers D (Db.deleteConditionalForward id) (reloadConditional builds) :=
    h.forwards (Smooth.update _).clean (.update fun _ => rfl)
  exact hm.settles fun _ => .pure _

lemma putSettingsRow (h : StepsSettle D K order builds) (u : SettingsUpdate) :
    D.Settles (Api.putSettingsRow K T order builds u) := by
  refine (h.reads _).bind fun settings => ?_
  refine (Derived.Settles.ofExcept _).bind fun _ => ?_
  exact (h.settings _).bind fun _ => (h.apply _).bind fun _ => .pure _

/-- So is what a request owes. -/
lemma handle (h : StepsSettle D K order builds) (request : FilterRequest) :
    D.Settles (request.handle K T order builds) := by
  cases request with
  | createBlocklist name url format refreshNow => exact h.createBlocklist name url format refreshNow
  | updateBlocklist id name enabled => exact h.updateBlocklist id name enabled
  | deleteBlocklist id => exact h.deleteBlocklist id
  | refreshBlocklist id => exact h.refreshBlocklist id
  | refreshAllBlocklists => exact h.refreshAll.bind fun _ => h.query
  | refreshTimer => exact h.refreshAll.bind fun _ => .pure _
  | createBlockRule domain action => exact h.createBlockRule domain action
  | deleteBlockRule id => exact h.deleteBlockRule id
  | createRewrite domain target => exact h.createRewrite domain target
  | updateRewrite id domain target enabled => exact h.updateRewrite id domain target enabled
  | deleteRewrite id => exact h.deleteRewrite id
  | createConditional domain forwarders => exact h.createConditional domain forwarders
  | updateConditional id forwarders enabled => exact h.updateConditional id forwarders enabled
  | deleteConditional id => exact h.deleteConditional id
  | putSettings u => exact h.putSettingsRow u

end StepsSettle

/-- The reload of the filter settles what the steps change of it. -/
lemma stepsSettle_filter : StepsSettle (derivedFilter K order) K order builds where
  reads f := settles_call (Smooth.select f).faults (.select f)
  filter hm _ := .of_commits (commits_call hm) pays_reloadFilter
  forwards hm hrows := .of_settles (settles_call hm.faults hrows) settles_reloadConditional
  refresh id _ hk := ((owes_refreshOne id).pays fun _ => pays_reloadFilter.bind fun _ => hk).settles
  refreshNew _ _ hm _ hk := (commits_call hm).settles fun id =>
    (owes_refreshOne id).pays fun _ => pays_reloadFilter.bind fun _ => hk id
  refreshAll := pays_refreshAllLists.settles
  settings settings :=
    settles_call (m := Db.putSettings settings) (Smooth.update _).faults (.update fun _ => rfl)
  apply := settles_applySettings

/-- So does that of the conditional forwarding. -/
lemma stepsSettle_conditional : StepsSettle (derivedConditional builds) K order builds where
  reads f := settlesConditional_call (Smooth.select f).faults (.select f)
  filter hm hrows := .of_settles (settlesConditional_call hm.faults hrows) settlesConditional_reloadFilter
  forwards hm _ := .of_commits (commitsConditional_call hm) pays_reloadConditional
  refresh id _ hk :=
    (settlesConditional_refreshOne id).bind fun _ => settlesConditional_reloadFilter.bind fun _ => hk
  refreshNew _ _ hm hrows hk := (settlesConditional_call hm.faults hrows).bind fun id =>
    (settlesConditional_refreshOne id).bind fun _ => settlesConditional_reloadFilter.bind fun _ => hk id
  refreshAll := settlesConditional_refreshAllLists
  settings settings :=
    settlesConditional_call (m := Db.putSettings settings) (Smooth.update _).faults (.update fun _ => rfl)
  apply := settlesConditional_applySettings

end Requests

/-! ## The result -/

/-- In every run of a database that refuses nothing, when no request is under way: if no reload replaced the
filter by one that has seen fewer changes, the filter in place is the one that the tables and the switch for
blocking make, and likewise the conditional forwarding is what its rows make. -/
theorem reloaded_of_run (K : Crates) (T : Api.TsigCrates) (order : IterationOrder (ℕ × List Str))
    (builds : List Forwarder → Bool) (t : FilterDb) (replies : List (Except Str Str))
    (as : List (PoolStep FilterRequest)) (p : Pool FilterServer AppError FilterReply)
    (hrun : run (Pool.step (FilterRequest.handle K T order builds))
      ⟨.initial K order builds t [] replies, []⟩ as = some p) (hquiet : p.Quiet) :
    (Along (Pool.step (FilterRequest.handle K T order builds))
        (Pool.Meets (FilterRequest.handle K T order builds) (fun _ => True) (derivedFilter K order).InOrder)
        ⟨.initial K order builds t [] replies, []⟩ as →
      p.shared.filter =
        .buildFrom K order p.shared.db.filterTables p.shared.settings.blockingEnabled) ∧
    (Along (Pool.step (FilterRequest.handle K T order builds))
        (Pool.Meets (FilterRequest.handle K T order builds) (fun _ => True)
          (derivedConditional builds).InOrder)
        ⟨.initial K order builds t [] replies, []⟩ as →
      p.shared.conditional = buildConditional builds p.shared.db.filterTables) := by
  constructor
  · intro hord
    have hgood : (derivedFilter K order).Good (.initial K order builds t [] replies) := ⟨rfl, Nat.le_refl 0⟩
    exact Derived.value_of_run stepsSettle_filter.handle hgood rfl rfl hord hrun hquiet
  · intro hord
    have hgood : (derivedConditional builds).Good (.initial K order builds t [] replies) :=
      ⟨rfl, Nat.le_refl 0⟩
    exact Derived.value_of_run stepsSettle_conditional.handle hgood rfl rfl hord hrun hquiet

/-- Between the turns of a request that creates and refreshes a list, a rule is created. -/
def betweenTurns : List (PoolStep FilterRequest) :=
  .start (.createBlocklist "ads" "https://ads.example/hosts" .Hosts true) ::
    .start (.createBlockRule "example.org" .Deny) :: turns 0 5 ++ turns 1 2 ++ turns 0 2 ++ turns 1 3 ++
    turns 0 1

/-- The same, but the list puts the filter in place that it loaded before the rule was created. -/
def overtaken : List (PoolStep FilterRequest) :=
  .start (.createBlocklist "ads" "https://ads.example/hosts" .Hosts true) ::
    .start (.createBlockRule "example.org" .Deny) :: turns 0 6 ++ turns 1 5 ++ turns 0 2

/-- In the first run the filter has all rows at the end. In the second one it lacks the rule. -/
theorem reloaded_betweenTurns :
    (∃ p, runDownloading adsText betweenTurns = some p ∧ p.shared.filter =
      .buildFrom plainCrates .plain p.shared.db.filterTables p.shared.settings.blockingEnabled) ∧
    ∃ p, runDownloading adsText overtaken = some p ∧ p.Quiet ∧ p.shared.filter ≠
      .buildFrom plainCrates .plain p.shared.db.filterTables p.shared.settings.blockingEnabled := by
  constructor
  · obtain ⟨p, hp, hquiet⟩ := (Option.any_eq_true _ _).mp (show (runDownloading adsText betweenTurns).any
      (fun p => decide p.Quiet) = true by decide +kernel)
    have hreloaded := reloaded_of_run plainCrates Api.plainTsig .plain (fun _ => true) noFilterDb
      [.ok adsText] betweenTurns p hp (of_decide_eq_true hquiet)
    exact ⟨p, hp, hreloaded.1 (by decide +kernel)⟩
  · obtain ⟨p, hp, hstate⟩ := (Option.any_eq_true _ _).mp (show (runDownloading adsText overtaken).any
      (fun p => decide (p.Quiet ∧ p.shared.filter ≠ .buildFrom plainCrates .plain p.shared.db.filterTables
        p.shared.settings.blockingEnabled)) = true by decide +kernel)
    exact ⟨p, hp, of_decide_eq_true hstate⟩

end Nomina
