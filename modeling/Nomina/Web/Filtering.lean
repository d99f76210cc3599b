import Nomina.Db.Filter
import Nomina.Lib.Job
import Nomina.Web.Settings

/-!
# Requests that change the filter

The handlers for blocklists, manual rules, rewrites, conditional forwards and settings, and the refresh of
the blocklists, as jobs that take turns: a database call is one turn, and so is the download of a list.
The set that the query path consults is put together from the database by a reload at the end of a handler.
A reload takes three turns: it reads the switch for blocking, loads the tables, and puts the set in place.
-/

namespace Nomina

open Lib Sql

/-! ## Loading -/

section Load

variable (K : Crates) (order : IterationOrder (ℕ × List Str)) (builds : List Forwarder → Bool)

/-- The filter of the rows that were read. -/
def FilterSet.ofRows (domains : List (ℕ × Str)) (rules : List BlockRule) (rewrites : List Rewrite)
    (blockingEnabled : Bool) : FilterSet where
  blockingEnabled := blockingEnabled
  blocklists := order.arrange (blockSources domains)
  denyRules := (rules.filter (·.ruleAction = .Deny)).map (storedDomain ·.domain)
  allowRules := (rules.filter (·.ruleAction = .Allow)).map (storedDomain ·.domain)
  rewrites := rewrites.filterMap (rewriteRule K)

/-- `FilterSet::load`: what a read that fails would have found is taken to be empty. -/
def FilterSet.load (blockingEnabled : Bool) : Sql FilterDb FilterSet := do
  let domains ← unwrapOr [] (select fun t => Db.enabledBlockDomainsByList t.filterTables)
  let rules ← unwrapOr [] (select fun t => Db.listBlockRules t.filterTables)
  let rewrites ← unwrapOr [] (select fun t => Db.listRewrites t.filterTables)
  pure (.ofRows K order domains rules rewrites blockingEnabled)

/-- `ConditionalSet::load`. -/
def loadConditional : Sql FilterDb (List ConditionalRule) := do
  let forwards ← unwrapOr [] (select fun t => Db.listConditionalForwards t.filterTables)
  pure ((forwards.filterMap (conditionalRule builds)).insertionSort
    fun r s => labelCount s.domain ≤ labelCount r.domain)

end Load

/-! ## The server -/

/-- How often what a value is made of has changed, and how many of these changes the value in place has
seen. Both are history. -/
structure Stamp where
  changes : ℕ
  seen : ℕ

/-- What the requests share: the database, the settings that are applied, the filter and the conditional
forwarding in place, and what the coming downloads return. The downloads, the contents that the database
had and the stamps are history. -/
structure FilterServer where
  conn : Conn FilterDb
  settings : Settings
  filter : FilterSet
  conditional : List ConditionalRule
  replies : List (Except Str Str)
  downloads : List (Str × Str)
  past : List FilterDb
  filterStamp : Stamp
  conditionalStamp : Stamp

namespace FilterServer

/-- The contents of the database. -/
abbrev db (s : FilterServer) : FilterDb := s.conn.tables

/-- What the filter is made of. -/
def filterSource (s : FilterServer) : FilterTables × Bool :=
  ({ s.db.filterTables with forwards := [] }, s.settings.blockingEnabled)

/-- The state that a turn leaves, with what it changed written down. -/
def recorded (s s' : FilterServer) : FilterServer :=
  { s' with
    past := s'.past ++ [s'.db]
    filterStamp :=
      { s'.filterStamp with
        changes := s'.filterStamp.changes + if s'.filterSource = s.filterSource then 0 else 1 }
    conditionalStamp :=
      { s'.conditionalStamp with
        changes := s'.conditionalStamp.changes + if s'.db.forwards = s.db.forwards then 0 else 1 } }

/-- Contents of the database and downloads are only added to the history. -/
def Grows (s s' : FilterServer) : Prop :=
  s.past ⊆ s'.past ∧ s.downloads ⊆ s'.downloads

instance : IsPreorder FilterServer Grows where
  refl _ := ⟨List.Subset.refl _, List.Subset.refl _⟩
  trans _ _ _ h h' := ⟨List.Subset.trans h.1 h'.1, List.Subset.trans h.2 h'.2⟩

lemma grows_recorded (s : FilterServer) (c : Conn FilterDb) : s.Grows (s.recorded { s with conn := c }) :=
  ⟨List.subset_append_left _ _, List.Subset.refl _⟩

end FilterServer

/-- A handler or a background task. -/
abbrev FilterJob (α : Type) := Job FilterServer AppError α

namespace FilterJob

variable {α : Type}

/-- `state.db.run(..).await`. -/
def tryCall (m : Sql FilterDb α) : FilterJob (Except DbError α) :=
  .atomically fun s => (.ok (m.result s.conn), s.recorded { s with conn := m.after s.conn })

/-- `state.db.run(..).await?`. -/
def call (m : Sql FilterDb α) : FilterJob α :=
  .atomically fun s =>
    ((m.result s.conn).mapError .db, s.recorded { s with conn := m.after s.conn })

/-- Read something of the shared state. -/
def look (f : FilterServer → α) : FilterJob α :=
  .atomically fun s => (.ok (f s), s)

/-- Change the shared state. -/
def modify (f : FilterServer → FilterServer) : FilterJob Unit :=
  .atomically fun s => (.ok (), f s)

/-- `fetch_blocklist`: the next reply, parsed, or why there is none. -/
def fetchBlocklist (url : Str) (format : BlocklistFormat) : FilterJob (Except Str (List Str)) :=
  .atomically fun s =>
    match s.replies with
    | .ok text :: rest =>
      (.ok (.ok (parseBlocklist text format)),
        { s with replies := rest, downloads := s.downloads ++ [(url, text)] })
    | .error e :: rest => (.ok (.error e), { s with replies := rest })
    | [] => (.ok (.error []), s)

end FilterJob

open FilterJob FilterServer

section Handlers

variable (K : Crates) (T : Api.TsigCrates) (order : IterationOrder (ℕ × List Str))
  (builds : List Forwarder → Bool)

/-! ## Reloading -/

/-- `AppState::reload_filter`. -/
def reloadFilter : FilterJob Unit := do
  let (blocking, changes) ← look fun s => (s.settings.blockingEnabled, s.filterStamp.changes)
  let filter ← call (FilterSet.load K order blocking)
  modify fun s => { s with filter, filterStamp := { s.filterStamp with seen := changes } }

/-- `AppState::reload_conditional`. -/
def reloadConditional : FilterJob Unit := do
  let changes ← look fun s => s.conditionalStamp.changes
  let conditional ← call (loadConditional builds)
  modify fun s => { s with conditional, conditionalStamp := { s.conditionalStamp with seen := changes } }

/-- `AppState::apply_settings`, as far as the filter and the forwarding go. Errors of the reloads are only
logged. -/
def applySettings (settings : Settings) : FilterJob Unit := do
  modify fun s => s.recorded { s with settings }
  let _ ← (reloadFilter K order).attempt
  let _ ← (reloadConditional builds).attempt

/-! ## Checks -/

/-- `normalize_domain`: a leading wildcard label is allowed. -/
def normalizeDomain (domain : Str) : Except AppError Str :=
  let d := toAsciiLowercase (trimEndMatches '.' (trim domain))
  if d.isEmpty then .error (.validation "domain" "must not be empty")
  else
    match K.fromUtf8 ((stripPrefix d "*.".toList).getD d ++ ['.']) with
    | .error _ => .error (.validation "domain" "invalid domain")
    | .ok _ => .ok d

/-- `validate_rewrite_target`. -/
def validateRewriteTarget (target : Str) : Except AppError Unit :=
  let t := trim target
  if (parseIpAddr t).isSome then .ok ()
  else
    match K.fromUtf8 (if endsWith t ['.'] then t else t ++ ['.']) with
    | .ok _ => .ok ()
    | .error _ => .error (.validation "target" "must be an IP address or hostname")

/-- `validate_forwarders`. -/
def validateForwarders (forwarders : List Forwarder) : Except AppError Unit :=
  if forwarders.isEmpty then .error (.validation "forwarders" "at least one forwarder required")
  else (forwarders.forM Api.checkForwarder).mapError (.validation "forwarders")

/-- The checks of `create_blocklist`. -/
def checkBlocklist (name url : Str) : Except AppError Unit :=
  if (trim name).isEmpty then .error (.validation "name" "must not be empty")
  else if (stripPrefix url "http://".toList).isSome || (stripPrefix url "https://".toList).isSome then .ok ()
  else .error (.validation "url" "must be an http(s) URL")

/-! ## Refreshing blocklists -/

/-- `refresh_one`: the entries stay as they are when the download fails. -/
def refreshOne (id : ℕ) : FilterJob Unit := do
  match ← tryCall (Db.blocklist id) with
  | .ok (some list) =>
    match ← fetchBlocklist list.url list.format with
    | .ok domains => let _ ← tryCall (Db.replaceBlocklistEntries id domains none)
    | .error e => let _ ← tryCall (Db.setBlocklistError id e)
  | _ => pure ()

/-- The loop of `refresh_all_lists`. -/
def refreshEnabled : List BlocklistRow → FilterJob Unit
  | [] => pure ()
  | list :: lists => do
    if list.enabled then refreshOne list.id
    refreshEnabled lists

/-- `refresh_all_lists`. -/
def refreshAllLists : FilterJob Unit := do
  let lists ← tryCall Db.listBlocklists
  refreshEnabled (lists.toOption.getD [])
  let _ ← (reloadFilter K order).attempt

/-! ## Handlers -/

/-- What a response carries. -/
inductive FilterReply
  | list (list : Option BlocklistRow)
  | lists (lists : List BlocklistRow)
  | rule (rule : Option BlockRule)
  | rewrite (rewrite : Option Rewrite)
  | forward (forward : Option ConditionalForward)
  | settings (settings : Settings)
  | done

namespace Api

/-- `create_blocklist`. -/
def createBlocklist (name url : Str) (format : BlocklistFormat) (refreshNow : Bool) :
    FilterJob FilterReply := do
  .ofExcept (checkBlocklist name url)
  let id ← call (Db.createBlocklist (trim name) (trim url) format true)
  if refreshNow then refreshOne id
  reloadFilter K order
  let list ← call (Db.blocklist id)
  return .list list

/-- `update_blocklist`. -/
def updateBlocklist (id : ℕ) (name : Option Str) (enabled : Option Bool) : FilterJob FilterReply := do
  call (Db.updateBlocklist id name enabled)
  reloadFilter K order
  let list ← call (Db.blocklist id)
  return .list list

/-- `delete_blocklist`. -/
def deleteBlocklist (id : ℕ) : FilterJob FilterReply := do
  call (Db.deleteBlocklist id)
  reloadFilter K order
  return .done

/-- `refresh_blocklist`. -/
def refreshBlocklist (id : ℕ) : FilterJob FilterReply := do
  refreshOne id
  reloadFilter K order
  match ← call (Db.blocklist id) with
  | some list => return .list list
  | none => .ofExcept (.error (.notFound "blocklist not found"))

/-- `refresh_all_blocklists`. -/
def refreshAllBlocklists : FilterJob FilterReply := do
  refreshAllLists K order
  let lists ← call Db.listBlocklists
  return .lists lists

/-- `create_block_rule`. -/
def createBlockRule (domain : Str) (action : RuleAction) : FilterJob FilterReply := do
  let domain ← .ofExcept (normalizeDomain K domain)
  let id ← call (Db.createBlockRule domain action)
  reloadFilter K order
  let rules ← call (select fun t => Db.listBlockRules t.filterTables)
  return .rule (rules.find? (·.id == id))

/-- `delete_block_rule`. -/
def deleteBlockRule (id : ℕ) : FilterJob FilterReply := do
  call (Db.deleteBlockRule id)
  reloadFilter K order
  return .done

/-- `create_rewrite`. -/
def createRewrite (domain target : Str) : FilterJob FilterReply := do
  let domain ← .ofExcept (normalizeDomain K domain)
  .ofExcept (validateRewriteTarget K target)
  let id ← call (Db.createRewrite domain (trim target))
  reloadFilter K order
  let rewrite ← call (Db.rewrite id)
  return .rewrite rewrite

/-- `update_rewrite`: the target is stored as it was given. -/
def updateRewrite (id : ℕ) (domain target : Option Str) (enabled : Option Bool) :
    FilterJob FilterReply := do
  .ofExcept (target.forM (validateRewriteTarget K))
  let domain ← .ofExcept (domain.mapM (normalizeDomain K))
  call (Db.updateRewrite id domain target enabled)
  reloadFilter K order
  let rewrite ← call (Db.rewrite id)
  return .rewrite rewrite

/-- `delete_rewrite`. -/
def deleteRewrite (id : ℕ) : FilterJob FilterReply := do
  call (Db.deleteRewrite id)
  reloadFilter K order
  return .done

/-- `create_conditional`. -/
def createConditional (domain : Str) (forwarders : List Forwarder) : FilterJob FilterReply := do
  let domain ← .ofExcept (normalizeDomain K domain)
  .ofExcept (validateForwarders forwarders)
  let id ← call (Db.createConditionalForward domain forwarders)
  reloadConditional builds
  let forward ← call (Db.conditionalForward id)
  return .forward forward

/-- `update_conditional`. -/
def updateConditional (id : ℕ) (forwarders : Option (List Forwarder)) (enabled : Option Bool) :
    FilterJob FilterReply := do
  .ofExcept (forwarders.forM validateForwarders)
  call (Db.updateConditionalForward id forwarders enabled)
  reloadConditional builds
  let forward ← call (Db.conditionalForward id)
  return .forward forward

/-- `delete_conditional`. -/
def deleteConditional (id : ℕ) : FilterJob FilterReply := do
  call (Db.deleteConditionalForward id)
  reloadConditional builds
  return .done

/-- `put_settings`: the request is merged into what the database holds. -/
def putSettingsRow (u : SettingsUpdate) : FilterJob FilterReply := do
  let settings ← call Db.getSettings
  .ofExcept (checkSettings K T u)
  call (Db.putSettings (u.merge settings))
  applySettings K order builds (u.merge settings)
  return .settings (u.merge settings)

end Api

/-! ## Requests -/

/-- The requests that change the tables or the settings, and the timer that refreshes the blocklists. -/
inductive FilterRequest
  | createBlocklist (name url : Str) (format : BlocklistFormat) (refreshNow : Bool)
  | updateBlocklist (id : ℕ) (name : Option Str) (enabled : Option Bool)
  | deleteBlocklist (id : ℕ)
  | refreshBlocklist (id : ℕ)
  | refreshAllBlocklists
  | refreshTimer
  | createBlockRule (domain : Str) (action : RuleAction)
  | deleteBlockRule (id : ℕ)
  | createRewrite (domain target : Str)
  | updateRewrite (id : ℕ) (domain target : Option Str) (enabled : Option Bool)
  | deleteRewrite (id : ℕ)
  | createConditional (domain : Str) (forwarders : List Forwarder)
  | updateConditional (id : ℕ) (forwarders : Option (List Forwarder)) (enabled : Option Bool)
  | deleteConditional (id : ℕ)
  | putSettings (u : SettingsUpdate)

/-- The job of a request. -/
def FilterRequest.handle : FilterRequest → FilterJob FilterReply
  | .createBlocklist name url format refreshNow => Api.createBlocklist K order name url format refreshNow
  | .updateBlocklist id name enabled => Api.updateBlocklist K order id name enabled
  | .deleteBlocklist id => Api.deleteBlocklist K order id
  | .refreshBlocklist id => Api.refreshBlocklist K order id
  | .refreshAllBlocklists => Api.refreshAllBlocklists K order
  | .refreshTimer => do
    refreshAllLists K order
    return .done
  | .createBlockRule domain action => Api.createBlockRule K order domain action
  | .deleteBlockRule id => Api.deleteBlockRule K order id
  | .createRewrite domain target => Api.createRewrite K order domain target
  | .updateRewrite id domain target enabled => Api.updateRewrite K order id domain target enabled
  | .deleteRewrite id => Api.deleteRewrite K order id
  | .createConditional domain forwarders => Api.createConditional K builds domain forwarders
  | .updateConditional id forwarders enabled => Api.updateConditional builds id forwarders enabled
  | .deleteConditional id => Api.deleteConditional builds id
  | .putSettings u => Api.putSettingsRow K T order builds u

/-- The server as it starts: the settings of the database are applied, and the filter and the conditional
forwarding are loaded from it. -/
def FilterServer.initial (t : FilterDb) (faults : List Bool) (replies : List (Except Str Str)) :
    FilterServer where
  conn := ⟨t, faults, []⟩
  settings := t.settings.getD .default
  filter := .buildFrom K order t.filterTables (t.settings.getD .default).blockingEnabled
  conditional := buildConditional builds t.filterTables
  replies := replies
  downloads := []
  past := [t]
  filterStamp := ⟨0, 0⟩
  conditionalStamp := ⟨0, 0⟩

/-! ## What the requests write -/

variable {K T order builds}

/-- The statements of a request that write outside of a refresh keep a relation, given the checks that the
request has passed by then. -/
def FilterRequest.WritesKeep (K : Crates) (R : FilterDb → FilterDb → Prop) : FilterRequest → Prop
  | .createBlocklist name url format _ =>
    Sql.Keeps R (Db.createBlocklist (trim name) (trim url) format true)
  | .updateBlocklist id name enabled => Sql.Keeps R (Db.updateBlocklist id name enabled)
  | .deleteBlocklist id => Sql.Keeps R (Db.deleteBlocklist id)
  | .refreshBlocklist _ => True
  | .refreshAllBlocklists => True
  | .refreshTimer => True
  | .createBlockRule domain action =>
    ∀ d, normalizeDomain K domain = .ok d → Sql.Keeps R (Db.createBlockRule d action)
  | .deleteBlockRule id => Sql.Keeps R (Db.deleteBlockRule id)
  | .createRewrite domain target =>
    ∀ d, normalizeDomain K domain = .ok d → validateRewriteTarget K target = .ok () →
      Sql.Keeps R (Db.createRewrite d (trim target))
  | .updateRewrite id domain target enabled =>
    ∀ d, domain.mapM (normalizeDomain K) = .ok d → target.forM (validateRewriteTarget K) = .ok () →
      Sql.Keeps R (Db.updateRewrite id d target enabled)
  | .deleteRewrite id => Sql.Keeps R (Db.deleteRewrite id)
  | .createConditional domain forwarders =>
    ∀ d, normalizeDomain K domain = .ok d → validateForwarders forwarders = .ok () →
      Sql.Keeps R (Db.createConditionalForward d forwarders)
  | .updateConditional id forwarders enabled =>
    forwarders.forM validateForwarders = .ok () →
      Sql.Keeps R (Db.updateConditionalForward id forwarders enabled)
  | .deleteConditional id => Sql.Keeps R (Db.deleteConditionalForward id)
  | .putSettings u => ∀ settings : Settings, Sql.Keeps R (Db.putSettings (u.merge settings))

/-- A request keeps a relation that does not look at the other tables if it does with its writes of the
blocklists. -/
lemma FilterRequest.writesKeep {R : FilterDb → FilterDb → Prop} [IsPreorder FilterDb R]
    (hrows : ∀ t t' : FilterDb, t'.lists = t.lists → t'.entries = t.entries → R t t')
    (hcreate : ∀ name url format, Sql.Keeps R (Db.createBlocklist name url format true))
    (hchange : ∀ id name enabled, Sql.Keeps R (Db.updateBlocklist id name enabled)) {request : FilterRequest}
    (hdelete : ∀ id, request = .deleteBlocklist id → Sql.Keeps R (Db.deleteBlocklist id)) :
    request.WritesKeep K R := by
  have hupdate {f : FilterDb → FilterDb} (hf : ∀ t, (f t).lists = t.lists ∧ (f t).entries = t.entries) :
      Sql.Keeps R (update f) := .update fun t => hrows t (f t) (hf t).1 (hf t).2
  cases request with
  | createBlocklist name url format refreshNow => exact hcreate _ _ _
  | updateBlocklist id name enabled => exact hchange id name enabled
  | deleteBlocklist id => exact hdelete id rfl
  | refreshBlocklist id => trivial
  | refreshAllBlocklists => trivial
  | refreshTimer => trivial
  | createBlockRule domain action => exact fun _ _ => Db.keeps_insertReturning fun t => hrows t _ rfl rfl
  | deleteBlockRule id => exact hupdate fun _ => ⟨rfl, rfl⟩
  | createRewrite domain target => exact fun _ _ _ => Db.keeps_insertReturning fun t => hrows t _ rfl rfl
  | updateRewrite id domain target enabled =>
    exact fun _ _ _ => .bind (Db.keeps_forM fun _ => hupdate fun _ => ⟨rfl, rfl⟩) fun _ =>
      .bind (Db.keeps_forM fun _ => hupdate fun _ => ⟨rfl, rfl⟩) fun _ =>
        Db.keeps_forM fun _ => hupdate fun _ => ⟨rfl, rfl⟩
  | deleteRewrite id => exact hupdate fun _ => ⟨rfl, rfl⟩
  | createConditional domain forwarders =>
    exact fun _ _ _ => Db.keeps_insertReturning fun t => hrows t _ rfl rfl
  | updateConditional id forwarders enabled =>
    exact fun _ => .bind (Db.keeps_forM fun _ => hupdate fun _ => ⟨rfl, rfl⟩) fun _ =>
      Db.keeps_forM fun _ => hupdate fun _ => ⟨rfl, rfl⟩
  | deleteConditional id => exact hupdate fun _ => ⟨rfl, rfl⟩
  | putSettings u => exact fun _ => hupdate fun _ => ⟨rfl, rfl⟩

section Preserves

variable {S : FilterServer → FilterServer → Prop} [IsPreorder FilterServer S] {I : FilterServer → Prop}
  {R : FilterDb → FilterDb → Prop}

variable (K order builds S I R) in
/-- The steps that requests are made of preserve a relation and an invariant, if their statements keep `R`. -/
structure StepsPreserve : Prop where
  calls : ∀ {α : Type} {m : Sql FilterDb α}, Sql.Keeps R m → (call m).Preserves S I
  tries : ∀ {α : Type} {m : Sql FilterDb α}, Sql.Keeps R m → (tryCall m).Preserves S I
  switches : ∀ settings, (modify fun s => s.recorded { s with settings }).Preserves S I
  filter : (reloadFilter K order).Preserves S I
  forwards : (reloadConditional builds).Preserves S I
  refreshes : ∀ id, (refreshOne id).Preserves S I

namespace StepsPreserve

/-- A write, the reload, and the rest. -/
lemma write (h : StepsPreserve K order builds S I R) {α δ : Type} {m : Sql FilterDb α}
    {reload : FilterJob Unit} {k : α → FilterJob δ} (hm : Sql.Keeps R m) (hreload : reload.Preserves S I)
    (hk : ∀ a, (k a).Preserves S I) :
    Job.Preserves S I (do
      let a ← call m
      reload
      k a) := by
  apply (h.calls hm).bind fun a => ?_
  exact hreload.bind fun _ => hk a

lemma refreshEnabled (h : StepsPreserve K order builds S I R) (lists : List BlocklistRow) :
    (Nomina.refreshEnabled lists).Preserves S I := by
  induction lists with
  | nil => exact .pure _
  | cons list lists ih =>
    unfold Nomina.refreshEnabled
    split
    · exact (h.refreshes list.id).bind fun _ => ih
    · exact ih

lemma applySettings (h : StepsPreserve K order builds S I R) (settings : Settings) :
    (Nomina.applySettings K order builds settings).Preserves S I := by
  apply (h.switches settings).bind fun _ => ?_
  apply h.filter.attempt.bind fun _ => ?_
  exact h.forwards.attempt.bind fun _ => .pure _

lemma deleteBlocklist (h : StepsPreserve K order builds S I R) {id : ℕ}
    (hm : Sql.Keeps R (Db.deleteBlocklist id)) : (Api.deleteBlocklist K order id).Preserves S I :=
  h.write hm h.filter fun _ => .pure _

lemma deleteBlockRule (h : StepsPreserve K order builds S I R) {id : ℕ}
    (hm : Sql.Keeps R (Db.deleteBlockRule id)) : (Api.deleteBlockRule K order id).Preserves S I :=
  h.write hm h.filter fun _ => .pure _

lemma deleteRewrite (h : StepsPreserve K order builds S I R) {id : ℕ}
    (hm : Sql.Keeps R (Db.deleteRewrite id)) : (Api.deleteRewrite K order id).Preserves S I :=
  h.write hm h.filter fun _ => .pure _

lemma deleteConditional (h : StepsPreserve K order builds S I R) {id : ℕ}
    (hm : Sql.Keeps R (Db.deleteConditionalForward id)) : (Api.deleteConditional builds id).Preserves S I :=
  h.write hm h.forwards fun _ => .pure _

variable [IsPreorder FilterDb R]

/-- A query at the end of a request. -/
lemma query (h : StepsPreserve K order builds S I R) {α δ : Type} {f : FilterDb → α} {reply : α → δ} :
    Job.Preserves S I (do
      let a ← call (select f)
      return reply a : FilterJob δ) :=
  (h.calls (.select f)).bind fun _ => .pure _

lemma refreshAllLists (h : StepsPreserve K order builds S I R) :
    (Nomina.refreshAllLists K order).Preserves S I := by
  apply (h.tries (.select _)).bind fun lists => ?_
  apply (h.refreshEnabled _).bind fun _ => ?_
  exact h.filter.attempt.bind fun _ => .pure _

lemma createBlocklist (h : StepsPreserve K order builds S I R) {name url : Str} {format : BlocklistFormat}
    {refreshNow : Bool} (hm : Sql.Keeps R (Db.createBlocklist (trim name) (trim url) format true)) :
    (Api.createBlocklist K order name url format refreshNow).Preserves S I := by
  apply (Job.Preserves.ofExcept _).bind fun _ => ?_
  apply (h.calls hm).bind fun id => ?_
  have hrest : Job.Preserves S I (do
      reloadFilter K order
      let list ← call (Db.blocklist id)
      return FilterReply.list list) := h.filter.bind fun _ => h.query
  cases refreshNow with
  | true => exact (h.refreshes id).bind fun _ => hrest
  | false => exact hrest

lemma updateBlocklist (h : StepsPreserve K order builds S I R) {id : ℕ} {name : Option Str}
    {enabled : Option Bool} (hm : Sql.Keeps R (Db.updateBlocklist id name enabled)) :
    (Api.updateBlocklist K order id name enabled).Preserves S I :=
  h.write hm h.filter fun _ => h.query

lemma refreshBlocklist (h : StepsPreserve K order builds S I R) (id : ℕ) :
    (Api.refreshBlocklist K order id).Preserves S I := by
  apply (h.refreshes id).bind fun _ => ?_
  apply h.filter.bind fun _ => ?_
  apply (h.calls (.select _)).bind fun list => ?_
  cases list with
  | some b => exact .pure _
  | none => exact .ofExcept _

lemma refreshAllBlocklists (h : StepsPreserve K order builds S I R) :
    (Api.refreshAllBlocklists K order).Preserves S I :=
  h.refreshAllLists.bind fun _ => h.query

lemma createBlockRule (h : StepsPreserve K order builds S I R) {domain : Str} {action : RuleAction}
    (hm : ∀ d, normalizeDomain K domain = .ok d → Sql.Keeps R (Db.createBlockRule d action)) :
    (Api.createBlockRule K order domain action).Preserves S I := by
  apply Job.Preserves.ofExcept_bind fun d hd => ?_
  exact h.write (hm d hd) h.filter fun _ => h.query

lemma createRewrite (h : StepsPreserve K order builds S I R) {domain target : Str}
    (hm : ∀ d, normalizeDomain K domain = .ok d → validateRewriteTarget K target = .ok () →
      Sql.Keeps R (Db.createRewrite d (trim target))) :
    (Api.createRewrite K order domain target).Preserves S I := by
  apply Job.Preserves.ofExcept_bind fun d hd => ?_
  apply Job.Preserves.ofExcept_bind fun _ htarget => ?_
  exact h.write (hm d hd htarget) h.filter fun _ => h.query

lemma updateRewrite (h : StepsPreserve K order builds S I R) {id : ℕ} {domain target : Option Str}
    {enabled : Option Bool}
    (hm : ∀ d, domain.mapM (normalizeDomain K) = .ok d → target.forM (validateRewriteTarget K) = .ok () →
      Sql.Keeps R (Db.updateRewrite id d target enabled)) :
    (Api.updateRewrite K order id domain target enabled).Preserves S I := by
  apply Job.Preserves.ofExcept_bind fun _ htarget => ?_
  apply Job.Preserves.ofExcept_bind fun d hd => ?_
  exact h.write (hm d hd htarget) h.filter fun _ => h.query

lemma createConditional (h : StepsPreserve K order builds S I R) {domain : Str} {forwarders : List Forwarder}
    (hm : ∀ d, normalizeDomain K domain = .ok d → validateForwarders forwarders = .ok () →
      Sql.Keeps R (Db.createConditionalForward d forwarders)) :
    (Api.createConditional K builds domain forwarders).Preserves S I := by
  apply Job.Preserves.ofExcept_bind fun d hd => ?_
  apply Job.Preserves.ofExcept_bind fun _ hforwarders => ?_
  exact h.write (hm d hd hforwarders) h.forwards fun _ => h.query

lemma updateConditional (h : StepsPreserve K order builds S I R) {id : ℕ}
    {forwarders : Option (List Forwarder)} {enabled : Option Bool}
    (hm : forwarders.forM validateForwarders = .ok () →
      Sql.Keeps R (Db.updateConditionalForward id forwarders enabled)) :
    (Api.updateConditional builds id forwarders enabled).Preserves S I := by
  apply Job.Preserves.ofExcept_bind fun _ hforwarders => ?_
  exact h.write (hm hforwarders) h.forwards fun _ => h.query

lemma putSettingsRow (h : StepsPreserve K order builds S I R) {u : SettingsUpdate}
    (hm : ∀ settings : Settings, Sql.Keeps R (Db.putSettings (u.merge settings))) :
    (Api.putSettingsRow K T order builds u).Preserves S I := by
  apply (h.calls (.select _)).bind fun settings => ?_
  apply Job.Preserves.ofExcept_bind fun _ _ => ?_
  apply (h.calls (hm settings)).bind fun _ => ?_
  exact (h.applySettings _).bind fun _ => .pure _

/-- A request preserves what its steps preserve. -/
lemma handle (h : StepsPreserve K order builds S I R) {request : FilterRequest}
    (hwrites : request.WritesKeep K R) : (request.handle K T order builds).Preserves S I := by
  cases request with
  | createBlocklist name url format refreshNow => exact h.createBlocklist hwrites
  | updateBlocklist id name enabled => exact h.updateBlocklist hwrites
  | deleteBlocklist id => exact h.deleteBlocklist hwrites
  | refreshBlocklist id => exact h.refreshBlocklist id
  | refreshAllBlocklists => exact h.refreshAllBlocklists
  | refreshTimer => exact h.refreshAllLists.bind fun _ => .pure _
  | createBlockRule domain action => exact h.createBlockRule hwrites
  | deleteBlockRule id => exact h.deleteBlockRule hwrites
  | createRewrite domain target => exact h.createRewrite hwrites
  | updateRewrite id domain target enabled => exact h.updateRewrite hwrites
  | deleteRewrite id => exact h.deleteRewrite hwrites
  | createConditional domain forwarders => exact h.createConditional hwrites
  | updateConditional id forwarders enabled => exact h.updateConditional hwrites
  | deleteConditional id => exact h.deleteConditional hwrites
  | putSettings u => exact h.putSettingsRow hwrites

end StepsPreserve

end Preserves

/-! ## Relations between the contents of the database -/

section Related

variable {R : FilterDb → FilterDb → Prop} [IsPreorder FilterDb R]

variable (K order) in
lemma keeps_loadFilter (blocking : Bool) :
    Sql.Keeps R (FilterSet.load K order blocking) := by
  apply Sql.Keeps.bind (Frame.unwrapOr _ (Sql.Keeps.select _)) fun domains => ?_
  apply Sql.Keeps.bind (Frame.unwrapOr _ (Sql.Keeps.select _)) fun rules => ?_
  exact Sql.Keeps.bind (Frame.unwrapOr _ (Sql.Keeps.select _)) fun rewrites => .pure _

variable (builds) in
lemma keeps_loadConditional :
    Sql.Keeps R (loadConditional builds) :=
  Sql.Keeps.bind (Frame.unwrapOr _ (Sql.Keeps.select _)) fun _ => .pure _

/-- The contents at the start, and all that the database had since, are related to those that it has. -/
def FilterServer.Related (R : FilterDb → FilterDb → Prop) (t₀ : FilterDb) (s : FilterServer) : Prop :=
  ∀ t ∈ t₀ :: s.past, R t s.db

variable {t₀ : FilterDb}

lemma FilterServer.Related.recorded {s : FilterServer} (hs : s.Related R t₀) {α : Type}
    {m : Sql FilterDb α} (hm : Sql.Keeps R m) :
    (s.recorded { s with conn := m.after s.conn }).Related R t₀ := by
  intro t ht
  change t ∈ (t₀ :: s.past) ++ [(m.after s.conn).tables] at ht
  rcases List.mem_append.mp ht with ht | ht
  · exact trans_of R (hs t ht) (hm s.conn)
  · rw [List.mem_singleton.mp ht]
    exact refl_of R _

lemma related_call {α : Type} {m : Sql FilterDb α} (hm : Sql.Keeps R m) :
    (call m).Preserves Grows (Related R t₀) := by
  apply Job.Preserves.atomically
  exact fun s hs => ⟨grows_recorded s _, hs.recorded hm⟩

lemma related_tryCall {α : Type} {m : Sql FilterDb α} (hm : Sql.Keeps R m) :
    (tryCall m).Preserves Grows (Related R t₀) := by
  apply Job.Preserves.atomically
  exact fun s hs => ⟨grows_recorded s _, hs.recorded hm⟩

omit [IsPreorder FilterDb R] in
lemma related_look {α : Type} (f : FilterServer → α) : (look f).Preserves Grows (Related R t₀) := by
  apply Job.Preserves.atomically
  exact fun s hs => ⟨refl_of Grows s, hs⟩

/-- A turn that leaves the database as it is, which may be written down again. -/
lemma related_modify {f : FilterServer → FilterServer}
    (hf : ∀ s, s.Grows (f s) ∧ (f s).db = s.db ∧ ∀ t ∈ (f s).past, t ∈ s.past ∨ t = s.db) :
    (modify f).Preserves Grows (Related R t₀) := by
  apply Job.Preserves.atomically
  intro s hs
  obtain ⟨hgrows, hdb, hpast⟩ := hf s
  refine ⟨hgrows, fun t ht => ?_⟩
  change R t (f s).db
  rw [hdb]
  rcases List.mem_cons.mp ht with rfl | ht
  · exact hs t List.mem_cons_self
  · rcases hpast t ht with ht | rfl
    · exact hs t (List.mem_cons_of_mem t₀ ht)
    · exact refl_of R s.db

omit [IsPreorder FilterDb R] in
lemma related_fetchBlocklist (url : Str) (format : BlocklistFormat) :
    (fetchBlocklist url format).Preserves Grows (Related R t₀) := by
  apply Job.Preserves.atomically
  intro s hs
  split
  · exact ⟨⟨List.Subset.refl _, List.subset_append_left _ _⟩, hs⟩
  · exact ⟨refl_of Grows s, hs⟩
  · exact ⟨refl_of Grows s, hs⟩

lemma related_refreshOne (hentries : ∀ t entries, R t { t with entries })
    (herror : ∀ t id error, R t (t.mapList id fun b => { b with lastError := error })) (id : ℕ) :
    (refreshOne id).Preserves Grows (Related R t₀) := by
  have hclear : Sql.Keeps R (update (FilterDb.clearEntries · id)) := .update fun t => hentries t _
  have hreplace (domains : List Str) : Sql.Keeps R (Db.replaceBlocklistEntries id domains none) := by
    apply Sql.Keeps.transaction
    apply Sql.Keeps.bind hclear fun _ => ?_
    apply Sql.Keeps.bind (Db.keeps_insertEntries id domains fun t d => hentries t _) fun _ => ?_
    exact .update fun t => herror t id none
  have hset (e : Str) : Sql.Keeps R (Db.setBlocklistError id e) := .update fun t => herror t id (some e)
  apply (related_tryCall (.select _)).bind fun r => ?_
  split
  · apply (related_fetchBlocklist _ _).bind fun r => ?_
    split
    · exact (related_tryCall (hreplace _)).bind fun _ => .pure _
    · exact (related_tryCall (hset _)).bind fun _ => .pure _
  · exact .pure _

lemma related_reloadFilter : (reloadFilter K order).Preserves Grows (Related R t₀) := by
  refine (related_look _).bind fun ⟨blocking, changes⟩ => ?_
  apply (related_call (keeps_loadFilter K order blocking)).bind fun filter => ?_
  exact related_modify fun s => ⟨refl_of Grows s, rfl, fun t ht => .inl ht⟩

lemma related_reloadConditional : (reloadConditional builds).Preserves Grows (Related R t₀) := by
  apply (related_look _).bind fun changes => ?_
  apply (related_call (keeps_loadConditional builds)).bind fun conditional => ?_
  exact related_modify fun s => ⟨refl_of Grows s, rfl, fun t ht => .inl ht⟩

lemma related_steps (hentries : ∀ t entries, R t { t with entries })
    (herror : ∀ t id error, R t (t.mapList id fun b => { b with lastError := error })) :
    StepsPreserve K order builds Grows (Related R t₀) R where
  calls := related_call
  tries := related_tryCall
  switches settings := by
    refine related_modify fun s =>
      ⟨⟨List.subset_append_left _ _, List.Subset.refl _⟩, rfl, fun t ht => ?_⟩
    rcases List.mem_append.mp ht with ht | ht
    · exact .inl ht
    · exact .inr (List.mem_singleton.mp ht)
  filter := related_reloadFilter
  forwards := related_reloadConditional
  refreshes := related_refreshOne hentries herror

/-- If a relation is kept by what the requests of a run write, and by any change of the entries and the
errors of blocklists, it relates all contents that the database had to those that it has. -/
theorem related_of_run (hentries : ∀ t entries, R t { t with entries })
    (herror : ∀ t id error, R t (t.mapList id fun b => { b with lastError := error }))
    {faults : List Bool} {replies : List (Except Str Str)} {as : List (PoolStep FilterRequest)}
    {p : Pool FilterServer AppError FilterReply}
    (hwrites : ∀ request, .start request ∈ as → request.WritesKeep K R)
    (hrun : run (Pool.step (FilterRequest.handle K T order builds))
      ⟨.initial K order builds t₀ faults replies, []⟩ as = some p) : p.shared.Related R t₀ := by
  refine Pool.invariant_of_run (R := Grows) (A := fun request => request.WritesKeep K R)
    (fun request h => (related_steps hentries herror).handle h) ?_ hwrites hrun
  intro t ht
  have ht : t = t₀ := by simpa [FilterServer.initial] using ht
  rw [ht]
  exact refl_of R t₀

end Related

end Handlers

end Nomina
