import Nomina.Db.Tables
import Nomina.Dns.BlockEntries

/-!
# Database operations on the filter tables

The blocklists with their entries, the manual rules, the rewrites and the conditional forwards, together with
the settings row. The entries of a list are replaced within a transaction; the updates of several columns
are not in one.
-/

namespace Nomina

open Lib Sql

/-! ## Tables -/

/-- A row of `blocklists`. -/
structure BlocklistRow where
  id : ℕ
  name : Str
  url : Str
  format : BlocklistFormat
  enabled : Bool
  lastError : Option Str
deriving DecidableEq

/-- The tables behind the filter, the conditional forwarding and the settings. -/
structure FilterDb where
  lists : List BlocklistRow
  entries : List BlocklistEntry
  rules : List BlockRule
  rewrites : List Rewrite
  forwards : List ConditionalForward
  settings : Option Settings
deriving DecidableEq

/-- The text of an action. -/
def RuleAction.text : RuleAction → Str
  | .Deny => "deny"
  | .Allow => "allow"

namespace FilterDb

/-- The columns that the filter and the conditional forwarding are built from. -/
def filterTables (t : FilterDb) : FilterTables :=
  ⟨t.lists.map fun b => ⟨b.id, b.enabled⟩, t.entries, t.rules, t.rewrites, t.forwards⟩

/-- Change the list with an id. -/
def mapList (t : FilterDb) (id : ℕ) (f : BlocklistRow → BlocklistRow) : FilterDb :=
  { t with lists := t.lists.map fun b => if b.id = id then f b else b }

/-- Change the rewrite with an id. -/
def mapRewrite (t : FilterDb) (id : ℕ) (f : Rewrite → Rewrite) : FilterDb :=
  { t with rewrites := t.rewrites.map fun r => if r.id = id then f r else r }

/-- Change the conditional forward with an id. -/
def mapForward (t : FilterDb) (id : ℕ) (f : ConditionalForward → ConditionalForward) : FilterDb :=
  { t with forwards := t.forwards.map fun cf => if cf.id = id then f cf else cf }

/-- The domains of a list, in the order in which they were inserted. -/
def domainsOf (t : FilterDb) (id : ℕ) : List Str :=
  (t.entries.filter fun e => e.blocklistId = id).map (·.domain)

/-- Delete a list; its entries go with it. -/
def removeList (t : FilterDb) (id : ℕ) : FilterDb :=
  { t with
    lists := t.lists.filter fun b => b.id ≠ id
    entries := t.entries.filter fun e => e.blocklistId ≠ id }

/-- Insert an entry of a list, which must exist. -/
def insertEntry (t : FilterDb) (id : ℕ) (domain : Str) : Except DbError (Unit × FilterDb) :=
  if t.lists.any (·.id == id) then .ok ((), { t with entries := t.entries ++ [⟨id, domain⟩] })
  else .error .constraint

/-- Delete the entries of a list. -/
def clearEntries (t : FilterDb) (id : ℕ) : FilterDb :=
  { t with entries := t.entries.filter fun e => e.blocklistId ≠ id }

end FilterDb

namespace Db

/-- Insert a row, if no unique column has its value already, and return its id. -/
def insertReturning (clash : FilterDb → Bool) (row : FilterDb → ℕ × FilterDb) : Sql FilterDb ℕ :=
  execute fun t => if clash t then .error .constraint else .ok (row t)

/-! ## Blocklists -/

/-- `Db::list_blocklists`. -/
def listBlocklists : Sql FilterDb (List BlocklistRow) :=
  select fun t => t.lists.insertionSort fun b c => b.name ≤ c.name

/-- `Db::blocklist`. -/
def blocklist (id : ℕ) : Sql FilterDb (Option BlocklistRow) :=
  select fun t => t.lists.find? (·.id == id)

/-- `Db::create_blocklist`: the URL of a list is unique. -/
def createBlocklist (name url : Str) (format : BlocklistFormat) (enabled : Bool) : Sql FilterDb ℕ :=
  insertReturning (fun t => t.lists.any (·.url == url)) fun t =>
    let id := freshId (t.lists.map (·.id))
    (id, { t with lists := t.lists ++ [⟨id, name, url, format, enabled, none⟩] })

/-- `Db::update_blocklist`. -/
def updateBlocklist (id : ℕ) (name : Option Str) (enabled : Option Bool) : Sql FilterDb Unit := do
  name.forM fun name => update (·.mapList id fun b => { b with name })
  enabled.forM fun enabled => update (·.mapList id fun b => { b with enabled })

/-- `Db::delete_blocklist`. -/
def deleteBlocklist (id : ℕ) : Sql FilterDb Unit :=
  update (·.removeList id)

/-- `Db::replace_blocklist_entries`. -/
def replaceBlocklistEntries (id : ℕ) (domains : List Str) (error : Option Str) : Sql FilterDb Unit :=
  transaction do
    update (·.clearEntries id)
    domains.forM fun d => execute (·.insertEntry id d)
    update (·.mapList id fun b => { b with lastError := error })

/-- `Db::set_blocklist_error`. -/
def setBlocklistError (id : ℕ) (error : Str) : Sql FilterDb Unit :=
  update (·.mapList id fun b => { b with lastError := some error })

/-! ## Manual rules -/

/-- `Db::create_block_rule`. -/
def createBlockRule (domain : Str) (action : RuleAction) : Sql FilterDb ℕ :=
  insertReturning (fun _ => false) fun t =>
    let id := freshId (t.rules.map (·.id))
    (id, { t with rules := t.rules ++ [⟨id, domain, action.text⟩] })

/-- `Db::delete_block_rule`. -/
def deleteBlockRule (id : ℕ) : Sql FilterDb Unit :=
  update fun t => { t with rules := t.rules.filter fun r => r.id ≠ id }

/-! ## Rewrites -/

/-- `Db::rewrite`. -/
def rewrite (id : ℕ) : Sql FilterDb (Option Rewrite) :=
  select fun t => t.rewrites.find? (·.id == id)

/-- `Db::create_rewrite`. -/
def createRewrite (domain target : Str) : Sql FilterDb ℕ :=
  insertReturning (fun _ => false) fun t =>
    let id := freshId (t.rewrites.map (·.id))
    (id, { t with rewrites := t.rewrites ++ [⟨id, domain, target, true⟩] })

/-- `Db::update_rewrite`. -/
def updateRewrite (id : ℕ) (domain target : Option Str) (enabled : Option Bool) : Sql FilterDb Unit := do
  domain.forM fun domain => update (·.mapRewrite id fun r => { r with domain })
  target.forM fun target => update (·.mapRewrite id fun r => { r with target })
  enabled.forM fun enabled => update (·.mapRewrite id fun r => { r with enabled })

/-- `Db::delete_rewrite`. -/
def deleteRewrite (id : ℕ) : Sql FilterDb Unit :=
  update fun t => { t with rewrites := t.rewrites.filter fun r => r.id ≠ id }

/-! ## Conditional forwards -/

/-- `Db::conditional_forward`. -/
def conditionalForward (id : ℕ) : Sql FilterDb (Option ConditionalForward) :=
  select fun t => t.forwards.find? (·.id == id)

/-- `Db::create_conditional_forward`: the domain is unique. -/
def createConditionalForward (domain : Str) (forwarders : List Forwarder) : Sql FilterDb ℕ :=
  insertReturning (fun t => t.forwards.any (·.domain == domain)) fun t =>
    let id := freshId (t.forwards.map (·.id))
    (id, { t with forwards := t.forwards ++ [⟨id, domain, forwarders, true⟩] })

/-- `Db::update_conditional_forward`. -/
def updateConditionalForward (id : ℕ) (forwarders : Option (List Forwarder)) (enabled : Option Bool) :
    Sql FilterDb Unit := do
  forwarders.forM fun forwarders => update (·.mapForward id fun cf => { cf with forwarders })
  enabled.forM fun enabled => update (·.mapForward id fun cf => { cf with enabled })

/-- `Db::delete_conditional_forward`. -/
def deleteConditionalForward (id : ℕ) : Sql FilterDb Unit :=
  update fun t => { t with forwards := t.forwards.filter fun cf => cf.id ≠ id }

/-! ## Settings -/

/-- `Db::get_settings`: without a row the defaults. -/
def getSettings : Sql FilterDb Settings :=
  select fun t => t.settings.getD .default

/-- `Db::put_settings`. -/
def putSettings (settings : Settings) : Sql FilterDb Unit :=
  update fun t => { t with settings := some settings }

/-! ## Relations that the operations keep -/

section Keeps

variable {α : Type} {R : FilterDb → FilterDb → Prop} [IsPreorder FilterDb R]

/-- An optional statement keeps what the statement keeps. -/
lemma keeps_forM {v : Option α} {f : α → Sql FilterDb Unit} (h : ∀ a, Sql.Keeps R (f a)) :
    Sql.Keeps R (v.forM f) := by
  cases v with
  | none => exact .pure ()
  | some a => exact h a

/-- An insert keeps what the new row keeps. -/
lemma keeps_insertReturning {clash : FilterDb → Bool} {row : FilterDb → ℕ × FilterDb}
    (h : ∀ t, R t (row t).2) : Sql.Keeps R (insertReturning clash row) := by
  apply Sql.Keeps.execute
  intro t id t' hrow
  split at hrow
  · cases hrow
  · have ht := h t
    rw [Except.ok.inj hrow] at ht
    exact ht

/-- Inserting entries keeps what each entry keeps. -/
lemma keeps_insertEntries (id : ℕ) (domains : List Str)
    (h : ∀ (t : FilterDb) (d : Str), R t { t with entries := t.entries ++ [⟨id, d⟩] }) :
    Sql.Keeps R (domains.forM fun d => execute (FilterDb.insertEntry · id d)) := by
  induction domains with
  | nil => exact .pure ()
  | cons d domains ih =>
    refine Sql.Keeps.bind (.execute fun t u t' hinsert => ?_) fun _ => ih
    unfold FilterDb.insertEntry at hinsert
    split at hinsert
    · cases hinsert
      exact h t d
    · cases hinsert

end Keeps

end Db

end Nomina
