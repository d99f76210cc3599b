import Nomina.Settings
import Nomina.Store.Lookup

/-!
# Filtering

The query side of `filter.rs`, `dns/conditional.rs` and `dns/homograph.rs`: what is decided about a
name, given as lowercase text without a trailing dot, before it is resolved upstream.
-/

namespace Nomina

open Lib

/-- `domain_covers`: a pattern covers its domain and everything below. -/
def domainCovers (pattern name : Str) : Bool :=
  let p := (stripPrefix pattern ['*', '.']).getD pattern
  name == p || endsWith name ('.' :: p)

/-! ## Rewrites and blocking -/

/-- A rewrite destination. -/
inductive RewriteTarget
  | ip (ip : IpAddr)
  | name (name : Name)
deriving DecidableEq

/-- The decision for a name. -/
inductive Decision
  | pass
  | allow
  | block
  | rewrite (target : RewriteTarget)
deriving DecidableEq

/-- The blocklists with their ids, the manual rules and the rewrites. -/
structure FilterSet where
  blockingEnabled : Bool
  blocklists : List (ℕ × List Str)
  denyRules : List Str
  allowRules : List Str
  rewrites : List (Str × RewriteTarget)
deriving DecidableEq

/-- `FilterSet::decide`. -/
def FilterSet.decide (f : FilterSet) (name : Str) : Decision :=
  match f.rewrites.find? fun rw => domainCovers rw.1 name with
  | some rw => .rewrite rw.2
  | none =>
    if f.allowRules.any (domainCovers · name) then .allow
    else if f.blockingEnabled && (f.blocklists.any (·.2.contains name) ||
        f.denyRules.any (domainCovers · name)) then .block
    else .pass

/-- `FilterSet::blocklist_hit`. -/
def FilterSet.blocklistHit (f : FilterSet) (name : Str) : Option ℕ :=
  (f.blocklists.find? (·.2.contains name)).map Prod.fst

/-! ## Conditional forwarding -/

/-- An upstream resolver, given by what it is built from. -/
inductive Upstream
  | Forward (forwarders : List Forwarder)
  | Recurse
deriving DecidableEq

/-- A rule of conditional forwarding. -/
structure ConditionalRule where
  domain : Str
  upstream : Upstream
deriving DecidableEq

/-- `ConditionalSet::match_for`: the rules stand in the order of their specificity. -/
def matchFor (rules : List ConditionalRule) (name : Str) : Option Upstream :=
  (rules.find? fun r => domainCovers r.domain name).map ConditionalRule.upstream

/-! ## Lookalike names -/

/-- What the detection of lookalike names uses of its crates: the decoded form of a name, which
characters are letters, and their scripts, where they belong to one. -/
structure ScriptCrates where
  domainToUnicode : Str → Str
  isAlphabetic : Char → Bool
  script : Char → Option ℕ

/-- `label_mixes_scripts`. -/
def labelMixesScripts (X : ScriptCrates) (label : Str) : Bool :=
  1 < (((label.filter X.isAlphabetic).filterMap X.script).dedup).length

/-- `is_suspicious`. -/
def isSuspicious (X : ScriptCrates) (qname : Str) : HomographMode → Bool
  | .Off => false
  | .AllIdn => !(X.domainToUnicode qname).all fun c => c.toNat < 128
  | .Mixed => (split '.' (X.domainToUnicode qname)).any (labelMixesScripts X)

end Nomina
