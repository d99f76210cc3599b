import Nomina.Lib.Logbook
import Nomina.Lib.Sql
import Nomina.Stats

/-!
# Database operations on the logs

The query log and the audit log. Entries of the query log are inserted in one transaction for each batch; an
audit entry is one insert, after which the table is trimmed, and an error of that is dropped.
-/

namespace Nomina

open Lib Sql

/-! ## Tables -/

/-- An entry of the audit log. -/
structure AuditEntry where
  time : Str
  username : Str
  action : Str
  status : ℕ
  ip : Str
deriving DecidableEq

/-- The two logs, with the ids of their rows. -/
structure LogTables where
  queries : List (ℕ × RecentQuery)
  audit : List (ℕ × AuditEntry)

/-- Insert a row into the query log. -/
def LogTables.addQuery (t : LogTables) (entry : RecentQuery) : LogTables :=
  { t with queries := Logbook.append t.queries entry }

/-! ## Searching -/

/-- SQLite's `LIKE`: `%` is any text, `_` any character, and ASCII letters match in either case. -/
def like : Str → Str → Bool
  | [], s => s.isEmpty
  | '%' :: pattern, s => s.tails.any (like pattern)
  | _ :: _, [] => false
  | c :: pattern, d :: s => (c == '_' || c.toLower == d.toLower) && like pattern s

/-- The conditions of a page of the query log; an empty text is none. -/
structure QueryFilter where
  search : Option Str
  outcome : Option Str
  qtype : Option Str

/-- The text of a condition, unless it is empty. -/
def QueryFilter.given (v : Option Str) : Option Str :=
  v.filter fun s => !s.isEmpty

/-- The `WHERE` clause of `query_log_page`. -/
def QueryFilter.accepts (f : QueryFilter) (q : RecentQuery) : Bool :=
  ((given f.search).all fun s =>
    let pattern := '%' :: s ++ ['%']
    like pattern q.name || like pattern q.client) &&
  ((given f.outcome).all fun o => q.outcome == o) &&
  (given f.qtype).all fun t => q.qtype == toAsciiUppercase t

/-- What the rows are ordered by; the default is the id. -/
def sortColumn (sort : Str) : Option (RecentQuery → Str) :=
  if sort = "name".toList then some (·.name)
  else if sort = "client".toList then some (·.client)
  else if sort = "qtype".toList then some (·.qtype)
  else if sort = "outcome".toList then some (·.outcome)
  else none

/-- `ORDER BY`. SQLite does not say in which order rows of the same text come: that is `ties`. -/
def orderRows (ties : IterationOrder (ℕ × RecentQuery)) (sort : Str) (desc : Bool)
    (rows : List (ℕ × RecentQuery)) : List (ℕ × RecentQuery) :=
  match sortColumn sort with
  | none => if desc then rows.reverse else rows
  | some column => (ties.arrange rows).insertionSort fun r s =>
      if desc then column s.2 ≤ column r.2 else column r.2 ≤ column s.2

namespace Db

/-! ## The query log -/

/-- `Db::insert_queries`. -/
def insertQueries (entries : List RecentQuery) : Sql LogTables Unit :=
  transaction (entries.forM fun e => update (·.addQuery e))

/-- `Db::prune_query_log`. -/
def pruneQueryLog (maxRows : ℕ) : Sql LogTables Unit :=
  update fun t => { t with queries := Logbook.trim maxRows t.queries }

/-- `Db::query_log_page`: the rows of a page, and how many rows match. A negative offset is none. -/
def queryLogPage (ties : IterationOrder (ℕ × RecentQuery)) (f : QueryFilter) (sort : Str) (desc : Bool)
    (limit : ℕ) (offset : ℤ) : Sql LogTables (List RecentQuery × ℕ) := do
  let total ← select fun t => (t.queries.filter (f.accepts ·.2)).length
  let rows ← select fun t =>
    ((orderRows ties sort desc (t.queries.filter (f.accepts ·.2))).drop offset.toNat).take limit
  pure (rows.map (·.2), total)

/-! ## The audit log -/

/-- `Db::insert_audit`. -/
def insertAudit (entry : AuditEntry) : Sql LogTables Unit := do
  update fun t => { t with audit := Logbook.append t.audit entry }
  unwrapOr () (update fun t => { t with audit := Logbook.trim 10000 t.audit })

/-- `Db::list_audit`, the newest entries first. -/
def listAudit (limit : ℕ) : Sql LogTables (List (ℕ × AuditEntry)) :=
  select fun t => t.audit.reverse.take limit

end Db

end Nomina
