import Nomina.Db.Logs
import Nomina.Lib.Job
import Nomina.Web.Router

/-!
# The management server

A request passes the allow-list, is directed to a handler, and needs a session if the handler takes `Authed`.
When a handler that changes something succeeds, an entry of the audit log is written after the response: who
did it is looked up again by then. All this happens in turns, and any number of requests are under way. What
the handlers do, and everything else that goes on in the server, is arbitrary.
-/

namespace Nomina

open Lib Sql

/-! ## The server -/

/-- What handlers and background tasks share: the accounts, the time, and the rest. -/
structure Backend (ω : Type) where
  auth : Conn AuthTables
  now : DateTime
  world : ω

/-- What is written down when a handler runs: the request, how many lookups there were when it came in, and
the user and the CSRF token of its session. -/
structure Ran where
  handler : Handler
  req : HttpRequest
  since : ℕ
  authed : Option (UserRow × Str)

/-- A request whose handler has succeeded, with the status. -/
structure Success where
  req : HttpRequest
  since : ℕ
  status : ℕ
deriving DecidableEq

/-- The server. What the lookups of sessions saw, which handlers ran, which of them succeeded with a change,
and the entries of the audit log that were stored for them, are history. -/
structure ManagementServer (ω : Type) where
  back : Backend ω
  logs : Conn LogTables
  seen : List (AuthTables × DateTime)
  ran : List Ran
  succeeded : List Success
  recorded : List (Success × AuditEntry)

/-- A request under way. -/
abbrev ManagementJob (ω α : Type) := Job (ManagementServer ω) Empty α

section Handling

variable {ω α : Type}

namespace ManagementJob

/-- Read something. -/
def look (f : ManagementServer ω → α) : ManagementJob ω α :=
  .atomically fun s => (.ok (f s), s)

/-- Something that the accounts and the time tell; what they were is written down. -/
def see (f : Backend ω → α × Backend ω) : ManagementJob ω α :=
  .atomically fun s => (.ok (f s.back).1,
    { s with back := (f s.back).2, seen := s.seen ++ [(s.back.auth.tables, s.back.now)] })

/-- A call of the database about accounts. -/
def lookUp (m : Sql AuthTables α) : ManagementJob ω (Except DbError α) :=
  see fun back => (m.result back.auth, { back with auth := m.after back.auth })

/-- The time. -/
def readClock : ManagementJob ω DateTime :=
  see fun back => (back.now, back)

/-- Write something down. -/
def note (f : ManagementServer ω → ManagementServer ω) : ManagementJob ω Unit :=
  .atomically fun s => (.ok (), f s)

end ManagementJob

open ManagementJob

variable (K : Crates) (hash : Str → Str) (parse : Str → Option DateTime) (parseId : Str → Option ℤ)
  (allowNetworks : List Str)
  (serve : Handler → HttpRequest → Option ℤ → Option UserRow → Job (Backend ω) Empty ℕ)

/-- The status that a database error is answered with. -/
def errorStatus : DbError → ℕ
  | .constraint => 409
  | _ => 500

/-- The user of a session. -/
def userInTurns (row : SessionRow) : ManagementJob ω (Except ℕ (UserRow × Str)) := do
  match ← lookUp (Db.userById row.userId) with
  | .ok (some user) => pure (.ok (user, row.csrfToken))
  | .ok none => pure (.error 401)
  | .error e => pure (.error (errorStatus e))

/-- What becomes of a session that was found. -/
def sessionInTurns (row : SessionRow) (expires : DateTime) : ManagementJob ω (Except ℕ (UserRow × Str)) := do
  let now ← readClock
  if expires.Before now then
    let _ ← lookUp (Db.deleteSession row.id)
    pure (.error 401)
  else userInTurns row

/-- `resolve_session`, turn by turn. A request without a session is answered with the status. -/
def resolveInTurns (req : ApiRequest) : ManagementJob ω (Except ℕ (UserRow × Str)) := do
  match req.token with
  | none => pure (.error 401)
  | some token =>
    match ← lookUp (Db.session parse (hash token)) with
    | .ok (some (row, expires)) => sessionInTurns row expires
    | .ok none => pure (.error 401)
    | .error e => pure (.error (errorStatus e))

/-- The text of a method. -/
def Method.text : Method → Str
  | .GET => "GET"
  | .HEAD => "HEAD"
  | .OPTIONS => "OPTIONS"
  | .POST => "POST"
  | .PUT => "PUT"
  | .PATCH => "PATCH"
  | .DELETE => "DELETE"

/-- What `audit_mw` writes. -/
def HttpRequest.auditEntry (req : HttpRequest) (status : ℕ) (time username : Str) : AuditEntry :=
  ⟨time, username, req.method.text ++ ' ' :: req.path, status, (fmtIpAddr req.peer)⟩

/-- The task that `audit_mw` spawns. -/
def auditTask (success : Success) : ManagementJob ω Unit := do
  let authed ← resolveInTurns hash parse success.req.toApiRequest
  let username := match authed with
    | .ok (user, _) => user.username
    | .error _ => "?".toList
  .atomically fun s =>
    let entry := success.req.auditEntry success.status s.back.now.printed username
    let m := Db.insertAudit entry
    (.ok (), { s with
      logs := m.after s.logs
      recorded := match m.result s.logs with
        | .ok _ => s.recorded ++ [(success, entry)]
        | .error _ => s.recorded })

/-- Whether `audit_mw` writes an entry. -/
def isAudited (req : HttpRequest) (status : ℕ) : Bool :=
  isMutating req.method && (200 ≤ status && status < 300) && (stripPrefix req.path "/api/".toList).isSome

/-- A handler, and what `audit_mw` does when it is done. -/
def runAudited (h : Handler) (req : HttpRequest) (since : ℕ) (id : Option ℤ) (authed : Option (UserRow × Str)) :
    ManagementJob ω ℕ := do
  note fun s => { s with ran := s.ran ++ [⟨h, req, since, authed⟩] }
  let status ← (serve h req id (authed.map Prod.fst)).focus (·.back) fun back s => { s with back }
  if isAudited req status then
    note fun s => { s with succeeded := s.succeeded ++ [⟨req, since, status⟩] }
    auditTask hash parse ⟨req, since, status⟩
  pure status

/-- The path of an unknown API call. -/
def isApiPath (path : Str) : Bool :=
  let path := path.dropWhile (· == '/')
  (stripPrefix path "api/".toList).isSome || path == "api".toList

/-- The request as a whole. -/
def HttpRequest.handle (req : HttpRequest) : ManagementJob ω ℕ := do
  let since ← look (·.seen.length)
  if ipGuard K allowNetworks req then
    match dispatch req.method req.path with
    | .fallback =>
      if isApiPath req.path then pure 404
      else runAudited hash parse serve .staticHandler req since none none
    | .methodNotAllowed => pure 405
    | .handler h parameter =>
      if parameter.isSome && (parameter.bind parseId).isNone then pure 400
      else if h.takesAuthed then
        match ← resolveInTurns hash parse req.toApiRequest with
        | .ok (user, csrf) =>
          if req.passesCsrf csrf then
            runAudited hash parse serve h req since (parameter.bind parseId) (some (user, csrf))
          else pure 403
        | .error status => pure status
      else runAudited hash parse serve h req since (parameter.bind parseId) none
  else pure 403

/-- What comes in: requests, and whatever else the server does. -/
inductive ManagementInput (ω : Type)
  | request (req : HttpRequest)
  | background (task : Job (Backend ω) Empty ℕ)

/-- The job of an input. -/
def ManagementInput.handle : ManagementInput ω → ManagementJob ω ℕ
  | .request req => req.handle K hash parse parseId allowNetworks serve
  | .background task => task.focus (·.back) fun back s => { s with back }

/-- The server as it starts. -/
def ManagementServer.initial (back : Backend ω) (logs : Conn LogTables) : ManagementServer ω :=
  ⟨back, logs, [], [], [], []⟩

end Handling

end Nomina
