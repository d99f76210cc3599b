import Nomina.Db.Tables
import Nomina.Lib.Journal
import Nomina.Lib.Utf8
import Nomina.Web.Cookies
import Nomina.Web.Sessions

/-!
# Accounts and sessions

The whole life of an account: `setup`, `login`, `logout` and `change_password` of `web/api.rs`, and the
extractor of `web/auth.rs` that every other request goes through. Any number of requests are under way at a
time. A request does one thing at a time, a database call or what follows it, and the things that requests
do interleave in any way; database calls may fail, the server may be restarted, and sessions are pruned.

Two journals record what is stored: the rows of users, and the sessions with the reason for which each was
opened. They are history, not data of the program; what is proved about a request is said in their terms.
-/

namespace Nomina

open Lib Sql

/-! ## Database calls -/

namespace Db

/-- `Db::user_count`. -/
def userCount : Sql AuthTables ℕ :=
  select fun t => t.users.length

/-- `Db::create_user`. -/
def createUser (username passwordHash : Str) : Sql AuthTables ℕ :=
  execute fun t =>
    if t.users.any (·.username == username) then .error .constraint
    else
      let id := freshId (t.users.map UserRow.id)
      .ok (id, { t with users := t.users ++ [⟨id, username, passwordHash⟩] })

/-- `Db::user_by_username`. -/
def userByUsername (username : Str) : Sql AuthTables (Option UserRow) :=
  select fun t => t.users.find? (·.username == username)

/-- A row with another password. -/
def withPassword (hash : Str) (u : UserRow) : UserRow :=
  { u with passwordHash := hash }

/-- `Db::set_password`. -/
def setPassword (id : ℕ) (hash : Str) : Sql AuthTables Unit :=
  update fun t => { t with users := t.users.map fun u => if u.id = id then withPassword hash u else u }

/-- The call of `setup`: the account is created unless there is one. -/
def createFirstUser (username passwordHash : Str) : Sql AuthTables ℕ := do
  let count ← userCount
  if 0 < count then throw .constraint
  else createUser username passwordHash

end Db

/-! ## Requests -/

/-- An HTTP method. -/
inductive Method
  | GET | HEAD | OPTIONS | POST | PUT | PATCH | DELETE
deriving DecidableEq

/-- `is_mutating`. -/
def isMutating : Method → Bool
  | .POST | .PUT | .PATCH | .DELETE => true
  | _ => false

/-- What the extractor looks at: the method and the fields `Cookie` and `X-CSRF-Token` of the headers. -/
structure ApiRequest where
  method : Method
  cookies : List HeaderValue
  csrf : List HeaderValue
deriving DecidableEq

/-- The session token of a request. -/
def ApiRequest.token (req : ApiRequest) : Option Str :=
  (parseCookies req.cookies).lookup sessionCookieName

/-- The CSRF check: a mutating request carries the token of the session in its header. -/
def ApiRequest.passesCsrf (req : ApiRequest) (csrf : Str) : Bool :=
  !isMutating req.method || (firstText req.csrf).getD [] == csrf

/-- What a request is for. The handlers of the other calls do not touch accounts or sessions. -/
inductive Call
  | logout
  | changePassword (current new : Str)
  | other
deriving DecidableEq

/-- Why a session is opened: a login that came in when the journal of accounts had some length, or the
setup. -/
inductive Cause
  | login (req : LoginRequest) (since : ℕ)
  | setup
deriving DecidableEq

/-- An opened session: its row, the account it was opened for and why, the moment, and when it expires. -/
structure SessionGrant where
  row : SessionRow
  user : UserRow
  cause : Cause
  opened : DateTime
  expires : DateTime
deriving DecidableEq

/-- How far a request has come. `since` is the length of a journal when the request came in, and `at` the
time. -/
inductive AccountPhase
  /-- A login came in. -/
  | login (req : LoginRequest) (since : ℕ)
  /-- It is not locked out; the user is looked up next. -/
  | loginAllowed (req : LoginRequest) (since : ℕ)
  /-- The password is verified next. -/
  | loginFound (req : LoginRequest) (since : ℕ) (row : Option UserRow)
  /-- A session is opened next. -/
  | opening (user : UserRow) (cause : Cause)
  /-- A setup came in. -/
  | setup (username password : Str)
  /-- The account is stored; it is looked up next. -/
  | setupStored (id : ℕ)
  /-- A request that needs a session came in; the session is looked up next. -/
  | request (req : ApiRequest) (call : Call) (since : ℕ) (arrived : DateTime)
  /-- The session has expired; it is deleted next. -/
  | sessionExpired (token : Str)
  /-- The user of the session is looked up next. -/
  | sessionFound (req : ApiRequest) (call : Call) (since : ℕ) (arrived : DateTime) (row : SessionRow)
  /-- The request is authorised; its handler runs next. -/
  | authed (req : ApiRequest) (call : Call) (since : ℕ) (arrived : DateTime) (user : UserRow) (csrf : Str)
  /-- The current password was right; the new one is stored next. -/
  | confirmed (id : ℕ) (hash : Str)
  | done
deriving DecidableEq

/-! ## The system -/

/-- The database, the clocks (wall-clock time, and the nanoseconds of the monotonic clock), the throttle, the
requests in the order they came in, and the history: the two journals, and the number of setups that stored
an account. -/
structure AccountSystem where
  conn : Conn AuthTables
  now : DateTime
  instant : ℕ
  throttle : Throttle
  requests : List AccountPhase
  accounts : Journal ℕ UserRow
  grants : Journal Str SessionGrant
  setups : ℕ

/-- What a step draws: random tokens, and the hash of a password with its salt. -/
structure Draw where
  token : Str
  csrf : Str
  hashPassword : Str → Except Str Str

/-- The steps. The wall-clock time goes on; requests come in and do their next thing; sessions are pruned;
the server is restarted. -/
inductive AccountStep
  | tick (now : DateTime) (nanos : ℕ)
  | login (req : LoginRequest)
  | setup (username password : Str)
  | request (req : ApiRequest) (call : Call)
  | advance (i : ℕ) (draw : Draw) (expires : DateTime)
  | prune
  | restart

namespace AccountSystem

variable (K : Crates) (hash : Str → Str) (parse : Str → Option DateTime)

/-- Request `i` goes on to a phase. -/
def enter (s : AccountSystem) (i : ℕ) (phase : AccountPhase) : AccountSystem :=
  { s with requests := s.requests.set i phase }

/-- The state after a database call. -/
def after {α : Type} (s : AccountSystem) (m : Sql AuthTables α) : AccountSystem :=
  { s with conn := m.after s.conn }

/-- Seven days after a moment. -/
def IsExpiry (now expires : DateTime) : Prop :=
  expires.unix = now.unix + sessionTtlSecs ∧ expires.nanosecond = now.nanosecond ∧ expires.InRange

instance (now expires : DateTime) : Decidable (IsExpiry now expires) :=
  inferInstanceAs (Decidable (_ ∧ _))

/-! ### Logins -/

def checkLockout (s : AccountSystem) (i : ℕ) (req : LoginRequest) (since : ℕ) : AccountSystem :=
  let (locked, throttle) := s.throttle.isLockedOut req.key s.instant
  { s.enter i (if locked then .done else .loginAllowed req since) with throttle }

def lookUpLogin (s : AccountSystem) (i : ℕ) (req : LoginRequest) (since : ℕ) : AccountSystem :=
  match (Db.userByUsername req.username).result s.conn with
  | .ok row => (s.after (Db.userByUsername req.username)).enter i (.loginFound req since row)
  | .error _ => (s.after (Db.userByUsername req.username)).enter i .done

/-- The password is verified, and the throttle told. -/
def settleLogin (s : AccountSystem) (i : ℕ) (req : LoginRequest) (since : ℕ) (row : Option UserRow) :
    AccountSystem :=
  match row.filter fun u => K.verifyPassword req.password u.passwordHash with
  | some user =>
    { s.enter i (.opening user (.login req since)) with throttle := s.throttle.clearLoginFailures req.key }
  | none => { s.enter i .done with throttle := s.throttle.recordLoginFailure req.key s.instant }

/-- `start_session`. An expiry that has no text is one that cannot be computed, which panics. -/
def startSession (s : AccountSystem) (i : ℕ) (user : UserRow) (cause : Cause) (draw : Draw)
    (expires : DateTime) : AccountSystem :=
  if IsExpiry s.now expires then
    let new : NewSession := ⟨draw.token, user.id, draw.csrf, expires⟩
    match (Db.createSession hash new).result s.conn with
    | .ok _ =>
      { (s.after (Db.createSession hash new)).enter i .done with
        grants := s.grants ++ [.put (hash draw.token) ⟨new.row hash, user, cause, s.now, expires⟩] }
    | .error _ => (s.after (Db.createSession hash new)).enter i .done
  else s.enter i .done

/-! ### Setup -/

/-- The checks of `setup`, and the call that creates the account. -/
def createAccount (s : AccountSystem) (i : ℕ) (username password : Str) (draw : Draw) : AccountSystem :=
  if (trim username).isEmpty ∨ (asBytes password).length < 12 then s.enter i .done
  else match draw.hashPassword password with
    | .error _ => s.enter i .done
    | .ok passwordHash =>
      let m := Db.createFirstUser (trim username) passwordHash
      match m.result s.conn with
      | .ok id =>
        { (s.after m).enter i (.setupStored id) with
          accounts := s.accounts ++ [.put id ⟨id, trim username, passwordHash⟩]
          setups := s.setups + 1 }
      | .error _ => (s.after m).enter i .done

def lookUpAccount (s : AccountSystem) (i id : ℕ) : AccountSystem :=
  match (Db.userById id).result s.conn with
  | .ok (some user) => (s.after (Db.userById id)).enter i (.opening user .setup)
  | _ => (s.after (Db.userById id)).enter i .done

/-! ### The extractor -/

/-- `resolve_session` up to the check of the expiry. -/
def lookUpSession (s : AccountSystem) (i : ℕ) (req : ApiRequest) (call : Call) (since : ℕ)
    (arrived : DateTime) : AccountSystem :=
  match req.token with
  | none => s.enter i .done
  | some token =>
    let m := Db.session parse (hash token)
    match m.result s.conn with
    | .ok (some (row, expires)) =>
      (s.after m).enter i
        (if expires.Before s.now then .sessionExpired token else .sessionFound req call since arrived row)
    | _ => (s.after m).enter i .done

/-- A session is deleted. -/
def deleteSession (s : AccountSystem) (i : ℕ) (token : Str) : AccountSystem :=
  let m := Db.deleteSession (hash token)
  match m.result s.conn with
  | .ok _ => { (s.after m).enter i .done with grants := s.grants ++ [.drop (hash token)] }
  | .error _ => (s.after m).enter i .done

/-- The rest of `resolve_session`, and the CSRF check of `from_request_parts`. -/
def lookUpUser (s : AccountSystem) (i : ℕ) (req : ApiRequest) (call : Call) (since : ℕ)
    (arrived : DateTime) (row : SessionRow) : AccountSystem :=
  let m := Db.userById row.userId
  match m.result s.conn with
  | .ok (some user) =>
    (s.after m).enter i
      (if req.passesCsrf row.csrfToken then .authed req call since arrived user row.csrfToken else .done)
  | _ => (s.after m).enter i .done

/-! ### Handlers -/

/-- `change_password` up to the hash of the new password. -/
def confirmPassword (s : AccountSystem) (i id : ℕ) (current new : Str) (draw : Draw) : AccountSystem :=
  if (asBytes new).length < 12 then s.enter i .done
  else match (Db.userById id).result s.conn with
    | .ok (some user) =>
      (s.after (Db.userById id)).enter i
        (if K.verifyPassword current user.passwordHash then
          match draw.hashPassword new with
          | .ok h => .confirmed id h
          | .error _ => .done
        else .done)
    | _ => (s.after (Db.userById id)).enter i .done

/-- The new password is stored. -/
def storePassword (s : AccountSystem) (i id : ℕ) (h : Str) : AccountSystem :=
  let m := Db.setPassword id h
  match m.result s.conn with
  | .ok _ =>
    { (s.after m).enter i .done with
      accounts := s.accounts ++
        ((s.conn.tables.users.filter (·.id == id)).map fun u => .put id (Db.withPassword h u)) }
  | .error _ => (s.after m).enter i .done

def runHandler (s : AccountSystem) (i : ℕ) (req : ApiRequest) (call : Call) (user : UserRow) (draw : Draw) :
    AccountSystem :=
  match call with
  | .logout =>
    match req.token with
    | some token => s.deleteSession hash i token
    | none => s.enter i .done
  | .changePassword current new => s.confirmPassword K i user.id current new draw
  | .other => s.enter i .done

/-! ### Steps -/

/-- The sessions that have expired, by their text, are deleted. -/
def pruneSessions (s : AccountSystem) : AccountSystem :=
  let m := Db.pruneSessions s.now
  match m.result s.conn with
  | .ok _ =>
    { s.after m with
      grants := s.grants ++
        ((s.conn.tables.sessions.filter fun r => decide (r.expiresAt < s.now.printed)).map fun r => .drop r.id) }
  | .error _ => s.after m

/-- A request does its next thing. -/
def advance (s : AccountSystem) (i : ℕ) (draw : Draw) (expires : DateTime) : AccountPhase → AccountSystem
  | .login req since => s.checkLockout i req since
  | .loginAllowed req since => s.lookUpLogin i req since
  | .loginFound req since row => s.settleLogin K i req since row
  | .opening user cause => s.startSession hash i user cause draw expires
  | .setup username password => s.createAccount i username password draw
  | .setupStored id => s.lookUpAccount i id
  | .request req call since arrived => s.lookUpSession hash parse i req call since arrived
  | .sessionExpired token => s.deleteSession hash i token
  | .sessionFound req call since arrived row => s.lookUpUser i req call since arrived row
  | .authed req call _ _ user _ => s.runHandler K hash i req call user draw
  | .confirmed id h => s.storePassword i id h
  | .done => s

/-- One step. -/
def step (s : AccountSystem) : AccountStep → Option AccountSystem
  | .tick now nanos =>
    if now.Before s.now then none else some { s with now, instant := s.instant + nanos }
  | .login req => some { s with requests := s.requests ++ [.login req s.accounts.length] }
  | .setup username password => some { s with requests := s.requests ++ [.setup username password] }
  | .request req call =>
    some { s with requests := s.requests ++ [.request req call s.grants.length s.now] }
  | .advance i draw expires => (s.requests[i]?).map (s.advance K hash parse i draw expires)
  | .prune => some s.pruneSessions
  | .restart =>
    some { s with requests := s.requests.map fun _ => .done, throttle := fun _ => none, instant := 0 }

/-- A new installation: no account, no session, no request. -/
def initial (now : DateTime) (faults : List Bool) : AccountSystem :=
  ⟨⟨⟨[], []⟩, faults, []⟩, now, 0, fun _ => none, [], [], [], 0⟩

end AccountSystem

end Nomina
