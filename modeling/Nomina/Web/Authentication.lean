import Nomina.Web.Accounts

/-!
# Authentication

What holds in every run of the accounts, whatever requests come in and however their steps interleave.

* There is at most one account. It is the one of the first setup that was completed; only its password
  changes.
* A request that is authorised carries the token of a session that was opened at most seven days before it
  came in, for a login that gave the right password of the account or for the setup, and that no logout had
  deleted at some moment after the request came in. A mutating request carries the CSRF token of that session.
* When a session was deleted, a request that comes in later is authorised by its token only if the same token
  was drawn again.
-/

namespace Nomina

open Lib Sql

namespace AccountSystem

variable (K : Crates) (hash : Str → Str) (parse : Str → Option DateTime)

/-! ## The invariant -/

/-- No account, or one, of which the journal has nothing but its passwords. -/
def OneAccount (users : List UserRow) (accounts : Journal ℕ UserRow) (setups : ℕ) : Prop :=
  users = [] ∧ accounts = [] ∧ setups = 0 ∨
    ∃ u, users = [u] ∧ setups = 1 ∧ accounts.latest u.id = some u ∧
      ∀ e ∈ accounts, ∃ h, e = .put u.id (Db.withPassword h u)

/-- The reason for which a session is opened for an account. -/
def Justified (accounts : Journal ℕ UserRow) (user : UserRow) : Cause → Prop
  | .login req since =>
    accounts.HeldSince since user.id user ∧ user.username = req.username ∧
      K.verifyPassword req.password user.passwordHash = true
  | .setup => ∃ u, accounts[0]? = some (.put user.id u)

/-- An opened session as the journal has it. -/
structure Opened (accounts : Journal ℕ UserRow) (id : Str) (g : SessionGrant) : Prop where
  id : g.row.id = id
  user : g.row.userId = g.user.id
  text : g.row.expiresAt = g.expires.printed
  expiry : IsExpiry g.opened g.expires
  justified : Justified K accounts g.user g.cause

/-- The tables are as the journals say. -/
structure Recorded (t : AuthTables) (accounts : Journal ℕ UserRow) (grants : Journal Str SessionGrant)
    (setups : ℕ) : Prop where
  account : OneAccount t.users accounts setups
  sessions : ∀ r ∈ t.sessions, ∃ g, grants.latest r.id = some g ∧ g.row = r
  opened : ∀ id g, .put id g ∈ grants → Opened K accounts id g

/-- The session that a request names was open after the request came in, and had not expired. -/
def Found (s : AccountSystem) (req : ApiRequest) (since : ℕ) (arrived : DateTime) (row : SessionRow) : Prop :=
  ∃ token g, req.token = some token ∧ hash token = row.id ∧ s.grants.HeldSince since row.id g ∧
    g.row = row ∧ ¬ ((parse row.expiresAt).getD .epoch).Before arrived

/-- What is known of a request that has come this far. -/
def PhaseOk (s : AccountSystem) : AccountPhase → Prop
  | .login _ since | .loginAllowed _ since => since ≤ s.accounts.length
  | .loginFound req since row =>
    ∀ u, row = some u → s.accounts.HeldSince since u.id u ∧ u.username = req.username
  | .opening user cause => Justified K s.accounts user cause
  | .setupStored id => ∃ u, s.accounts[0]? = some (.put id u)
  | .request _ _ since arrived => since ≤ s.grants.length ∧ ¬ s.now.Before arrived
  | .sessionFound req _ since arrived row => Found hash parse s req since arrived row
  | .authed req _ since arrived user csrf =>
    ∃ row, Found hash parse s req since arrived row ∧ row.userId = user.id ∧ row.csrfToken = csrf ∧
      req.passesCsrf csrf = true ∧ s.accounts.HeldSince 0 user.id user
  | .setup _ _ | .sessionExpired _ | .confirmed _ _ | .done => True

/-- The invariant. -/
structure Inv (s : AccountSystem) : Prop where
  recorded : Recorded K s.conn.tables s.accounts s.grants s.setups
  phases : ∀ p ∈ s.requests, PhaseOk K hash parse s p

/-! ## Later states -/

/-- A later state: the journals and the time go on. -/
structure Later (s s' : AccountSystem) : Prop where
  accounts : s.accounts <+: s'.accounts
  grants : s.grants <+: s'.grants
  now : ¬ s'.now.Before s.now

lemma Later.refl (s : AccountSystem) : Later s s :=
  ⟨List.prefix_rfl, List.prefix_rfl, by unfold DateTime.Before; omega⟩

/-- Time goes on when it goes on twice. -/
lemma not_before_trans {t u v : DateTime} (h : ¬ u.Before t) (h' : ¬ v.Before u) : ¬ v.Before t := by
  unfold DateTime.Before at h h' ⊢
  omega

/-- What expires before a moment expires before later ones. -/
lemma before_of_before {t u v : DateTime} (h : t.Before u) (h' : ¬ v.Before u) : t.Before v := by
  unfold DateTime.Before at h h' ⊢
  omega

variable {K hash parse} {s s' : AccountSystem}

lemma getElem?_of_prefix {α : Type} {l l' : List α} {i : ℕ} {a : α} (hpre : l <+: l')
    (h : l[i]? = some a) : l'[i]? = some a := by
  obtain ⟨more, rfl⟩ := hpre
  have hlt : i < l.length := (List.getElem?_eq_some_iff.mp h).1
  rw [List.getElem?_append_left hlt, h]

lemma Justified.mono {accounts accounts' : Journal ℕ UserRow} {user : UserRow} {cause : Cause}
    (h : Justified K accounts user cause) (hpre : accounts <+: accounts') :
    Justified K accounts' user cause := by
  cases cause with
  | login req since => exact ⟨h.1.mono hpre, h.2⟩
  | setup =>
    obtain ⟨u, hu⟩ := h
    exact ⟨u, getElem?_of_prefix hpre hu⟩

lemma Opened.mono {accounts accounts' : Journal ℕ UserRow} {id : Str} {g : SessionGrant}
    (h : Opened K accounts id g) (hpre : accounts <+: accounts') : Opened K accounts' id g :=
  { h with justified := h.justified.mono hpre }

lemma Found.mono {req : ApiRequest} {since : ℕ} {arrived : DateTime} {row : SessionRow}
    (h : Found hash parse s req since arrived row) (hlater : Later s s') :
    Found hash parse s' req since arrived row := by
  obtain ⟨token, g, htoken, hid, hheld, hrow, hfresh⟩ := h
  exact ⟨token, g, htoken, hid, hheld.mono hlater.grants, hrow, hfresh⟩

/-- What is known of a request stays known. -/
lemma PhaseOk.mono {p : AccountPhase} (h : PhaseOk K hash parse s p) (hlater : Later s s') :
    PhaseOk K hash parse s' p := by
  have haccounts := hlater.accounts.length_le
  have hgrants := hlater.grants.length_le
  cases p with
  | login req since => exact le_trans (h : since ≤ _) haccounts
  | loginAllowed req since => exact le_trans (h : since ≤ _) haccounts
  | loginFound req since row => exact fun u hu => ⟨(h u hu).1.mono hlater.accounts, (h u hu).2⟩
  | opening user cause => exact Justified.mono h hlater.accounts
  | setupStored id =>
    obtain ⟨u, hu⟩ := h
    exact ⟨u, getElem?_of_prefix hlater.accounts hu⟩
  | request req call since arrived => exact ⟨le_trans h.1 hgrants, not_before_trans h.2 hlater.now⟩
  | sessionFound req call since arrived row => exact Found.mono h hlater
  | authed req call since arrived user csrf =>
    obtain ⟨row, hfound, huser, hcsrf, hpasses, hheld⟩ := h
    exact ⟨row, hfound.mono hlater, huser, hcsrf, hpasses, hheld.mono hlater.accounts⟩
  | setup username password => trivial
  | sessionExpired token => trivial
  | confirmed id h => trivial
  | done => trivial

/-! ## What a step of a request does -/

/-- Request `i` went on to a phase for which it has what is known there, and the tables are as the journals
say. -/
structure Advances (K : Crates) (hash : Str → Str) (parse : Str → Option DateTime) (s : AccountSystem) (i : ℕ)
    (s' : AccountSystem) : Prop where
  later : Later s s'
  recorded : Recorded K s'.conn.tables s'.accounts s'.grants s'.setups
  requests : ∃ p, s'.requests = s.requests.set i p ∧ PhaseOk K hash parse s' p

/-- The invariant after such a step. -/
lemma Advances.inv {i : ℕ} (h : Advances K hash parse s i s') (hinv : Inv K hash parse s) :
    Inv K hash parse s' := by
  obtain ⟨p, hrequests, hp⟩ := h.requests
  refine ⟨h.recorded, fun q hq => ?_⟩
  rw [hrequests] at hq
  rcases List.mem_or_eq_of_mem_set hq with hq | rfl
  · exact (hinv.phases q hq).mono h.later
  · exact hp

/-- A step that changes neither the tables nor the journals. -/
lemma advances_of_same (hinv : Inv K hash parse s) {i : ℕ} {p : AccountPhase}
    (htables : s'.conn.tables = s.conn.tables) (haccounts : s'.accounts = s.accounts)
    (hgrants : s'.grants = s.grants) (hsetups : s'.setups = s.setups) (hnow : s'.now = s.now)
    (hrequests : s'.requests = s.requests.set i p) (hp : PhaseOk K hash parse s p) :
    Advances K hash parse s i s' := by
  have hlater : Later s s' := by
    refine ⟨⟨[], ?_⟩, ⟨[], ?_⟩, ?_⟩
    · rw [List.append_nil, haccounts]
    · rw [List.append_nil, hgrants]
    rw [hnow]
    exact (Later.refl s).now
  refine ⟨hlater, ?_, p, hrequests, hp.mono hlater⟩
  rw [htables, haccounts, hgrants, hsetups]
  exact hinv.recorded

/-- A request goes on without a database call. -/
lemma advances_enter (hinv : Inv K hash parse s) (i : ℕ) {p : AccountPhase} (hp : PhaseOk K hash parse s p) :
    Advances K hash parse s i (s.enter i p) :=
  advances_of_same hinv rfl rfl rfl rfl rfl rfl hp

/-- A request goes on after a database call that changed nothing. -/
lemma advances_after {α : Type} (hinv : Inv K hash parse s) (i : ℕ) {m : Sql AuthTables α} {p : AccountPhase}
    (htables : (m.after s.conn).tables = s.conn.tables) (hp : PhaseOk K hash parse s p) :
    Advances K hash parse s i ((s.after m).enter i p) :=
  advances_of_same hinv htables rfl rfl rfl rfl rfl hp

/-- A query changes nothing, and returns what the table has unless it fails. -/
lemma select_cases {α : Type} (f : AuthTables → α) (c : Conn AuthTables) :
    ((select f).after c).tables = c.tables ∧
      ((∃ e, (select f).result c = .error e) ∨ (select f).result c = .ok (f c.tables)) := by
  unfold select
  rcases statement_cases .read (fun t => .ok (f t, t)) c with
    ⟨e, hres, hafter⟩ | ⟨a, t, -, hf, hres, hafter⟩
  · rw [hafter]
    exact ⟨rfl, .inl ⟨e, hres⟩⟩
  · cases hf
    rw [hafter]
    exact ⟨rfl, .inr hres⟩

/-- A row of the table is the latest of the journal. -/
lemma OneAccount.latest_of_mem {users : List UserRow} {accounts : Journal ℕ UserRow} {setups : ℕ}
    (h : OneAccount users accounts setups) {u : UserRow} (hu : u ∈ users) :
    accounts.latest u.id = some u := by
  rcases h with ⟨rfl, -, -⟩ | ⟨v, rfl, -, hlatest, -⟩
  · cases hu
  · rw [List.mem_singleton.mp hu]
    exact hlatest

/-- The journal begins with the account of every row. -/
lemma OneAccount.first_of_mem {users : List UserRow} {accounts : Journal ℕ UserRow} {setups : ℕ}
    (h : OneAccount users accounts setups) {u : UserRow} (hu : u ∈ users) :
    ∃ v, accounts[0]? = some (.put u.id v) := by
  rcases h with ⟨rfl, -, -⟩ | ⟨v, rfl, -, hlatest, hall⟩
  · cases hu
  · rw [List.mem_singleton.mp hu]
    cases accounts with
    | nil => cases hlatest
    | cons e accounts =>
      obtain ⟨h, rfl⟩ := hall e List.mem_cons_self
      exact ⟨_, rfl⟩

/-! ## Logins -/

lemma advances_checkLockout (hinv : Inv K hash parse s) (i : ℕ) {req : LoginRequest} {since : ℕ}
    (hsince : since ≤ s.accounts.length) : Advances K hash parse s i (s.checkLockout i req since) := by
  unfold checkLockout
  obtain ⟨locked, throttle⟩ := s.throttle.isLockedOut req.key s.instant
  refine advances_of_same hinv rfl rfl rfl rfl rfl rfl ?_
  cases locked with
  | true => exact trivial
  | false => exact hsince

lemma advances_lookUpLogin (hinv : Inv K hash parse s) (i : ℕ) {req : LoginRequest} {since : ℕ}
    (hsince : since ≤ s.accounts.length) : Advances K hash parse s i (s.lookUpLogin i req since) := by
  obtain ⟨htables, ⟨e, hres⟩ | hres⟩ :=
    select_cases (fun t : AuthTables => t.users.find? (·.username == req.username)) s.conn
  · unfold lookUpLogin Db.userByUsername
    rw [hres]
    exact advances_after hinv i htables trivial
  · unfold lookUpLogin Db.userByUsername
    rw [hres]
    refine advances_after hinv i htables fun u hu => ⟨?_, by simpa using List.find?_some hu⟩
    exact Journal.heldSince_of_latest
      (hinv.recorded.account.latest_of_mem (List.mem_of_find?_eq_some hu)) hsince

lemma advances_settleLogin (hinv : Inv K hash parse s) (i : ℕ) {req : LoginRequest} {since : ℕ}
    {row : Option UserRow}
    (hrow : ∀ u, row = some u → s.accounts.HeldSince since u.id u ∧ u.username = req.username) :
    Advances K hash parse s i (s.settleLogin K i req since row) := by
  unfold settleLogin
  cases hvalid : row.filter fun u => K.verifyPassword req.password u.passwordHash with
  | none => exact advances_of_same hinv rfl rfl rfl rfl rfl rfl trivial
  | some user =>
    obtain ⟨hrow', hverify⟩ := Option.filter_eq_some_iff.mp hvalid
    obtain ⟨hheld, hname⟩ := hrow user hrow'
    exact advances_of_same hinv rfl rfl rfl rfl rfl rfl ⟨hheld, hname, hverify⟩

/-! ## Sessions -/

/-- Opening a session adds a row with a new id, or changes nothing. -/
lemma createSession_cases (hash : Str → Str) (new : NewSession) (c : Conn AuthTables) :
    (∃ e, (Db.createSession hash new).result c = .error e ∧
        ((Db.createSession hash new).after c).tables = c.tables) ∨
      (Db.createSession hash new).result c = .ok () ∧
        (∀ r ∈ c.tables.sessions, r.id ≠ hash new.token) ∧
        ((Db.createSession hash new).after c).tables =
          { c.tables with sessions := c.tables.sessions ++ [new.row hash] } := by
  unfold Db.createSession execute
  rcases statement_cases .write _ c with ⟨e, hres, hafter⟩ | ⟨u, t, -, hcreate, hres, hafter⟩
  · exact .inl ⟨e, hres, by rw [hafter]; rfl⟩
  · split at hcreate
    · cases hcreate
    · rename_i hfresh
      cases hcreate
      rw [Bool.or_eq_true, not_or] at hfresh
      refine .inr ⟨hres, ?_, by rw [hafter]; rfl⟩
      simpa using hfresh.1

lemma advances_startSession (hinv : Inv K hash parse s) (i : ℕ) {user : UserRow} {cause : Cause} (draw : Draw)
    (expires : DateTime) (hjustified : Justified K s.accounts user cause) :
    Advances K hash parse s i (s.startSession hash i user cause draw expires) := by
  unfold startSession
  split
  · rename_i hexpiry
    rcases createSession_cases hash ⟨draw.token, user.id, draw.csrf, expires⟩ s.conn with
      ⟨e, hres, htables⟩ | ⟨hres, hfresh, htables⟩
    · dsimp only
      rw [hres]
      exact advances_after hinv i htables trivial
    · dsimp only
      rw [hres]
      refine ⟨⟨List.prefix_rfl, List.prefix_append _ _, (Later.refl s).now⟩, ?_, .done, rfl, trivial⟩
      change Recorded K ((Db.createSession hash _).after s.conn).tables s.accounts _ s.setups
      rw [htables]
      refine ⟨hinv.recorded.account, fun r hr => ?_, fun id g hg => ?_⟩
      · rcases List.mem_append.mp hr with hr | hr
        · obtain ⟨g, hlatest, hrow⟩ := hinv.recorded.sessions r hr
          refine ⟨g, ?_, hrow⟩
          rw [Journal.latest_put_of_ne (hfresh r hr).symm]
          exact hlatest
        · rw [List.mem_singleton.mp hr]
          exact ⟨_, Journal.latest_put_self, rfl⟩
      · rcases List.mem_append.mp hg with hg | hg
        · exact hinv.recorded.opened id g hg
        · cases List.mem_singleton.mp hg
          exact ⟨rfl, rfl, rfl, hexpiry, hjustified⟩
  · exact advances_enter hinv i trivial

/-- Deleting sessions keeps the table as the journal says, when each of them is dropped there. -/
lemma recorded_dropped {t : AuthTables} {accounts : Journal ℕ UserRow} {grants : Journal Str SessionGrant}
    {setups : ℕ} (h : Recorded K t accounts grants setups) (p : SessionRow → Bool) :
    Recorded K { t with sessions := t.sessions.filter fun r => !p r } accounts
      (grants ++ (t.sessions.filter p).map fun r => .drop r.id) setups := by
  refine ⟨h.account, fun r hr => ?_, fun id g hg => ?_⟩
  · obtain ⟨hr, hkept⟩ := List.mem_filter.mp hr
    obtain ⟨g, hlatest, hrow⟩ := h.sessions r hr
    refine ⟨g, ?_, hrow⟩
    rw [Journal.latest_append_of_key_ne, hlatest]
    intro e he hkey
    obtain ⟨r', hr', rfl⟩ := List.mem_map.mp he
    obtain ⟨hr', hgone⟩ := List.mem_filter.mp hr'
    -- A row with the same id is the same row.
    obtain ⟨g', hlatest', rfl⟩ := h.sessions r' hr'
    have hsame : r.id = g'.row.id := hkey.symm
    rw [← hsame, hlatest] at hlatest'
    cases hlatest'
    rw [← hrow, hgone] at hkept
    cases hkept
  · rcases List.mem_append.mp hg with hg | hg
    · exact h.opened id g hg
    · obtain ⟨r, -, hr⟩ := List.mem_map.mp hg
      cases hr

lemma advances_deleteSession (hinv : Inv K hash parse s) (i : ℕ) (token : Str) :
    Advances K hash parse s i (s.deleteSession hash i token) := by
  unfold deleteSession Db.deleteSession
  dsimp only
  cases hres : (update fun t : AuthTables =>
      { t with sessions := t.sessions.filter (·.id != hash token) }).result s.conn with
  | error e =>
    refine advances_after hinv i ?_ trivial
    unfold update execute at hres ⊢
    rcases statement_cases .write _ s.conn with ⟨-, -, hafter⟩ | ⟨u, t, -, -, hok, -⟩
    · rw [hafter]
      rfl
    · rw [hres] at hok
      cases hok
  | ok u =>
    have hafter := update_ok hres
    refine ⟨⟨List.prefix_rfl, List.prefix_append _ _, (Later.refl s).now⟩, ?_, .done, rfl, trivial⟩
    change Recorded K ((update _).after s.conn).tables s.accounts _ s.setups
    rw [hafter]
    refine ⟨hinv.recorded.account, fun r hr => ?_, fun id g hg => ?_⟩
    · obtain ⟨hr, hne⟩ := List.mem_filter.mp hr
      obtain ⟨g, hlatest, hrow⟩ := hinv.recorded.sessions r hr
      refine ⟨g, ?_, hrow⟩
      rw [Journal.latest_drop_of_ne (by simpa using Ne.symm (bne_iff_ne.mp hne))]
      exact hlatest
    · rcases List.mem_append.mp hg with hg | hg
      · exact hinv.recorded.opened id g hg
      · cases List.mem_singleton.mp hg

/-! ## Setup -/

/-- Creating the first account adds a row to an empty table, or changes nothing. -/
lemma createFirstUser_cases (username passwordHash : Str) (c : Conn AuthTables) :
    (∃ e, (Db.createFirstUser username passwordHash).result c = .error e ∧
        ((Db.createFirstUser username passwordHash).after c).tables = c.tables) ∨
      ∃ id, (Db.createFirstUser username passwordHash).result c = .ok id ∧ c.tables.users = [] ∧
        ((Db.createFirstUser username passwordHash).after c).tables =
          { c.tables with users := [⟨id, username, passwordHash⟩] } := by
  unfold Db.createFirstUser Db.userCount
  obtain ⟨htables, ⟨e, hres⟩ | hres⟩ := select_cases (fun t : AuthTables => t.users.length) c
  · refine .inl ⟨e, ?_, ?_⟩
    · rw [EStateM.result_bind, hres]
    · rw [EStateM.after_bind, hres, htables]
  · rw [EStateM.result_bind, EStateM.after_bind, hres]
    dsimp only
    by_cases hcount : 0 < c.tables.users.length
    · rw [if_pos hcount]
      exact .inl ⟨_, rfl, htables⟩
    · rw [if_neg hcount]
      have hempty : c.tables.users = [] := by
        rw [← List.length_eq_zero_iff]
        omega
      unfold Db.createUser execute
      rcases statement_cases .write _ ((select fun t : AuthTables => t.users.length).after c) with
        ⟨e, hres', hafter⟩ | ⟨id, t, -, hcreate, hres', hafter⟩
      · refine .inl ⟨e, hres', ?_⟩
        rw [hafter]
        exact htables
      · rw [htables, hempty, List.any_nil, if_neg Bool.false_ne_true] at hcreate
        cases hcreate
        refine .inr ⟨_, hres', hempty, ?_⟩
        rw [hafter]
        rfl

lemma advances_createAccount (hinv : Inv K hash parse s) (i : ℕ) (username password : Str) (draw : Draw) :
    Advances K hash parse s i (s.createAccount i username password draw) := by
  unfold createAccount
  split
  · exact advances_enter hinv i trivial
  · cases draw.hashPassword password with
    | error e => exact advances_enter hinv i trivial
    | ok passwordHash =>
      dsimp only
      rcases createFirstUser_cases (trim username) passwordHash s.conn with
        ⟨e, hres, htables⟩ | ⟨id, hres, hempty, htables⟩
      · rw [hres]
        exact advances_after hinv i htables trivial
      · rw [hres]
        -- There was no account, so the journal of accounts begins here.
        have hnone : s.accounts = [] ∧ s.setups = 0 := by
          rcases hinv.recorded.account with ⟨-, haccounts, hsetups⟩ | ⟨u, husers, -⟩
          · exact ⟨haccounts, hsetups⟩
          · rw [hempty] at husers
            cases husers
        have hlater : Later s { (s.after (Db.createFirstUser (trim username) passwordHash)).enter i
            (.setupStored id) with
            accounts := s.accounts ++ [.put id ⟨id, trim username, passwordHash⟩]
            setups := s.setups + 1 } :=
          ⟨List.prefix_append _ _, List.prefix_rfl, (Later.refl s).now⟩
        refine ⟨hlater, ?_, .setupStored id, rfl, ⟨⟨id, trim username, passwordHash⟩, ?_⟩⟩
        · change Recorded K ((Db.createFirstUser _ _).after s.conn).tables (s.accounts ++ _) s.grants
            (s.setups + 1)
          rw [htables]
          refine ⟨.inr ⟨_, rfl, by rw [hnone.2], Journal.latest_put_self, ?_⟩, hinv.recorded.sessions,
            fun id' g hg => (hinv.recorded.opened id' g hg).mono (List.prefix_append _ _)⟩
          rw [hnone.1]
          intro e he
          rw [List.mem_singleton.mp he]
          exact ⟨passwordHash, rfl⟩
        · change (s.accounts ++ _)[0]? = _
          rw [hnone.1]
          rfl

lemma advances_lookUpAccount (hinv : Inv K hash parse s) (i : ℕ) {id : ℕ} :
    Advances K hash parse s i (s.lookUpAccount i id) := by
  unfold lookUpAccount Db.userById
  obtain ⟨htables, ⟨e, hres⟩ | hres⟩ :=
    select_cases (fun t : AuthTables => t.users.find? (·.id == id)) s.conn
  · rw [hres]
    exact advances_after hinv i htables trivial
  · rw [hres]
    cases huser : s.conn.tables.users.find? (·.id == id) with
    | none => exact advances_after hinv i htables trivial
    | some user =>
      refine advances_after hinv i htables ?_
      exact hinv.recorded.account.first_of_mem (List.mem_of_find?_eq_some huser)

/-! ## The extractor -/

lemma advances_lookUpSession (hinv : Inv K hash parse s) (i : ℕ) {req : ApiRequest} {call : Call} {since : ℕ}
    {arrived : DateTime} (hsince : since ≤ s.grants.length) (harrived : ¬ s.now.Before arrived) :
    Advances K hash parse s i (s.lookUpSession hash parse i req call since arrived) := by
  unfold lookUpSession
  cases htoken : req.token with
  | none => exact advances_enter hinv i trivial
  | some token =>
    dsimp only
    unfold Db.session
    obtain ⟨htables, ⟨e, hres⟩ | hres⟩ := select_cases (fun t : AuthTables =>
      (t.sessions.find? (·.id == hash token)).map fun r => (r, (parse r.expiresAt).getD .epoch)) s.conn
    · rw [hres]
      exact advances_after hinv i htables trivial
    · rw [hres]
      cases hrow : s.conn.tables.sessions.find? (·.id == hash token) with
      | none => exact advances_after hinv i htables trivial
      | some row =>
        refine advances_after hinv i htables ?_
        split
        · trivial
        · rename_i hfresh
          have hid : row.id = hash token := by simpa using List.find?_some hrow
          obtain ⟨g, hlatest, hg⟩ := hinv.recorded.sessions row (List.mem_of_find?_eq_some hrow)
          refine ⟨token, g, htoken, hid.symm, Journal.heldSince_of_latest hlatest hsince, hg, fun hexpired => ?_⟩
          exact hfresh (before_of_before hexpired harrived)

lemma advances_lookUpUser (hinv : Inv K hash parse s) (i : ℕ) {req : ApiRequest} {call : Call} {since : ℕ}
    {arrived : DateTime} {row : SessionRow} (hfound : Found hash parse s req since arrived row) :
    Advances K hash parse s i (s.lookUpUser i req call since arrived row) := by
  unfold lookUpUser Db.userById
  dsimp only
  obtain ⟨htables, ⟨e, hres⟩ | hres⟩ :=
    select_cases (fun t : AuthTables => t.users.find? (·.id == row.userId)) s.conn
  · rw [hres]
    exact advances_after hinv i htables trivial
  · rw [hres]
    cases huser : s.conn.tables.users.find? (·.id == row.userId) with
    | none => exact advances_after hinv i htables trivial
    | some user =>
      refine advances_after hinv i htables ?_
      split
      · rename_i hpasses
        have hid : user.id = row.userId := by simpa using List.find?_some huser
        refine ⟨row, hfound, hid.symm, rfl, hpasses, ?_⟩
        exact Journal.heldSince_of_latest
          (hinv.recorded.account.latest_of_mem (List.mem_of_find?_eq_some huser)) (Nat.zero_le _)
      · trivial

/-! ## Handlers -/

lemma advances_confirmPassword (hinv : Inv K hash parse s) (i id : ℕ) (current new : Str) (draw : Draw) :
    Advances K hash parse s i (s.confirmPassword K i id current new draw) := by
  unfold confirmPassword
  split
  · exact advances_enter hinv i trivial
  · unfold Db.userById
    obtain ⟨htables, ⟨e, hres⟩ | hres⟩ :=
      select_cases (fun t : AuthTables => t.users.find? (·.id == id)) s.conn
    · rw [hres]
      exact advances_after hinv i htables trivial
    · rw [hres]
      cases s.conn.tables.users.find? (·.id == id) with
      | none => exact advances_after hinv i htables trivial
      | some user =>
        refine advances_after hinv i htables ?_
        split
        · cases draw.hashPassword new <;> trivial
        · trivial

lemma advances_storePassword (hinv : Inv K hash parse s) (i id : ℕ) (h : Str) :
    Advances K hash parse s i (s.storePassword i id h) := by
  unfold storePassword Db.setPassword
  dsimp only
  cases hres : (update fun t : AuthTables =>
      { t with users := t.users.map fun u => if u.id = id then Db.withPassword h u else u }).result
      s.conn with
  | error e =>
    refine advances_after hinv i ?_ trivial
    unfold update execute at hres ⊢
    rcases statement_cases .write _ s.conn with ⟨-, -, hafter⟩ | ⟨u, t, -, -, hok, -⟩
    · rw [hafter]
      rfl
    · rw [hres] at hok
      cases hok
  | ok u =>
    have hafter := update_ok hres
    refine ⟨⟨List.prefix_append _ _, List.prefix_rfl, (Later.refl s).now⟩, ?_, .done, rfl, trivial⟩
    change Recorded K ((update _).after s.conn).tables (s.accounts ++ _) s.grants s.setups
    rw [hafter]
    refine ⟨?_, hinv.recorded.sessions,
      fun id' g hg => (hinv.recorded.opened id' g hg).mono (List.prefix_append _ _)⟩
    change OneAccount (s.conn.tables.users.map _) _ s.setups
    rcases hinv.recorded.account with ⟨husers, haccounts, hsetups⟩ | ⟨v, husers, hsetups, hlatest, hall⟩
    · rw [husers, haccounts, hsetups]
      exact .inl ⟨rfl, rfl, rfl⟩
    · rw [husers, List.map_singleton]
      refine .inr ⟨_, rfl, hsetups, ?_⟩
      by_cases hid : v.id = id
      · rw [if_pos hid, List.filter_cons_of_pos (by simpa using hid), List.filter_nil, List.map_singleton]
        subst hid
        refine ⟨Journal.latest_put_self, fun e he => ?_⟩
        rcases List.mem_append.mp he with he | he
        · exact hall e he
        · exact ⟨h, List.mem_singleton.mp he⟩
      · rw [if_neg hid, List.filter_cons_of_neg (by simpa using hid), List.filter_nil, List.map_nil,
          List.append_nil]
        exact ⟨hlatest, hall⟩

lemma advances_runHandler (hinv : Inv K hash parse s) (i : ℕ) (req : ApiRequest) (call : Call)
    (user : UserRow) (draw : Draw) : Advances K hash parse s i (s.runHandler K hash i req call user draw) := by
  unfold runHandler
  cases call with
  | logout =>
    cases req.token with
    | none => exact advances_enter hinv i trivial
    | some token => exact advances_deleteSession hinv i token
  | changePassword current new => exact advances_confirmPassword hinv i user.id current new draw
  | other => exact advances_enter hinv i trivial

/-- Pruning keeps the invariant. -/
lemma inv_pruneSessions (hinv : Inv K hash parse s) : Inv K hash parse s.pruneSessions := by
  unfold AccountSystem.pruneSessions Db.pruneSessions
  dsimp only
  cases hres : (update fun t : AuthTables =>
      { t with sessions := t.sessions.filter fun r => !decide (r.expiresAt < s.now.printed) }).result s.conn with
  | error e =>
    refine ⟨?_, fun p hp => (hinv.phases p hp).mono ⟨List.prefix_rfl, List.prefix_rfl, (Later.refl s).now⟩⟩
    change Recorded K ((update _).after s.conn).tables s.accounts s.grants s.setups
    rw [update_error hres]
    exact hinv.recorded
  | ok u =>
    refine ⟨?_, fun p hp =>
      (hinv.phases p hp).mono ⟨List.prefix_rfl, List.prefix_append _ _, (Later.refl s).now⟩⟩
    change Recorded K ((update _).after s.conn).tables s.accounts _ s.setups
    rw [update_ok hres]
    exact recorded_dropped hinv.recorded _

/-! ## The invariant of runs -/

/-- Whatever a request does next, it keeps the invariant. -/
lemma advances_advance (hinv : Inv K hash parse s) {i : ℕ} {p : AccountPhase} (hp : s.requests[i]? = some p)
    (draw : Draw) (expires : DateTime) :
    Advances K hash parse s i (s.advance K hash parse i draw expires p) := by
  have hknown := hinv.phases p (List.mem_of_getElem? hp)
  unfold advance
  cases p with
  | login req since => exact advances_checkLockout hinv i hknown
  | loginAllowed req since => exact advances_lookUpLogin hinv i hknown
  | loginFound req since row => exact advances_settleLogin hinv i hknown
  | opening user cause => exact advances_startSession hinv i draw expires hknown
  | setup username password => exact advances_createAccount hinv i username password draw
  | setupStored id => exact advances_lookUpAccount hinv i
  | request req call since arrived => exact advances_lookUpSession hinv i hknown.1 hknown.2
  | sessionExpired token => exact advances_deleteSession hinv i token
  | sessionFound req call since arrived row => exact advances_lookUpUser hinv i hknown
  | authed req call since arrived user csrf => exact advances_runHandler hinv i req call user draw
  | confirmed id h => exact advances_storePassword hinv i id h
  | done =>
    refine advances_of_same hinv rfl rfl rfl rfl rfl ?_ (p := .done) trivial
    obtain ⟨hlt, heq⟩ := List.getElem?_eq_some_iff.mp hp
    have hset := List.set_getElem_self hlt
    rw [heq] at hset
    exact hset.symm

lemma inv_initial (now : DateTime) (faults : List Bool) : Inv K hash parse (initial now faults) where
  recorded :=
    { account := .inl ⟨rfl, rfl, rfl⟩
      sessions := fun _ hr => by cases hr
      opened := fun _ _ hg => by cases hg }
  phases _ hp := by cases hp

/-- A request that comes in. -/
lemma inv_receive (hinv : Inv K hash parse s) {p : AccountPhase} (hp : PhaseOk K hash parse s p) :
    Inv K hash parse { s with requests := s.requests ++ [p] } := by
  have hlater : Later s { s with requests := s.requests ++ [p] } := ⟨List.prefix_rfl, List.prefix_rfl,
    (Later.refl s).now⟩
  refine ⟨hinv.recorded, fun q hq => ?_⟩
  rcases List.mem_append.mp hq with hq | hq
  · exact (hinv.phases q hq).mono hlater
  · rw [List.mem_singleton.mp hq]
    exact hp.mono hlater

/-- Every step keeps the invariant. -/
lemma inv_step (hinv : Inv K hash parse s) {a : AccountStep} (h : step K hash parse s a = some s') :
    Inv K hash parse s' := by
  unfold step at h
  cases a with
  | tick now nanos =>
    dsimp only at h
    split at h
    · cases h
    · rename_i hnow
      cases h
      exact ⟨hinv.recorded, fun p hp => (hinv.phases p hp).mono ⟨List.prefix_rfl, List.prefix_rfl, hnow⟩⟩
  | login req =>
    cases h
    exact inv_receive hinv (le_refl s.accounts.length)
  | setup username password =>
    cases h
    exact inv_receive hinv trivial
  | request req call =>
    cases h
    exact inv_receive hinv ⟨le_refl s.grants.length, (Later.refl s).now⟩
  | advance i draw expires =>
    obtain ⟨p, hp, rfl⟩ := Option.map_eq_some_iff.mp h
    exact (advances_advance hinv hp draw expires).inv hinv
  | prune =>
    cases h
    exact inv_pruneSessions hinv
  | restart =>
    cases h
    refine ⟨hinv.recorded, fun p hp => ?_⟩
    obtain ⟨q, -, rfl⟩ := List.mem_map.mp hp
    trivial

/-- The invariant holds in every state that a run comes to. -/
lemma inv_of_run {now : DateTime} {faults : List Bool} {as : List AccountStep}
    (hrun : run (step K hash parse) (initial now faults) as = some s) : Inv K hash parse s :=
  run_invariant (g := fun _ _ => True) (fun _ _ _ hinv _ hstep => inv_step hinv hstep)
    (inv_initial now faults) (along_of_forall (fun _ _ => trivial) _ _) hrun

/-! ## The results -/

/-- In every run at most one setup stores an account, there is never a second account, and whatever was
stored since is that account with another password. -/
theorem oneAccount_of_run (K : Crates) (hash : Str → Str) (parse : Str → Option DateTime) (now : DateTime)
    (faults : List Bool) (as : List AccountStep) (s : AccountSystem)
    (hrun : run (step K hash parse) (initial now faults) as = some s) :
    s.setups ≤ 1 ∧ s.conn.tables.users.length ≤ 1 ∧
      ∀ id u id' u', .put id u ∈ s.accounts → .put id' u' ∈ s.accounts →
        id = u.id ∧ u.id = u'.id ∧ u.username = u'.username := by
  rcases (inv_of_run hrun).recorded.account with ⟨husers, haccounts, hsetups⟩ | ⟨v, husers, hsetups, -, hall⟩
  · rw [husers, haccounts, hsetups]
    exact ⟨Nat.zero_le 1, Nat.zero_le 1, fun id u id' u' h => by cases h⟩
  · rw [husers, hsetups]
    refine ⟨le_rfl, le_rfl, fun id u id' u' h h' => ?_⟩
    obtain ⟨p, hp⟩ := hall _ h
    obtain ⟨p', hp'⟩ := hall _ h'
    cases hp
    cases hp'
    exact ⟨rfl, rfl, rfl⟩

/-- In every run, an authorised request carries the token of a session that was opened and not deleted at some
moment after the request came in. The session expires seven days after it was opened, and had not expired when
the request came in; it was opened for a login with the right password of the account of the request, or for
the setup. A mutating request carries the CSRF token of the session. -/
theorem authed_of_run (K : Crates) (hash : Str → Str) (parse : Str → Option DateTime)
    (hparse : ReadsTexts parse) (now : DateTime) (faults : List Bool) (as : List AccountStep)
    (s : AccountSystem) (hrun : run (step K hash parse) (initial now faults) as = some s) (i : ℕ)
    (req : ApiRequest) (call : Call) (since : ℕ) (arrived : DateTime) (user : UserRow) (csrf : Str)
    (h : s.requests[i]? = some (.authed req call since arrived user csrf)) :
    ∃ token g, req.token = some token ∧ s.grants.HeldSince since (hash token) g ∧
      IsExpiry g.opened g.expires ∧ ¬ g.expires.Before arrived ∧
      g.user.id = user.id ∧ Justified K s.accounts g.user g.cause ∧
      (isMutating req.method = true → (firstText req.csrf).getD [] = g.row.csrfToken) := by
  have hinv := inv_of_run hrun
  obtain ⟨row, ⟨token, g, htoken, hid, hheld, hrow, hfresh⟩, huser, hcsrf, hpasses, -⟩ :=
    hinv.phases _ (List.mem_of_getElem? h)
  have hopened : Opened K s.accounts row.id g := by
    obtain ⟨n, -, -, hheld⟩ := hheld
    obtain ⟨j, -, hput, -⟩ := Journal.exists_put_of_heldAt hheld
    exact hinv.recorded.opened row.id g (List.mem_of_getElem? hput)
  subst hrow
  refine ⟨token, g, htoken, hid ▸ hheld, hopened.expiry, ?_, hopened.user.symm.trans huser,
    hopened.justified, fun hmutating => ?_⟩
  · -- The text of the row is read back as the instant of the expiry.
    have hrange : g.expires.InRange := hopened.expiry.2.2
    rw [hopened.text, DateTime.printed, if_pos hrange, hparse.text _ hrange, Option.getD_some] at hfresh
    exact hfresh
  · unfold ApiRequest.passesCsrf at hpasses
    rw [hmutating, Bool.not_true, Bool.false_or, beq_iff_eq] at hpasses
    rw [hcsrf]
    exact hpasses

/-- In every run: after the session of a token was deleted, a request that comes in later is authorised by
the token only if a session with the same id was opened again after that. And after the password of an
account was stored, a login that comes in later opens a session only with the password that was stored then
or later. -/
theorem revocation_of_run (K : Crates) (hash : Str → Str) (parse : Str → Option DateTime) (now : DateTime)
    (faults : List Bool) (as : List AccountStep) (s : AccountSystem)
    (hrun : run (step K hash parse) (initial now faults) as = some s) :
    (∀ (i : ℕ) (req : ApiRequest) (call : Call) (since : ℕ) (arrived : DateTime) (user : UserRow)
      (csrf token : Str) (p : ℕ),
      s.requests[i]? = some (.authed req call since arrived user csrf) → req.token = some token →
      s.grants[p]? = some (.drop (hash token)) → p < since →
        ∃ j g, p < j ∧ s.grants[j]? = some (.put (hash token) g)) ∧
    ∀ (id : Str) (g : SessionGrant) (req : LoginRequest) (since p : ℕ) (e : JournalEntry ℕ UserRow),
      .put id g ∈ s.grants → g.cause = .login req since → s.accounts[p]? = some e → p < since →
        ∃ j u, p ≤ j ∧ s.accounts[j]? = some (.put g.row.userId u) ∧ u.username = req.username ∧
          K.verifyPassword req.password u.passwordHash = true := by
  have hinv := inv_of_run hrun
  constructor
  · intro i req call since arrived user csrf token p h htoken hdrop hp
    obtain ⟨row, ⟨token', g, htoken', hid, hheld, -, -⟩, -, -, -, -⟩ :=
      hinv.phases _ (List.mem_of_getElem? h)
    rw [htoken] at htoken'
    cases htoken'
    rw [← hid] at hheld
    obtain ⟨j, hj, hput⟩ := hheld.put_after_drop hdrop hp
    exact ⟨j, g, hj, hput⟩
  · intro id g req since p e hg hcause he hp
    have hopened := hinv.recorded.opened id g hg
    have hjustified := hopened.justified
    rw [hcause] at hjustified
    obtain ⟨hheld, hname, hverify⟩ := hjustified
    -- All entries of the journal are about the one account.
    have hkey : e.key = g.user.id := by
      obtain ⟨n, -, -, hn⟩ := hheld
      obtain ⟨m, -, hput, -⟩ := Journal.exists_put_of_heldAt hn
      rcases hinv.recorded.account with ⟨-, haccounts, -⟩ | ⟨v, -, -, -, hall⟩
      · rw [haccounts] at he
        cases he
      · obtain ⟨h₁, rfl⟩ := hall e (List.mem_of_getElem? he)
        obtain ⟨h₂, heq⟩ := hall _ (List.mem_of_getElem? hput)
        injection heq with hid
        exact hid.symm
    obtain ⟨j, hj, hput⟩ := hheld.put_from he hkey hp
    exact ⟨j, g.user, hj, by rw [hopened.user]; exact hput, hname, hverify⟩

/-! ## A small run -/

/-- Crates that hash a password by a mark before it. -/
def markCrates : Crates :=
  { plainCrates with verifyPassword := fun password hash => hash == '$' :: password }

/-- A draw. -/
def markDraw (token csrf : Str) : Draw :=
  ⟨token, csrf, fun password => .ok ('$' :: password)⟩

/-- A week after the beginning of the year 2026. -/
def newYearWeek : DateTime :=
  { newYear with
    day := 8
    day_pos := Nat.le_of_ble_eq_true rfl
    day_le := Nat.le_of_ble_eq_true rfl }

/-- Request `i` does its next things. -/
def goesOn (i n : ℕ) (token csrf : Str) : List AccountStep :=
  List.replicate n (.advance i (markDraw token csrf) newYearWeek)

/-- A request with the session token `T`. -/
def tokenRequest : ApiRequest :=
  ⟨.POST, [asBytes "theme=dark; nomina_session=T"], [asBytes "C"]⟩

/-- The setup, and a login with the session token `T`. -/
def setupAndLogin : List AccountStep :=
  .setup "admin" "correct horse" :: goesOn 0 3 "S" "C" ++
    .login ⟨"admin", "correct horse"⟩ :: goesOn 1 4 "T" "C"

/-- A logout with it, up to its handler. -/
def logoutArrives : List AccountStep :=
  setupAndLogin ++ .request tokenRequest .logout :: goesOn 2 2 [] []

/-- The logout, a login for which the same token is drawn, and a request. -/
def tokenDrawnAgain : List AccountStep :=
  logoutArrives ++ goesOn 2 1 [] [] ++ .login ⟨"admin", "correct horse"⟩ :: goesOn 3 4 "T" "C" ++
    .request tokenRequest .other :: goesOn 4 2 [] []

/-- The account of the run. -/
def markUser : UserRow :=
  ⟨1, "admin", "$correct horse"⟩

/-- What the run of a list of steps comes to. -/
lemma exists_run_of_isSome (as : List AccountStep)
    (h : (run (step markCrates id DateTime.parse) (initial newYear []) as).isSome = true)
    {P : AccountSystem → Bool}
    (hP : (run (step markCrates id DateTime.parse) (initial newYear []) as).all P = true) :
    ∃ s, run (step markCrates id DateTime.parse) (initial newYear []) as = some s ∧ P s = true := by
  obtain ⟨s, hs⟩ := Option.isSome_iff_exists.mp h
  rw [hs] at hP
  exact ⟨s, hs, hP⟩

/-- There is one account after the run. -/
theorem oneAccount_tokenDrawnAgain :
    ∃ s, run (step markCrates id DateTime.parse) (initial newYear []) tokenDrawnAgain = some s ∧
      s.setups ≤ 1 ∧ s.conn.tables.users = [markUser] := by
  obtain ⟨s, hs, husers⟩ := exists_run_of_isSome tokenDrawnAgain (by decide +kernel)
    (P := fun s => s.conn.tables.users == [markUser]) (by decide +kernel)
  exact ⟨s, hs, (oneAccount_of_run markCrates id DateTime.parse newYear [] tokenDrawnAgain s hs).1,
    beq_iff_eq.mp husers⟩

/-- The logout is authorised by a session that was opened for a login. -/
theorem authed_logoutArrives :
    ∃ s g, run (step markCrates id DateTime.parse) (initial newYear []) logoutArrives = some s ∧
      s.grants.HeldSince 2 "T".toList g ∧ g.row.csrfToken = "C".toList := by
  obtain ⟨s, hs, hphase⟩ := exists_run_of_isSome logoutArrives (by decide +kernel)
    (P := fun s => s.requests[2]? ==
      some (.authed tokenRequest .logout 2 newYear markUser "C".toList)) (by decide +kernel)
  obtain ⟨token, g, htoken, hheld, -, -, -, -, hcsrf⟩ := authed_of_run markCrates id DateTime.parse
    readsTexts_parse newYear [] logoutArrives s hs 2 tokenRequest .logout 2 newYear markUser "C".toList
    (beq_iff_eq.mp hphase)
  have htoken' : tokenRequest.token = some "T".toList := by decide +kernel
  rw [htoken'] at htoken
  cases htoken
  exact ⟨s, g, hs, hheld, (hcsrf rfl).symm⟩

/-- After the logout the token is accepted again because it was drawn again. -/
theorem revocation_tokenDrawnAgain :
    ∃ s j g, run (step markCrates id DateTime.parse) (initial newYear []) tokenDrawnAgain = some s ∧
      2 < j ∧ s.grants[j]? = some (.put "T".toList g) := by
  obtain ⟨s, hs, hphase⟩ := exists_run_of_isSome tokenDrawnAgain (by decide +kernel)
    (P := fun s => s.requests[4]? == some (.authed tokenRequest .other 4 newYear markUser "C".toList) &&
      s.grants[2]? == some (.drop "T".toList)) (by decide +kernel)
  rw [Bool.and_eq_true, beq_iff_eq, beq_iff_eq] at hphase
  obtain ⟨j, g, hj, hput⟩ := (revocation_of_run markCrates id DateTime.parse newYear [] tokenDrawnAgain s
    hs).1 4 tokenRequest .other 4 newYear markUser "C".toList "T".toList 2 hphase.1 (by decide +kernel)
    hphase.2 (by decide)
  exact ⟨s, j, g, hs, hj, hput⟩

end AccountSystem

end Nomina
