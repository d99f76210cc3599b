import Mathlib.Data.List.Infix
import Mathlib.Data.List.Perm.Basic
import Nomina.Web.Authentication
import Nomina.Web.Management

/-!
# Access and the audit log

What holds in every run of the management server, whatever its handlers do. A handler that takes `Authed` runs
only for a request whose session was found, had not expired, and whose CSRF token a mutating request carries.
The entries of the audit log belong to requests that succeeded with a change, one for each; in a database that
refuses nothing none is missing once no request is under way.
-/

namespace Nomina

open Lib Sql Logbook

variable {ω : Type} (K : Crates) (hash : Str → Str) (parse : Str → Option DateTime)
  (parseId : Str → Option ℤ) (allowNetworks : List Str)
  (serve : Handler → HttpRequest → Option ℤ → Option UserRow → Job (Backend ω) Empty ℕ)

namespace Db

/-- The first statement of `insertAudit`. -/
def addAudit (entry : AuditEntry) : Sql LogTables Unit :=
  update fun t => { t with audit := append t.audit entry }

/-- An entry of the audit log is refused, or added; the table may be trimmed after that. -/
lemma insertAudit_cases (entry : AuditEntry) (c : Conn LogTables) :
    (∃ e, (insertAudit entry).result c = .error e ∧ ((insertAudit entry).after c).tables = c.tables ∧
      c.faults ≠ []) ∨
    (insertAudit entry).result c = .ok () ∧ (c.faults = [] → ((insertAudit entry).after c).faults = []) ∧
      (((insertAudit entry).after c).tables.audit = append c.tables.audit entry ∨
        ((insertAudit entry).after c).tables.audit = trim 10000 (append c.tables.audit entry)) := by
  have hevals : Evals (insertAudit entry) c.tables (.ok ()) _ :=
    .bind (.update _ c.tables) (.unwrapOr () (.update _ _))
  have hsplit : insertAudit entry = addAudit entry >>= fun _ =>
    unwrapOr () (update fun t => { t with audit := trim 10000 t.audit }) := rfl
  cases hadd : (addAudit entry).result c with
  | error e =>
    refine .inl ⟨e, ?_, ?_, fun hc => ?_⟩
    · rw [hsplit, EStateM.result_bind, hadd]
    · rw [hsplit, EStateM.after_bind, hadd]
      exact update_error hadd
    · have hadded : Evals (addAudit entry) c.tables (.ok ()) _ := .update _ _
      rw [(hadded c rfl hc).1] at hadd
      cases hadd
  | ok u =>
    have hafter : (insertAudit entry).after c =
        (update fun t : LogTables => { t with audit := trim 10000 t.audit }).after
          ((addAudit entry).after c) := by
      rw [hsplit, EStateM.after_bind, hadd]
      exact after_unwrapOr ..
    refine .inr ⟨?_, fun hc => (hevals c rfl hc).2.2.1, ?_⟩
    · rw [hsplit, EStateM.result_bind, hadd]
      obtain ⟨u, hres⟩ := returns_unwrapOr () (update fun t => { t with audit := trim 10000 t.audit })
        ((addAudit entry).after c)
      exact hres
    · have hrows : ((addAudit entry).after c).tables.audit = append c.tables.audit entry := by
        have hadded : (addAudit entry).after c = _ := update_ok hadd
        rw [hadded]
        rfl
      rw [hafter, ← hrows]
      exact (update_cases _ _).imp (congrArg LogTables.audit) (congrArg LogTables.audit)

end Db

/-! ## What is known of the history -/

/-- The lookups saw a session with the token of the request, at some time not expired, and its user. -/
def Resolved (seen : List (AuthTables × DateTime)) (req : ApiRequest) (user : UserRow) (csrf : Str) : Prop :=
  ∃ token row, req.token = some token ∧ row.id = hash token ∧ row.csrfToken = csrf ∧
    (∃ t ∈ seen, row ∈ t.1.sessions) ∧
    (∃ t ∈ seen, ¬ ((parse row.expiresAt).getD .epoch).Before t.2) ∧
    ∃ t ∈ seen, user ∈ t.1.users ∧ user.id = row.userId

/-- A handler that ran: the request passed the allow-list and was directed to it, and if it takes `Authed`
there was a session. -/
structure RanOk (seen : List (AuthTables × DateTime)) (r : Ran) : Prop where
  passed : ipGuard K allowNetworks r.req = true
  target : (∃ parameter, dispatch r.req.method r.req.path = .handler r.handler parameter) ∨
    dispatch r.req.method r.req.path = .fallback ∧ r.handler = .staticHandler
  authed : r.handler.takesAuthed = true → ∃ user csrf, r.authed = some (user, csrf) ∧
    r.req.passesCsrf csrf = true ∧ Resolved hash parse (seen.drop r.since) r.req.toApiRequest user csrf

/-- A request that succeeded with a change: its handler ran. -/
def SuccessOk (ran : List Ran) (k : Success) : Prop :=
  isAudited k.req k.status = true ∧ ∃ r ∈ ran, r.req = k.req ∧ r.since = k.since

/-- An entry that was stored: what it says is that of the request, and the user is one that the lookups saw. -/
def EntryOk (seen : List (AuthTables × DateTime)) (k : Success) (e : AuditEntry) : Prop :=
  e = k.req.auditEntry k.status e.time e.username ∧
    (e.username = "?".toList ∨ ∃ user csrf,
      Resolved hash parse (seen.drop k.since) k.req.toApiRequest user csrf ∧ e.username = user.username)

variable {K hash parse allowNetworks}

lemma Resolved.mono {seen seen' : List (AuthTables × DateTime)} {req : ApiRequest} {user : UserRow} {csrf : Str}
    (h : Resolved hash parse seen req user csrf) (hseen : seen ⊆ seen') :
    Resolved hash parse seen' req user csrf := by
  obtain ⟨token, row, htoken, hid, hcsrf, ⟨t₁, ht₁, hrow⟩, ⟨t₂, ht₂, hnow⟩, t₃, ht₃, huser⟩ := h
  exact ⟨token, row, htoken, hid, hcsrf, ⟨t₁, hseen ht₁, hrow⟩, ⟨t₂, hseen ht₂, hnow⟩, t₃, hseen ht₃, huser⟩

lemma drop_subset_drop {α : Type} {l l' : List α} (h : l <+: l') (n : ℕ) : l.drop n ⊆ l'.drop n :=
  (h.drop n).subset

lemma RanOk.mono {seen seen' : List (AuthTables × DateTime)} {r : Ran}
    (h : RanOk K hash parse allowNetworks seen r) (hseen : seen <+: seen') :
    RanOk K hash parse allowNetworks seen' r := by
  refine ⟨h.passed, h.target, fun hauthed => ?_⟩
  obtain ⟨user, csrf, heq, hcsrf, hresolved⟩ := h.authed hauthed
  exact ⟨user, csrf, heq, hcsrf, hresolved.mono (drop_subset_drop hseen _)⟩

lemma EntryOk.mono {seen seen' : List (AuthTables × DateTime)} {k : Success} {e : AuditEntry}
    (h : EntryOk hash parse seen k e) (hseen : seen <+: seen') : EntryOk hash parse seen' k e := by
  refine ⟨h.1, h.2.imp_right ?_⟩
  rintro ⟨user, csrf, hresolved, husername⟩
  exact ⟨user, csrf, hresolved.mono (drop_subset_drop hseen _), husername⟩

/-! ## Turns -/

namespace ManagementServer

/-- What other requests do: what was seen and what ran stays written down. -/
structure Later (s s' : ManagementServer ω) : Prop where
  seen : s.seen <+: s'.seen
  ran : s.ran ⊆ s'.ran

instance : IsPreorder (ManagementServer ω) Later where
  refl _ := ⟨List.prefix_rfl, List.Subset.refl _⟩
  trans _ _ _ h h' := ⟨h.seen.trans h'.seen, List.Subset.trans h.ran h'.ran⟩

/-- The audit log, and what is written down about it, are the same. -/
def SameLogs (s s' : ManagementServer ω) : Prop :=
  s'.logs = s.logs ∧ s'.succeeded = s.succeeded ∧ s'.recorded = s.recorded

variable (K hash parse allowNetworks)

/-- A turn of a request that owes `owed` to the audit log. -/
inductive Turn (owed : Option Success) (s s' : ManagementServer ω) : Option Success → Prop
  | neutral (later : s.Later s') (same : s.SameLogs s')
      (ran : ∀ r ∈ s'.ran, r ∈ s.ran ∨ RanOk K hash parse allowNetworks s'.seen r) : Turn owed s s' owed
  | succeed (k : Success) (none : owed = none) (ok : SuccessOk s.ran k)
      (eq : s' = { s with succeeded := s.succeeded ++ [k] }) : Turn owed s s' (some k)
  | record (k : Success) (entry : AuditEntry) (some : owed = some k) (ok : EntryOk hash parse s.seen k entry)
      (eq : s' = { s with
        logs := (Db.insertAudit entry).after s.logs
        recorded := match (Db.insertAudit entry).result s.logs with
          | .ok _ => s.recorded ++ [(k, entry)]
          | .error _ => s.recorded }) : Turn owed s s' none

/-- A job from a state, that owes `owed`. -/
abbrev Does {α : Type} (p : ManagementJob ω α) (owed : Option Success) (s : ManagementServer ω)
    (Q : Except Empty α → Option Success → ManagementServer ω → Prop) : Prop :=
  p.Safe Later (fun owed s s' owed' => Turn K hash parse allowNetworks owed s s' owed') owed s Q

variable {K hash parse parseId allowNetworks serve}

lemma Later.of_seen {s s' : ManagementServer ω} (h : s.seen <+: s'.seen) (hran : s'.ran = s.ran) : s.Later s' :=
  ⟨h, hran ▸ List.Subset.refl _⟩

lemma Turn.of_seen {owed : Option Success} {s s' : ManagementServer ω} (h : s.seen <+: s'.seen)
    (hran : s'.ran = s.ran) (hsame : s.SameLogs s') : Turn K hash parse allowNetworks owed s s' owed :=
  .neutral (.of_seen h hran) hsame fun _ hr => .inl (hran ▸ hr)

open ManagementJob

variable {α : Type} {owed : Option Success} {s : ManagementServer ω} {since : ℕ}

/-- What a turn saw is written down. -/
lemma does_see (f : Backend ω → α × Backend ω) (hsince : since ≤ s.seen.length) :
    Does K hash parse allowNetworks (see f) owed s fun r owed' s' => owed' = owed ∧ s.Later s' ∧
      ∃ back, (back.auth.tables, back.now) ∈ s'.seen.drop since ∧ r = .ok (f back).1 := by
  refine Job.Safe.atomically fun t ht => ?_
  refine ⟨owed, .of_seen (List.prefix_append _ _) rfl ⟨rfl, rfl, rfl⟩, fun t' ht' => ?_⟩
  have hlater : t.Later { t with
      back := (f t.back).2, seen := t.seen ++ [(t.back.auth.tables, t.back.now)] } :=
    .of_seen (List.prefix_append _ _) rfl
  refine ⟨rfl, trans_of Later ht (trans_of Later hlater ht'), t.back, ?_, rfl⟩
  refine drop_subset_drop ht'.seen since ?_
  change _ ∈ (t.seen ++ [(t.back.auth.tables, t.back.now)]).drop since
  rw [List.drop_append_of_le_length (Nat.le_trans hsince ht.seen.length_le)]
  exact List.mem_append_right _ (List.mem_singleton_self _)

/-- A sequence that begins with such a turn. -/
lemma does_see_bind {β : Type} {f : Backend ω → α × Backend ω} {k : α → ManagementJob ω β}
    {Q : Except Empty β → Option Success → ManagementServer ω → Prop} (hsince : since ≤ s.seen.length)
    (hk : ∀ back s', s.Later s' → (back.auth.tables, back.now) ∈ s'.seen.drop since →
      Does K hash parse allowNetworks (k (f back).1) owed s' Q) :
    Does K hash parse allowNetworks (see f >>= k) owed s Q := by
  refine Job.Safe.bind (P := fun a owed' s' => owed' = owed ∧ s.Later s' ∧
    ∃ back, (back.auth.tables, back.now) ∈ s'.seen.drop since ∧ a = (f back).1) ?_ ?_
  · refine (does_see f hsince).mono ?_
    rintro r owed' s' ⟨rfl, hlater, back, hback, rfl⟩
    exact ⟨rfl, hlater, back, hback, rfl⟩
  · rintro a owed' s' ⟨rfl, hlater, back, hback, rfl⟩
    exact hk back s' hlater hback

/-- A sequence that begins with a call of the database about accounts. -/
lemma does_lookUp_bind {β : Type} {m : Sql AuthTables α} {k : Except DbError α → ManagementJob ω β}
    {Q : Except Empty β → Option Success → ManagementServer ω → Prop} (hsince : since ≤ s.seen.length)
    (hk : ∀ (back : Backend ω) s', s.Later s' → (back.auth.tables, back.now) ∈ s'.seen.drop since →
      Does K hash parse allowNetworks (k (m.result back.auth)) owed s' Q) :
    Does K hash parse allowNetworks (lookUp m >>= k) owed s Q :=
  does_see_bind hsince hk

/-- What is known when the session of a request was resolved, among what was seen. -/
def Answers (hash : Str → Str) (parse : Str → Option DateTime) (since : ℕ) (req : ApiRequest)
    (owed : Option Success) (r : Except Empty (Except ℕ (UserRow × Str)))
    (owed' : Option Success) (s' : ManagementServer ω) : Prop :=
  owed' = owed ∧ since ≤ s'.seen.length ∧ ∀ user csrf, r = .ok (.ok (user, csrf)) →
    Resolved hash parse (s'.seen.drop since) req user csrf

/-- A request whose session is not resolved. -/
lemma does_refuse {req : ApiRequest} {status : ℕ} (hsince : since ≤ s.seen.length) :
    Does K hash parse allowNetworks (pure (.error status)) owed s
      (Answers hash parse since req owed) :=
  Job.Safe.pure fun _ ht => ⟨rfl, Nat.le_trans hsince ht.seen.length_le, nofun⟩

/-- The user that a session names. -/
lemma does_userInTurns {req : ApiRequest} {token : Str} {row : SessionRow} (hsince : since ≤ s.seen.length)
    (htoken : req.token = some token) (hid : row.id = hash token)
    (hrow : ∃ t ∈ s.seen.drop since, row ∈ t.1.sessions)
    (hnow : ∃ t ∈ s.seen.drop since, ¬ ((parse row.expiresAt).getD .epoch).Before t.2) :
    Does K hash parse allowNetworks (userInTurns row) owed s (Answers hash parse since req owed) := by
  refine does_lookUp_bind hsince fun back s₁ h₁ hback => ?_
  have hsince₁ := Nat.le_trans hsince h₁.seen.length_le
  cases hresult : (Db.userById row.userId).result back.auth with
  | error e => exact does_refuse hsince₁
  | ok found =>
    obtain ⟨rfl, -⟩ := select_ok hresult
    cases hfound : back.auth.tables.users.find? (·.id == row.userId) with
    | none => exact does_refuse hsince₁
    | some user =>
      have huser : user.id = row.userId := by simpa using List.find?_some hfound
      refine Job.Safe.pure fun t ht => ⟨rfl, Nat.le_trans hsince₁ ht.seen.length_le, ?_⟩
      rintro user' csrf heq
      cases heq
      have hresolved : Resolved hash parse (s₁.seen.drop since) req user row.csrfToken := by
        obtain ⟨t₁, ht₁, hrow⟩ := hrow
        obtain ⟨t₂, ht₂, hnow⟩ := hnow
        exact ⟨token, row, htoken, hid, rfl, ⟨t₁, drop_subset_drop h₁.seen _ ht₁, hrow⟩,
          ⟨t₂, drop_subset_drop h₁.seen _ ht₂, hnow⟩, _, hback, List.mem_of_find?_eq_some hfound,
          huser⟩
      exact hresolved.mono (drop_subset_drop ht.seen _)

/-- A session that was found is deleted when it has expired. -/
lemma does_sessionInTurns {req : ApiRequest} {token : Str} {row : SessionRow}
    (hsince : since ≤ s.seen.length) (htoken : req.token = some token) (hid : row.id = hash token)
    (hrow : ∃ t ∈ s.seen.drop since, row ∈ t.1.sessions) :
    Does K hash parse allowNetworks (sessionInTurns row ((parse row.expiresAt).getD .epoch)) owed s
      (Answers hash parse since req owed) := by
  unfold sessionInTurns readClock
  refine does_see_bind hsince fun back s₁ h₁ hback => ?_
  have hsince₁ := Nat.le_trans hsince h₁.seen.length_le
  split
  · refine does_lookUp_bind hsince₁ fun back' s₂ h₂ _ => ?_
    exact does_refuse (Nat.le_trans hsince₁ h₂.seen.length_le)
  · rename_i hnow
    obtain ⟨t, ht, hrow⟩ := hrow
    exact does_userInTurns hsince₁ htoken hid ⟨t, drop_subset_drop h₁.seen _ ht, hrow⟩
      ⟨_, hback, hnow⟩

/-- `resolve_session` finds only sessions that are stored and have not expired. -/
lemma does_resolveInTurns (req : ApiRequest) (hsince : since ≤ s.seen.length) :
    Does K hash parse allowNetworks (resolveInTurns hash parse req) owed s
      (Answers hash parse since req owed) := by
  unfold resolveInTurns
  cases htoken : req.token with
  | none => exact does_refuse hsince
  | some token =>
    refine does_lookUp_bind hsince fun back s₁ h₁ hback => ?_
    have hsince₁ := Nat.le_trans hsince h₁.seen.length_le
    cases hresult : (Db.session parse (hash token)).result back.auth with
    | error e => exact does_refuse hsince₁
    | ok found =>
      obtain ⟨rfl, -⟩ := select_ok hresult
      cases hfound : back.auth.tables.sessions.find? (·.id == hash token) with
      | none => exact does_refuse hsince₁
      | some row =>
        have hid : row.id = hash token := by simpa using List.find?_some hfound
        exact does_sessionInTurns hsince₁ htoken hid ⟨_, hback, List.mem_of_find?_eq_some hfound⟩

/-- The job is done and owes nothing. -/
def Settled (_ : Except Empty α) (owed : Option Success) (_ : ManagementServer ω) : Prop :=
  owed = none

lemma does_settled {a : α} : Does K hash parse allowNetworks (pure a) none s Settled :=
  Job.Safe.pure fun _ _ => rfl

section Sequences

variable {β : Type} {Q : Except Empty β → Option Success → ManagementServer ω → Prop}

/-- A sequence. No job of the server ends with an error. -/
lemma does_bind {p : ManagementJob ω α} {k : α → ManagementJob ω β}
    {P : Except Empty α → Option Success → ManagementServer ω → Prop}
    (hp : Does K hash parse allowNetworks p owed s P)
    (hk : ∀ a owed' s', P (.ok a) owed' s' → Does K hash parse allowNetworks (k a) owed' s' Q) :
    Does K hash parse allowNetworks (p >>= k) owed s Q := by
  refine Job.Safe.bind (P := fun a => P (.ok a)) (hp.mono ?_) hk
  rintro (e | a) owed' s' h
  · exact nomatch e
  · exact h

/-- A sequence that begins with a look at how many lookups there were. -/
lemma does_look_bind {k : ℕ → ManagementJob ω β}
    (hk : ∀ s', s.Later s' → Does K hash parse allowNetworks (k s'.seen.length) owed s' Q) :
    Does K hash parse allowNetworks (look (·.seen.length) >>= k) owed s Q := by
  intro t ht
  exact ⟨owed, .of_seen List.prefix_rfl rfl ⟨rfl, rfl, rfl⟩, hk t ht⟩

/-- What is left to the backend writes nothing down. -/
lemma does_focus (task : Job (Backend ω) Empty α) :
    Does K hash parse allowNetworks (task.focus (·.back) fun back s => { s with back }) owed s
      fun _ owed' s' => owed' = owed ∧ s.Later s' := by
  have hkeeps : (task.focus (ManagementServer.back (ω := ω)) fun back s => { s with back }).Keeps
      fun s s' => s'.seen = s.seen ∧ s'.ran = s.ran ∧ s.SameLogs s' :=
    Job.Keeps.focus (fun _ _ => ⟨rfl, rfl, rfl, rfl, rfl⟩) task
  refine hkeeps.safe (P := s.Later) ?_ (fun _ _ h h' => trans_of Later h h') (fun _ _ h => ⟨rfl, h⟩)
    (refl_of Later s)
  rintro t t' ht ⟨hseen, hran, hsame⟩
  exact ⟨.of_seen (hseen ▸ List.prefix_rfl) hran hsame,
    trans_of Later ht (.of_seen (hseen ▸ List.prefix_rfl) hran)⟩

/-- A sequence that begins with what is left to the backend. -/
lemma does_focus_bind {task : Job (Backend ω) Empty α} {k : α → ManagementJob ω β}
    (hk : ∀ a s', s.Later s' → Does K hash parse allowNetworks (k a) owed s' Q) :
    Does K hash parse allowNetworks ((task.focus (·.back) fun back s => { s with back }) >>= k) owed s Q := by
  refine does_bind (does_focus task) ?_
  rintro a owed' s' ⟨rfl, h⟩
  exact hk a s' h

/-- A sequence that begins with the note that a handler runs. -/
lemma does_ran_bind {r : Ran} {k : Unit → ManagementJob ω β} (hr : RanOk K hash parse allowNetworks s.seen r)
    (hk : ∀ s', s.Later s' → r ∈ s'.ran → Does K hash parse allowNetworks (k ()) owed s' Q) :
    Does K hash parse allowNetworks (note (fun s => { s with ran := s.ran ++ [r] }) >>= k) owed s Q := by
  intro t ht
  have hlater : t.Later { t with ran := t.ran ++ [r] } := ⟨List.prefix_rfl, List.subset_append_left _ _⟩
  refine ⟨owed, .neutral hlater ⟨rfl, rfl, rfl⟩ fun r' hr' => ?_,
    hk _ (trans_of Later ht hlater) (List.mem_append_right _ (List.mem_singleton_self r))⟩
  rcases List.mem_append.mp hr' with hold | hnew
  · exact .inl hold
  · rw [List.mem_singleton.mp hnew]
    exact .inr (hr.mono ht.seen)

/-- A sequence that begins with the note that a request succeeded: from then on an entry is owed. -/
lemma does_succeed_bind {success : Success} {k : Unit → ManagementJob ω β} (hsuccess : SuccessOk s.ran success)
    (hk : ∀ s', s.Later s' → Does K hash parse allowNetworks (k ()) (some success) s' Q) :
    Does K hash parse allowNetworks (note (fun s => { s with succeeded := s.succeeded ++ [success] }) >>= k)
      none s Q := by
  intro t ht
  obtain ⟨haudited, r, hr, hreq⟩ := hsuccess
  have hlater : t.Later { t with succeeded := t.succeeded ++ [success] } :=
    ⟨List.prefix_rfl, List.Subset.refl _⟩
  exact ⟨some success, .succeed success rfl ⟨haudited, r, ht.ran hr, hreq⟩ rfl, hk _ (trans_of Later ht hlater)⟩

end Sequences

/-- The task of `audit_mw` stores the entry that is owed, or it is refused. -/
lemma does_auditTask {k : Success} (hsince : k.since ≤ s.seen.length) :
    Does K hash parse allowNetworks (auditTask hash parse k) (some k) s Settled := by
  refine does_bind (does_resolveInTurns k.req.toApiRequest hsince) ?_
  rintro authed owed' s' ⟨rfl, hsince', hresolved⟩
  refine Job.Safe.atomically fun t ht => ⟨none, .record k _ rfl ⟨rfl, ?_⟩ rfl, fun _ _ => rfl⟩
  cases authed with
  | error status => exact .inl rfl
  | ok a => exact .inr ⟨a.1, a.2, (hresolved a.1 a.2 rfl).mono (drop_subset_drop ht.seen _), rfl⟩

/-- A handler runs, and what it owes then is settled. -/
lemma does_runAudited {h : Handler} {req : HttpRequest} {id : Option ℤ} {authed : Option (UserRow × Str)}
    (hsince : since ≤ s.seen.length) (hran : RanOk K hash parse allowNetworks s.seen ⟨h, req, since, authed⟩) :
    Does K hash parse allowNetworks (runAudited hash parse serve h req since id authed) none s Settled := by
  refine does_ran_bind hran fun s₁ h₁ hmem => does_focus_bind fun status s₂ h₂ => ?_
  dsimp only
  split
  · rename_i haudited
    refine does_succeed_bind ⟨haudited, _, h₂.ran hmem, rfl, rfl⟩ fun s₃ h₃ => ?_
    have hsince₃ := Nat.le_trans hsince (trans_of Later h₁ (trans_of Later h₂ h₃)).seen.length_le
    refine does_bind (does_auditTask hsince₃) ?_
    rintro - - s' rfl
    exact does_settled
  · exact does_settled

/-- A request as a whole. -/
lemma does_handle (req : HttpRequest) :
    Does K hash parse allowNetworks (req.handle K hash parse parseId allowNetworks serve) none s Settled := by
  refine does_look_bind fun s₁ h₁ => ?_
  have hsince := Nat.le_refl s₁.seen.length
  by_cases hpassed : ipGuard K allowNetworks req = true
  · rw [if_pos hpassed]
    cases htarget : dispatch req.method req.path with
    | fallback =>
      dsimp only
      split
      · exact does_settled
      · exact does_runAudited hsince ⟨hpassed, .inr ⟨htarget, rfl⟩, nofun⟩
    | methodNotAllowed => exact does_settled
    | handler h parameter =>
      have htarget' : (∃ parameter, dispatch req.method req.path = .handler h parameter) ∨
          dispatch req.method req.path = .fallback ∧ h = .staticHandler := .inl ⟨parameter, htarget⟩
      dsimp only
      split
      · exact does_settled
      · split
        · rename_i hauthed
          refine does_bind (does_resolveInTurns req.toApiRequest hsince) ?_
          rintro (status | ⟨user, csrf⟩) - s₂ ⟨rfl, hsince₂, hresolved⟩
          · exact does_settled
          · dsimp only
            split
            · rename_i hcsrf
              exact does_runAudited hsince₂ ⟨hpassed, htarget', fun _ => ⟨user, csrf, rfl, hcsrf, hresolved user csrf rfl⟩⟩
            · exact does_settled
        · rename_i hauthed
          exact does_runAudited hsince ⟨hpassed, htarget', fun h => absurd h hauthed⟩
  · rw [if_neg hpassed]
    exact does_settled

/-- Whatever comes in. -/
lemma does_input (input : ManagementInput ω) :
    Does K hash parse allowNetworks (input.handle K hash parse parseId allowNetworks serve) none s Settled := by
  cases input with
  | request req => exact does_handle req
  | background task => exact (does_focus task).mono fun _ _ _ h => h.1

/-! ## Runs -/

/-- What the jobs owe, when one of them owes something else. -/
lemma filterMap_set_perm {gs : List (Option Success)} {i : ℕ} {g : Option Success} (hg : gs[i]? = some g)
    (g' : Option Success) : ((gs.set i g').filterMap id ++ g.toList).Perm (gs.filterMap id ++ g'.toList) := by
  obtain ⟨hi, rfl⟩ := List.getElem?_eq_some_iff.mp hg
  have hset : ((gs.set i g').filterMap id).Perm ((g' :: gs.eraseIdx i).filterMap id) :=
    (List.set_perm_cons_eraseIdx hi g').filterMap id
  have hget : ((gs[i] :: gs.eraseIdx i).filterMap id).Perm (gs.filterMap id) :=
    (List.getElem_cons_eraseIdx_perm hi).filterMap id
  have hcons (g : Option Success) : (g :: gs.eraseIdx i).filterMap id = g.toList ++ (gs.eraseIdx i).filterMap id := by
    cases g <;> rfl
  rw [hcons] at hset hget
  refine (hset.append_right _).trans (.trans ?_ (hget.append_right _))
  rw [List.append_assoc]
  exact List.perm_append_comm.trans (List.perm_append_comm.append_right _)

variable (K hash parse allowNetworks)

/-- What holds in every run: of what was written down, of the audit log, and of the requests that succeeded.
Each of these has its entry, or a job owes it, or the database refused it. -/
structure Recorded (start : List (ℕ × AuditEntry)) (refusals : List Bool) (gs : List (Option Success))
    (s : ManagementServer ω) : Prop where
  ran : ∀ r ∈ s.ran, RanOk K hash parse allowNetworks s.seen r
  succeeded : ∀ k ∈ s.succeeded, SuccessOk s.ran k
  recorded : ∀ p ∈ s.recorded, EntryOk hash parse s.seen p.1 p.2
  retains : Numbered start → Retains 10000 s.logs.tables.audit (start.map Prod.snd ++ s.recorded.map Prod.snd)
  faults : refusals = [] → s.logs.faults = []
  owed : ∃ lost, s.succeeded.Perm (s.recorded.map Prod.fst ++ gs.filterMap id ++ lost) ∧
    (refusals = [] → lost = [])

variable {K hash parse allowNetworks} {start : List (ℕ × AuditEntry)} {refusals : List Bool}
  {gs : List (Option Success)} {s' : ManagementServer ω} {i : ℕ} {owed' : Option Success}

lemma SuccessOk.mono {ran ran' : List Ran} {k : Success} (h : SuccessOk ran k) (hran : ran ⊆ ran') :
    SuccessOk ran' k :=
  ⟨h.1, h.2.imp fun _ hr => ⟨hran hr.1, hr.2⟩⟩

/-- A turn that adds nothing to the logs. -/
lemma Recorded.neutral (h : Recorded K hash parse allowNetworks start refusals gs s) (hlater : s.Later s')
    (hsame : s.SameLogs s') (hran : ∀ r ∈ s'.ran, r ∈ s.ran ∨ RanOk K hash parse allowNetworks s'.seen r) :
    Recorded K hash parse allowNetworks start refusals gs s' := by
  obtain ⟨hlogs, hsucceeded, hrecorded⟩ := hsame
  refine ⟨fun r hr => ?_, fun k hk => ?_, fun p hp => ?_, ?_, ?_, ?_⟩
  · exact (hran r hr).elim (fun hr => (h.ran r hr).mono hlater.seen) id
  · exact SuccessOk.mono (h.succeeded k (hsucceeded ▸ hk)) hlater.ran
  · exact (h.recorded p (hrecorded ▸ hp)).mono hlater.seen
  · rw [hlogs, hrecorded]
    exact h.retains
  · rw [hlogs]
    exact h.faults
  · rw [hsucceeded, hrecorded]
    exact h.owed

/-- A turn at which a request succeeds. -/
lemma Recorded.succeed (h : Recorded K hash parse allowNetworks start refusals gs s) {k : Success}
    (hk : SuccessOk s.ran k) (hg : gs[i]? = some none) :
    Recorded K hash parse allowNetworks start refusals (gs.set i (some k))
      { s with succeeded := s.succeeded ++ [k] } := by
  refine ⟨h.ran, fun k' hk' => ?_, h.recorded, h.retains, h.faults, ?_⟩
  · rcases List.mem_append.mp hk' with hold | hnew
    · exact h.succeeded k' hold
    · exact List.mem_singleton.mp hnew ▸ hk
  · obtain ⟨lost, hperm, hlost⟩ := h.owed
    refine ⟨lost, List.perm_iff_count.mpr fun a => ?_, hlost⟩
    have hbefore := hperm.count_eq a
    have hset := (filterMap_set_perm hg (some k)).count_eq a
    simp only [List.count_append, Option.toList_none, Option.toList_some, List.count_nil] at hbefore hset ⊢
    omega

/-- The turn at which the entry of a request is stored, or refused. -/
lemma Recorded.record (h : Recorded K hash parse allowNetworks start refusals gs s) {k : Success}
    {entry : AuditEntry} (hentry : EntryOk hash parse s.seen k entry) (hg : gs[i]? = some (some k)) :
    Recorded K hash parse allowNetworks start refusals (gs.set i none) { s with
      logs := (Db.insertAudit entry).after s.logs
      recorded := match (Db.insertAudit entry).result s.logs with
        | .ok _ => s.recorded ++ [(k, entry)]
        | .error _ => s.recorded } := by
  obtain ⟨lost, hperm, hlost⟩ := h.owed
  have hset (a : Success) := (filterMap_set_perm hg none).count_eq a
  simp only [List.count_append, Option.toList_none, Option.toList_some, List.count_nil] at hset
  rcases Db.insertAudit_cases entry s.logs with ⟨e, hres, htables, hfaults⟩ | ⟨hres, hfaults, haudit⟩
  · rw [hres]
    have hrefused : refusals ≠ [] := fun hr => hfaults (h.faults hr)
    refine ⟨h.ran, h.succeeded, h.recorded, ?_, fun hr => absurd hr hrefused,
      lost ++ [k], List.perm_iff_count.mpr fun a => ?_, fun hr => absurd hr hrefused⟩
    · dsimp only
      rw [htables]
      exact h.retains
    · have hbefore := hperm.count_eq a
      have hset := hset a
      simp only [List.count_append] at hbefore ⊢
      omega
  · rw [hres]
    refine ⟨h.ran, h.succeeded, fun p hp => ?_, ?_, fun hr => hfaults (h.faults hr), lost,
      List.perm_iff_count.mpr fun a => ?_, hlost⟩
    · rcases List.mem_append.mp hp with hold | hnew
      · exact h.recorded p hold
      · cases List.mem_singleton.mp hnew
        exact hentry
    · intro hstart
      dsimp only
      have hadded := (h.retains hstart).append entry
      rw [List.append_assoc] at hadded
      rw [List.map_append]
      rcases haudit with haudit | haudit
      · rw [haudit]
        exact hadded
      · rw [haudit]
        exact hadded.trim (Nat.le_refl _)
    · have hbefore := hperm.count_eq a
      have hset := hset a
      simp only [List.count_append, List.map_append, List.map_cons, List.map_nil] at hbefore ⊢
      omega

/-- Every turn keeps what holds in every run. -/
lemma Recorded.turn (h : Recorded K hash parse allowNetworks start refusals gs s) (hg : gs[i]? = some owed)
    (hturn : Turn K hash parse allowNetworks owed s s' owed') :
    s.Later s' ∧ Recorded K hash parse allowNetworks start refusals (gs.set i owed') s' := by
  cases hturn with
  | neutral hlater hsame hran =>
    have hset : gs.set i owed = gs := by
      obtain ⟨hi, rfl⟩ := List.getElem?_eq_some_iff.mp hg
      exact List.set_getElem_self hi
    rw [hset]
    exact ⟨hlater, h.neutral hlater hsame hran⟩
  | succeed k hnone hk heq =>
    subst hnone heq
    exact ⟨.of_seen List.prefix_rfl rfl, h.succeed hk hg⟩
  | record k entry hsome hentry heq =>
    subst hsome heq
    exact ⟨.of_seen List.prefix_rfl rfl, h.record hentry hg⟩

/-- In every run, every job settles what it owes. -/
lemma sound_of_run {back : Backend ω} {logs : Conn LogTables} {as : List (PoolStep (ManagementInput ω))}
    {p : Pool (ManagementServer ω) Empty ℕ}
    (hrun : run (Pool.step (ManagementInput.handle K hash parse parseId allowNetworks serve))
      ⟨.initial back logs, []⟩ as = some p) :
    p.Sound Later (fun owed s s' owed' => Turn K hash parse allowNetworks owed s s' owed')
      (Recorded K hash parse allowNetworks logs.tables.audit logs.faults) Settled := by
  have hinitial : Recorded K hash parse allowNetworks logs.tables.audit logs.faults [] (.initial back logs) := by
    refine ⟨fun r hr => absurd hr List.not_mem_nil, fun k hk => absurd hk List.not_mem_nil,
      fun e he => absurd he List.not_mem_nil, fun hlogs => ?_, id, [], .nil, fun _ => rfl⟩
    rw [ManagementServer.initial, List.map_nil, List.append_nil]
    exact .of_numbered hlogs 10000
  refine Pool.Sound.of_run (A := fun _ => True) (C := fun _ _ => True) ?_ ?_ ⟨[], hinitial, .nil⟩
    (along_of_forall (fun _ _ => ⟨fun _ _ => trivial, fun _ _ => trivial⟩) _ as) hrun
  · intro gs s input _ h
    refine ⟨none, ⟨h.ran, h.succeeded, h.recorded, h.retains, h.faults, ?_⟩, does_input input⟩
    rw [List.filterMap_append]
    change ∃ lost, s.succeeded.Perm (s.recorded.map Prod.fst ++ (gs.filterMap id ++ []) ++ lost) ∧ _
    rw [List.append_nil]
    exact h.owed
  · intro gs s s' i g g' h hg hturn _
    exact h.turn hg hturn

variable (K hash parse parseId allowNetworks serve)

/-- In every run, whatever the handlers do: a handler ran only for a request that was directed to it, from a
peer that the allow-list admits; the DynDNS update, which changes nothing under its methods, is left out of it.
If the handler takes `Authed`, then since the request came in its session was found, was not yet expired, and
its user was found; a mutating request carries the CSRF token of the session. Every other handler of a mutating
request is the login, the setup, a DNS query, or the assets of the interface. -/
theorem ran_of_run (back : Backend ω) (logs : Conn LogTables) (as : List (PoolStep (ManagementInput ω)))
    (p : Pool (ManagementServer ω) Empty ℕ)
    (hrun : run (Pool.step (ManagementInput.handle K hash parse parseId allowNetworks serve))
      ⟨.initial back logs, []⟩ as = some p) (r : Ran) (hr : r ∈ p.shared.ran) :
    (allowNetworks.filterMap K.parseIpNet = [] ∨
      (∃ net ∈ allowNetworks.filterMap K.parseIpNet, net.contains r.req.peer = true) ∨
      r.handler = .nicUpdate ∧ isMutating r.req.method = false) ∧
    ((∃ parameter, dispatch r.req.method r.req.path = .handler r.handler parameter) ∨
      dispatch r.req.method r.req.path = .fallback ∧ r.handler = .staticHandler) ∧
    (r.handler.takesAuthed = true → ∃ user csrf, r.authed = some (user, csrf) ∧
      r.req.passesCsrf csrf = true ∧
      Resolved hash parse (p.shared.seen.drop r.since) r.req.toApiRequest user csrf) ∧
    (isMutating r.req.method = true → r.handler.takesAuthed = false →
      r.handler ∈ [.login, .setup, .dohPost, .staticHandler]) := by
  have hok : RanOk K hash parse allowNetworks p.shared.seen r :=
    (sound_of_run hrun).shared (P := fun s => ∀ r ∈ s.ran, RanOk K hash parse allowNetworks s.seen r)
      (fun _ _ h => h.ran) r hr
  refine ⟨?_, hok.target, hok.authed, fun hmutating hnot => ?_⟩
  · have hpassed := hok.passed
    unfold ipGuard at hpassed
    rw [Bool.or_eq_true, Bool.or_eq_true, List.isEmpty_iff, List.any_eq_true] at hpassed
    rcases hpassed with (hempty | hpath) | hallowed
    · exact .inl hempty
    · refine .inr (.inr ?_)
      rcases dispatch_of_isDyndnsPath r.req.method hpath with hnone | ⟨hnic, hmutating⟩
      · rcases hok.target with ⟨parameter, htarget⟩ | ⟨htarget, -⟩
        · rw [hnone] at htarget
          cases htarget
        · rw [hnone] at htarget
          cases htarget
      · rcases hok.target with ⟨parameter, htarget⟩ | ⟨htarget, -⟩
        · rw [hnic] at htarget
          injection htarget with hhandler
          exact ⟨hhandler.symm, hmutating⟩
        · rw [hnic] at htarget
          cases htarget
    · exact .inr (.inl hallowed)
  · rcases hok.target with ⟨parameter, htarget⟩ | ⟨-, hstatic⟩
    · rcases mutating_of_dispatch htarget hmutating hnot with h | h | h <;> rw [h] <;> decide
    · rw [hstatic]
      decide

/-- In every run, whatever the handlers do: the rows of the audit log are the last of the entries that were
stored, all of them or at least 10000. An entry that was stored says what a request did that succeeded with a
change, and the name in it is that of a user whose session was found since the request came in, or there was
none. No request has two entries; in a database that refuses nothing every one of them has its entry once no
request is under way. -/
theorem audit_of_run (back : Backend ω) (logs : Conn LogTables) (hlogs : Numbered logs.tables.audit)
    (as : List (PoolStep (ManagementInput ω))) (p : Pool (ManagementServer ω) Empty ℕ)
    (hrun : run (Pool.step (ManagementInput.handle K hash parse parseId allowNetworks serve))
      ⟨.initial back logs, []⟩ as = some p) :
    (p.shared.logs.tables.audit.map Prod.snd <:+
        logs.tables.audit.map Prod.snd ++ p.shared.recorded.map Prod.snd ∧
      (p.shared.logs.tables.audit.length = logs.tables.audit.length + p.shared.recorded.length ∨
        10000 ≤ p.shared.logs.tables.audit.length)) ∧
    (∀ k ∈ p.shared.succeeded, isMutating k.req.method = true ∧ 200 ≤ k.status ∧ k.status < 300 ∧
      "/api/".toList <+: k.req.path ∧ ∃ r ∈ p.shared.ran, r.req = k.req ∧ r.since = k.since) ∧
    (∀ k entry, (k, entry) ∈ p.shared.recorded →
      entry = k.req.auditEntry k.status entry.time entry.username ∧
      (entry.username = "?".toList ∨ ∃ user csrf,
        Resolved hash parse (p.shared.seen.drop k.since) k.req.toApiRequest user csrf ∧
        entry.username = user.username)) ∧
    (p.shared.recorded.map Prod.fst).Subperm p.shared.succeeded ∧
    (logs.faults = [] → p.Quiet → (p.shared.recorded.map Prod.fst).Perm p.shared.succeeded) := by
  have hsound := sound_of_run hrun
  have hretains := hsound.shared fun gs s h => h.retains hlogs
  refine ⟨⟨hretains.last, ?_⟩, ?_, ?_, ?_, ?_⟩
  · have hwhole := hretains.whole
    rw [List.length_append, List.length_map, List.length_map] at hwhole
    exact hwhole
  · intro k hk
    obtain ⟨haudited, hran⟩ := hsound.shared (P := fun s => ∀ k ∈ s.succeeded, SuccessOk s.ran k)
      (fun _ _ h => h.succeeded) k hk
    unfold isAudited at haudited
    rw [Bool.and_eq_true, Bool.and_eq_true, Bool.and_eq_true, decide_eq_true_eq, decide_eq_true_eq] at haudited
    obtain ⟨⟨hmutating, hle, hlt⟩, hpath⟩ := haudited
    exact ⟨hmutating, hle, hlt, isSome_stripPrefix.mp hpath, hran⟩
  · intro k entry hentry
    exact hsound.shared (P := fun s => ∀ e ∈ s.recorded, EntryOk hash parse s.seen e.1 e.2)
      (fun _ _ h => h.recorded) (k, entry) hentry
  · refine hsound.shared (P := fun s => (s.recorded.map Prod.fst).Subperm s.succeeded) fun gs s h => ?_
    obtain ⟨lost, hperm, -⟩ := h.owed
    rw [List.append_assoc] at hperm
    exact (List.sublist_append_left _ _).subperm.trans hperm.symm.subperm
  · intro hfaults hquiet
    obtain ⟨gs, h, hgs⟩ := hsound.quiet hquiet
    obtain ⟨lost, hperm, hlost⟩ := h.owed
    have hnone : gs.filterMap id = [] := by
      refine List.filterMap_eq_nil_iff.mpr fun g hg => ?_
      obtain ⟨r, hsettled⟩ := hgs g hg
      exact hsettled
    rw [hlost hfaults, hnone, List.append_nil, List.append_nil] at hperm
    exact hperm.symm

/-! ## A small run -/

open AccountSystem (markUser tokenRequest)

/-- Crates that read one network. -/
def tenCrates : Crates :=
  { plainCrates with parseIpNet := fun s => if s = "10.0.0.0/8".toList then some ⟨.v4 0x0a000000, 8⟩ else none }

/-- Handlers that succeed. The logout deletes all sessions. -/
def serveSimply (h : Handler) (_ : HttpRequest) (_ : Option ℤ) (_ : Option UserRow) :
    Job (Backend Unit) Empty ℕ :=
  if h = .logout then .atomically fun back => (.ok 200, { back with
    auth := { back.auth with tables := { back.auth.tables with sessions := [] } } })
  else pure 201

/-- A request with the session token `T`. -/
def requestFrom (peer : IpAddr) (path : Str) : ManagementInput Unit :=
  .request ⟨tokenRequest, peer, path⟩

/-- Two requests are under way, and a third one comes from elsewhere. The second one is a logout. -/
def zoneAndLogout : List (PoolStep (ManagementInput Unit)) :=
  [.start (requestFrom (.v4 0x0a000001) "/api/zones"), .start (requestFrom (.v4 0x0a000001) "/api/auth/logout"),
    .start (requestFrom (.v4 0xc0a80001) "/api/zones")] ++
  List.replicate 5 (.turn 1) ++ List.replicate 10 (.turn 0) ++ List.replicate 4 (.turn 1) ++ [.turn 2]

/-- The server of the run: one user with a session. -/
def oneSession : ManagementServer Unit :=
  .initial ⟨⟨⟨[markUser], [⟨"T", 1, "C", "2026-01-08T00:00:00Z"⟩]⟩, [], []⟩, newYear, ()⟩ ⟨⟨[], []⟩, [], []⟩

/-- The run of these steps. -/
def runZoneAndLogout : Option (Pool (ManagementServer Unit) Empty ℕ) :=
  run (Pool.step (ManagementInput.handle tenCrates id DateTime.parse (fun _ => none) ["10.0.0.0/8".toList] serveSimply))
    ⟨oneSession, []⟩ zoneAndLogout

/-- The logout has a session when it runs. -/
theorem ran_zoneAndLogout :
    ∃ p r, runZoneAndLogout = some p ∧ r ∈ p.shared.ran ∧ r.handler = .logout ∧
      ∃ user csrf, r.authed = some (user, csrf) ∧ r.req.passesCsrf csrf = true := by
  obtain ⟨p, hp, hlogout⟩ := (Option.any_eq_true _ _).mp (show
    runZoneAndLogout.any (fun p => p.shared.ran.any fun r => decide (r.handler = .logout)) = true by decide +kernel)
  obtain ⟨r, hr, hhandler⟩ := List.any_eq_true.mp hlogout
  have hhandler := of_decide_eq_true hhandler
  obtain ⟨-, -, hauthed, -⟩ := ran_of_run tenCrates id DateTime.parse (fun _ => none) ["10.0.0.0/8".toList]
    serveSimply _ _ zoneAndLogout p hp r hr
  obtain ⟨user, csrf, heq, hcsrf, -⟩ := hauthed (by rw [hhandler]; decide)
  exact ⟨p, r, hp, hr, hhandler, user, csrf, heq, hcsrf⟩

/-- Both requests that succeeded have their entries. When the one of the logout is written its session is gone. -/
theorem audit_zoneAndLogout :
    ∃ p, runZoneAndLogout = some p ∧ (p.shared.recorded.map Prod.fst).Perm p.shared.succeeded ∧
      p.shared.logs.tables.audit.map (fun r => (r.2.username, r.2.action)) =
        [("admin".toList, "POST /api/zones".toList), ("?".toList, "POST /api/auth/logout".toList)] := by
  obtain ⟨p, hp, hstate⟩ := (Option.any_eq_true _ _).mp (show
    runZoneAndLogout.any (fun p => decide (p.Quiet ∧
      p.shared.logs.tables.audit.map (fun r => (r.2.username, r.2.action)) =
        [("admin".toList, "POST /api/zones".toList), ("?".toList, "POST /api/auth/logout".toList)])) = true by
      decide +kernel)
  obtain ⟨hquiet, hrows⟩ := of_decide_eq_true hstate
  obtain ⟨-, -, -, -, hperm⟩ := audit_of_run tenCrates id DateTime.parse (fun _ => none) ["10.0.0.0/8".toList]
    serveSimply _ _ numbered_nil zoneAndLogout p hp
  exact ⟨p, hp, hperm rfl hquiet, hrows⟩

end ManagementServer

end Nomina
