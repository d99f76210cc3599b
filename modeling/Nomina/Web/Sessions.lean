import Nomina.Web.Login
import Nomina.Lib.Rfc3339
import Nomina.Lib.Sql
import Nomina.Lib.Assoc

/-!
# Sessions

The sessions of the management API: `create_session`, `session`, `delete_session` and `prune_sessions`
of `db.rs`, and `resolve_session` of `web/auth.rs`. The expiry of a session is stored as RFC 3339 text.
`resolve_session` reads the text back and compares instants; `prune_sessions` compares texts.

The text of an instant whose fraction of a second goes on comes before the text of one whose fraction
has ended, so a session can be deleted shortly before it expires. `prune_agrees_iff` says for which
expiries and moments the two checks agree.
-/

namespace Nomina

open Lib Sql

/-! ## The tables -/

/-- A session row. -/
structure SessionRow where
  id : Str
  userId : ℕ
  csrfToken : Str
  expiresAt : Str
deriving DecidableEq

/-- The users and their sessions. -/
structure AuthTables where
  users : List UserRow
  sessions : List SessionRow

/-- The arguments with which a session is created; its id is the hash of its token. -/
structure NewSession where
  token : Str
  userId : ℕ
  csrfToken : Str
  expires : DateTime
deriving DecidableEq

variable (hash : Str → Str) (parse : Str → Option DateTime)

/-- The row of a new session. -/
def NewSession.row (s : NewSession) : SessionRow :=
  ⟨hash s.token, s.userId, s.csrfToken, s.expires.printed⟩

namespace Db

/-- `Db::create_session`. -/
def createSession (s : NewSession) : Sql AuthTables Unit :=
  execute fun t =>
    if t.sessions.any (·.id == hash s.token) || !t.users.any (·.id == s.userId) then .error .constraint
    else .ok ((), { t with sessions := t.sessions ++ [s.row hash] })

/-- `Db::session`: the row with its expiry, the beginning of 1970 if that cannot be read. -/
def session (id : Str) : Sql AuthTables (Option (SessionRow × DateTime)) :=
  select fun t => (t.sessions.find? (·.id == id)).map fun r =>
    (r, (parse r.expiresAt).getD .epoch)

/-- `Db::delete_session`. -/
def deleteSession (id : Str) : Sql AuthTables Unit :=
  update fun t => { t with sessions := t.sessions.filter (·.id != id) }

/-- `Db::prune_sessions`, at a moment. -/
def pruneSessions (now : DateTime) : Sql AuthTables Unit :=
  update fun t => { t with sessions := t.sessions.filter fun r => !decide (r.expiresAt < now.printed) }

/-- `Db::user_by_id`. -/
def userById (id : ℕ) : Sql AuthTables (Option UserRow) :=
  select fun t => t.users.find? (·.id == id)

end Db

/-! ## Resolving a session -/

/-- Why a request has no session. All are answered alike. -/
inductive SessionRefusal
  | noCookie | unknown | expired | noUser
deriving DecidableEq

/-- `resolve_session` of a request with the session cookie `token`, at a moment: the user and the CSRF
token. A session that has expired is deleted. -/
def resolveSession (token : Option Str) (now : DateTime) :
    Sql AuthTables (Except SessionRefusal (UserRow × Str)) :=
  match token with
  | none => pure (.error .noCookie)
  | some token => do
    let found ← Db.session parse (hash token)
    match found with
    | none => pure (.error .unknown)
    | some (row, expires) =>
      if expires.Before now then
        unwrapOr () (Db.deleteSession (hash token))
        pure (.error .expired)
      else
        let user ← Db.userById row.userId
        match user with
        | none => pure (.error .noUser)
        | some user => pure (.ok (user, row.csrfToken))

/-! ## The two checks -/

/-- What the program relies on when it reads times: the texts of instants are read back, and an empty
text is no time. -/
structure ReadsTexts : Prop where
  text : ∀ t : DateTime, t.InRange → parse t.text = some t
  empty : parse [] = none

/-- The cases in which the check of texts and the check of instants agree: not the same second with a
fraction that goes on where that of the present ends, and, for an expiry in a year without a text, not
a moment before 1970. -/
def Agree (expires now : DateTime) : Prop :=
  ¬ (expires.InRange ∧ now.InRange ∧ expires.unix = now.unix ∧
      fractionDigits 9 now.nanosecond <+: fractionDigits 9 expires.nanosecond ∧
      fractionDigits 9 now.nanosecond ≠ fractionDigits 9 expires.nanosecond) ∧
    (expires.InRange ∨ ¬ now.InRange ∨ DateTime.epoch.Before now)

instance (expires now : DateTime) : Decidable (Agree expires now) :=
  inferInstanceAs (Decidable (_ ∧ _))

variable {hash parse}

/-- A session whose text comes before the present has expired exactly in these cases. -/
lemma expired_of_lt_iff (hparse : ReadsTexts parse) (expires now : DateTime) :
    (expires.printed < now.printed →
      ((parse expires.printed).getD .epoch).Before now) ↔ Agree expires now := by
  unfold Agree DateTime.printed
  by_cases he : expires.InRange
  · by_cases hn : now.InRange
    · rw [if_pos he, if_pos hn, hparse.text expires he, Option.getD_some]
      have hiff := DateTime.text_lt_and_not_before_iff he hn
      constructor
      · intro h
        refine ⟨fun ⟨_, _, hcase⟩ => ?_, .inl he⟩
        obtain ⟨hlt, hnot⟩ := hiff.mpr hcase
        exact hnot (h hlt)
      · rintro ⟨hcase, -⟩ hlt
        by_contra hnot
        exact hcase ⟨he, hn, hiff.mp ⟨hlt, hnot⟩⟩
    · rw [if_neg hn]
      exact iff_of_true (fun h => absurd h (List.not_lt_nil _)) ⟨fun h => hn h.2.1, .inl he⟩
  · rw [if_neg he, hparse.empty, Option.getD_none]
    by_cases hn : now.InRange
    · have hlt : [] < now.text := by
        have hlen : now.text ≠ [] := by
          intro hnil
          have := congrArg List.length hnil
          simp [DateTime.text] at this
        obtain ⟨c, s, hcons⟩ := List.exists_cons_of_ne_nil hlen
        rw [hcons]
        exact List.nil_lt_cons c s
      rw [if_pos hn]
      constructor
      · intro h
        exact ⟨fun h => he h.1, .inr (.inr (h hlt))⟩
      · rintro ⟨-, h | h | h⟩ -
        · exact absurd h he
        · exact absurd hn h
        · exact h
    · rw [if_neg hn]
      exact iff_of_true (fun h => absurd h (List.not_lt_nil _)) ⟨fun h => he h.1, .inr (.inl hn)⟩

/-! ## Tables of sessions -/

variable (hash parse) in
/-- In a database that refuses nothing, a request with the token is refused as expired. -/
def RejectsAsExpired (t : AuthTables) (token : Str) (now : DateTime) : Prop :=
  (resolveSession hash parse (some token) now).result ⟨t, [], []⟩ = .ok (.error .expired)

variable (hash) in
/-- The connection after some calls of `create_session`, each of which may fail. -/
def afterCreates (c : Conn AuthTables) (news : List NewSession) : Conn AuthTables :=
  news.foldl (fun c s => (Db.createSession hash s).after c) c

/-- What `prune_sessions` leaves in a database that refuses nothing. -/
def pruned (t : AuthTables) (now : DateTime) : AuthTables :=
  ((Db.pruneSessions now).after ⟨t, [], []⟩).tables

/-- A session is refused as expired when the expiry that is read is before the present. -/
lemma rejectsAsExpired_iff {t : AuthTables} {token : Str} {r : SessionRow}
    (hfind : t.sessions.find? (·.id == hash token) = some r) (now : DateTime) :
    RejectsAsExpired hash parse t token now ↔ ((parse r.expiresAt).getD .epoch).Before now := by
  have hsession : (Db.session parse (hash token)).result ⟨t, [], []⟩ =
      .ok (some (r, (parse r.expiresAt).getD .epoch)) := by
    change Except.ok ((t.sessions.find? (·.id == hash token)).map _) = _
    rw [hfind]
    rfl
  unfold RejectsAsExpired resolveSession
  dsimp only
  rw [EStateM.result_bind, hsession]
  dsimp only
  by_cases hbefore : ((parse r.expiresAt).getD .epoch).Before now
  · rw [if_pos hbefore]
    refine iff_of_true ?_ hbefore
    rw [EStateM.result_bind]
    obtain ⟨u, hu⟩ := returns_unwrapOr () (Db.deleteSession (hash token))
      ((Db.session parse (hash token)).after ⟨t, [], []⟩)
    rw [hu]
    rfl
  · rw [if_neg hbefore]
    refine iff_of_false ?_ hbefore
    intro h
    obtain ⟨user, -, h, -⟩ := EStateM.bind_ok h
    cases user with
    | none => cases h
    | some user => cases h

/-- Ids stay unique. -/
lemma nodup_afterCreates {c : Conn AuthTables} (h : (c.tables.sessions.map SessionRow.id).Nodup)
    (news : List NewSession) :
    ((afterCreates hash c news).tables.sessions.map SessionRow.id).Nodup := by
  induction news generalizing c with
  | nil => exact h
  | cons s news ih =>
    refine ih (c := (Db.createSession hash s).after c) ?_
    unfold Db.createSession execute
    rcases statement_cases .write _ c with ⟨e, -, hafter⟩ | ⟨u, t, -, hcreate, -, hafter⟩
    · rw [hafter]
      exact h
    · rw [hafter]
      change ((t.sessions).map SessionRow.id).Nodup
      split at hcreate
      · cases hcreate
      · rename_i hfresh
        cases hcreate
        rw [List.map_append]
        refine List.Nodup.append h (List.nodup_singleton _) ?_
        rw [Bool.or_eq_true, not_or] at hfresh
        have hnew : hash s.token ∉ c.tables.sessions.map SessionRow.id := by
          simpa using hfresh.1
        exact List.disjoint_singleton.mpr hnew

/-- For every table of sessions written by `create_session`, whatever their expiries, and every moment:
`prune_sessions` deletes only sessions that `resolve_session` refuses as expired at that moment, exactly
when the two checks agree on each of the expiries. -/
theorem prune_agrees_iff (hash : Str → Str) (parse : Str → Option DateTime) (hparse : ReadsTexts parse)
    (c : Conn AuthTables) (hempty : c.tables.sessions = []) (news : List NewSession) (now : DateTime) :
    (∀ s ∈ news, s.row hash ∈ (afterCreates hash c news).tables.sessions →
        s.row hash ∉ (pruned (afterCreates hash c news).tables now).sessions →
        RejectsAsExpired hash parse (afterCreates hash c news).tables s.token now) ↔
      ∀ s ∈ news, s.row hash ∈ (afterCreates hash c news).tables.sessions → Agree s.expires now := by
  have hids : ((afterCreates hash c news).tables.sessions.map SessionRow.id).Nodup :=
    nodup_afterCreates (by rw [hempty]; exact List.nodup_nil) news
  generalize (afterCreates hash c news).tables = t at hids
  refine forall₂_congr fun s _ => forall_congr' fun hmem => ?_
  have hfind : t.sessions.find? (·.id == hash s.token) = some (s.row hash) :=
    find?_of_nodup_map hids hmem
  have hkept : s.row hash ∉ (pruned t now).sessions ↔ s.expires.printed < now.printed := by
    change s.row hash ∉ t.sessions.filter (fun r => !decide (r.expiresAt < now.printed)) ↔ _
    rw [List.mem_filter, not_and]
    change (_ → ¬ (!decide (s.expires.printed < now.printed)) = true) ↔ _
    constructor
    · intro h
      by_contra hnot
      exact h hmem (by rw [decide_eq_false hnot]; rfl)
    · intro h _
      rw [decide_eq_true h]
      exact Bool.false_ne_true
  rw [hkept, rejectsAsExpired_iff hfind]
  exact expired_of_lt_iff hparse s.expires now

/-- The times of the library are read back. -/
lemma readsTexts_parse : ReadsTexts DateTime.parse where
  text _ := DateTime.parse_text
  empty := by decide +kernel

/-- Half a second into the year 2026. -/
def halfSecond : DateTime :=
  .firstMinute 2026 500000000

/-- The beginning of the year 2026. -/
def newYear : DateTime :=
  .firstMinute 2026 0

/-- A second into the year 2026. -/
def oneSecond : DateTime :=
  .firstMinute 2026 1000000000

/-- A session that ends half a second into the year. -/
def newYearSession : NewSession :=
  ⟨"token", 1, "csrf", halfSecond⟩

/-- A database with one user and no session. -/
def oneUser : Conn AuthTables :=
  ⟨⟨[⟨1, "admin", "$argon2id$"⟩], []⟩, [], []⟩

/-- A second into the year the session is deleted, and has expired. -/
theorem prune_agrees_oneSecond :
    newYearSession.row id ∉ (pruned (afterCreates id oneUser [newYearSession]).tables
        oneSecond).sessions ∧
      RejectsAsExpired id DateTime.parse (afterCreates id oneUser [newYearSession]).tables
        newYearSession.token oneSecond := by
  have hdeleted : newYearSession.row id ∉ (pruned (afterCreates id oneUser [newYearSession]).tables
      oneSecond).sessions := by decide +kernel
  refine ⟨hdeleted, ?_⟩
  refine (prune_agrees_iff id DateTime.parse readsTexts_parse oneUser rfl [newYearSession]
    oneSecond).mpr (fun s hs _ => ?_) newYearSession (List.mem_singleton_self _) (by decide +kernel)
    hdeleted
  rw [List.mem_singleton.mp hs]
  decide +kernel

/-- At the beginning of the year the session is deleted, half a second before it expires. -/
theorem prune_disagrees_newYear :
    newYearSession.row id ∉ (pruned (afterCreates id oneUser [newYearSession]).tables
        newYear).sessions ∧
      ¬ RejectsAsExpired id DateTime.parse (afterCreates id oneUser [newYearSession]).tables
        newYearSession.token newYear := by
  refine ⟨by decide +kernel, ?_⟩
  have hfind : (afterCreates id oneUser [newYearSession]).tables.sessions.find?
      (·.id == id newYearSession.token) = some (newYearSession.row id) := by decide +kernel
  rw [rejectsAsExpired_iff hfind]
  decide +kernel

end Nomina
