import Nomina.Models
import Nomina.Lib.Lts

/-!
# Login throttling

`login` of `web/api.rs` asks the throttle whether a user name is locked out, looks the user up and
verifies the password, and then notes a failure in the throttle or clears it. Any number of requests
do this at the same time, and the look-up in the database lies between the question and the note. The
system below interleaves their steps.

Requests that ask before others have noted their failures are let through, so that more passwords can
be tried in a window than the threshold says. In every run in which a request is let through only
while the noted failures and the requests under way stay below the threshold, which is so for requests
that come one after the other, the bound holds.
-/

namespace Nomina

open Lib

/-! ## The throttle -/

/-- Failures after which a user name is locked out. -/
def lockoutThreshold : ℕ := 8

/-- How long a failure counts, in nanoseconds. -/
def lockoutWindow : ℕ := 300 * 1000000000

/-- The failures of a user name: their number, and the moment of the last one. -/
structure Failures where
  count : ℕ
  last : ℕ
deriving DecidableEq

/-- The failures by user name in lowercase. -/
abbrev Throttle := Str → Option Failures

/-- Whether the last failure is older than the window. -/
def Failures.over (f : Failures) (now : ℕ) : Bool :=
  lockoutWindow < now - f.last

namespace Throttle

/-- `is_locked_out`. Failures that are over are forgotten. -/
def isLockedOut (t : Throttle) (key : Str) (now : ℕ) : Bool × Throttle :=
  match t key with
  | some f =>
    if f.over now then (false, Function.update t key none)
    else (lockoutThreshold ≤ f.count, t)
  | none => (false, t)

/-- `record_login_failure`. The count is a 32-bit number. -/
def recordLoginFailure (t : Throttle) (key : Str) (now : ℕ) : Throttle :=
  let entry := (t key).getD ⟨0, now⟩
  let count := if entry.over now then 0 else entry.count
  Function.update t key (some ⟨(count + 1) % 2 ^ 32, now⟩)

/-- `clear_login_failures`. -/
def clearLoginFailures (t : Throttle) (key : Str) : Throttle :=
  Function.update t key none

/-- The failures that count at a moment. -/
def counted (t : Throttle) (key : Str) (now : ℕ) : ℕ :=
  match t key with
  | some f => if f.over now then 0 else f.count
  | none => 0

end Throttle

/-! ## The system -/

/-- A user of the management API. -/
structure UserRow where
  id : ℕ
  username : Str
  passwordHash : Str
deriving DecidableEq

/-- A login request. -/
structure LoginRequest where
  username : Str
  password : Str
deriving DecidableEq

/-- The key of a request in the throttle. -/
def LoginRequest.key (req : LoginRequest) : Str :=
  toAsciiLowercase req.username

/-- The user that a request names, and whether its password is right. Without such a user a dummy hash
is verified, and the login fails. -/
def verifyLogin (K : Crates) (users : List UserRow) (req : LoginRequest) : Bool :=
  match users.find? (·.username == req.username) with
  | some u => K.verifyPassword req.password u.passwordHash
  | none => false

/-- How far a request has come. -/
inductive LoginPhase
  | received (req : LoginRequest)
  | checked (req : LoginRequest)
  | verified (req : LoginRequest) (valid : Bool)
  | done
deriving DecidableEq

/-- The requests, in the order they came in, with the users and the throttle they share and the clock.
`failed` has the failed verifications with their keys and moments; it is history, not data of the
program. -/
structure LoginSystem where
  users : List UserRow
  clock : ℕ
  throttle : Throttle
  logins : List LoginPhase
  failed : List (Str × ℕ)

/-- The steps. `abort` is a look-up that fails; `setUsers` is whatever else changes the users. -/
inductive LoginStep
  | tick (nanos : ℕ)
  | setUsers (users : List UserRow)
  | receive (req : LoginRequest)
  | check (i : ℕ)
  | verify (i : ℕ)
  | settle (i : ℕ)
  | abort (i : ℕ)

namespace LoginSystem

variable (K : Crates)

/-- Request `i` goes on to a phase. -/
def enter (s : LoginSystem) (i : ℕ) (phase : LoginPhase) : LoginSystem :=
  { s with logins := s.logins.set i phase }

/-- A request asks the throttle and is refused or goes on. -/
def afterCheck (s : LoginSystem) (i : ℕ) (req : LoginRequest) : LoginSystem :=
  let (locked, throttle) := s.throttle.isLockedOut req.key s.clock
  { s.enter i (if locked then .done else .checked req) with throttle }

/-- The password of a request is verified. -/
def afterVerify (s : LoginSystem) (i : ℕ) (req : LoginRequest) : LoginSystem :=
  let valid := verifyLogin K s.users req
  { s.enter i (.verified req valid) with
    failed := if valid then s.failed else s.failed ++ [(req.key, s.clock)] }

/-- The outcome of a request is noted in the throttle. -/
def afterSettle (s : LoginSystem) (i : ℕ) (req : LoginRequest) (valid : Bool) : LoginSystem :=
  { s.enter i .done with
    throttle := if valid then s.throttle.clearLoginFailures req.key
      else s.throttle.recordLoginFailure req.key s.clock }

/-- One step. -/
def step (s : LoginSystem) : LoginStep → Option LoginSystem
  | .tick nanos => some { s with clock := s.clock + nanos }
  | .setUsers users => some { s with users }
  | .receive req => some { s with logins := s.logins ++ [.received req] }
  | .check i =>
    match s.logins[i]? with
    | some (.received req) => some (s.afterCheck i req)
    | _ => none
  | .verify i =>
    match s.logins[i]? with
    | some (.checked req) => some (s.afterVerify K i req)
    | _ => none
  | .settle i =>
    match s.logins[i]? with
    | some (.verified req valid) => some (s.afterSettle i req valid)
    | _ => none
  | .abort i =>
    match s.logins[i]? with
    | some (.checked _) => some (s.enter i .done)
    | _ => none

/-- Before any request. -/
def initial (users : List UserRow) (clock : ℕ) : LoginSystem :=
  ⟨users, clock, fun _ => none, [], []⟩

/-! ## The conditions -/

/-- A request for the key that was let through and has not settled. -/
def underwayPhase (key : Str) : LoginPhase → Bool
  | .checked req => req.key == key
  | .verified req _ => req.key == key
  | _ => false

/-- The requests for the key that are under way. -/
def underway (s : LoginSystem) (key : Str) : ℕ :=
  s.logins.countP (underwayPhase key)

/-- The failed verifications for the key in the window that begins at a moment. -/
def failedWithin (s : LoginSystem) (key : Str) (start : ℕ) : ℕ :=
  s.failed.countP fun p => p.1 == key && (start ≤ p.2 && p.2 ≤ start + lockoutWindow)

/-- No password for the key is right. -/
def Failing (key : Str) (s : LoginSystem) : LoginStep → Prop
  | .verify i =>
    match s.logins[i]? with
    | some (.checked req) => req.key = key → verifyLogin K s.users req = false
    | _ => True
  | _ => True

/-- A request for the key that is let through finds the failures that count and the requests under way
below the threshold. -/
def Spaced (key : Str) (s : LoginSystem) : LoginStep → Prop
  | .check i =>
    match s.logins[i]? with
    | some (.received req) => req.key = key → (s.throttle.isLockedOut key s.clock).1 = false →
        s.throttle.counted key s.clock + s.underway key < lockoutThreshold
    | _ => True
  | _ => True

instance (key : Str) (s : LoginSystem) : (a : LoginStep) → Decidable (Failing K key s a)
  | .verify i => by
    change Decidable (match s.logins[i]? with
      | some (.checked req) => req.key = key → verifyLogin K s.users req = false
      | _ => True)
    split <;> infer_instance
  | .tick _ | .setUsers _ | .receive _ | .check _ | .settle _ | .abort _ => isTrue trivial

instance (key : Str) (s : LoginSystem) : (a : LoginStep) → Decidable (Spaced key s a)
  | .check i => by
    change Decidable (match s.logins[i]? with
      | some (.received req) => req.key = key → (s.throttle.isLockedOut key s.clock).1 = false →
          s.throttle.counted key s.clock + s.underway key < lockoutThreshold
      | _ => True)
    split <;> infer_instance
  | .tick _ | .setUsers _ | .receive _ | .verify _ | .settle _ | .abort _ => isTrue trivial

/-! ## The invariant -/

/-- A request for the key whose failure is not noted yet. -/
def unnotedPhase (key : Str) : LoginPhase → Bool
  | .verified req false => req.key == key
  | _ => false

/-- The failures that are noted, if one of them is not before a moment. -/
def notedSince (t : Throttle) (key : Str) (start : ℕ) : ℕ :=
  match t key with
  | some f => if start ≤ f.last then f.count else 0
  | none => 0

/-- The failed verifications for the key from a moment on. -/
def failedSince (s : LoginSystem) (key : Str) (start : ℕ) : ℕ :=
  s.failed.countP fun p => p.1 == key && start ≤ p.2

/-- The invariant of runs without a right password in which requests are spaced. -/
structure Inv (key : Str) (s : LoginSystem) : Prop where
  /-- Verifications and notes are past. -/
  past : ∀ p ∈ s.failed, p.2 ≤ s.clock
  last : ∀ f, s.throttle key = some f → f.last ≤ s.clock
  /-- No password was right. -/
  wrong : ∀ req, .verified req true ∈ s.logins → req.key ≠ key
  /-- The failures of the window that ends now are noted, or about to be. -/
  noted : ∀ start, s.clock ≤ start + lockoutWindow →
    s.failedSince key start ≤ s.logins.countP (unnotedPhase key) + notedSince s.throttle key start
  /-- With the requests under way, the failures that count do not go beyond the threshold. -/
  room : s.throttle.counted key s.clock + s.underway key ≤ lockoutThreshold
  bound : ∀ start, s.failedWithin key start ≤ lockoutThreshold

variable {K} {key : Str} {s : LoginSystem} {i : ℕ}

/-- What is noted from a moment in the window on counts. -/
lemma notedSince_le_counted {t : Throttle} {start now : ℕ} (h : now ≤ start + lockoutWindow) :
    notedSince t key start ≤ t.counted key now := by
  unfold notedSince Throttle.counted
  cases t key with
  | none => exact le_rfl
  | some f =>
    dsimp only
    by_cases hlast : start ≤ f.last
    · have hover : f.over now = false := by
        unfold Failures.over
        rw [decide_eq_false_iff_not]
        omega
      rw [if_pos hlast, hover]
      exact le_rfl
    · rw [if_neg hlast]
      exact Nat.zero_le _

/-- One request goes on to another phase. -/
lemma countP_enter (p : LoginPhase → Bool) (phase : LoginPhase) {old : LoginPhase}
    (h : s.logins[i]? = some old) :
    (s.enter i phase).logins.countP p + (if p old then 1 else 0) =
      s.logins.countP p + (if p phase then 1 else 0) := by
  obtain ⟨hi, hold⟩ := List.getElem?_eq_some_iff.mp h
  unfold enter
  rw [List.countP_set hi, hold]
  split
  · rename_i hp
    have hpos : 0 < s.logins.countP p :=
      List.countP_pos_iff.mpr ⟨old, List.mem_of_getElem? h, hp⟩
    omega
  · omega

/-- An unnoted request is under way. -/
lemma countP_unnoted_le (s : LoginSystem) (key : Str) :
    s.logins.countP (unnotedPhase key) ≤ s.underway key := by
  refine List.countP_mono_left fun phase _ h => ?_
  cases phase with
  | verified req valid =>
    cases valid with
    | false => exact h
    | true => cases h
  | received req => cases h
  | checked req => cases h
  | done => cases h

/-- A window of failures is within those from its beginning on. -/
lemma failedWithin_le_failedSince (s : LoginSystem) (key : Str) (start : ℕ) :
    s.failedWithin key start ≤ s.failedSince key start := by
  refine List.countP_mono_left fun p _ h => ?_
  simp only [Bool.and_eq_true] at h ⊢
  exact ⟨h.1, h.2.1⟩

/-! ## The steps of the throttle -/

/-- With the time fewer failures count. -/
lemma counted_le_of_le (t : Throttle) (key : Str) {now later : ℕ} (h : now ≤ later) :
    t.counted key later ≤ t.counted key now := by
  unfold Throttle.counted
  cases t key with
  | none => exact le_rfl
  | some f =>
    dsimp only
    by_cases hover : f.over later = true
    · rw [if_pos hover]
      exact Nat.zero_le _
    · have hnow : ¬ f.over now = true := by
        unfold Failures.over at hover ⊢
        rw [decide_eq_true_eq] at hover ⊢
        omega
      rw [if_neg hover, if_neg hnow]

/-- Asking the throttle forgets at most failures that are over. -/
lemma isLockedOut_cases (t : Throttle) (k key : Str) (now : ℕ) :
    (t.isLockedOut k now).2 key = t key ∨
      ∃ f, t key = some f ∧ f.over now = true ∧ (t.isLockedOut k now).2 key = none := by
  unfold Throttle.isLockedOut
  cases hk : t k with
  | none => exact .inl rfl
  | some f =>
    by_cases hover : f.over now = true
    · simp only [hover, if_true]
      by_cases hkey : key = k
      · subst hkey
        exact .inr ⟨f, hk, hover, Function.update_self ..⟩
      · exact .inl (Function.update_of_ne hkey ..)
    · simp only [hover]
      exact .inl rfl

/-- Asking the throttle changes nothing that counts. -/
lemma counted_isLockedOut (t : Throttle) (k key : Str) (now : ℕ) :
    (t.isLockedOut k now).2.counted key now = t.counted key now := by
  unfold Throttle.counted
  obtain h | ⟨f, hf, hover, hnone⟩ := isLockedOut_cases t k key now
  · rw [h]
  · rw [hnone, hf]
    simp only [hover, if_true]

/-- Asking the throttle forgets nothing of the window that ends now. -/
lemma notedSince_isLockedOut (t : Throttle) (k key : Str) {now start : ℕ}
    (h : now ≤ start + lockoutWindow) :
    notedSince (t.isLockedOut k now).2 key start = notedSince t key start := by
  unfold notedSince
  obtain hsame | ⟨f, hf, hover, hnone⟩ := isLockedOut_cases t k key now
  · rw [hsame]
  · have hlast : ¬ start ≤ f.last := by
      unfold Failures.over at hover
      rw [decide_eq_true_eq] at hover
      omega
    rw [hnone, hf]
    simp only [if_neg hlast]

/-- The failures noted after one more. The number is a machine number, but it is small. -/
lemma recordLoginFailure_self {t : Throttle} {now : ℕ}
    (h : t.counted key now < lockoutThreshold) :
    t.recordLoginFailure key now key = some ⟨t.counted key now + 1, now⟩ := by
  have hnew : Failures.over ⟨0, now⟩ now = false := by
    simp only [Failures.over, Nat.sub_self, Nat.not_lt_zero, decide_false]
  have hcount : (let entry := (t key).getD ⟨0, now⟩
      if entry.over now then 0 else entry.count) = t.counted key now := by
    unfold Throttle.counted
    cases t key with
    | none => simp only [Option.getD_none, hnew, Bool.false_eq_true, if_false]
    | some f => rfl
  have hsmall : (t.counted key now + 1) % 2 ^ 32 = t.counted key now + 1 := by
    apply Nat.mod_eq_of_lt
    unfold lockoutThreshold at h
    omega
  unfold Throttle.recordLoginFailure
  dsimp only at hcount ⊢
  rw [Function.update_self, hcount, hsmall]

/-! ## The steps of the system -/

/-- A request that neither was nor becomes under way does not count, whatever else it does. -/
lemma countP_enter_of_eq (p : LoginPhase → Bool) {phase old : LoginPhase}
    (h : s.logins[i]? = some old) (hp : p phase = p old) :
    (s.enter i phase).logins.countP p = s.logins.countP p := by
  have hcount := countP_enter p phase h
  rw [hp] at hcount
  omega

/-- A right password of a request is among those that were there, unless the phase it enters has one. -/
lemma mem_of_mem_enter {req : LoginRequest} (phase : LoginPhase)
    (h : .verified req true ∈ (s.enter i phase).logins) :
    .verified req true = phase ∨ .verified req true ∈ s.logins :=
  (List.mem_or_eq_of_mem_set h).symm

/-- Time passes. -/
lemma Inv.tick (h : Inv key s) (nanos : ℕ) : Inv key { s with clock := s.clock + nanos } where
  past p hp := (h.past p hp).trans (Nat.le_add_right ..)
  last f hf := (h.last f hf).trans (Nat.le_add_right ..)
  wrong := h.wrong
  noted start hstart := h.noted start ((Nat.le_add_right ..).trans hstart)
  room := by
    have hcounted := counted_le_of_le s.throttle key (Nat.le_add_right s.clock nanos)
    have hroom := h.room
    exact (Nat.add_le_add_right hcounted _).trans hroom
  bound := h.bound

/-- A request comes in. -/
lemma Inv.receive (h : Inv key s) (req : LoginRequest) :
    Inv key { s with logins := s.logins ++ [.received req] } where
  past := h.past
  last := h.last
  wrong req' hreq' := by
    rcases List.mem_append.mp hreq' with hmem | hmem
    · exact h.wrong req' hmem
    · cases List.mem_singleton.mp hmem
  noted start hstart := by
    have hnoted := h.noted start hstart
    simp only [List.countP_append]
    exact hnoted.trans (Nat.add_le_add_right (Nat.le_add_right ..) _)
  room := by
    have hroom := h.room
    unfold underway at hroom ⊢
    simp only [List.countP_append, List.countP_singleton, underwayPhase, Bool.false_eq_true, if_false]
    exact hroom
  bound := h.bound

/-- A request asks the throttle. -/
lemma Inv.check (h : Inv key s) {req : LoginRequest} (hi : s.logins[i]? = some (.received req))
    (hspaced : Spaced key s (.check i)) : Inv key (s.afterCheck i req) := by
  have hnext : ∀ p : LoginPhase → Bool, (s.afterCheck i req).logins.countP p =
      (s.enter i (if (s.throttle.isLockedOut req.key s.clock).1 then .done
        else .checked req)).logins.countP p := fun _ => rfl
  refine ⟨h.past, fun f hf => ?_, fun req' hreq' => ?_, fun start hstart => ?_, ?_, h.bound⟩
  · obtain hsame | ⟨_, _, _, hnone⟩ := isLockedOut_cases s.throttle req.key key s.clock
    · exact h.last f (hsame.symm.trans hf)
    · cases hnone.symm.trans hf
  · rcases mem_of_mem_enter (if (s.throttle.isLockedOut req.key s.clock).1 then .done
      else .checked req) hreq' with hphase | hmem
    · cases hlocked : (s.throttle.isLockedOut req.key s.clock).1 with
      | true =>
        rw [hlocked] at hphase
        cases hphase
      | false =>
        rw [hlocked] at hphase
        cases hphase
    · exact h.wrong req' hmem
  · have hnoted : notedSince (s.afterCheck i req).throttle key start =
        notedSince s.throttle key start :=
      notedSince_isLockedOut s.throttle req.key key hstart
    have hunnoted : (s.afterCheck i req).logins.countP (unnotedPhase key) =
        s.logins.countP (unnotedPhase key) := by
      rw [hnext]
      apply countP_enter_of_eq _ hi
      split <;> rfl
    rw [hnoted, hunnoted]
    exact h.noted start hstart
  · have hcounted : (s.afterCheck i req).throttle.counted key (s.afterCheck i req).clock =
        s.throttle.counted key s.clock := counted_isLockedOut s.throttle req.key key s.clock
    have hroom := h.room
    unfold underway at hroom ⊢
    rw [hcounted, hnext]
    cases hlocked : (s.throttle.isLockedOut req.key s.clock).1 with
    | true =>
      have hsame : (s.enter i .done).logins.countP (underwayPhase key) =
          s.logins.countP (underwayPhase key) := countP_enter_of_eq _ hi rfl
      rw [if_pos rfl, hsame]
      exact hroom
    | false =>
      rw [if_neg Bool.false_ne_true]
      have hmore := countP_enter (underwayPhase key) (.checked req) hi
      simp only [underwayPhase, Bool.false_eq_true, if_false, Nat.add_zero, beq_iff_eq] at hmore
      rw [hmore]
      by_cases hkey : req.key = key
      · simp only [Spaced, hi] at hspaced
        rw [if_pos hkey]
        exact hspaced hkey (hkey ▸ hlocked)
      · rw [if_neg hkey]
        exact hroom

/-- The failed verifications after one more. -/
lemma countP_failed (p : Str × ℕ → Bool) (req : LoginRequest) :
    (s.afterVerify K i req).failed.countP p = s.failed.countP p +
      if verifyLogin K s.users req = false ∧ p (req.key, s.clock) then 1 else 0 := by
  unfold afterVerify
  cases verifyLogin K s.users req with
  | true => simp only [if_true, Bool.true_eq_false, false_and, if_false, Nat.add_zero]
  | false =>
    simp only [Bool.false_eq_true, if_false, true_and, List.countP_append, List.countP_singleton]

/-- A failed verification is not noted yet. -/
lemma Inv.noted_afterVerify (h : Inv key s) {req : LoginRequest}
    (hi : s.logins[i]? = some (.checked req))
    (hwrong : req.key = key → verifyLogin K s.users req = false) {start : ℕ}
    (hstart : s.clock ≤ start + lockoutWindow) :
    (s.afterVerify K i req).failedSince key start ≤
      (s.afterVerify K i req).logins.countP (unnotedPhase key) + notedSince s.throttle key start := by
  have hold := h.noted start hstart
  have hmore := countP_enter (unnotedPhase key)
    (.verified req (verifyLogin K s.users req)) hi
  have hfailed := countP_failed (K := K) (s := s) (i := i)
    (fun p => p.1 == key && start ≤ p.2) req
  change _ ≤ (s.enter i (.verified req (verifyLogin K s.users req))).logins.countP _ + _
  unfold failedSince at hold ⊢
  rw [hfailed]
  by_cases hkey : req.key = key
  · simp only [hwrong hkey, unnotedPhase, hkey, beq_self_eq_true, Bool.true_and, if_true,
      Bool.false_eq_true, if_false] at hmore ⊢
    split <;> omega
  · have hne : (req.key == key) = false := beq_false_of_ne hkey
    have hphase : unnotedPhase key (.verified req (verifyLogin K s.users req)) = false := by
      cases verifyLogin K s.users req with
      | false => exact hne
      | true => rfl
    rw [countP_enter_of_eq _ hi hphase]
    simp only [hne, Bool.false_and, Bool.false_eq_true, and_false, if_false]
    exact hold

/-- The password of a request is verified. -/
lemma Inv.verify (h : Inv key s) {req : LoginRequest} (hi : s.logins[i]? = some (.checked req))
    (hfailing : Failing K key s (.verify i)) : Inv key (s.afterVerify K i req) := by
  have hwrong : req.key = key → verifyLogin K s.users req = false := by
    simpa only [Failing, hi] using hfailing
  have hroom : s.throttle.counted key s.clock + (s.afterVerify K i req).underway key ≤
      lockoutThreshold := by
    have hsame : (s.afterVerify K i req).underway key = s.underway key := by
      apply countP_enter_of_eq _ hi
      rfl
    rw [hsame]
    exact h.room
  refine ⟨fun p hp => ?_, h.last, fun req' hreq' => ?_,
    fun start hstart => h.noted_afterVerify hi hwrong hstart, hroom, fun start => ?_⟩
  · unfold afterVerify at hp
    dsimp only at hp
    split at hp
    · exact h.past p hp
    · rcases List.mem_append.mp hp with hold | hnew
      · exact h.past p hold
      · rw [List.mem_singleton.mp hnew]
        exact le_rfl
  · rcases mem_of_mem_enter _ hreq' with hphase | hmem
    · obtain ⟨rfl, hright⟩ := LoginPhase.verified.inj hphase
      intro hkey
      cases hright.trans (hwrong hkey)
    · exact h.wrong req' hmem
  · have hfailed := countP_failed (K := K) (s := s) (i := i)
      (fun p => p.1 == key && (start ≤ p.2 && p.2 ≤ start + lockoutWindow)) req
    by_cases hnew : verifyLogin K s.users req = false ∧
        (req.key == key && (start ≤ s.clock && s.clock ≤ start + lockoutWindow)) = true
    · -- The new failure lies in the window, so that the window ends now or later.
      have hin : s.clock ≤ start + lockoutWindow := by
        simp only [Bool.and_eq_true, decide_eq_true_eq] at hnew
        exact hnew.2.2.2
      calc (s.afterVerify K i req).failedWithin key start
          ≤ (s.afterVerify K i req).failedSince key start := failedWithin_le_failedSince ..
        _ ≤ _ := h.noted_afterVerify hi hwrong hin
        _ ≤ (s.afterVerify K i req).underway key + s.throttle.counted key s.clock :=
            Nat.add_le_add (countP_unnoted_le ..) (notedSince_le_counted hin)
        _ ≤ lockoutThreshold := by rw [Nat.add_comm]; exact hroom
    · have hbound := h.bound start
      unfold failedWithin at hbound ⊢
      rw [hfailed, if_neg hnew]
      exact hbound

/-- A request without an unnoted failure ends. -/
lemma Inv.finish (h : Inv key s) {old : LoginPhase} (hi : s.logins[i]? = some old)
    (hold : unnotedPhase key old = false) {t : Throttle} (ht : t key = s.throttle key) :
    Inv key { s.enter i .done with throttle := t } := by
  have hcounted : t.counted key s.clock = s.throttle.counted key s.clock := by
    unfold Throttle.counted
    rw [ht]
  have hsince : ∀ start, notedSince t key start = notedSince s.throttle key start := by
    intro start
    unfold notedSince
    rw [ht]
  refine ⟨h.past, fun f hf => h.last f (ht.symm.trans hf), fun req' hreq' => ?_,
    fun start hstart => ?_, ?_, h.bound⟩
  · rcases mem_of_mem_enter _ hreq' with hphase | hmem
    · cases hphase
    · exact h.wrong req' hmem
  · have hsame : (s.enter i .done).logins.countP (unnotedPhase key) =
        s.logins.countP (unnotedPhase key) := countP_enter_of_eq _ hi hold.symm
    dsimp only
    rw [hsame, hsince]
    exact h.noted start hstart
  · have hless := countP_enter (underwayPhase key) .done hi
    have hroom := h.room
    simp only [underwayPhase, Bool.false_eq_true, if_false, Nat.add_zero] at hless
    unfold underway at hroom
    change t.counted key s.clock + (s.enter i .done).logins.countP (underwayPhase key) ≤ _
    omega

/-- A wrong password for the key is noted, in place of the request. -/
lemma Inv.note (h : Inv key s) {req : LoginRequest} (hkey : req.key = key)
    (hi : s.logins[i]? = some (.verified req false)) : Inv key (s.afterSettle i req false) := by
  subst hkey
  have hless := countP_enter (underwayPhase req.key) .done hi
  have hfewer := countP_enter (unnotedPhase req.key) .done hi
  simp only [underwayPhase, unnotedPhase, beq_self_eq_true, if_true, Bool.false_eq_true, if_false,
    Nat.add_zero] at hless hfewer
  have hroom := h.room
  unfold underway at hroom
  have hself : (s.afterSettle i req false).throttle req.key =
      some ⟨s.throttle.counted req.key s.clock + 1, s.clock⟩ :=
    recordLoginFailure_self (by omega)
  have hcounted : (s.afterSettle i req false).throttle.counted req.key s.clock =
      s.throttle.counted req.key s.clock + 1 := by
    rw [Throttle.counted, hself]
    simp only [Failures.over, Nat.sub_self, Nat.not_lt_zero, decide_false, Bool.false_eq_true,
      if_false]
  refine ⟨h.past, fun f hf => ?_, fun req' hreq' => ?_, fun start hstart => ?_, ?_, h.bound⟩
  · cases hself.symm.trans hf
    exact le_rfl
  · rcases mem_of_mem_enter _ hreq' with hphase | hmem
    · cases hphase
    · exact h.wrong req' hmem
  · change s.failedSince req.key start ≤ (s.enter i .done).logins.countP (unnotedPhase req.key) + _
    by_cases hlate : start ≤ s.clock
    · have hnoted := h.noted start hstart
      have hle : notedSince s.throttle req.key start ≤ s.throttle.counted req.key s.clock :=
        notedSince_le_counted hstart
      have hnew : notedSince (s.afterSettle i req false).throttle req.key start =
          s.throttle.counted req.key s.clock + 1 := by
        rw [notedSince, hself]
        exact if_pos hlate
      omega
    · -- No verification is later than now.
      have hnone : s.failedSince req.key start = 0 := by
        refine List.countP_eq_zero.mpr fun p hp hcount => ?_
        have hpast := h.past p hp
        simp only [Bool.and_eq_true, decide_eq_true_eq] at hcount
        omega
      omega
  · change (s.afterSettle i req false).throttle.counted req.key s.clock +
      (s.enter i .done).logins.countP (underwayPhase req.key) ≤ _
    omega

/-- The outcome of a request is noted. -/
lemma Inv.settle (h : Inv key s) {req : LoginRequest} {valid : Bool}
    (hi : s.logins[i]? = some (.verified req valid)) : Inv key (s.afterSettle i req valid) := by
  by_cases hkey : req.key = key
  · cases valid with
    | false => exact h.note hkey hi
    | true => exact absurd hkey (h.wrong req (List.mem_of_getElem? hi))
  · have hne : key ≠ req.key := fun heq => hkey heq.symm
    cases valid with
    | false =>
      have hphase : unnotedPhase key (.verified req false) = false := beq_false_of_ne hkey
      exact h.finish hi hphase (Function.update_of_ne hne ..)
    | true => exact h.finish hi rfl (Function.update_of_ne hne ..)

/-- Every step that meets the conditions keeps the invariant. -/
lemma inv_step {s' : LoginSystem} {a : LoginStep} (h : Inv key s)
    (hg : Failing K key s a ∧ Spaced key s a) (hstep : step K s a = some s') : Inv key s' := by
  cases a with
  | tick nanos =>
    cases hstep
    exact h.tick nanos
  | setUsers users =>
    cases hstep
    exact ⟨h.past, h.last, h.wrong, h.noted, h.room, h.bound⟩
  | receive req =>
    cases hstep
    exact h.receive req
  | check i =>
    simp only [step] at hstep
    split at hstep
    · rename_i req hi
      cases hstep
      exact h.check hi hg.2
    · cases hstep
  | verify i =>
    simp only [step] at hstep
    split at hstep
    · rename_i req hi
      cases hstep
      exact h.verify hi hg.1
    · cases hstep
  | settle i =>
    simp only [step] at hstep
    split at hstep
    · rename_i req valid hi
      cases hstep
      exact h.settle hi
    · cases hstep
  | abort i =>
    simp only [step] at hstep
    split at hstep
    · rename_i req hi
      cases hstep
      exact h.finish hi rfl rfl
    · cases hstep

/-- Nothing has been tried before the first request. -/
lemma inv_initial (users : List UserRow) (clock : ℕ) : Inv key (initial users clock) where
  past _ hp := nomatch hp
  last _ hf := nomatch hf
  wrong _ hreq := nomatch hreq
  noted _ _ := Nat.zero_le _
  room := Nat.zero_le _
  bound _ := Nat.zero_le _

/-- The invariant holds after every run that meets the conditions. -/
lemma inv_run {users : List UserRow} {clock : ℕ} {as : List LoginStep}
    (hrun : run (step K) (initial users clock) as = some s)
    (hfailing : Along (step K) (Failing K key) (initial users clock) as)
    (hspaced : Along (step K) (Spaced key) (initial users clock) as) : Inv key s :=
  run_invariant (fun _ _ _ h hg hstep => inv_step h hg hstep) (inv_initial users clock)
    (hfailing.and hspaced) hrun

/-! ## The bound -/

/-- In every run without a right password for the key, in which requests for it are let through only
while the failures that count and the requests under way are below the threshold, no window of time
has more failed verifications than the threshold says. -/
theorem failedWithin_le (K : Crates) (key : Str) (users : List UserRow) (clock : ℕ)
    (as : List LoginStep) (s : LoginSystem) (hrun : run (step K) (initial users clock) as = some s)
    (hfailing : Along (step K) (Failing K key) (initial users clock) as)
    (hspaced : Along (step K) (Spaced key) (initial users clock) as) (start : ℕ) :
    s.failedWithin key start ≤ lockoutThreshold :=
  (inv_run hrun hfailing hspaced).bound start

/-- The throttle lets a request through only while the failures that count are below the threshold. -/
lemma counted_lt_of_isLockedOut {t : Throttle} {now : ℕ} (h : (t.isLockedOut key now).1 = false) :
    t.counted key now < lockoutThreshold := by
  unfold Throttle.isLockedOut at h
  unfold Throttle.counted
  cases hkey : t key with
  | none => exact Nat.zero_lt_succ _
  | some f =>
    rw [hkey] at h
    by_cases hover : f.over now = true
    · simp only [hover, if_true]
      exact Nat.zero_lt_succ _
    · simp only [hover, Bool.false_eq_true, if_false, decide_eq_false_iff_not, Nat.not_le] at h ⊢
      exact h

/-- No other request for the key is under way when one asks the throttle. -/
def Alone (key : Str) (s : LoginSystem) : LoginStep → Prop
  | .check _ => s.underway key = 0
  | _ => True

/-- A request that is alone is spaced. -/
lemma spaced_of_alone {a : LoginStep} (h : Alone key s a) : Spaced key s a := by
  cases a with
  | check i =>
    simp only [Spaced]
    split
    · intro _ hlocked
      have hzero : s.underway key = 0 := h
      have hlt := counted_lt_of_isLockedOut hlocked
      omega
    · trivial
  | tick _ => trivial
  | setUsers _ => trivial
  | receive _ => trivial
  | verify _ => trivial
  | settle _ => trivial
  | abort _ => trivial

/-- Requests for the key that come one after the other stay within the threshold. -/
theorem failedWithin_le_of_alone {users : List UserRow} {clock : ℕ} {as : List LoginStep}
    (hrun : run (step K) (initial users clock) as = some s)
    (hfailing : Along (step K) (Failing K key) (initial users clock) as)
    (halone : Along (step K) (Alone key) (initial users clock) as) (start : ℕ) :
    s.failedWithin key start ≤ lockoutThreshold :=
  (inv_run hrun hfailing (halone.mono fun _ _ => spaced_of_alone)).bound start

/-- A request of somebody who guesses. -/
def adminGuess : LoginRequest :=
  ⟨"admin".toList, "letmein".toList⟩

/-- Two guesses at the same time, and then the others, one after the other, until the throttle refuses. -/
def spacedGuesses : List LoginStep :=
  [.receive adminGuess, .receive adminGuess, .check 0, .check 1, .verify 0, .verify 1, .settle 0,
    .settle 1] ++
  ([2, 3, 4, 5, 6, 7, 8].flatMap fun i =>
    [.receive adminGuess, .check i] ++ if i < 8 then [.verify i, .settle i] else [])

/-- Nine guesses that all ask the throttle before the first of them has failed. -/
def rushedGuesses : List LoginStep :=
  (List.range 9).map (fun _ => .receive adminGuess) ++ (List.range 9).map .check ++
    (List.range 9).map .verify

/-- Of nine guesses, two of them at the same time, eight are verified. -/
theorem failedWithin_spacedGuesses :
    ∃ s, run (step plainCrates) (initial [] 0) spacedGuesses = some s ∧
      s.failedWithin adminGuess.key 0 = 8 ∧ s.failedWithin adminGuess.key 0 ≤ lockoutThreshold := by
  refine ⟨_, rfl, by decide +kernel, ?_⟩
  exact failedWithin_le plainCrates adminGuess.key [] 0 spacedGuesses _ rfl (by decide +kernel)
    (by decide +kernel) 0

/-- Nine guesses at the same time are all verified, though no password is right. -/
theorem failedWithin_rushedGuesses :
    ∃ s, run (step plainCrates) (initial [] 0) rushedGuesses = some s ∧
      Along (step plainCrates) (Failing plainCrates adminGuess.key) (initial [] 0) rushedGuesses ∧
      ¬ s.failedWithin adminGuess.key 0 ≤ lockoutThreshold := by
  refine ⟨_, rfl, by decide +kernel, ?_⟩
  decide +kernel

end LoginSystem

end Nomina
