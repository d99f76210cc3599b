import Nomina.Dhcp.Protection
import Nomina.Dns.Secondary
import Nomina.Web.DynDns

/-!
# Coherence of the store

The store is coherent when it is the one the database defines. Three operations write records and
reload the store afterwards: DynDNS updates, zone transfers and the registration of DHCP clients.
They keep the store coherent as long as no statement fails between their first write and the end of
the reload. A failure there ends a DynDNS update or a transfer without a reload, or is swallowed by
the reload. The PTR record of a registration is written after the reload, so that its zone must not
be a served one.
-/

namespace Nomina

open Lib Sql

variable {K : Crates}

/-! ## What the database operations log -/

section Traces

lemma traced_whenSome {α : Type} {v : Option α} {f : α → Sql Tables Unit}
    (h : ∀ a, Traced (f a)) : Traced (Db.whenSome v f) := by
  cases v with
  | none => exact .pure ()
  | some a => exact h a

lemma traced_createRecord {zoneId : ℕ} {viewId : Option ℕ} {name rtype : Str} {ttl : Option ℕ}
    {data : Str} : Traced (Db.createRecord zoneId viewId name rtype ttl data) :=
  .bind (.execute _) fun id => .bind (.update _) fun _ => .pure id

lemma writes_createRecord {zoneId : ℕ} {viewId : Option ℕ} {name rtype : Str} {ttl : Option ℕ}
    {data : Str} : Writes (Db.createRecord zoneId viewId name rtype ttl data) :=
  .bind_left (.execute _) fun id => .bind (.update _) fun _ => .pure id

/-- The statements of an update of a record before its last two. -/
lemma traced_updateRecord {id : ℕ} {viewId : Option (Option ℕ)} {name : Option Str}
    {ttl : Option (Option ℕ)} {data : Option Str} {enabled : Option Bool} :
    Traced (Db.updateRecord id viewId name ttl data enabled) := by
  unfold Db.updateRecord Db.setRecordView Db.bumpSerial
  exact .bind (traced_whenSome fun _ => .execute _) fun _ =>
    .bind (traced_whenSome fun _ => .update _) fun _ =>
    .bind (traced_whenSome fun _ => .update _) fun _ =>
    .bind (traced_whenSome fun _ => .update _) fun _ =>
    .bind (traced_whenSome fun _ => .update _) fun _ =>
    .bind (.update _) fun _ => .bind (.selectFirst _) fun _ => .update _

lemma writes_updateRecord {id : ℕ} {viewId : Option (Option ℕ)} {name : Option Str}
    {ttl : Option (Option ℕ)} {data : Option Str} {enabled : Option Bool} :
    Writes (Db.updateRecord id viewId name ttl data enabled) := by
  unfold Db.updateRecord Db.setRecordView Db.bumpSerial
  exact .bind_right (traced_whenSome fun _ => .execute _) fun _ =>
    .bind_right (traced_whenSome fun _ => .update _) fun _ =>
    .bind_right (traced_whenSome fun _ => .update _) fun _ =>
    .bind_right (traced_whenSome fun _ => .update _) fun _ =>
    .bind_right (traced_whenSome fun _ => .update _) fun _ =>
    .bind_left (.update _) fun _ => .bind (.selectFirst _) fun _ => .update _

variable {host : Str} {ip : IpAddr} {viewId : Option ℕ} {ttl : ℕ}

lemma traced_dyndnsSetAddress : Traced (Db.dyndnsSetAddress host ip viewId ttl) := by
  unfold Db.dyndnsSetAddress
  refine .bind (.select _) fun zones => ?_
  split
  · exact .pure _
  · refine .bind (.select _) fun rows => ?_
    split
    · split
      · exact .pure _
      · exact .bind traced_updateRecord fun _ => .pure _
    · exact .bind traced_createRecord fun _ => .pure _

/-- What a DynDNS update that returns has done: a write if it says so, and nothing else. -/
def Reported (c : Conn Tables) (c' : Conn Tables) : Db.DynUpdate → Prop
  | .Created | .Updated => ∃ new, c'.log = c.log ++ new ∧ .write ∈ new
  | .Unchanged | .NoZone => c'.tables = c.tables

/-- A program that writes and then reports `u`. -/
lemma reported_of_writes {α : Type} {m : Sql Tables α} {c : Conn Tables} {u v : Db.DynUpdate}
    (hm : Writes m) (hu : u = .Created ∨ u = .Updated)
    (h : (m >>= fun _ => pure u).result c = .ok v) :
    Reported c ((m >>= fun _ => pure u).after c) v := by
  have hwrites : Writes (m >>= fun _ => pure u) := .bind_left hm fun _ => .pure u
  obtain ⟨a, -, hu', -⟩ := EStateM.bind_ok h
  cases hu'
  rcases hu with rfl | rfl
  · exact hwrites c _ h
  · exact hwrites c _ h

/-- A DynDNS update does what it reports. -/
lemma reported_dyndnsSetAddress {c : Conn Tables} {u : Db.DynUpdate}
    (h : (Db.dyndnsSetAddress host ip viewId ttl).result c = .ok u) :
    Reported c ((Db.dyndnsSetAddress host ip viewId ttl).after c) u := by
  -- The two queries only prolong the log by a read.
  have hreads : ∀ {c c' : Conn Tables}, Reported (step c .read c.tables) c' u → Reported c c' u := by
    intro c c' hrep
    cases u with
    | Created =>
      obtain ⟨new, hlog, hwrite⟩ := hrep
      exact ⟨.read :: new, by simp [hlog, step], List.mem_cons_of_mem _ hwrite⟩
    | Updated =>
      obtain ⟨new, hlog, hwrite⟩ := hrep
      exact ⟨.read :: new, by simp [hlog, step], List.mem_cons_of_mem _ hwrite⟩
    | Unchanged => exact hrep
    | NoZone => exact hrep
  unfold Db.dyndnsSetAddress Db.listZones at h ⊢
  obtain ⟨h, hafter⟩ := select_bind_ok h
  rw [hafter]
  refine hreads ?_
  revert h
  dsimp only
  split
  · intro h
    cases h
    rfl
  · intro h
    obtain ⟨h, hafter⟩ := select_bind_ok h
    rw [hafter]
    refine hreads ?_
    revert h
    split
    · split
      · intro h
        cases h
        rfl
      · exact reported_of_writes writes_updateRecord (.inr rfl)
    · exact reported_of_writes writes_createRecord (.inl rfl)

end Traces

/-! ## Runs of handlers -/

/-- The store is the one the database defines. -/
def Coherent (K : Crates) (s : AppState) : Prop :=
  s.store = buildFrom K s.db

/-- The statements a handler runs from a state. -/
def statements {α : Type} (m : App α) (s : AppState) : List StmtEvent :=
  (m.after s).conn.log.drop s.conn.log.length

/-- A statement fails after one that wrote. -/
def FailsAfterWrite (l : List StmtEvent) : Prop :=
  ∃ pre post, l = pre ++ .failed :: post ∧ .write ∈ pre

/-- What is logged after `s`. -/
lemma statements_eq {α : Type} {m : App α} {s : AppState} {new : List StmtEvent}
    (h : (m.after s).conn.log = s.conn.log ++ new) : statements m s = new := by
  unfold statements
  rw [h, List.drop_left]

lemma FailsAfterWrite.append {l l' : List StmtEvent} (h : FailsAfterWrite l') :
    FailsAfterWrite (l ++ l') := by
  obtain ⟨pre, post, rfl, hw⟩ := h
  exact ⟨l ++ pre, post, by simp, List.mem_append_right _ hw⟩

/-- After a write every failure counts. -/
lemma failed_notMem {l l' : List StmtEvent} (h : ¬ FailsAfterWrite (l ++ l')) (hw : .write ∈ l) :
    .failed ∉ l' := by
  intro hf
  obtain ⟨pre, post, rfl⟩ := List.append_of_mem hf
  exact h ⟨l ++ pre, post, by simp, List.mem_append_left _ hw⟩

/-- The log only grows. -/
def Logs {α : Type} (m : App α) : Prop :=
  ∀ s, ∃ new, (m.after s).conn.log = s.conn.log ++ new

namespace Logs

variable {α β : Type}

lemma pure (a : α) : Logs (pure a : App α) :=
  fun s => ⟨[], by simp⟩

lemma bind {m : App α} {f : α → App β} (hm : Logs m) (hf : ∀ a, Logs (f a)) : Logs (m >>= f) := by
  intro s
  obtain ⟨new, hlog⟩ := hm s
  rw [EStateM.after_bind]
  cases m.result s with
  | error e => exact ⟨new, hlog⟩
  | ok a =>
    obtain ⟨new', hlog'⟩ := hf a (m.after s)
    exact ⟨new ++ new', by rw [hlog', hlog, List.append_assoc]⟩

lemma runDb {m : Sql Tables α} (hm : Traced m) : Logs (runDb m) := by
  intro s
  obtain ⟨new, hlog, -, -⟩ := hm s.conn
  exact ⟨new, by rw [after_runDb]; exact hlog⟩

lemma tryDb {m : Sql Tables α} (hm : Traced m) : Logs (tryDb m) := by
  intro s
  obtain ⟨new, hlog, -, -⟩ := hm s.conn
  exact ⟨new, by rw [after_tryDb]; exact hlog⟩

lemma reloadStore (K : Crates) : Logs (reloadStore K) := by
  intro s
  obtain ⟨store, -, -, hafter⟩ := reloadStore_run K s
  obtain ⟨-, new, hlog, -⟩ := reads_load (K := K) s.conn
  exact ⟨new, by rw [hafter]; exact hlog⟩

end Logs

/-- The statements of a sequence are those of its parts. -/
lemma statements_bind {α β : Type} {m : App α} {f : α → App β} {s : AppState} {a : α}
    (hm : Logs m) (hf : Logs (f a)) (h : m.result s = .ok a) :
    statements (m >>= f) s = statements m s ++ statements (f a) (m.after s) := by
  obtain ⟨new, hlog⟩ := hm s
  obtain ⟨new', hlog'⟩ := hf (m.after s)
  rw [statements_eq hlog, statements_eq hlog']
  refine statements_eq ?_
  rw [EStateM.after_bind, h]
  dsimp only
  rw [hlog', hlog, List.append_assoc]

/-- A reload none of whose statements fails makes the store coherent. -/
lemma coherent_reloadStore {s : AppState} (h : .failed ∉ statements (reloadStore K) s) :
    Coherent K ((reloadStore K).after s) := by
  obtain ⟨store, hload, -, hafter⟩ := reloadStore_run K s
  obtain ⟨htables, new, hlog, -, hok, -⟩ := reads_load (K := K) s.conn
  have hnew : statements (reloadStore K) s = new := statements_eq (by rw [hafter]; exact hlog)
  rw [hnew] at h
  have := hok h
  rw [hload] at this
  unfold Coherent
  rw [hafter]
  dsimp only [AppState.db]
  rw [htables]
  exact Except.ok.inj this

/-! ## The loops of a DynDNS update -/

/-- What a part of a DynDNS update did, from `s` to `s'`. Stopped by an error (`none`), it logged the
failure last; otherwise it tells whether something was changed, `before` or by this part. It changes
nothing without a write, and leaves the store alone. -/
def Progress (s s' : AppState) (before : Bool) : Option Bool → Prop
  | none => s'.store = s.store ∧ ∃ init, s'.conn.log = s.conn.log ++ (init ++ [.failed]) ∧
      (s'.db ≠ s.db → .write ∈ init)
  | some after => s'.store = s.store ∧ ∃ new, s'.conn.log = s.conn.log ++ new ∧
      (s'.db ≠ s.db → .write ∈ new) ∧ (after = true → before = true ∨ .write ∈ new) ∧
      (after = false → before = false ∧ s'.db = s.db)

namespace Progress

variable {s s₁ s₂ : AppState}

lemma refl (s : AppState) (before : Bool) : Progress s s before (some before) :=
  ⟨rfl, [], by simp, fun h => absurd rfl h, .inl, fun h => ⟨h, rfl⟩⟩

/-- One part after another. -/
lemma trans {before b₁ : Bool} {r : Option Bool} (h : Progress s s₁ before (some b₁))
    (h' : Progress s₁ s₂ b₁ r) : Progress s s₂ before r := by
  obtain ⟨hstore, new, hlog, hwrite, htrue, hfalse⟩ := h
  have hdb : ∀ {l : List StmtEvent}, (s₂.db ≠ s₁.db → .write ∈ l) → s₂.db ≠ s.db →
      .write ∈ new ++ l := by
    intro l hl hne
    by_cases hsame : s₁.db = s.db
    · exact List.mem_append_right _ (hl (hsame ▸ hne))
    · exact List.mem_append_left _ (hwrite hsame)
  cases r with
  | none =>
    obtain ⟨hstore', init, hlog', hwrite'⟩ := h'
    exact ⟨hstore'.trans hstore, new ++ init, by simp [hlog', hlog], hdb hwrite'⟩
  | some b =>
    obtain ⟨hstore', new', hlog', hwrite', htrue', hfalse'⟩ := h'
    refine ⟨hstore'.trans hstore, new ++ new', by simp [hlog', hlog], hdb hwrite', ?_, ?_⟩
    · intro hb
      rcases htrue' hb with hb₁ | hw
      · rcases htrue hb₁ with hbefore | hw
        · exact .inl hbefore
        · exact .inr (List.mem_append_left _ hw)
      · exact .inr (List.mem_append_right _ hw)
    · intro hb
      obtain ⟨hb₁, hsame'⟩ := hfalse' hb
      obtain ⟨hbefore, hsame⟩ := hfalse hb₁
      exact ⟨hbefore, hsame'.trans hsame⟩

/-- A part that starts afresh adds to what was changed before. -/
lemma or {a : Bool} (h : Progress s s₁ false (some a)) (before : Bool) :
    Progress s s₁ before (some (before || a)) := by
  obtain ⟨hstore, new, hlog, hwrite, htrue, hfalse⟩ := h
  refine ⟨hstore, new, hlog, hwrite, ?_, ?_⟩
  · intro hor
    rcases (Bool.or_eq_true _ _).mp hor with hb | ha
    · exact .inl hb
    · exact .inr ((htrue ha).resolve_left Bool.false_ne_true)
  · intro hor
    obtain ⟨hb, ha⟩ := (Bool.or_eq_false_iff).mp hor
    exact ⟨hb, (hfalse ha).2⟩

end Progress

/-- One address of one host. -/
lemma progress_dyndnsSetAddress (host : Str) (ip : IpAddr) (viewId : Option ℕ) (ttl : ℕ)
    (s : AppState) (o : HostOutcome) :
    Progress s ((tryDb (Db.dyndnsSetAddress host ip viewId ttl)).after s) o.changed
      (match (Db.dyndnsSetAddress host ip viewId ttl).result s.conn with
        | .error _ => none
        | .ok u => some (o.note u).changed) := by
  rw [after_tryDb]
  have htraced : Traced (Db.dyndnsSetAddress host ip viewId ttl) := traced_dyndnsSetAddress
  obtain ⟨new, hlog, hwrite, hfail⟩ := htraced s.conn
  cases hres : (Db.dyndnsSetAddress host ip viewId ttl).result s.conn with
  | error e =>
    obtain ⟨init, rfl⟩ := hfail e hres
    refine ⟨rfl, init, hlog, fun hne => ?_⟩
    have := hwrite hne
    simpa using this
  | ok u =>
    have hrep := reported_dyndnsSetAddress hres
    -- What is reported as a change was written.
    have hwrote : (∃ new', ((Db.dyndnsSetAddress host ip viewId ttl).after s.conn).log =
        s.conn.log ++ new' ∧ .write ∈ new') → .write ∈ new := by
      rintro ⟨new', hlog', hw⟩
      rw [hlog] at hlog'
      rwa [List.append_cancel_left hlog']
    cases u with
    | Created => exact ⟨rfl, new, hlog, hwrite, fun _ => .inr (hwrote hrep), fun h => by cases h⟩
    | Updated => exact ⟨rfl, new, hlog, hwrite, fun _ => .inr (hwrote hrep), fun h => by cases h⟩
    | Unchanged => exact ⟨rfl, new, hlog, hwrite, .inl, fun h => ⟨h, hrep⟩⟩
    | NoZone => exact ⟨rfl, new, hlog, hwrite, .inl, fun h => ⟨h, hrep⟩⟩

/-- The addresses of one host. -/
lemma progress_updateHost (token : DynDnsToken) (host : Str) (ips : List IpAddr) (s : AppState)
    (o : HostOutcome) : ∃ r, (updateHost token host ips o).result s = .ok r ∧
      Progress s ((updateHost token host ips o).after s) o.changed (r.map (·.changed)) := by
  induction ips generalizing s o with
  | nil => exact ⟨some o, rfl, Progress.refl s _⟩
  | cons ip ips ih =>
    have hstep := progress_dyndnsSetAddress host ip token.viewId token.ttl s o
    unfold updateHost
    rw [EStateM.result_bind, EStateM.after_bind, result_tryDb]
    cases hres : (Db.dyndnsSetAddress host ip token.viewId token.ttl).result s.conn with
    | error e =>
      rw [hres] at hstep
      exact ⟨none, rfl, hstep⟩
    | ok u =>
      rw [hres] at hstep
      obtain ⟨r, hr, hprog⟩ := ih ((tryDb _).after s) (o.note u)
      exact ⟨r, hr, hstep.trans hprog⟩

/-- A host that was changed had a zone. -/
lemma hadZone_of_changed {token : DynDnsToken} {host : Str} {ips : List IpAddr} {s : AppState}
    {o o' : HostOutcome} (ho : o.changed = true → o.hadZone = true)
    (h : (updateHost token host ips o).result s = .ok (some o')) (hc : o'.changed = true) :
    o'.hadZone = true := by
  induction ips generalizing s o with
  | nil =>
    cases h
    exact ho hc
  | cons ip ips ih =>
    unfold updateHost at h
    rw [EStateM.result_bind, result_tryDb] at h
    cases hres : (Db.dyndnsSetAddress host ip token.viewId token.ttl).result s.conn with
    | error e =>
      rw [hres] at h
      cases h
    | ok u =>
      rw [hres] at h
      refine ih ?_ h
      cases u with
      | Created => exact fun _ => rfl
      | Updated => exact fun _ => rfl
      | Unchanged => exact fun _ => rfl
      | NoZone => exact ho

/-- All hosts. -/
lemma progress_updateHosts (token : DynDnsToken) (addrs : List IpAddr) (label : Str)
    (hosts : List Str) (s : AppState) (o : NicOutcome) :
    ∃ r, (updateHosts token addrs label hosts o).result s = .ok r ∧
      Progress s ((updateHosts token addrs label hosts o).after s) o.anyChange
        (r.map (·.anyChange)) := by
  induction hosts generalizing s o with
  | nil => exact ⟨some o, rfl, Progress.refl s _⟩
  | cons host hosts ih =>
    unfold updateHosts
    split
    · obtain ⟨r, hr, hprog⟩ := progress_updateHost token host addrs s ⟨false, false⟩
      rw [EStateM.result_bind, EStateM.after_bind, hr]
      cases r with
      | none => exact ⟨none, rfl, hprog⟩
      | some h =>
        obtain ⟨r', hr', hprog'⟩ := ih ((updateHost token host addrs ⟨false, false⟩).after s)
          (o.note label h)
        refine ⟨r', hr', (hprog.or o.anyChange).trans ?_⟩
        have hnote : (o.note label h).anyChange = (o.anyChange || h.changed) := by
          have hzone : h.changed = true → h.hadZone = true := hadZone_of_changed (fun h => h) hr
          unfold NicOutcome.note
          cases hc : h.changed with
          | false => simp
          | true => simp [hzone hc]
        rwa [hnote] at hprog'
    · obtain ⟨r', hr', hprog'⟩ := ih s (o.note label ⟨false, false⟩)
      refine ⟨r', hr', ?_⟩
      have hnote : (o.note label ⟨false, false⟩).anyChange = o.anyChange := by
        simp [NicOutcome.note]
      rwa [hnote] at hprog'

/-! ## DynDNS updates -/

/-- Nothing but the connection changed, and the database not in what is served. -/
lemma Coherent.of_sameStore {s s' : AppState} (h : Coherent K s) (hstore : s'.store = s.store)
    (hdb : buildFrom K s'.db = buildFrom K s.db) : Coherent K s' := by
  unfold Coherent
  rw [hstore, hdb]
  exact h

lemma logs_updateHosts (token : DynDnsToken) (addrs : List IpAddr) (label : Str)
    (hosts : List Str) (o : NicOutcome) : Logs (updateHosts token addrs label hosts o) := by
  intro s
  obtain ⟨r, -, hprog⟩ := progress_updateHosts token addrs label hosts s o
  cases r with
  | none =>
    obtain ⟨-, init, hlog, -⟩ := hprog
    exact ⟨_, hlog⟩
  | some o' =>
    obtain ⟨-, new, hlog, -⟩ := hprog
    exact ⟨new, hlog⟩

lemma logs_reloadWhen (b : Bool) : Logs (reloadWhen K b) := by
  unfold reloadWhen
  split
  · exact .reloadStore K
  · exact .pure ()

lemma logs_finishUpdates (token : DynDnsToken) (r : Option NicOutcome) :
    Logs (finishUpdates K token r) := by
  cases r with
  | none => exact .pure _
  | some o => exact .bind (logs_reloadWhen _) fun _ => .pure _

/-- The end of the updates: there is no reload only if the updates stopped before the first write, or
changed nothing. -/
lemma coherent_finishUpdates {token : DynDnsToken} {r : Option NicOutcome} {s s₁ : AppState}
    (hs : Coherent K s) (hprog : Progress s s₁ false (r.map (·.anyChange))) {l : List StmtEvent}
    (hl : s₁.conn.log = s.conn.log ++ l)
    (hok : ¬ FailsAfterWrite (l ++ statements (finishUpdates K token r) s₁)) :
    Coherent K ((finishUpdates K token r).after s₁) := by
  cases r with
  | none =>
    obtain ⟨hstore, init, hlog, hwrite⟩ := hprog
    rw [hl] at hlog
    cases List.append_cancel_left hlog
    have hdb : s₁.db = s.db := by
      by_contra hne
      exact hok ⟨init, _, by rw [List.append_assoc]; rfl, hwrite hne⟩
    exact hs.of_sameStore hstore (congrArg (buildFrom K) hdb)
  | some o =>
    obtain ⟨hstore, new, hlog, -, htrue, hfalse⟩ := hprog
    rw [hl] at hlog
    cases List.append_cancel_left hlog
    have hafter : (finishUpdates K token (some o)).after s₁ = (reloadWhen K o.anyChange).after s₁ :=
      EStateM.after_bind_pure _ _ _
    unfold statements at hok
    rw [hafter] at hok ⊢
    unfold reloadWhen at hok ⊢
    cases hany : o.anyChange with
    | false => exact hs.of_sameStore hstore (congrArg (buildFrom K) (hfalse hany).2)
    | true =>
      rw [hany] at hok
      have hw : .write ∈ l := (htrue hany).resolve_left Bool.false_ne_true
      exact coherent_reloadStore (failed_notMem hok hw)

lemma logs_serveUpdates (req : NicRequest) (token : DynDnsToken) :
    Logs (serveUpdates K req token) := by
  unfold serveUpdates
  split
  · exact .pure _
  · exact .bind (logs_updateHosts _ _ _ _ _) fun r => logs_finishUpdates token r

lemma logs_authenticate (user pass : Str) : Logs (authenticate K user pass) := by
  unfold authenticate
  refine .bind (.tryDb (.select _)) fun r => ?_
  split
  · exact .pure _
  · exact .pure _
  · split
    · exact .pure _
    · exact .pure _

/-- Authentication only reads. -/
lemma authenticate_same (user pass : Str) (s : AppState) :
    ((authenticate K user pass).after s).db = s.db ∧
      ((authenticate K user pass).after s).store = s.store ∧
      ∃ r, (authenticate K user pass).result s = .ok r := by
  obtain ⟨htables, -⟩ := Reads.select (fun t : Tables => t.dyndnsTokens.find? (·.username == user))
    s.conn
  unfold authenticate
  rw [EStateM.after_bind, EStateM.result_bind, result_tryDb, after_tryDb]
  dsimp only
  split
  · exact ⟨htables, rfl, _, rfl⟩
  · exact ⟨htables, rfl, _, rfl⟩
  · split
    · exact ⟨htables, rfl, _, rfl⟩
    · exact ⟨htables, rfl, _, rfl⟩

/-- The updates of the owner of a token. -/
lemma coherent_serveUpdates {req : NicRequest} {token : DynDnsToken} {s : AppState}
    (hs : Coherent K s) (hok : ¬ FailsAfterWrite (statements (serveUpdates K req token) s)) :
    Coherent K ((serveUpdates K req token).after s) := by
  unfold serveUpdates at hok ⊢
  split at hok
  · exact hs
  · rename_i hosts _
    obtain ⟨r, hr, hprog⟩ := progress_updateHosts token (requestAddrs req) (addrLabel req) hosts s
      ⟨[], false⟩
    have hlogs := logs_updateHosts token (requestAddrs req) (addrLabel req) hosts ⟨[], false⟩
    obtain ⟨l, hl⟩ := hlogs s
    unfold applyUpdates at hok ⊢
    rw [statements_bind hlogs (logs_finishUpdates token r) hr, statements_eq hl] at hok
    rw [EStateM.after_bind, hr]
    exact coherent_finishUpdates hs hprog hl hok

/-- The updates keep the store coherent unless a statement fails after a write. -/
lemma coherent_nicUpdates {req : NicRequest} {s : AppState} (hs : Coherent K s)
    (hok : ¬ FailsAfterWrite (statements (nicUpdates K req) s)) :
    Coherent K ((nicUpdates K req).after s) := by
  unfold nicUpdates at hok ⊢
  split at hok
  · exact hs
  · rename_i user pass _
    obtain ⟨hdb, hstore, r, hr⟩ := authenticate_same (K := K) user pass s
    have hs₁ : Coherent K ((authenticate K user pass).after s) :=
      hs.of_sameStore hstore (congrArg (buildFrom K) hdb)
    rw [EStateM.after_bind, hr]
    cases r with
    | error response => exact hs₁
    | ok token =>
      rw [statements_bind (logs_authenticate user pass) (logs_serveUpdates req token) hr] at hok
      exact coherent_serveUpdates hs₁ fun hf => hok hf.append

/-- The databases define the same store. -/
def SameStore (K : Crates) (t t' : Tables) : Prop :=
  buildFrom K t' = buildFrom K t

instance : IsPreorder Tables (SameStore K) where
  refl _ := rfl
  trans _ _ _ h h' := Eq.trans h' h

/-- A DynDNS update keeps the store coherent unless a statement fails after a write. -/
lemma coherent_nicUpdate {req : NicRequest} {s : AppState} (hs : Coherent K s)
    (hok : ¬ FailsAfterWrite (statements (nicUpdates K req) s)) :
    Coherent K ((nicUpdate K req).after s) := by
  have hs₁ := coherent_nicUpdates hs hok
  unfold nicUpdate
  rw [EStateM.after_bind]
  split
  · rename_i r _
    cases r with
    | error response => exact hs₁
    | ok p =>
      -- The note in the token is not served.
      dsimp only
      rw [EStateM.after_bind_pure, after_tryDb]
      refine hs₁.of_sameStore rfl ?_
      have hkeeps : Keeps (SameStore K) (Db.touchDyndnsToken p.1.id (addrLabel req)) :=
        .update fun t => buildFrom_congr K rfl rfl rfl rfl
      exact hkeeps _
  · exact hs₁

/-! ## Zone transfers -/

lemma traced_insertRecords (zoneId : ℕ) (tuples : List Db.RecordTuple) :
    Traced (Db.insertRecords zoneId tuples) := by
  induction tuples with
  | nil => exact .pure 0
  | cons tuple tuples ih =>
    exact .bind (.execute _) fun _ => .bind ih fun _ => .pure _

lemma traced_replaceSecondaryZone {zoneId serial : ℕ} {soa : Soa} {tuples : List Db.RecordTuple} :
    Traced (Db.replaceSecondaryZone zoneId soa serial tuples) :=
  .transaction (.bind (.update _) fun _ => .bind (.update _) fun _ => traced_insertRecords zoneId tuples)

lemma writes_replaceSecondaryZone {zoneId serial : ℕ} {soa : Soa} {tuples : List Db.RecordTuple} :
    Writes (Db.replaceSecondaryZone zoneId soa serial tuples) :=
  .transaction (.bind_left (.update _) fun _ =>
    .bind (.update _) fun _ => traced_insertRecords zoneId tuples)

lemma traced_setSecondaryStatus {zoneId : ℕ} {lastError : Option Str} {refresh : Option ℤ} :
    Traced (Db.setSecondaryStatus zoneId lastError refresh) :=
  .bind (.update _) fun _ => traced_whenSome fun _ => .update _

/-- A database call that stops a handler has logged a failure. -/
lemma failed_mem_of_error {α : Type} {m : Sql Tables α} (hm : Traced m) {s : AppState} {e : AppError}
    (h : (runDb m).result s = .error e) : .failed ∈ statements (runDb m) s := by
  obtain ⟨new, hlog, -, hfail⟩ := hm s.conn
  rw [result_runDb] at h
  cases hr : m.result s.conn with
  | ok a =>
    rw [hr] at h
    cases h
  | error e' =>
    obtain ⟨init, rfl⟩ := hfail e' hr
    rw [statements_eq (by rw [after_runDb]; exact hlog)]
    exact List.mem_append_right _ (List.mem_singleton_self _)

/-- The status and the reload of a transfer, none of whose statements fails. -/
lemma coherent_status_reload {zoneId count : ℕ} {refresh : Option ℤ} {s : AppState}
    (h : .failed ∉ statements (do
      runDb (Db.setSecondaryStatus zoneId none refresh)
      reloadStore K
      pure count) s) :
    Coherent K ((do
      runDb (Db.setSecondaryStatus zoneId none refresh)
      reloadStore K
      pure count : App ℕ).after s) := by
  have hlogs : Logs (runDb (Db.setSecondaryStatus zoneId none refresh)) :=
    .runDb traced_setSecondaryStatus
  cases hres : (runDb (Db.setSecondaryStatus zoneId none refresh)).result s with
  | error e =>
    have hf := failed_mem_of_error traced_setSecondaryStatus hres
    unfold statements at h hf
    rw [EStateM.after_bind, hres] at h
    exact absurd hf h
  | ok u =>
    have hlogs₁ : Logs (do reloadStore K; pure count) := .bind (.reloadStore K) fun _ => .pure _
    rw [statements_bind hlogs hlogs₁ hres, List.mem_append, not_or] at h
    rw [EStateM.after_bind, hres]
    dsimp only
    rw [EStateM.after_bind_pure]
    refine coherent_reloadStore ?_
    have := h.2
    unfold statements at this ⊢
    rwa [EStateM.after_bind_pure] at this

/-- A transfer keeps the store coherent unless a statement fails after the replacement. -/
lemma coherent_storeTransfer {zoneId serial : ℕ} {soa : Soa} {tuples : List Db.RecordTuple}
    {s : AppState} (hs : Coherent K s)
    (hok : ¬ FailsAfterWrite (statements (storeTransfer K zoneId soa serial tuples) s)) :
    Coherent K ((storeTransfer K zoneId soa serial tuples).after s) := by
  unfold storeTransfer at hok ⊢
  cases hres : (Db.replaceSecondaryZone zoneId soa serial tuples).result s.conn with
  | error e =>
    -- The replacement is rolled back.
    rw [EStateM.after_bind, result_runDb, hres, after_runDb]
    refine hs.of_sameStore rfl (congrArg (buildFrom K) ?_)
    exact transaction_error hres
  | ok count =>
    have hres' : (runDb (Db.replaceSecondaryZone zoneId soa serial tuples)).result s = .ok count := by
      rw [result_runDb, hres]
    obtain ⟨new, hlog, hw⟩ := writes_replaceSecondaryZone s.conn count hres
    have hnew : statements (runDb (Db.replaceSecondaryZone zoneId soa serial tuples)) s = new :=
      statements_eq (by rw [after_runDb]; exact hlog)
    rw [statements_bind (.runDb traced_replaceSecondaryZone) (.bind (.runDb traced_setSecondaryStatus)
      fun _ => .bind (.reloadStore K) fun _ => .pure _) hres', hnew] at hok
    rw [EStateM.after_bind, hres']
    exact coherent_status_reload (failed_notMem hok hw)

/-- A zone transfer, which may also end before it touches the database. -/
lemma coherent_transfer {fetch : Fetch} {zoneId : ℕ} {zoneName : Str} {primary : SocketAddr}
    {tsigKey : Option Str} {s : AppState} (hs : Coherent K s)
    (hok : ¬ FailsAfterWrite (statements (transfer K fetch zoneId zoneName primary tsigKey) s)) :
    Coherent K ((transfer K fetch zoneId zoneName primary tsigKey).after s) := by
  unfold transfer at hok ⊢
  split at hok
  · exact hs
  · split at hok
    · exact hs
    · split at hok
      · exact hs
      · exact coherent_storeTransfer hs hok

/-! ## DHCP registrations -/

/-- No zone with the id is served: it is disabled, or its name is not a DNS name. -/
def Unserved (K : Crates) (t : Tables) (zoneId : ℕ) : Prop :=
  ∀ z ∈ t.zones, z.id = zoneId → z.enabled = false ∨ ∃ e, recordFqdnName K ['@'] z.name = .error e

/-- The reverse zone that a PTR record for the address goes to, if there is one, is not served. -/
def PtrHidden (K : Crates) (t : Tables) (ip : IpAddr) : Prop :=
  ∀ p, Db.longestSuffixZone isReverseZone (reverseName ip) (Db.zonesByName t) = some p →
    Unserved K t p.1

/-- A zone without its serial. -/
def unserial (z : Zone) : Zone :=
  { z with serial := 0 }

/-- The zones are the same but for their serials. -/
def SameZones (t t' : Tables) : Prop :=
  t'.zones.map unserial = t.zones.map unserial

instance : IsPreorder Tables SameZones where
  refl _ := rfl
  trans _ _ _ h h' := Eq.trans h' h

lemma sameZones_bump (t : Tables) (id : ℕ) : SameZones t (t.bump id) := by
  unfold SameZones Tables.bump Tables.mapZone
  dsimp only
  rw [List.map_map]
  refine List.map_congr_left fun z _ => ?_
  simp only [Function.comp_apply]
  split <;> rfl

/-- Inserting a record changes the records only. -/
lemma insertRecord_eq {t t' : Tables} {r : DnsRecord} {i : ℕ} (h : t.insertRecord r = .ok (i, t')) :
    t' = { t with records := t.records ++ [{ r with id := i }] } := by
  unfold Tables.insertRecord at h
  split at h
  · cases h
    rfl
  · cases h

lemma sameZones_dyndnsSetAddress {host : Str} {ip : IpAddr} {viewId : Option ℕ} {ttl : ℕ} :
    Keeps SameZones (Db.dyndnsSetAddress host ip viewId ttl) := by
  refine Db.keeps_dyndnsSetAddress ?_ (fun _ _ _ _ => rfl) sameZones_bump
  intro t r i t' h
  rw [insertRecord_eq h]
  rfl

/-- Whether the PTR record is hidden does not depend on serials. -/
lemma PtrHidden.of_sameZones {t t' : Tables} {ip : IpAddr} (h : PtrHidden K t ip)
    (hzones : SameZones t t') : PtrHidden K t' ip := by
  intro p hp z hz hid
  rw [Db.longestSuffixZone_congr (f := unserial) (fun _ => ⟨rfl, rfl⟩) hzones] at hp
  have hz' : unserial z ∈ t.zones.map unserial := by
    rw [← hzones]
    exact List.mem_map_of_mem hz
  obtain ⟨w, hw, hwz⟩ := List.mem_map.mp hz'
  simp only [unserial, Zone.mk.injEq] at hwz
  have := h p hp w hw (hwz.1.trans hid)
  rwa [hwz.2.1, hwz.2.2.1] at this

/-- The store is the same if the views are, and every zone keeps its name and its stored form. -/
lemma sameStore_of_map {t t' : Tables} {f : Zone → Zone} (hviews : t'.views = t.views)
    (hzones : t'.zones = t.zones.map f) (hname : ∀ z, (f z).name = z.name)
    (hserved : ∀ z ∈ t.zones,
      servedZone K t' (Db.readZone (f z)) = servedZone K t (Db.readZone z)) :
    SameStore K t t' := by
  unfold SameStore buildFrom Db.viewsByPriority Db.zonesByName
  rw [hviews, hzones, ← Db.map_sortZones hname, List.map_map, List.filterMap_map, List.filterMap_map]
  congr 1
  refine List.filterMap_congr fun z hz => ?_
  rw [(List.perm_insertionSort _ _).mem_iff] at hz
  exact hserved z hz

/-- A zone that is not served stays so whatever its serial. -/
lemma servedZone_eq_none {t u : Tables} {z : Zone} {n : ℕ} (h : Unserved K t z.id)
    (hz : z ∈ t.zones) : servedZone K u { z with serial := n } = none := by
  unfold servedZone
  rcases h z hz rfl with hen | ⟨e, he⟩
  · simp [hen]
  · simp [he]

/-- The statements of the PTR step, for a zone that is not served. -/
def Hidden (K : Crates) (zoneId : ℕ) (t t' : Tables) : Prop :=
  Unserved K t zoneId → Unserved K t' zoneId ∧ SameStore K t t'

instance (zoneId : ℕ) : IsPreorder Tables (Hidden K zoneId) where
  refl _ h := ⟨h, rfl⟩
  trans _ _ _ h h' hu := ⟨(h' (h hu).1).1, (h' (h hu).1).2.trans (h hu).2⟩

lemma hidden_insertRecord {t t' : Tables} {r : DnsRecord} {i : ℕ}
    (h : t.insertRecord r = .ok (i, t')) : Hidden K r.zoneId t t' := by
  intro hu
  rw [insertRecord_eq h]
  refine ⟨hu, sameStore_of_map rfl (List.map_id _).symm (fun _ => rfl) fun z hz => ?_⟩
  by_cases hid : z.id = r.zoneId
  · rw [← hid] at hu
    exact (servedZone_eq_none hu hz).trans (servedZone_eq_none hu hz).symm
  · -- The records of other zones are the same.
    unfold servedZone Tables.zoneRecords Tables.dnssecKey?
    simp [Db.readZone, List.filter_append, Ne.symm hid]

lemma hidden_bump {t : Tables} {zoneId : ℕ} : Hidden K zoneId t (t.bump zoneId) := by
  intro hu
  constructor
  · intro z hz hid
    obtain ⟨w, hw, rfl⟩ := List.mem_map.mp hz
    split at hid
    · rename_i hwid
      have := hu w hw hwid
      rwa [if_pos hwid]
    · exact absurd hid ‹_›
  · refine sameStore_of_map rfl rfl (fun z => ?_) fun z hz => ?_
    · split <;> rfl
    · split
      · rename_i hid
        rw [← hid] at hu
        exact (servedZone_eq_none hu hz).trans (servedZone_eq_none hu hz).symm
      · rfl

lemma traced_registerPtr {rev target : Str} {ttl : ℕ} : Traced (registerPtr rev target ttl) := by
  unfold registerPtr
  refine .bind (.select _) fun zones => ?_
  split
  · exact .pure ()
  · exact .bind traced_createRecord fun _ => .pure ()

/-- The PTR step leaves the store that the database defines alone if its zone is not served. -/
lemma sameStore_registerPtr {ip : IpAddr} {target : Str} {ttl : ℕ} {c : Conn Tables}
    (h : PtrHidden K c.tables ip) :
    SameStore K c.tables ((registerPtr (reverseName ip) target ttl).after c).tables := by
  unfold registerPtr Db.listZones Sql.select
  rw [EStateM.after_bind]
  rcases statement_cases .read (fun t => .ok (Db.zonesByName t, t)) c with
    ⟨err, hres, hafter⟩ | ⟨zones, t, -, hf, hres, hafter⟩
  · rw [hres, hafter]
    exact refl_of (SameStore K) c.tables
  · cases hf
    rw [hres, hafter]
    dsimp only
    split
    · exact refl_of (SameStore K) c.tables
    · rename_i zoneId zoneName hp
      rw [EStateM.after_bind_pure]
      have hkeeps : Keeps (Hidden K zoneId) (Db.createRecord zoneId none
          (Db.relativeTo (reverseName ip) zoneName) "PTR" (some ttl) target) :=
        Db.keeps_createRecord (fun t r i t' hr hins => hr ▸ hidden_insertRecord hins)
          fun t => hidden_bump
      exact (hkeeps (step c .read c.tables) (h _ hp)).2

/-- The condition on the registration of an address: a failure before the forward record is written,
or no failure in the reload and a PTR step that writes nothing or into a zone that is not served. -/
def RegistersCleanly (K : Crates) (s : AppState) (ip : IpAddr) (fqdn : Str) (ttl : ℕ) : Prop :=
  let forward := tryDb (Db.dyndnsSetAddress fqdn ip none ttl)
  match (Db.dyndnsSetAddress fqdn ip none ttl).result s.conn with
  | .error _ => ¬ FailsAfterWrite (statements forward s)
  | .ok _ => .failed ∉ statements (reloadStore K) (forward.after s) ∧
      (PtrHidden K s.db ip ∨ .write ∉ statements
        (tryDb (registerPtr (reverseName ip) (fqdn ++ ['.']) ttl))
        ((reloadStore K).after (forward.after s)))

/-- The registration of an address. -/
lemma coherent_registerAddress {s : AppState} {ip : IpAddr} {fqdn : Str} {ttl : ℕ}
    (hs : Coherent K s) (hok : RegistersCleanly K s ip fqdn ttl) :
    Coherent K ((registerAddress K ip fqdn ttl).after s) := by
  have hprog := progress_dyndnsSetAddress fqdn ip none ttl s ⟨false, false⟩
  unfold RegistersCleanly at hok
  unfold registerAddress
  rw [EStateM.after_bind, result_tryDb]
  dsimp only at hok ⊢
  cases hres : (Db.dyndnsSetAddress fqdn ip none ttl).result s.conn with
  | error e =>
    rw [hres] at hprog hok
    obtain ⟨hstore, init, hlog, hwrite⟩ := hprog
    rw [statements_eq hlog] at hok
    have hdb : ((tryDb (Db.dyndnsSetAddress fqdn ip none ttl)).after s).db = s.db := by
      by_contra hne
      exact hok ⟨init, [], rfl, hwrite hne⟩
    exact hs.of_sameStore hstore (congrArg (buildFrom K) hdb)
  | ok u =>
    rw [hres] at hok
    obtain ⟨hreload, hptr⟩ := hok
    have hs₂ := coherent_reloadStore hreload
    obtain ⟨store, -, hres₂, hafter₂⟩ :=
      reloadStore_run K ((tryDb (Db.dyndnsSetAddress fqdn ip none ttl)).after s)
    dsimp only
    rw [EStateM.after_bind, hres₂]
    dsimp only
    rw [EStateM.after_bind_pure, after_tryDb]
    refine hs₂.of_sameStore rfl ?_
    rcases hptr with hhidden | hnowrite
    · have hzones : SameZones s.db
          ((reloadStore K).after ((tryDb (Db.dyndnsSetAddress fqdn ip none ttl)).after s)).db := by
        rw [hafter₂]
        have hsame : ((load K).after
            ((tryDb (Db.dyndnsSetAddress fqdn ip none ttl)).after s).conn).tables = _ :=
          (reads_load _).1
        dsimp only [AppState.db]
        rw [hsame, after_tryDb]
        exact sameZones_dyndnsSetAddress s.conn
      exact sameStore_registerPtr (hhidden.of_sameZones hzones)
    · have htraced : Traced (registerPtr (reverseName ip) (fqdn ++ ['.']) ttl) := traced_registerPtr
      obtain ⟨new, hlog, hwrite, -⟩ := htraced
        ((reloadStore K).after ((tryDb (Db.dyndnsSetAddress fqdn ip none ttl)).after s)).conn
      rw [statements_eq (by rw [after_tryDb]; exact hlog)] at hnowrite
      exact congrArg (buildFrom K) (by_contra fun hne => hnowrite (hwrite hne))

/-! ## A PTR record in a served zone -/

/-- The serial that a zone is served with, zero if it is not served. -/
def servedSerial (K : Crates) (z : Zone) : ℕ :=
  if z.enabled then
    match recordFqdnName K ['@'] z.name with
    | .ok _ => z.serial % 2 ^ 32
    | .error _ => 0
  else 0

/-- The sum of the serials in a store is that of its zones. -/
lemma sum_serial_buildFrom (t : Tables) :
    ((buildFrom K t).zones.map fun z => z.soa.serial).sum = (t.zones.map (servedSerial K)).sum := by
  have hzone : ∀ z : Zone, ((servedZone K t (Db.readZone z)).map fun w => w.soa.serial).getD 0 =
      servedSerial K z := by
    intro z
    unfold servedZone servedSerial
    cases hen : z.enabled with
    | false => simp [Db.readZone, hen]
    | true =>
      cases hname : recordFqdnName K ['@'] z.name with
      | error e => simp [Db.readZone, hen, hname]
      | ok apex => simp [Db.readZone, hen, hname, storedZone, zoneSoa]
  have hsum : ∀ zones : List Zone,
      ((zones.filterMap fun z => servedZone K t (Db.readZone z)).map fun w => w.soa.serial).sum =
        (zones.map (servedSerial K)).sum := by
    intro zones
    induction zones with
    | nil => rfl
    | cons z zones ih =>
      rw [List.map_cons, List.sum_cons, ← ih, ← hzone z]
      cases hz : servedZone K t (Db.readZone z) with
      | none => simp [hz]
      | some w => simp [hz]
  unfold buildFrom mkStore Db.zonesByName
  dsimp only
  rw [((List.perm_insertionSort _ _).map _).sum_nat, List.filterMap_map]
  exact (hsum _).trans (((List.perm_insertionSort _ _).map _).sum_nat)

/-- Bumping the serial of a served zone changes the store. -/
lemma not_sameStore_bump {t t' : Tables} {z : Zone} (hkeys : (t.zones.map Zone.id).Nodup)
    (hz : z ∈ t.zones) (hen : z.enabled = true) {apex : Name}
    (hapex : recordFqdnName K ['@'] z.name = .ok apex) (hzones : t'.zones = (t.bump z.id).zones) :
    ¬ SameStore K t t' := by
  intro hsame
  have hsum : (t'.zones.map (servedSerial K)).sum = (t.zones.map (servedSerial K)).sum := by
    rw [← sum_serial_buildFrom, ← sum_serial_buildFrom, hsame]
  obtain ⟨pre, post, hsplit⟩ := List.append_of_mem hz
  have hother : z.id ∉ pre.map Zone.id ++ post.map Zone.id := by
    rw [hsplit, List.map_append, List.map_cons] at hkeys
    exact (List.nodup_cons.mp (List.nodup_middle.mp hkeys)).1
  rw [List.mem_append, not_or] at hother
  have hsame : ∀ zones : List Zone, z.id ∉ zones.map Zone.id →
      (zones.map fun w => if w.id = z.id then { w with serial := w.serial + 1 } else w) = zones := by
    intro zones hnot
    refine (List.map_congr_left fun w hw => ?_).trans (List.map_id zones)
    have hne : w.id ≠ z.id := fun heq => hnot (heq ▸ List.mem_map_of_mem hw)
    rw [if_neg hne]
    rfl
  have hbump : (t.bump z.id).zones = pre ++ { z with serial := z.serial + 1 } :: post := by
    unfold Tables.bump Tables.mapZone
    dsimp only
    rw [hsplit, List.map_append, List.map_cons, if_pos rfl, hsame pre hother.1, hsame post hother.2]
  rw [hzones, hbump, hsplit] at hsum
  simp [servedSerial, hen, hapex] at hsum
  omega

/-- A record that was created was inserted, and the serial bumped. -/
lemma createRecord_ok {zoneId i : ℕ} {viewId : Option ℕ} {name rtype : Str} {ttl : Option ℕ}
    {data : Str} {c : Conn Tables}
    (h : (Db.createRecord zoneId viewId name rtype ttl data).result c = .ok i) :
    ∃ t, c.tables.insertRecord ⟨0, zoneId, viewId, name, rtype, ttl, data, true⟩ = .ok (i, t) ∧
      ((Db.createRecord zoneId viewId name rtype ttl data).after c).tables = t.bump zoneId := by
  unfold Db.createRecord Db.bumpSerial Sql.execute at h ⊢
  obtain ⟨j, hres, h, hafter⟩ := EStateM.bind_ok h
  obtain ⟨t, hinsert, hstep⟩ := statement_ok hres
  obtain ⟨u, hres', h, hafter'⟩ := EStateM.bind_ok h
  cases h
  refine ⟨t, hinsert, ?_⟩
  rw [hafter, hafter', EStateM.after_pure, update_ok hres', hstep]
  rfl

/-- The PTR step that returns wrote into the reverse zone it found. -/
lemma registerPtr_ok {rev target : Str} {ttl : ℕ} {c : Conn Tables} {p : ℕ × Str}
    (h : (registerPtr rev target ttl).result c = .ok ())
    (hp : Db.longestSuffixZone isReverseZone rev (Db.zonesByName c.tables) = some p) :
    ((registerPtr rev target ttl).after c).tables.zones = (c.tables.bump p.1).zones := by
  unfold registerPtr Db.listZones at h ⊢
  obtain ⟨h, hafter⟩ := select_bind_ok h
  rw [hafter]
  rw [hp] at h ⊢
  dsimp only at h ⊢
  obtain ⟨i, hres, -, hafter'⟩ := EStateM.bind_ok h
  obtain ⟨t, hinsert, htables⟩ := createRecord_ok hres
  rw [hafter', EStateM.after_pure, htables, insertRecord_eq hinsert]
  rfl

lemma SameZones.symm {t t' : Tables} (h : SameZones t t') : SameZones t' t :=
  Eq.symm h

/-- The ids of the zones do not depend on serials. -/
lemma SameZones.keys {t t' : Tables} (h : SameZones t t') (hkeys : (t.zones.map Zone.id).Nodup) :
    (t'.zones.map Zone.id).Nodup := by
  have hids : ∀ u : Tables, u.zones.map Zone.id = (u.zones.map unserial).map Zone.id := by
    intro u
    rw [List.map_map]
    rfl
  rw [hids, h, ← hids]
  exact hkeys

/-- The reload and the PTR step of a registration, in a database where the reverse zone is served. -/
lemma not_coherent_ptr {s : AppState} {ip : IpAddr} {target : Str} {ttl : ℕ}
    (hkeys : (s.db.zones.map Zone.id).Nodup)
    (hfail : .failed ∉ statements (do
      reloadStore K
      let _ ← tryDb (registerPtr (reverseName ip) target ttl)
      pure ()) s)
    (hptr : ¬ PtrHidden K s.db ip) :
    ¬ Coherent K ((do
      reloadStore K
      let _ ← tryDb (registerPtr (reverseName ip) target ttl)
      pure () : App Unit).after s) := by
  have hptrTraced : Traced (registerPtr (reverseName ip) target ttl) := traced_registerPtr
  obtain ⟨store, -, hres₁, hafter₁⟩ := reloadStore_run K s
  have hdb : ((reloadStore K).after s).db = s.db := by
    rw [hafter₁]
    exact (reads_load _).1
  rw [statements_bind (.reloadStore K) (.bind (.tryDb hptrTraced) fun _ => .pure ()) hres₁,
    List.mem_append, not_or] at hfail
  have hs₁ := coherent_reloadStore hfail.1
  rw [EStateM.after_bind, hres₁]
  dsimp only
  rw [EStateM.after_bind_pure, after_tryDb]
  have hfail₂ := hfail.2
  unfold statements at hfail₂
  rw [EStateM.after_bind_pure, after_tryDb] at hfail₂
  rw [← hdb] at hkeys hptr
  generalize (reloadStore K).after s = s₁ at hs₁ hfail₂ hkeys hptr ⊢
  -- The PTR step returned, so that it wrote into the reverse zone.
  have hok : (registerPtr (reverseName ip) target ttl).result s₁.conn = .ok () := by
    obtain ⟨new, hlog, -, hend⟩ := hptrTraced s₁.conn
    cases hr : (registerPtr (reverseName ip) target ttl).result s₁.conn with
    | ok u => rfl
    | error e =>
      obtain ⟨init, rfl⟩ := hend e hr
      dsimp only at hfail₂
      rw [hlog, List.drop_left] at hfail₂
      simp at hfail₂
  unfold PtrHidden Unserved at hptr
  push Not at hptr
  obtain ⟨p, hp, z, hz, hid, hen, hname⟩ := hptr
  have hzones := registerPtr_ok hok hp
  rw [← hid] at hzones
  intro hcoh
  have hsame : SameStore K s₁.db ((registerPtr (reverseName ip) target ttl).after s₁.conn).tables :=
    (hcoh.symm.trans hs₁)
  cases hapex : recordFqdnName K ['@'] z.name with
  | error e => exact hname e hapex
  | ok apex => exact not_sameStore_bump hkeys hz (by simpa using hen) hapex hzones hsame

/-- The registration whose PTR record goes into a served zone ends incoherent. -/
lemma not_coherent_registerAddress {s : AppState} {ip : IpAddr} {fqdn : Str} {ttl : ℕ}
    (hkeys : (s.db.zones.map Zone.id).Nodup)
    (hfail : .failed ∉ statements (registerAddress K ip fqdn ttl) s)
    (hptr : ¬ PtrHidden K s.db ip) :
    ¬ Coherent K ((registerAddress K ip fqdn ttl).after s) := by
  have hforward : Traced (Db.dyndnsSetAddress fqdn ip none ttl) := traced_dyndnsSetAddress
  have hptrTraced : Traced (registerPtr (reverseName ip) (fqdn ++ ['.']) ttl) := traced_registerPtr
  unfold registerAddress at hfail ⊢
  cases hres : (Db.dyndnsSetAddress fqdn ip none ttl).result s.conn with
  | error e =>
    obtain ⟨new, hlog, -, hend⟩ := hforward s.conn
    obtain ⟨init, rfl⟩ := hend e hres
    have hlog' : ((registerAddress K ip fqdn ttl).after s).conn.log =
        s.conn.log ++ (init ++ [.failed]) := by
      unfold registerAddress
      rw [EStateM.after_bind, result_tryDb, hres]
      dsimp only
      rw [EStateM.after_pure, after_tryDb]
      exact hlog
    unfold registerAddress at hlog'
    rw [statements_eq hlog'] at hfail
    simp at hfail
  | ok u =>
    have hres' : (tryDb (Db.dyndnsSetAddress fqdn ip none ttl)).result s = .ok (.ok u) := by
      rw [result_tryDb, hres]
    rw [EStateM.after_bind, hres']
    rw [statements_bind (.tryDb hforward) (.bind (.reloadStore K) fun _ =>
      .bind (.tryDb hptrTraced) fun _ => .pure ()) hres', List.mem_append, not_or] at hfail
    have hzones : SameZones s.db ((tryDb (Db.dyndnsSetAddress fqdn ip none ttl)).after s).db := by
      rw [after_tryDb]
      exact sameZones_dyndnsSetAddress s.conn
    generalize (tryDb (Db.dyndnsSetAddress fqdn ip none ttl)).after s = s₁ at hfail hzones ⊢
    exact not_coherent_ptr (hzones.keys hkeys) hfail.2
      fun hh => hptr (hh.of_sameZones hzones.symm)

/-! ## Coherence -/

/-- The operations that write records and reload the store. -/
inductive StoreOp
  | nicUpdate (req : NicRequest)
  | transfer (fetch : Fetch) (zoneId : ℕ) (zoneName : Str) (primary : SocketAddr)
      (tsigKey : Option Str)
  | registerDns (scope : DhcpScope) (ip : IpAddr) (hostname : Option Str)

/-- The state after a run of an operation. -/
def StoreOp.after (K : Crates) (s : AppState) : StoreOp → AppState
  | .nicUpdate req => (Nomina.nicUpdate K req).after s
  | .transfer fetch zoneId zoneName primary tsigKey =>
    (Nomina.transfer K fetch zoneId zoneName primary tsigKey).after s
  | .registerDns scope ip hostname => (Nomina.registerDns K scope ip hostname).after s

/-- The condition on a run: no statement fails between the first write and the end of the reload, no
statement of a reload fails, and a PTR record is not written into a served zone. -/
def Undisrupted (K : Crates) (s : AppState) : StoreOp → Prop
  | .nicUpdate req => ¬ FailsAfterWrite (statements (nicUpdates K req) s)
  | .transfer fetch zoneId zoneName primary tsigKey =>
    ¬ FailsAfterWrite (statements (Nomina.transfer K fetch zoneId zoneName primary tsigKey) s)
  | .registerDns scope ip hostname =>
    ∀ fqdn ttl, registration scope hostname = some (fqdn, ttl) → RegistersCleanly K s ip fqdn ttl

/-- A registration in which no statement fails writes a PTR record into a served zone. -/
def StoreOp.ExposesPtr (K : Crates) (s : AppState) : StoreOp → Prop
  | .registerDns scope ip hostname => (registration scope hostname).isSome = true ∧
      .failed ∉ statements (Nomina.registerDns K scope ip hostname) s ∧ ¬ PtrHidden K s.db ip
  | _ => False

variable (K) in
/-- A complete run of an operation from a coherent state leaves a coherent state, however it ends,
unless a statement fails after a write or a PTR record goes into a served zone. Of the latter, a
registration in which no statement fails always leaves an incoherent state. -/
theorem coherent_after (s : AppState) (op : StoreOp) (hs : Coherent K s)
    (hkeys : (s.db.zones.map Zone.id).Nodup) :
    (Undisrupted K s op → Coherent K (op.after K s)) ∧
      (op.ExposesPtr K s → ¬ Coherent K (op.after K s)) := by
  cases op with
  | nicUpdate req => exact ⟨coherent_nicUpdate hs, False.elim⟩
  | transfer fetch zoneId zoneName primary tsigKey => exact ⟨coherent_transfer hs, False.elim⟩
  | registerDns scope ip hostname =>
    unfold StoreOp.after StoreOp.ExposesPtr Undisrupted
    dsimp only
    unfold registerDns
    cases registration scope hostname with
    | none => exact ⟨fun _ => hs, fun h => by cases h.1⟩
    | some p =>
      exact ⟨fun hok => coherent_registerAddress hs (hok p.1 p.2 rfl),
        fun h => not_coherent_registerAddress hkeys h.2.1 h.2.2⟩

/-- In a database that refuses nothing no statement of a reload fails. -/
lemma failed_notMem_reload {s : AppState} (hfaults : s.conn.faults = []) :
    .failed ∉ statements (reloadStore K) s := by
  obtain ⟨store, -, -, hafter⟩ := reloadStore_run K s
  obtain ⟨-, -, -, new, hlog, hnew⟩ := evals_load (K := K) s.db s.conn rfl hfaults
  rw [statements_eq (by rw [hafter]; exact hlog)]
  exact hnew _ rfl

/-- The statements of a database call that returns in a database that refuses nothing. -/
lemma failed_notMem_tryDb {α : Type} {m : Sql Tables α} {a : α} {t : Tables} {s : AppState}
    (hm : Evals m s.db (.ok a) t) (hfaults : s.conn.faults = []) :
    .failed ∉ statements (tryDb m) s := by
  obtain ⟨-, -, -, new, hlog, hnew⟩ := hm s.conn rfl hfaults
  rw [statements_eq (by rw [after_tryDb]; exact hlog)]
  exact hnew a rfl

/-- A registration fails nowhere if neither of its two writes does. -/
lemma failed_notMem_registerAddress {s : AppState} {ip : IpAddr} {fqdn : Str} {ttl : ℕ}
    {u : Db.DynUpdate} {t t' : Tables} (hfaults : s.conn.faults = [])
    (hforward : Evals (Db.dyndnsSetAddress fqdn ip none ttl) s.db (.ok u) t)
    (hptr : Evals (registerPtr (reverseName ip) (fqdn ++ ['.']) ttl) t (.ok ()) t') :
    .failed ∉ statements (registerAddress K ip fqdn ttl) s := by
  have hlogs : Logs (tryDb (registerPtr (reverseName ip) (fqdn ++ ['.']) ttl)) :=
    .tryDb traced_registerPtr
  obtain ⟨hres, hdb, hfaults₂⟩ := tryDb_of_evals hforward hfaults
  have hfail₁ := failed_notMem_tryDb hforward hfaults
  unfold registerAddress
  rw [statements_bind (.tryDb traced_dyndnsSetAddress) (.bind (.reloadStore K) fun _ =>
    .bind hlogs fun _ => .pure ()) hres, List.mem_append, not_or]
  refine ⟨hfail₁, ?_⟩
  generalize (tryDb (Db.dyndnsSetAddress fqdn ip none ttl)).after s = s₁ at hdb hfaults₂ ⊢
  obtain ⟨store, -, hres₂, hafter₂⟩ := reloadStore_run K s₁
  obtain ⟨-, htables₂, hfaults₃, -⟩ := evals_load (K := K) s₁.db s₁.conn rfl hfaults₂
  rw [statements_bind (.reloadStore K) (.bind hlogs fun _ => .pure ()) hres₂, List.mem_append, not_or]
  refine ⟨failed_notMem_reload hfaults₂, ?_⟩
  rw [hafter₂]
  rw [← hdb, ← htables₂] at hptr
  have hfail₃ : .failed ∉ statements (tryDb (registerPtr (reverseName ip) (fqdn ++ ['.']) ttl))
      ⟨(load K).after s₁.conn, store, s₁.sendFaults, s₁.sent⟩ := failed_notMem_tryDb hptr hfaults₃
  unfold statements at hfail₃ ⊢
  rwa [EStateM.after_bind_pure]

/-- The PTR record of an address whose reverse zone is there. -/
lemma evals_registerPtr {rev target : Str} {ttl i : ℕ} {t t' : Tables} {p : ℕ × Str}
    (hp : Db.longestSuffixZone isReverseZone rev (Db.zonesByName t) = some p)
    (hinsert : t.insertRecord ⟨0, p.1, none, Db.relativeTo rev p.2, "PTR", some ttl, target, true⟩ =
      .ok (i, t')) :
    Evals (registerPtr rev target ttl) t (.ok ()) (t'.bump p.1) := by
  unfold registerPtr Db.listZones
  refine Evals.bind (Evals.select _ _) ?_
  rw [hp]
  exact Evals.bind (Db.evals_createRecord hinsert) (Evals.pure () _)

/-- A scope that registers its clients in `home.lan`. -/
def registeringScope : DhcpScope :=
  { lanScope with dnsRegister := true, dnsZone := some "home.lan" }

/-- The registration of a client of `home.lan`. -/
def registerPi : StoreOp :=
  .registerDns registeringScope (.v4 0xc0a8010a) (some "pi")

lemma registration_pi :
    registration registeringScope (some "pi") = some (("pi.home.lan" : Str), 3600) := by
  decide +kernel

/-- The zone `home.lan` of the tables of one zone. -/
def homeZone : Zone :=
  ⟨1, "home.lan", true, .defaultFor "home.lan", 300, 1⟩

/-- The database with the zone `home.lan` and other zones. -/
def homeTablesWith (zones : List Zone) : Tables :=
  { homeTables 1 [] with zones := (homeTables 1 []).zones ++ zones }

/-- The reverse zone of the network. -/
def reverseZone : Zone :=
  ⟨2, "1.168.192.in-addr.arpa", true, .defaultFor "1.168.192.in-addr.arpa", 300, 1⟩

/-- The database once the forward record of the client is there. -/
def piTables (zones : List Zone) : Tables :=
  Tables.bump { homeTablesWith zones with
    records := [⟨1, 1, none, "pi", "A", some 3600, "192.168.1.10", true⟩] } 1

lemma evals_forwardPi {zones : List Zone}
    (hzone : Db.longestSuffixZone (fun _ => true) "pi.home.lan" (Db.zonesByName (homeTablesWith zones)) =
      some (1, ("home.lan" : Str))) :
    Evals (Db.dyndnsSetAddress "pi.home.lan" (.v4 0xc0a8010a) none 3600) (homeTablesWith zones)
      (.ok .Created) (piTables zones) :=
  Db.evals_dyndnsSetAddress_created (i := 1) hzone rfl rfl

/-- Without a reverse zone the registration is served once it is done. -/
theorem coherent_after_registerPi :
    Coherent plainCrates (registerPi.after plainCrates (freshState (homeTablesWith []))) := by
  refine (coherent_after plainCrates (freshState (homeTablesWith [])) registerPi rfl (by decide)).1 ?_
  intro fqdn ttl h
  rw [registration_pi] at h
  cases h
  obtain ⟨hres, -, hfaults, -⟩ := evals_forwardPi (by decide +kernel)
    (freshState (homeTablesWith [])).conn rfl rfl
  have hnone : Db.longestSuffixZone isReverseZone (reverseName (.v4 0xc0a8010a))
      (Db.zonesByName (homeTablesWith [])) = none := by decide +kernel
  unfold RegistersCleanly
  rw [hres]
  refine ⟨failed_notMem_reload ?_, .inl fun p hp => ?_⟩
  · rw [after_tryDb]
    exact hfaults
  · exact absurd (hnone.symm.trans hp) (by simp)

/-- With a reverse zone the PTR record is in the database only. -/
theorem incoherent_after_registerPi :
    Coherent plainCrates (freshState (homeTablesWith [reverseZone])) ∧
      ¬ Coherent plainCrates
        (registerPi.after plainCrates (freshState (homeTablesWith [reverseZone]))) := by
  refine ⟨rfl, ?_⟩
  unfold StoreOp.after registerPi registerDns
  dsimp only
  rw [registration_pi]
  have hzone' : Db.longestSuffixZone isReverseZone (reverseName (.v4 0xc0a8010a))
      (Db.zonesByName (piTables [reverseZone])) =
        some (2, ("1.168.192.in-addr.arpa" : Str)) := by decide +kernel
  refine not_coherent_registerAddress (by decide) (failed_notMem_registerAddress rfl
    (evals_forwardPi (by decide +kernel)) (evals_registerPtr (i := 2) hzone' rfl))
    fun h => ?_
  have hzone : Db.longestSuffixZone isReverseZone (reverseName (.v4 0xc0a8010a))
      (Db.zonesByName (homeTablesWith [reverseZone])) =
        some (2, ("1.168.192.in-addr.arpa" : Str)) := by decide +kernel
  rcases h _ hzone reverseZone (by decide) rfl with hen | ⟨e, he⟩
  · cases hen
  · have hok : (recordFqdnName plainCrates ['@'] reverseZone.name).isOk = true := by decide +kernel
    rw [he] at hok
    cases hok

end Nomina
