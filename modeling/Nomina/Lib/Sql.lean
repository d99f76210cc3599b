import Nomina.Lib.Prog

/-!
# Statements on a database connection

Programs that run statements on a database whose contents are a value of type `τ`. Each statement
is atomic and may fail; which ones fail is decided by a list of faults that the program does not
control, so a result proved for every list of faults covers every point at which the database can
refuse a statement. A statement that fails changes nothing, but the statements before it stay
unless a transaction rolls them back. The connection keeps a log of what its statements did.

The rules at the end relate a program to its runs: `Keeps` for relations between the contents before
and after that every statement keeps, `Traced` for the log, and the equations for a database that
refuses no statement.
-/

namespace Lib

/-- Why a statement failed. -/
inductive DbError
  | unavailable | constraint | notFound
deriving DecidableEq

/-- What a statement did. -/
inductive StmtEvent
  | read | write | failed
deriving DecidableEq

/-- A connection: the contents of the database, which of the coming statements fail, and what the
past ones did. -/
structure Conn (τ : Type) where
  tables : τ
  faults : List Bool
  log : List StmtEvent

/-- A program on a connection, which returns a value or stops with an error. -/
abbrev Sql (τ α : Type) := EStateM DbError (Conn τ) α

namespace Sql

variable {τ α β : Type}

/-! ## Statements -/

/-- The connection after a statement that did `e` and left the contents `t`. -/
def step (c : Conn τ) (e : StmtEvent) (t : τ) : Conn τ :=
  ⟨t, c.faults.tail, c.log ++ [e]⟩

/-- Whether the next statement is refused. -/
def refused (c : Conn τ) : Bool :=
  c.faults.headD false

/-- A statement: refused, or answered by `f` with an error, or with a value and new contents. -/
def statement (e : StmtEvent) (f : τ → Except DbError (α × τ)) : Sql τ α := fun c =>
  if refused c then .error .unavailable (step c .failed c.tables)
  else match f c.tables with
    | .error err => .error err (step c .failed c.tables)
    | .ok (a, t) => .ok a (step c e t)

/-- A query. -/
def select (f : τ → α) : Sql τ α :=
  statement .read fun t => .ok (f t, t)

/-- A query for the first row, an error when there is none. -/
def selectFirst (f : τ → Option α) : Sql τ α :=
  statement .read fun t => match f t with
    | some a => .ok (a, t)
    | none => .error .notFound

/-- An insert, update or delete that can violate a constraint. -/
def execute (f : τ → Except DbError (α × τ)) : Sql τ α :=
  statement .write f

/-- An update or delete that violates no constraint. -/
def update (f : τ → τ) : Sql τ Unit :=
  execute fun t => .ok ((), f t)

/-- All statements of `m`, or none: an error rolls the contents back. -/
def transaction (m : Sql τ α) : Sql τ α := fun c =>
  match m { c with log := [] } with
  | .ok a c' => .ok a { c' with log := c.log ++ c'.log }
  | .error e c' => .error e ⟨c.tables, c'.faults, c.log ++ [.failed]⟩

/-- `Result::unwrap_or`: go on with a default after an error. -/
def unwrapOr (d : α) (m : Sql τ α) : Sql τ α := fun c =>
  match m c with
  | .ok a c' => .ok a c'
  | .error _ c' => .ok d c'

/-! ## Runs -/

/-- A statement that is refused or fails changes nothing and logs the failure; another one leaves
what its function gives. -/
lemma statement_cases (e : StmtEvent) (f : τ → Except DbError (α × τ)) (c : Conn τ) :
    (∃ err, (statement e f).result c = .error err ∧
        (statement e f).after c = step c .failed c.tables) ∨
      ∃ a t, refused c = false ∧ f c.tables = .ok (a, t) ∧ (statement e f).result c = .ok a ∧
        (statement e f).after c = step c e t := by
  unfold EStateM.result EStateM.after statement
  cases hr : refused c with
  | true => exact .inl ⟨_, rfl, rfl⟩
  | false =>
    cases hf : f c.tables with
    | error err => exact .inl ⟨err, rfl, rfl⟩
    | ok p => exact .inr ⟨p.1, p.2, rfl, rfl, rfl, rfl⟩

/-- A statement that returns a value left what its function gives. -/
lemma statement_ok {e : StmtEvent} {f : τ → Except DbError (α × τ)} {c : Conn τ} {a : α}
    (h : (statement e f).result c = .ok a) :
    ∃ t, f c.tables = .ok (a, t) ∧ (statement e f).after c = step c e t := by
  rcases statement_cases e f c with ⟨err, hres, -⟩ | ⟨b, t, -, hf, hres, hafter⟩
  · rw [hres] at h
    cases h
  · rw [hres] at h
    cases h
    exact ⟨t, hf, hafter⟩

/-- A statement that its function answers with an error fails and changes nothing. -/
lemma statement_error {e : StmtEvent} {f : τ → Except DbError (α × τ)} {c : Conn τ} {err : DbError}
    (h : f c.tables = .error err) : ∃ err', (statement e f).result c = .error err' ∧
      ((statement e f).after c).tables = c.tables := by
  rcases statement_cases e f c with ⟨err', hres, hafter⟩ | ⟨a, t, -, hf, -, -⟩
  · refine ⟨err', hres, ?_⟩
    rw [hafter]
    rfl
  · cases h.symm.trans hf

/-- A query that is answered returns what the database holds. -/
lemma select_ok {f : τ → α} {c : Conn τ} {a : α} (h : (select f).result c = .ok a) :
    a = f c.tables ∧ (select f).after c = step c .read c.tables := by
  unfold select at h ⊢
  obtain ⟨t, hf, hafter⟩ := statement_ok h
  cases hf
  exact ⟨rfl, hafter⟩

/-- A query with a default for errors returns what the database holds, or the default. -/
lemma unwrapOr_select_ok {d a : α} {f : τ → α} {c : Conn τ}
    (h : (unwrapOr d (select f)).result c = .ok a) : a = f c.tables ∨ a = d := by
  unfold EStateM.result unwrapOr at h
  cases hrun : select f c with
  | ok b c' =>
    rw [hrun] at h
    cases h
    exact .inl (select_ok (EStateM.of_run hrun).1).1
  | error e c' =>
    rw [hrun] at h
    cases h
    exact .inr rfl

/-- Going on after a query that was answered. -/
lemma select_bind_ok {β : Type} {f : τ → α} {k : α → Sql τ β} {c : Conn τ} {b : β}
    (h : (select f >>= k).result c = .ok b) :
    (k (f c.tables)).result (step c .read c.tables) = .ok b ∧
      (select f >>= k).after c = (k (f c.tables)).after (step c .read c.tables) := by
  obtain ⟨a, hres, h, hafter⟩ := EStateM.bind_ok h
  obtain ⟨t, hf, hstep⟩ := statement_ok hres
  cases hf
  unfold select at h hafter ⊢
  rw [hstep] at h hafter
  exact ⟨h, hafter⟩

lemma update_ok {f : τ → τ} {c : Conn τ} {u : Unit} (h : (update f).result c = .ok u) :
    (update f).after c = step c .write (f c.tables) := by
  unfold update execute at h ⊢
  obtain ⟨t, hf, hafter⟩ := statement_ok h
  cases hf
  exact hafter

/-- An update that fails changes nothing. -/
lemma update_error {f : τ → τ} {c : Conn τ} {e : DbError} (h : (update f).result c = .error e) :
    ((update f).after c).tables = c.tables := by
  unfold update execute at h ⊢
  rcases statement_cases .write (fun t => .ok ((), f t)) c with ⟨err, -, hafter⟩ | ⟨a, t, -, -, hres, -⟩
  · rw [hafter]
    rfl
  · rw [hres] at h
    cases h

/-- An update is refused or leaves what its function gives. -/
lemma update_cases (f : τ → τ) (c : Conn τ) :
    ((update f).after c).tables = c.tables ∨ ((update f).after c).tables = f c.tables := by
  unfold update execute
  rcases statement_cases .write (fun t => .ok ((), f t)) c with
    ⟨err, -, hafter⟩ | ⟨a, t, -, hf, -, hafter⟩
  · rw [hafter]
    exact .inl rfl
  · cases hf
    rw [hafter]
    exact .inr rfl

/-- A transaction leaves what its program leaves, or the contents it found. -/
lemma transaction_cases (m : Sql τ α) (c : Conn τ) :
    (∃ e, (transaction m).result c = .error e ∧
        ((transaction m).after c).tables = c.tables ∧
        ((transaction m).after c).log = c.log ++ [.failed]) ∨
      ∃ a, m.result { c with log := [] } = .ok a ∧ (transaction m).result c = .ok a ∧
        ((transaction m).after c).tables = (m.after { c with log := [] }).tables ∧
        ((transaction m).after c).log = c.log ++ (m.after { c with log := [] }).log := by
  unfold EStateM.result EStateM.after transaction
  cases m { c with log := [] } with
  | ok a c' => exact .inr ⟨a, rfl, rfl, rfl, rfl⟩
  | error e c' => exact .inl ⟨e, rfl, rfl, rfl⟩

/-- A transaction that fails is rolled back. -/
lemma transaction_error {m : Sql τ α} {c : Conn τ} {e : DbError}
    (h : (transaction m).result c = .error e) : ((transaction m).after c).tables = c.tables := by
  rcases transaction_cases m c with ⟨e', -, htables, -⟩ | ⟨a, -, hres, -, -⟩
  · exact htables
  · rw [hres] at h
    cases h

/-- With a default for errors a program always returns. -/
lemma returns_unwrapOr (d : α) (m : Sql τ α) : (unwrapOr d m).Returns := by
  intro c
  unfold EStateM.result unwrapOr
  cases m c with
  | ok a c' => exact ⟨a, rfl⟩
  | error e c' => exact ⟨d, rfl⟩

/-- A default for errors changes only the result. -/
lemma after_unwrapOr (d : α) (m : Sql τ α) (c : Conn τ) : (unwrapOr d m).after c = m.after c := by
  unfold EStateM.after unwrapOr
  cases m c <;> rfl

/-! ## Relations that every statement keeps -/

/-- Whatever happens, the contents after a run of `m` are related to those before. -/
def Keeps (R : τ → τ → Prop) (m : Sql τ α) : Prop :=
  EStateM.Keeps (fun c c' : Conn τ => R c.tables c'.tables) m

section Keeps

variable {R : τ → τ → Prop} [IsPreorder τ R]

instance : IsPreorder (Conn τ) (fun c c' => R c.tables c'.tables) where
  refl c := refl_of R c.tables
  trans _ _ _ h h' := trans_of R h h'

lemma Keeps.pure (a : α) : Keeps R (pure a : Sql τ α) :=
  EStateM.Keeps.pure a

/-- Sequences keep what their parts keep. -/
lemma Keeps.bind {m : Sql τ α} {f : α → Sql τ β} (hm : Keeps R m) (hf : ∀ a, Keeps R (f a)) :
    Keeps R (m >>= f) :=
  EStateM.Keeps.bind hm hf

/-- A statement keeps what its successful executions keep. -/
lemma Keeps.statement {e : StmtEvent} {f : τ → Except DbError (α × τ)}
    (h : ∀ t a t', f t = .ok (a, t') → R t t') : Keeps R (statement e f) := by
  intro c
  rcases statement_cases e f c with ⟨err, -, hafter⟩ | ⟨a, t, -, hf, -, hafter⟩
  · rw [hafter]
    exact refl_of R c.tables
  · rw [hafter]
    exact h _ _ _ hf

/-- Queries keep every reflexive relation. -/
lemma Keeps.select (f : τ → α) : Keeps R (select f) := by
  refine Keeps.statement ?_
  intro t a t' h
  cases h
  exact refl_of R t

/-- Queries for a row keep every reflexive relation. -/
lemma Keeps.selectFirst (f : τ → Option α) : Keeps R (selectFirst f) := by
  refine Keeps.statement ?_
  intro t a t' h
  cases hf : f t with
  | none =>
    rw [hf] at h
    cases h
  | some b =>
    rw [hf] at h
    cases h
    exact refl_of R t

/-- A write keeps what its successful executions keep. -/
lemma Keeps.execute {f : τ → Except DbError (α × τ)}
    (h : ∀ t a t', f t = .ok (a, t') → R t t') : Keeps R (execute f) :=
  Keeps.statement h

/-- An update keeps what its function keeps. -/
lemma Keeps.update {f : τ → τ} (h : ∀ t, R t (f t)) : Keeps R (update f) := by
  unfold Sql.update
  refine Keeps.execute ?_
  intro t a t' ht
  cases ht
  exact h t

/-- A transaction keeps what its program keeps. -/
lemma Keeps.transaction {m : Sql τ α} (h : Keeps R m) : Keeps R (transaction m) := by
  intro c
  rcases transaction_cases m c with ⟨e, -, htables, -⟩ | ⟨a, -, -, htables, -⟩
  · rw [htables]
    exact refl_of R c.tables
  · rw [htables]
    exact h { c with log := [] }

end Keeps

/-! ## Relations between connections -/

/-- A relation between connections that statements without an effect keep. -/
class Frame (Q : Conn τ → Conn τ → Prop) : Prop extends IsPreorder (Conn τ) Q where
  idle : ∀ c e, Q c (step c e c.tables)

instance {R : τ → τ → Prop} [IsPreorder τ R] : Frame (fun c c' : Conn τ => R c.tables c'.tables) where
  idle c _ := refl_of R c.tables

section Frame

variable {Q : Conn τ → Conn τ → Prop} [Frame Q]

/-- A statement keeps a frame relation that its successful executions keep. -/
lemma Frame.statement {e : StmtEvent} {f : τ → Except DbError (α × τ)}
    (h : ∀ c a t, f c.tables = .ok (a, t) → Q c (step c e t)) : EStateM.Keeps Q (statement e f) := by
  intro c
  rcases statement_cases e f c with ⟨err, -, hafter⟩ | ⟨a, t, -, hf, -, hafter⟩
  · rw [hafter]
    exact Frame.idle c .failed
  · rw [hafter]
    exact h c a t hf

lemma Frame.select (f : τ → α) : EStateM.Keeps Q (select f) := by
  refine Frame.statement ?_
  intro c a t h
  cases h
  exact Frame.idle c .read

lemma Frame.selectFirst (f : τ → Option α) : EStateM.Keeps Q (selectFirst f) := by
  refine Frame.statement ?_
  intro c a t h
  cases hf : f c.tables with
  | none =>
    rw [hf] at h
    cases h
  | some b =>
    rw [hf] at h
    cases h
    exact Frame.idle c .read

/-- A program that goes on with what a query returns: the query either fails or returns what the
database holds. -/
lemma Frame.select_bind {f : τ → α} {k : α → Sql τ β} {c : Conn τ}
    (h : ∀ c', c'.tables = c.tables → Q c' ((k (f c.tables)).after c')) :
    Q c ((Sql.select f >>= k).after c) := by
  rw [EStateM.after_bind]
  unfold Sql.select
  rcases statement_cases .read (fun t => .ok (f t, t)) c with
    ⟨err, hres, hafter⟩ | ⟨a, t, -, hf, hres, hafter⟩
  · rw [hres, hafter]
    exact Frame.idle c .failed
  · cases hf
    rw [hres, hafter]
    exact trans_of Q (Frame.idle c .read) (h (step c .read c.tables) rfl)

/-- The same for a query for a row: it fails, or returns the row. -/
lemma Frame.selectFirst_bind {f : τ → Option α} {k : α → Sql τ β} {c : Conn τ}
    (h : ∀ a, f c.tables = some a → ∀ c', c'.tables = c.tables → Q c' ((k a).after c')) :
    Q c ((Sql.selectFirst f >>= k).after c) := by
  rw [EStateM.after_bind]
  unfold Sql.selectFirst
  rcases statement_cases .read (fun t => match f t with
    | some a => .ok (a, t)
    | none => .error .notFound) c with ⟨err, hres, hafter⟩ | ⟨a, t, -, hf, hres, hafter⟩
  · rw [hres, hafter]
    exact Frame.idle c .failed
  · cases hfc : f c.tables with
    | none =>
      rw [hfc] at hf
      cases hf
    | some b =>
      rw [hfc] at hf
      cases hf
      rw [hres, hafter]
      exact trans_of Q (Frame.idle c .read) (h _ hfc (step c .read c.tables) rfl)

omit [Frame Q] in
lemma Frame.unwrapOr {m : Sql τ α} (d : α) (h : EStateM.Keeps Q m) :
    EStateM.Keeps Q (unwrapOr d m) := by
  intro c
  have hm := h c
  unfold EStateM.after at hm ⊢
  unfold Sql.unwrapOr
  cases hrun : m c with
  | ok a c' => rwa [hrun] at hm
  | error e c' => rwa [hrun] at hm

end Frame

/-! ## The log -/

/-- The log of a run goes on from the one before, shows a write when the contents changed, and ends
with a failure when the run stops with an error. -/
def Traced (m : Sql τ α) : Prop :=
  ∀ c, ∃ new, (m.after c).log = c.log ++ new ∧
    ((m.after c).tables ≠ c.tables → .write ∈ new) ∧
    (∀ e, m.result c = .error e → ∃ init, new = init ++ [.failed])

lemma Traced.pure (a : α) : Traced (pure a : Sql τ α) :=
  fun c => ⟨[], by simp, by simp, by simp⟩

/-- The log of a sequence is the log of its parts. -/
lemma Traced.bind {m : Sql τ α} {f : α → Sql τ β} (hm : Traced m) (hf : ∀ a, Traced (f a)) :
    Traced (m >>= f) := by
  intro c
  obtain ⟨new, hlog, hwrite, hfail⟩ := hm c
  rw [EStateM.after_bind, EStateM.result_bind]
  cases hr : m.result c with
  | error e => exact ⟨new, hlog, hwrite, fun _ _ => hfail e hr⟩
  | ok a =>
    obtain ⟨new', hlog', hwrite', hfail'⟩ := hf a (m.after c)
    refine ⟨new ++ new', by rw [hlog', hlog, List.append_assoc], ?_, ?_⟩
    · intro hne
      rw [List.mem_append]
      by_cases hsame : (m.after c).tables = c.tables
      · exact .inr (hwrite' (hsame ▸ hne))
      · exact .inl (hwrite hsame)
    · intro e he
      obtain ⟨init, rfl⟩ := hfail' e he
      exact ⟨new ++ init, (List.append_assoc ..).symm⟩

/-- A statement that is not logged as a write must not change anything. -/
lemma Traced.statement {e : StmtEvent} {f : τ → Except DbError (α × τ)}
    (h : e = .write ∨ ∀ t a t', f t = .ok (a, t') → t' = t) : Traced (statement e f) := by
  intro c
  rcases statement_cases e f c with ⟨err, hres, hafter⟩ | ⟨a, t, -, hf, hres, hafter⟩
  · rw [hafter]
    exact ⟨[.failed], rfl, fun hne => absurd rfl hne, fun _ _ => ⟨[], rfl⟩⟩
  · rw [hafter, hres]
    refine ⟨[e], rfl, ?_, fun _ he => by cases he⟩
    intro hne
    rcases h with rfl | h
    · exact List.mem_singleton_self _
    · exact absurd (h _ _ _ hf) hne

lemma Traced.execute (f : τ → Except DbError (α × τ)) : Traced (execute f) :=
  Traced.statement (.inl rfl)

lemma Traced.update (f : τ → τ) : Traced (update f) :=
  Traced.execute _

lemma Traced.select (f : τ → α) : Traced (select f) := by
  refine Traced.statement (.inr ?_)
  intro t a t' h
  cases h
  rfl

lemma Traced.selectFirst (f : τ → Option α) : Traced (selectFirst f) := by
  refine Traced.statement (.inr ?_)
  intro t a t' h
  cases hf : f t with
  | none =>
    rw [hf] at h
    cases h
  | some b =>
    rw [hf] at h
    cases h
    rfl

/-- A transaction that is rolled back logs one failure. -/
lemma Traced.transaction {m : Sql τ α} (h : Traced m) : Traced (transaction m) := by
  intro c
  rcases transaction_cases m c with ⟨e, -, htables, hlog⟩ | ⟨a, hres, hres', htables, hlog⟩
  · exact ⟨[.failed], hlog, fun hne => absurd htables hne, fun _ _ => ⟨[], rfl⟩⟩
  · obtain ⟨new, hnew, hwrite, -⟩ := h { c with log := [] }
    rw [List.nil_append] at hnew
    refine ⟨new, by rw [hlog, hnew], ?_, fun e he => by rw [hres'] at he; cases he⟩
    rw [htables]
    exact hwrite

/-- A run of `m` that returns has written. -/
def Writes (m : Sql τ α) : Prop :=
  ∀ c a, m.result c = .ok a → ∃ new, (m.after c).log = c.log ++ new ∧ .write ∈ new

lemma Writes.execute (f : τ → Except DbError (α × τ)) : Writes (execute f) := by
  intro c a h
  obtain ⟨t, -, hafter⟩ := statement_ok h
  unfold Sql.execute
  rw [hafter]
  exact ⟨[.write], rfl, List.mem_singleton_self _⟩

lemma Writes.update (f : τ → τ) : Writes (update f) :=
  Writes.execute _

/-- A sequence writes when its first part does. -/
lemma Writes.bind_left {m : Sql τ α} {f : α → Sql τ β} (hm : Writes m) (hf : ∀ a, Traced (f a)) :
    Writes (m >>= f) := by
  intro c b h
  obtain ⟨a, hr, -, hafter⟩ := EStateM.bind_ok h
  obtain ⟨new, hlog, hwrite⟩ := hm c a hr
  obtain ⟨new', hlog', -, -⟩ := hf a (m.after c)
  rw [hafter]
  exact ⟨new ++ new', by rw [hlog', hlog, List.append_assoc], List.mem_append_left _ hwrite⟩

/-- A sequence writes when its second part does. -/
lemma Writes.bind_right {m : Sql τ α} {f : α → Sql τ β} (hm : Traced m) (hf : ∀ a, Writes (f a)) :
    Writes (m >>= f) := by
  intro c b h
  obtain ⟨a, -, h, hafter⟩ := EStateM.bind_ok h
  obtain ⟨new, hlog, -, -⟩ := hm c
  obtain ⟨new', hlog', hwrite⟩ := hf a (m.after c) b h
  rw [hafter]
  exact ⟨new ++ new', by rw [hlog', hlog, List.append_assoc], List.mem_append_right _ hwrite⟩

/-- A transaction that is not rolled back has written what its program wrote. -/
lemma Writes.transaction {m : Sql τ α} (h : Writes m) : Writes (transaction m) := by
  intro c a ha
  rcases transaction_cases m c with ⟨e, hres, -, -⟩ | ⟨b, hres, -, -, hlog⟩
  · rw [hres] at ha
    cases ha
  · obtain ⟨new, hnew, hwrite⟩ := h { c with log := [] } b hres
    exact ⟨new, by rw [hlog, hnew]; simp, hwrite⟩

/-! ## Programs that only read -/

/-- `m` writes nothing, and returns `g` of the contents unless one of its statements failed. -/
def Reads (m : Sql τ α) (g : τ → α) : Prop :=
  ∀ c, (m.after c).tables = c.tables ∧ ∃ new, (m.after c).log = c.log ++ new ∧ .write ∉ new ∧
    (.failed ∉ new → m.result c = .ok (g c.tables)) ∧
    (∀ e, m.result c = .error e → .failed ∈ new)

lemma Reads.pure (a : α) : Reads (pure a : Sql τ α) (fun _ => a) :=
  fun c => ⟨rfl, [], by simp, by simp, fun _ => rfl, by simp⟩

/-- Reading in sequence. -/
lemma Reads.bind {m : Sql τ α} {f : α → Sql τ β} {g : τ → α} {h : α → τ → β} (hm : Reads m g)
    (hf : ∀ a, Reads (f a) (h a)) : Reads (m >>= f) (fun t => h (g t) t) := by
  intro c
  obtain ⟨htables, new, hlog, hwrite, hok, herr⟩ := hm c
  rw [EStateM.after_bind, EStateM.result_bind]
  cases hr : m.result c with
  | error e =>
    have hfailed := herr e hr
    exact ⟨htables, new, hlog, hwrite, fun hno => absurd hfailed hno, fun _ _ => hfailed⟩
  | ok a =>
    obtain ⟨htables', new', hlog', hwrite', hok', herr'⟩ := hf a (m.after c)
    refine ⟨htables'.trans htables, new ++ new', ?_, ?_, ?_, ?_⟩
    · rw [hlog', hlog, List.append_assoc]
    · simp [hwrite, hwrite']
    · intro hno
      rw [List.mem_append, not_or] at hno
      have hga : a = g c.tables := by
        have := hok hno.1
        rw [hr] at this
        exact Except.ok.inj this
      have := hok' hno.2
      rw [htables, hga] at this
      rw [hga]
      exact this
    · intro e he
      exact List.mem_append_right _ (herr' e he)

lemma Reads.select (g : τ → α) : Reads (select g) g := by
  intro c
  unfold Sql.select
  rcases statement_cases .read (fun t => .ok (g t, t)) c with
    ⟨err, hres, hafter⟩ | ⟨a, t, -, hf, hres, hafter⟩
  · rw [hafter, hres]
    exact ⟨rfl, [.failed], rfl, by simp, by simp, by simp⟩
  · cases hf
    rw [hafter, hres]
    exact ⟨rfl, [.read], rfl, by simp, by simp, by simp⟩

/-- Reading a row that may be missing: a missing row counts as a failure. -/
lemma Reads.selectFirst {f : τ → Option α} (g : τ → α) (hg : ∀ t a, f t = some a → g t = a) :
    Reads (selectFirst f) g := by
  intro c
  unfold Sql.selectFirst
  rcases statement_cases .read (fun t => match f t with
    | some a => .ok (a, t)
    | none => .error .notFound) c with ⟨err, hres, hafter⟩ | ⟨a, t, -, hf, hres, hafter⟩
  · rw [hafter, hres]
    exact ⟨rfl, [.failed], rfl, by simp, by simp, by simp⟩
  · rw [hafter, hres]
    cases hfc : f c.tables with
    | none =>
      rw [hfc] at hf
      cases hf
    | some b =>
      rw [hfc] at hf
      cases hf
      exact ⟨rfl, [.read], rfl, by simp, by simp [hg _ _ hfc], by simp⟩

/-- Reading with a default for errors. -/
lemma Reads.unwrapOr {m : Sql τ α} {g : τ → α} (d : α) (hm : Reads m g) :
    Reads (unwrapOr d m) g := by
  intro c
  obtain ⟨htables, new, hlog, hwrite, hok, -⟩ := hm c
  have hafter : (Sql.unwrapOr d m).after c = m.after c := by
    unfold EStateM.after Sql.unwrapOr
    cases m c <;> rfl
  have hres : ∀ a, m.result c = .ok a → (Sql.unwrapOr d m).result c = .ok a := by
    intro a ha
    unfold EStateM.result Sql.unwrapOr at *
    cases hm : m c with
    | ok b c' => rw [hm] at ha; exact ha
    | error e c' => rw [hm] at ha; cases ha
  have hno : ∀ e, (Sql.unwrapOr d m).result c ≠ .error e := by
    intro e
    unfold EStateM.result Sql.unwrapOr
    cases m c <;> simp
  rw [hafter]
  exact ⟨htables, new, hlog, hwrite, fun hf => hres _ (hok hf), fun e he => absurd he (hno e)⟩

/-- Reading for each element of a list. -/
lemma Reads.mapM {F : β → Sql τ α} {g : β → τ → α} (hF : ∀ b, Reads (F b) (g b)) (l : List β) :
    Reads (l.mapM F) (fun t => l.map (g · t)) := by
  induction l with
  | nil => exact Reads.pure []
  | cons b l ih =>
    rw [List.mapM_cons]
    exact Reads.bind (hF b) fun a => Reads.bind ih fun as => Reads.pure (a :: as)

/-! ## A database that refuses nothing -/

/-- In a database that refuses no statement, `m` takes the contents `t` to `t'` and returns `r`; no
statement fails when `r` is a value. -/
def Evals (m : Sql τ α) (t : τ) (r : Except DbError α) (t' : τ) : Prop :=
  ∀ c, c.tables = t → c.faults = [] →
    m.result c = r ∧ (m.after c).tables = t' ∧ (m.after c).faults = [] ∧
      ∃ new, (m.after c).log = c.log ++ new ∧ ∀ a, r = .ok a → .failed ∉ new

lemma Evals.pure (a : α) (t : τ) : Evals (pure a : Sql τ α) t (.ok a) t :=
  fun _ ht hf => ⟨rfl, ht, hf, [], by simp, by simp⟩

/-- A sequence whose first part returns goes on with the second. -/
lemma Evals.bind {m : Sql τ α} {f : α → Sql τ β} {t t' t'' : τ} {a : α} {r : Except DbError β}
    (hm : Evals m t (.ok a) t') (hf : Evals (f a) t' r t'') : Evals (m >>= f) t r t'' := by
  intro c ht hfaults
  obtain ⟨hres, htables, hfaults', new, hlog, hnew⟩ := hm c ht hfaults
  obtain ⟨hres', htables', hfaults'', new', hlog', hnew'⟩ := hf _ htables hfaults'
  rw [EStateM.after_bind, EStateM.result_bind, hres]
  refine ⟨hres', htables', hfaults'', new ++ new', by rw [hlog', hlog, List.append_assoc], ?_⟩
  intro b hb
  rw [List.mem_append, not_or]
  exact ⟨hnew a rfl, hnew' b hb⟩

/-- A sequence whose first part fails stops there. -/
lemma Evals.bind_error {m : Sql τ α} {f : α → Sql τ β} {t t' : τ} {e : DbError}
    (hm : Evals m t (.error e) t') : Evals (m >>= f) t (.error e) t' := by
  intro c ht hfaults
  obtain ⟨hres, htables, hfaults', new, hlog, -⟩ := hm c ht hfaults
  rw [EStateM.after_bind, EStateM.result_bind, hres]
  exact ⟨rfl, htables, hfaults', new, hlog, fun _ h => by cases h⟩

/-- A statement that its function answers. -/
lemma Evals.statement {e : StmtEvent} {f : τ → Except DbError (α × τ)} {t t' : τ} {a : α}
    (he : e ≠ .failed) (h : f t = .ok (a, t')) : Evals (statement e f) t (.ok a) t' := by
  intro c ht hfaults
  subst ht
  unfold EStateM.result EStateM.after Sql.statement
  simp only [refused, hfaults, List.headD_nil, Bool.false_eq_true, if_false, h, step]
  exact ⟨trivial, trivial, rfl, [e], rfl, fun _ _ => by simpa using he.symm⟩

/-- A statement that its function rejects. -/
lemma Evals.statement_error {e : StmtEvent} {f : τ → Except DbError (α × τ)} {t : τ} {err : DbError}
    (h : f t = .error err) : Evals (Sql.statement e f) t (.error err) t := by
  intro c ht hfaults
  subst ht
  unfold EStateM.result EStateM.after Sql.statement
  simp only [refused, hfaults, List.headD_nil, Bool.false_eq_true, if_false, h, step]
  exact ⟨trivial, trivial, rfl, [.failed], rfl, fun _ h => by cases h⟩

lemma Evals.select (f : τ → α) (t : τ) : Evals (select f) t (.ok (f t)) t :=
  Evals.statement (by decide) rfl

lemma Evals.selectFirst {f : τ → Option α} {t : τ} {a : α} (h : f t = some a) :
    Evals (selectFirst f) t (.ok a) t :=
  Evals.statement (by decide) (by simp [h])

lemma Evals.execute {f : τ → Except DbError (α × τ)} {t t' : τ} {a : α} (h : f t = .ok (a, t')) :
    Evals (execute f) t (.ok a) t' :=
  Evals.statement (by decide) h

lemma Evals.update (f : τ → τ) (t : τ) : Evals (update f) t (.ok ()) (f t) :=
  Evals.execute rfl

/-- A default for errors is not used by a program that returns. -/
lemma Evals.unwrapOr {m : Sql τ α} {t t' : τ} {a : α} (d : α) (h : Evals m t (.ok a) t') :
    Evals (unwrapOr d m) t (.ok a) t' := by
  intro c ht hfaults
  obtain ⟨hres, hrest⟩ := h c ht hfaults
  have hrun := EStateM.run_of_result hres
  unfold EStateM.result EStateM.after Sql.unwrapOr
  rw [hrun]
  exact ⟨rfl, hrest⟩

/-- Reading for each element of a list. -/
lemma Evals.mapM {F : β → Sql τ α} {g : β → α} {t : τ} {l : List β}
    (h : ∀ b ∈ l, Evals (F b) t (.ok (g b)) t) : Evals (l.mapM F) t (.ok (l.map g)) t := by
  induction l with
  | nil => exact Evals.pure [] t
  | cons b l ih =>
    rw [List.mapM_cons]
    exact Evals.bind (h b List.mem_cons_self) (Evals.bind
      (ih fun b' hb' => h b' (List.mem_cons_of_mem b hb')) (Evals.pure _ t))

/-- Updates for each element of a list. -/
lemma Evals.forM_update (f : β → τ → τ) (l : List β) (t : τ) :
    Evals (l.forM fun b => Sql.update (f b)) t (.ok ()) (l.foldl (fun t b => f b t) t) := by
  induction l generalizing t with
  | nil => exact Evals.pure () t
  | cons b l ih => exact Evals.bind (.update (f b) t) (ih (f b t))

/-- A transaction whose program returns. -/
lemma Evals.transaction {m : Sql τ α} {t t' : τ} {a : α} (h : Evals m t (.ok a) t') :
    Evals (transaction m) t (.ok a) t' := by
  intro c ht hfaults
  obtain ⟨hres, htables, hfaults', new, hlog, hnew⟩ := h { c with log := [] } ht hfaults
  rw [List.nil_append] at hlog
  have hrun := EStateM.run_of_result hres
  unfold EStateM.result EStateM.after Sql.transaction
  rw [hrun]
  exact ⟨rfl, htables, hfaults', new, congrArg (c.log ++ ·) hlog, hnew⟩

/-- A transaction whose program fails changes nothing. -/
lemma Evals.transaction_error {m : Sql τ α} {t t' : τ} {e : DbError}
    (h : Evals m t (.error e) t') : Evals (Sql.transaction m) t (.error e) t := by
  intro c ht hfaults
  obtain ⟨hres, -, hfaults', -⟩ := h { c with log := [] } ht hfaults
  unfold EStateM.result EStateM.after at *
  unfold Sql.transaction
  cases hrun : m { c with log := [] } with
  | ok a c' =>
    rw [hrun] at hres
    cases hres
  | error e' c' =>
    rw [hrun] at hres hfaults'
    cases hres
    exact ⟨rfl, ht, hfaults', [.failed], rfl, fun _ h => by cases h⟩

/-! ## Programs that stop at a failure -/

/-- A program that returns only when no statement fails: then it ran as in a database that refuses
nothing. -/
def Strict (m : Sql τ α) : Prop :=
  ∀ c a, m.result c = .ok a → m { c with faults := [] } = .ok a { m.after c with faults := [] }

lemma Strict.pure (a : α) : Strict (pure a : Sql τ α) := by
  intro c b h
  cases h
  rfl

lemma Strict.bind {m : Sql τ α} {f : α → Sql τ β} (hm : Strict m) (hf : ∀ a, Strict (f a)) :
    Strict (m >>= f) := by
  intro c b h
  obtain ⟨a, hres, hlast, hafter⟩ := EStateM.bind_ok h
  rw [EStateM.run_bind_ok (hm c a hres), hf a _ b hlast, hafter]

lemma Strict.statement (e : StmtEvent) (f : τ → Except DbError (α × τ)) :
    Strict (Sql.statement e f) := by
  intro c a h
  obtain ⟨t, hf, hafter⟩ := statement_ok h
  rw [hafter]
  unfold Sql.statement
  simp [refused, hf, step]

lemma Strict.select (f : τ → α) : Strict (select f) :=
  .statement .read _

lemma Strict.selectFirst (f : τ → Option α) : Strict (selectFirst f) :=
  .statement .read _

lemma Strict.execute (f : τ → Except DbError (α × τ)) : Strict (execute f) :=
  .statement .write f

lemma Strict.update (f : τ → τ) : Strict (update f) :=
  .execute _

lemma Strict.forM {l : List β} {f : β → Sql τ Unit} (h : ∀ b, Strict (f b)) : Strict (l.forM f) := by
  induction l with
  | nil => exact .pure ()
  | cons b l ih => exact .bind (h b) fun _ => ih

/-- What such a program returns and leaves is what it does in a database that refuses nothing. -/
lemma Strict.evals {m : Sql τ α} (h : Strict m) {t t' : τ} {r : Except DbError α}
    (hevals : Evals m t r t') {c : Conn τ} (ht : c.tables = t) {a : α} (hres : m.result c = .ok a) :
    r = .ok a ∧ (m.after c).tables = t' := by
  obtain ⟨hres', htables, -⟩ := hevals { c with faults := [] } ht rfl
  have hrun := h c a hres
  unfold EStateM.result at hres'
  unfold EStateM.after at htables
  rw [hrun] at hres' htables
  exact ⟨hres'.symm, htables⟩

/-! ## Programs in a database that refuses nothing -/

/-- The program does not make the database refuse statements. -/
def Unfaulted (m : Sql τ α) : Prop :=
  ∀ c, c.faults = [] → (m.after c).faults = []

lemma Unfaulted.pure (a : α) : Unfaulted (pure a : Sql τ α) :=
  fun _ h => h

lemma Unfaulted.bind {m : Sql τ α} {f : α → Sql τ β} (hm : Unfaulted m) (hf : ∀ a, Unfaulted (f a)) :
    Unfaulted (m >>= f) := by
  intro c hc
  rw [EStateM.after_bind]
  cases m.result c with
  | ok a => exact hf a _ (hm c hc)
  | error e => exact hm c hc

lemma Unfaulted.statement (e : StmtEvent) (f : τ → Except DbError (α × τ)) :
    Unfaulted (Sql.statement e f) := by
  intro c hc
  have hstep : ∀ e' t, (step c e' t).faults = [] := by simp [step, hc]
  rcases statement_cases e f c with ⟨err, -, hafter⟩ | ⟨a, t, -, -, -, hafter⟩
  · rw [hafter]
    exact hstep _ _
  · rw [hafter]
    exact hstep _ _

lemma Unfaulted.forM {l : List β} {f : β → Sql τ Unit} (h : ∀ b, Unfaulted (f b)) :
    Unfaulted (l.forM f) := by
  induction l with
  | nil => exact .pure ()
  | cons b l ih => exact .bind (h b) fun _ => ih

lemma Unfaulted.transaction {m : Sql τ α} (h : Unfaulted m) : Unfaulted (Sql.transaction m) := by
  intro c hc
  have hm := h { c with log := [] } hc
  unfold EStateM.after at hm ⊢
  unfold Sql.transaction
  cases hrun : m { c with log := [] } with
  | ok a c' => rwa [hrun] at hm
  | error e c' => rwa [hrun] at hm

/-- In a database that refuses nothing the program leaves everything as it is when it stops with an error. -/
structure Clean (m : Sql τ α) : Prop where
  faults : Unfaulted m
  error : ∀ c e, c.faults = [] → m.result c = .error e → (m.after c).tables = c.tables

/-- In a database that refuses nothing the program returns. -/
structure Smooth (m : Sql τ α) : Prop where
  faults : Unfaulted m
  returns : ∀ c, c.faults = [] → ∃ a, m.result c = .ok a

lemma Smooth.clean {m : Sql τ α} (h : Smooth m) : Clean m := by
  refine ⟨h.faults, fun c e hc herror => ?_⟩
  obtain ⟨a, ha⟩ := h.returns c hc
  rw [ha] at herror
  cases herror

lemma Smooth.pure (a : α) : Smooth (pure a : Sql τ α) :=
  ⟨.pure a, fun _ _ => ⟨a, rfl⟩⟩

lemma Smooth.bind {m : Sql τ α} {f : α → Sql τ β} (hm : Smooth m) (hf : ∀ a, Smooth (f a)) :
    Smooth (m >>= f) := by
  refine ⟨hm.faults.bind fun a => (hf a).faults, fun c hc => ?_⟩
  obtain ⟨a, ha⟩ := hm.returns c hc
  rw [EStateM.result_bind, ha]
  exact (hf a).returns _ (hm.faults c hc)

/-- A statement that its function answers. -/
lemma Smooth.statement {e : StmtEvent} {f : τ → Except DbError (α × τ)} (h : ∀ t, ∃ p, f t = .ok p) :
    Smooth (Sql.statement e f) := by
  refine ⟨.statement e f, fun c hc => ?_⟩
  rcases statement_cases e f c with ⟨err, hres, -⟩ | ⟨a, t, -, -, hres, -⟩
  · obtain ⟨p, hp⟩ := h c.tables
    unfold EStateM.result Sql.statement at hres
    simp [refused, hc, hp] at hres
  · exact ⟨a, hres⟩

lemma Smooth.select (f : τ → α) : Smooth (select f) :=
  .statement fun _ => ⟨_, rfl⟩

lemma Smooth.update (f : τ → τ) : Smooth (update f) := by
  unfold Sql.update Sql.execute
  exact .statement fun _ => ⟨_, rfl⟩

/-- A single statement that fails has changed nothing. -/
lemma Clean.statement (e : StmtEvent) (f : τ → Except DbError (α × τ)) : Clean (Sql.statement e f) := by
  refine ⟨.statement e f, fun c err _ herror => ?_⟩
  rcases statement_cases e f c with ⟨err', -, hafter⟩ | ⟨a, t, -, -, hres, -⟩
  · rw [hafter]
    rfl
  · rw [hres] at herror
    cases herror

/-! ## Relations in a database that refuses nothing -/

/-- The relation `R` between the contents, for a database that refuses no statement. -/
def Unrefused (R : τ → τ → Prop) (c c' : Conn τ) : Prop :=
  c.faults = [] → c'.faults = [] ∧ R c.tables c'.tables

section Unrefused

variable {R : τ → τ → Prop} [IsPreorder τ R]

instance : Frame (Unrefused R) where
  refl c hc := ⟨hc, refl_of R c.tables⟩
  trans _ _ _ h h' hc := ⟨(h' (h hc).1).1, trans_of R (h hc).2 (h' (h hc).1).2⟩
  idle c e hc := ⟨by simp [step, hc], refl_of R c.tables⟩

omit [IsPreorder τ R] in
/-- A program keeps the relation if what it evaluates to is related. -/
lemma Unrefused.of_evals {m : Sql τ α} (h : ∀ t, ∃ r t', Evals m t r t' ∧ R t t') :
    EStateM.Keeps (Unrefused R) m := by
  intro c hc
  obtain ⟨r, t', hm, hR⟩ := h c.tables
  obtain ⟨-, htables, hfaults, -⟩ := hm c rfl hc
  rw [htables]
  exact ⟨hfaults, hR⟩

end Unrefused

end Sql

end Lib
