import Nomina.Lib.Job

/-!
# Derived values that jobs refresh

A pool of jobs shares a source and a value that is derived from it. A job that changes the source refreshes
the value before it is done: it loads what the source gives, and later puts this in place of the shared
value; in between others may change the source and refresh the value as well. The state counts the changes
of the source, and for the shared value the changes that it has seen.

If no job puts a value in place that has seen fewer changes than the one it replaces, the shared value is the
derived one whenever no job is under way. The proof carries along for each job the number of its own last
change: it is owed until the shared value has seen it.
-/

namespace Lib

/-- A value that is derived from a source, both parts of a state; `ok` says that what is loaded from the
source is right. -/
structure Derived (σ τ δ : Type) where
  source : σ → τ
  value : σ → δ
  derive : τ → δ
  changes : σ → ℕ
  seen : σ → ℕ
  ok : σ → Prop

namespace Derived

variable {σ τ δ ε ε' α β ρ : Type} (D : Derived σ τ δ)

/-- The value has seen no more changes than there were. -/
structure Good (s : σ) : Prop where
  ok : D.ok s
  le : D.seen s ≤ D.changes s

/-- What the other jobs do: the counts do not go back, and without a change the source is the same. -/
structure Rely (s s' : σ) : Prop where
  good : D.Good s → D.Good s'
  changes : D.changes s ≤ D.changes s'
  seen : D.seen s ≤ D.seen s'
  source : D.changes s = D.changes s' → D.source s' = D.source s

instance : IsPreorder σ D.Rely where
  refl _ := ⟨id, Nat.le_refl _, Nat.le_refl _, fun _ => rfl⟩
  trans _ _ _ h h' := by
    refine ⟨h'.good ∘ h.good, Nat.le_trans h.changes h'.changes, Nat.le_trans h.seen h'.seen, fun heq => ?_⟩
    have hfirst : D.changes _ = D.changes _ :=
      Nat.le_antisymm h.changes (Nat.le_trans h'.changes (Nat.le_of_eq heq.symm))
    rw [h'.source (hfirst.symm.trans heq), h.source hfirst]

/-- A turn that leaves the source and the value as they are. -/
structure Neutral (s s' : σ) : Prop where
  ok : D.ok s → D.ok s'
  source : D.source s' = D.source s
  value : D.value s' = D.value s
  changes : D.changes s' = D.changes s
  seen : D.seen s' = D.seen s

/-- A turn of a job that owes the change `v`: it is neutral, or changes the source and owes that, or puts a
value in place that is the derived one if it has seen all changes. -/
inductive Turn (v : ℕ) (s s' : σ) : ℕ → Prop
  | neutral (h : D.Neutral s s') : Turn v s s' v
  | change (ok : D.ok s → D.ok s') (changes : D.changes s' = D.changes s + 1)
      (value : D.value s' = D.value s) (seen : D.seen s' = D.seen s) : Turn v s s' (D.changes s')
  | install (ok : D.ok s → D.ok s') (source : D.source s' = D.source s)
      (changes : D.changes s' = D.changes s) (le : D.seen s' ≤ D.changes s)
      (value : D.seen s' = D.changes s → D.value s' = D.derive (D.source s)) : Turn v s s' v

variable {D}

lemma Neutral.good {s s' : σ} (h : D.Neutral s s') (hs : D.Good s) : D.Good s' := by
  refine ⟨h.ok hs.ok, ?_⟩
  rw [h.seen, h.changes]
  exact hs.le

variable (D)

/-- A job that owes `v`, from the state `s`. -/
abbrev Does (p : Job σ ε α) (v : ℕ) (s : σ) (Q : Except ε α → ℕ → σ → Prop) : Prop :=
  p.Safe D.Rely (fun v s s' v' => D.Turn v s s' v') v s Q

/-- If everything that the job owes is seen, this is so when it is done. -/
def Settles (p : Job σ ε α) : Prop :=
  ∀ v s, D.Good s → v ≤ D.seen s → D.Does p v s fun _ v' s' => D.Good s' ∧ v' ≤ D.seen s'

/-- Whatever the job owes, everything is seen when it is done. -/
def Pays (p : Job σ ε α) : Prop :=
  ∀ v s, D.Good s → v ≤ D.changes s → D.Does p v s fun _ v' s' => D.Good s' ∧ v' ≤ D.seen s'

/-- The job returns a value, and may owe changes then. -/
def Owes (p : Job σ ε α) : Prop :=
  ∀ v s, D.Good s → v ≤ D.changes s →
    D.Does p v s fun r v' s' => D.Good s' ∧ v' ≤ D.changes s' ∧ ∃ a, r = .ok a

/-- If everything that the job owes is seen, it may owe changes when it returns a value, but none when it
stops with an error. -/
def Commits (p : Job σ ε α) : Prop :=
  ∀ v s, D.Good s → v ≤ D.seen s → D.Does p v s fun r v' s' => D.Good s' ∧ v' ≤ D.changes s' ∧
    ∀ e, r = .error e → v' ≤ D.seen s'

variable {D}

/-! ## Jobs that settle -/

lemma Settles.pure (a : α) : D.Settles (Pure.pure a : Job σ ε α) :=
  fun _ _ hgood hv _ hs => ⟨hs.good hgood, Nat.le_trans hv hs.seen⟩

lemma Settles.ofExcept (r : Except ε α) : D.Settles (Job.ofExcept r) :=
  fun _ _ hgood hv _ hs => ⟨hs.good hgood, Nat.le_trans hv hs.seen⟩

lemma Settles.bind {p : Job σ ε α} {k : α → Job σ ε β} (hp : D.Settles p) (hk : ∀ a, D.Settles (k a)) :
    D.Settles (p >>= k) := by
  intro v s hgood hv
  refine Job.Safe.bind (P := fun _ v' s' => D.Good s' ∧ v' ≤ D.seen s')
    ((hp v s hgood hv).mono fun r v' s' h => ?_) fun a v' s' h => hk a v' s' h.1 h.2
  cases r with
  | ok a => exact h
  | error e => exact h

lemma Settles.attempt {p : Job σ ε α} (hp : D.Settles p) :
    D.Settles (p.attempt : Job σ ε' (Except ε α)) :=
  fun v s hgood hv => Job.Safe.attempt (hp v s hgood hv)

/-- A neutral turn. -/
lemma Settles.atomically {f : σ → Except ε α × σ} (h : ∀ s, D.Good s → D.Neutral s (f s).2) :
    D.Settles (Job.atomically f) := by
  intro v s hgood hv t ht
  have hneutral := h t (ht.good hgood)
  refine ⟨v, .neutral hneutral, fun t' ht' => ⟨ht'.good (hneutral.good (ht.good hgood)), ?_⟩⟩
  have hseen := ht'.seen
  rw [hneutral.seen] at hseen
  exact Nat.le_trans hv (Nat.le_trans ht.seen hseen)

/-! ## Jobs that owe and pay -/

lemma Pays.settles {p : Job σ ε α} (hp : D.Pays p) : D.Settles p :=
  fun v s hgood hv => hp v s hgood (Nat.le_trans hv hgood.le)

lemma Pays.bind {p : Job σ ε α} {k : α → Job σ ε β} (hp : D.Pays p) (hk : ∀ a, D.Settles (k a)) :
    D.Pays (p >>= k) := by
  intro v s hgood hv
  refine Job.Safe.bind (P := fun _ v' s' => D.Good s' ∧ v' ≤ D.seen s')
    ((hp v s hgood hv).mono fun r v' s' h => ?_) fun a v' s' h => hk a v' s' h.1 h.2
  cases r with
  | ok a => exact h
  | error e => exact h

lemma Pays.attempt {p : Job σ ε α} (hp : D.Pays p) : D.Pays (p.attempt : Job σ ε' (Except ε α)) :=
  fun v s hgood hv => Job.Safe.attempt (hp v s hgood hv)

lemma Owes.pure (a : α) : D.Owes (Pure.pure a : Job σ ε α) :=
  fun _ _ hgood hv _ hs => ⟨hs.good hgood, Nat.le_trans hv hs.changes, a, rfl⟩

lemma Owes.bind {p : Job σ ε α} {k : α → Job σ ε β} (hp : D.Owes p) (hk : ∀ a, D.Owes (k a)) :
    D.Owes (p >>= k) := by
  intro v s hgood hv
  refine Job.Safe.bind (P := fun _ v' s' => D.Good s' ∧ v' ≤ D.changes s')
    ((hp v s hgood hv).mono fun r v' s' h => ?_) fun a v' s' h => hk a v' s' h.1 h.2
  obtain ⟨hgood', hv', a, rfl⟩ := h
  exact ⟨hgood', hv'⟩

/-- What a job owes is paid by the next one. -/
lemma Owes.pays {p : Job σ ε α} {k : α → Job σ ε β} (hp : D.Owes p) (hk : ∀ a, D.Pays (k a)) :
    D.Pays (p >>= k) := by
  intro v s hgood hv
  refine Job.Safe.bind (P := fun _ v' s' => D.Good s' ∧ v' ≤ D.changes s')
    ((hp v s hgood hv).mono fun r v' s' h => ?_) fun a v' s' h => hk a v' s' h.1 h.2
  obtain ⟨hgood', hv', a, rfl⟩ := h
  exact ⟨hgood', hv'⟩

/-- The same, if the first job owes nothing when it stops with an error. -/
lemma Commits.settles {p : Job σ ε α} {k : α → Job σ ε β} (hp : D.Commits p) (hk : ∀ a, D.Pays (k a)) :
    D.Settles (p >>= k) := by
  intro v s hgood hv
  refine Job.Safe.bind (P := fun _ v' s' => D.Good s' ∧ v' ≤ D.changes s')
    ((hp v s hgood hv).mono fun r v' s' h => ?_) fun a v' s' h => hk a v' s' h.1 h.2
  cases r with
  | ok a => exact ⟨h.1, h.2.1⟩
  | error e => exact ⟨h.1, h.2.2 e rfl⟩

/-- A turn that leaves the source as it is, or counts a change of it. -/
structure Counted (D : Derived σ τ δ) (s s' : σ) : Prop where
  ok : D.ok s'
  value : D.value s' = D.value s
  seen : D.seen s' = D.seen s
  source : D.source s' = D.source s ∧ D.changes s' = D.changes s ∨ D.changes s' = D.changes s + 1

/-- Such a turn is one that a job may take, and what it owes then is at most the last change. -/
lemma Counted.turn {s s' : σ} (h : D.Counted s s') (hs : D.Good s) {v : ℕ} (hv : v ≤ D.changes s) :
    ∃ v', D.Turn v s s' v' ∧ D.Good s' ∧ v' ≤ D.changes s' ∧ (D.changes s' = D.changes s → v' = v) := by
  rcases h.source with ⟨hsource, hchanges⟩ | hchanges
  · have hneutral : D.Neutral s s' := ⟨fun _ => h.ok, hsource, h.value, hchanges, h.seen⟩
    exact ⟨v, .neutral hneutral, hneutral.good hs, hchanges ▸ hv, fun _ => rfl⟩
  · refine ⟨D.changes s', .change (fun _ => h.ok) hchanges h.value h.seen, ⟨h.ok, ?_⟩, Nat.le_refl _, ?_⟩
    · rw [h.seen, hchanges]
      exact Nat.le_succ_of_le hs.le
    · intro heq
      omega

lemma Owes.atomically {f : σ → Except ε α × σ}
    (h : ∀ s, D.Good s → D.Counted s (f s).2 ∧ ∃ a, (f s).1 = .ok a) : D.Owes (Job.atomically f) := by
  intro v s hgood hv t ht
  obtain ⟨hcounted, a, ha⟩ := h t (ht.good hgood)
  obtain ⟨v', hturn, hgood', hv', -⟩ := hcounted.turn (ht.good hgood) (Nat.le_trans hv ht.changes)
  exact ⟨v', hturn, fun t' ht' => ⟨ht'.good hgood', Nat.le_trans hv' ht'.changes, a, ha⟩⟩

lemma Commits.atomically {f : σ → Except ε α × σ}
    (h : ∀ s, D.Good s → D.Counted s (f s).2 ∧
      ∀ e, (f s).1 = .error e → D.changes (f s).2 = D.changes s) : D.Commits (Job.atomically f) := by
  intro v s hgood hv t ht
  have hgood' := ht.good hgood
  obtain ⟨hcounted, herror⟩ := h t hgood'
  have hseen : v ≤ D.seen t := Nat.le_trans hv ht.seen
  obtain ⟨v', hturn, hgood'', hv', hsame⟩ := hcounted.turn hgood' (Nat.le_trans hseen hgood'.le)
  refine ⟨v', hturn, fun t' ht' => ⟨ht'.good hgood'', Nat.le_trans hv' ht'.changes, fun e he => ?_⟩⟩
  rw [hsame (herror e he)]
  have hseen' := ht'.seen
  rw [hcounted.seen] at hseen'
  exact Nat.le_trans hseen hseen'

/-- A refresh: it reads something with the number of changes, loads a value, and puts it in place. If there
was no change since the first turn, the value is the derived one. -/
lemma Pays.refresh {f : σ → β} {n : β → ℕ} {load : β → σ → Except ε α × σ} {install : β → α → σ → σ}
    (hn : ∀ s, n (f s) = D.changes s)
    (hload : ∀ b s, D.Good s → D.Neutral s (load b s).2 ∧ ∃ a, (load b s).1 = .ok a)
    (hinstall : ∀ b a s, (D.ok s → D.ok (install b a s)) ∧ D.source (install b a s) = D.source s ∧
      D.changes (install b a s) = D.changes s ∧ D.seen (install b a s) = n b)
    (hvalue : ∀ s₀ s₁ a s, D.Good s₁ → D.source s₁ = D.source s₀ → (load (f s₀) s₁).1 = .ok a →
      D.value (install (f s₀) a s) = D.derive (D.source s₀)) :
    D.Pays (Job.atomically (fun s => (.ok (f s), s)) >>= fun b =>
      Job.atomically (load b) >>= fun a => Job.atomically fun s => (.ok (), install b a s)) := by
  intro v s hgood hv s₀ hs₀
  have hgood₀ := hs₀.good hgood
  refine ⟨v, .neutral ⟨fun h => h, rfl, rfl, rfl, rfl⟩, fun s₁ hs₁ => ?_⟩
  obtain ⟨hneutral, a, ha⟩ := hload (f s₀) s₁ (hs₁.good hgood₀)
  have hgood₁ := hneutral.good (hs₁.good hgood₀)
  refine ⟨v, .neutral hneutral, ?_⟩
  dsimp only
  rw [ha]
  intro s₂ hs₂
  obtain ⟨hok, hsource, hchanges, hseen⟩ := hinstall (f s₀) a s₂
  have hgood₂ := hs₂.good hgood₁
  -- What was counted at the first turn is no more than what is counted now.
  have hcount : n (f s₀) ≤ D.changes s₁ := (hn s₀).symm ▸ hs₁.changes
  have hcount₂ : D.changes s₁ ≤ D.changes s₂ := hneutral.changes ▸ hs₂.changes
  refine ⟨v, .install hok hsource hchanges ?_ fun heq => ?_, fun s₃ hs₃ => ?_⟩
  · rw [hseen]
    exact Nat.le_trans hcount hcount₂
  · rw [hseen] at heq
    have hsame : D.changes s₀ = D.changes s₁ := by
      have := hn s₀
      omega
    have hsame₂ : D.changes (load (f s₀) s₁).2 = D.changes s₂ := by
      rw [hneutral.changes]
      omega
    rw [hs₂.source hsame₂, hneutral.source, hs₁.source hsame]
    exact hvalue s₀ s₁ a s₂ (hs₁.good hgood₀) (hs₁.source hsame) ha
  · refine ⟨hs₃.good ⟨hok hgood₂.ok, ?_⟩, ?_⟩
    · rw [hseen, hchanges]
      exact Nat.le_trans hcount hcount₂
    · have hle := hs₃.seen
      rw [hseen] at hle
      exact Nat.le_trans (Nat.le_trans hv hs₀.changes) ((hn s₀).symm ▸ hle)

/-! ## Pools -/

/-- The shared value is the derived one if it has seen all changes, and the last change was made by one of
the jobs. -/
structure Inv (D : Derived σ τ δ) (vs : List ℕ) (s : σ) : Prop where
  good : D.Good s
  value : D.seen s = D.changes s → D.value s = D.derive (D.source s)
  last : D.changes s = 0 ∨ D.changes s ∈ vs

/-- The value in place is replaced by one that has seen no fewer changes. -/
def InOrder (D : Derived σ τ δ) (s s' : σ) : Prop :=
  D.seen s ≤ D.seen s'

instance (D : Derived σ τ δ) : DecidableRel D.InOrder :=
  fun s s' => inferInstanceAs (Decidable (D.seen s ≤ D.seen s'))

lemma Inv.turn {vs : List ℕ} {s s' : σ} {i v v' : ℕ} (h : D.Inv vs s) (hi : vs[i]? = some v)
    (hturn : D.Turn v s s' v') (hord : D.InOrder s s') : D.Rely s s' ∧ D.Inv (vs.set i v') s' := by
  obtain ⟨hlt, hget⟩ := List.getElem?_eq_some_iff.mp hi
  have hset : vs.set i v = vs := hget ▸ List.set_getElem_self hlt
  cases hturn with
  | neutral hneutral =>
    have hgood := hneutral.good h.good
    refine ⟨⟨fun _ => hgood, Nat.le_of_eq hneutral.changes.symm, hord, fun _ => hneutral.source⟩, hgood, ?_, ?_⟩
    · rw [hneutral.seen, hneutral.changes, hneutral.value, hneutral.source]
      exact h.value
    · rw [hset, hneutral.changes]
      exact h.last
  | change ok changes value seen =>
    have hgood : D.Good s' := ⟨ok h.good.ok, by rw [seen, changes]; exact Nat.le_succ_of_le h.good.le⟩
    refine ⟨⟨fun _ => hgood, ?_, hord, fun heq => ?_⟩, hgood, fun heq => ?_, .inr ?_⟩
    · rw [changes]
      exact Nat.le_succ _
    · omega
    · have hle := h.good.le
      omega
    · exact List.mem_iff_getElem.mpr ⟨i, by rwa [List.length_set], List.getElem_set_self _⟩
  | install ok source changes le value =>
    have hgood : D.Good s' := ⟨ok h.good.ok, changes ▸ le⟩
    refine ⟨⟨fun _ => hgood, Nat.le_of_eq changes.symm, hord, fun _ => source⟩, hgood, fun heq => ?_, ?_⟩
    · rw [source]
      exact value (heq.trans changes)
    · rw [hset, changes]
      exact h.last

/-- If jobs that settle all changes run in any order, and every value is put in place in order, the shared
value is the derived one whenever no job is under way. -/
theorem value_of_run {handle : ρ → Job σ ε α} (hhandle : ∀ request, D.Settles (handle request)) {s : σ}
    (hgood : D.Good s) (hchanges : D.changes s = 0) (hvalue : D.value s = D.derive (D.source s))
    {as : List (PoolStep ρ)} {p : Pool σ ε α}
    (hord : Along (Pool.step handle) (Pool.Meets handle (fun _ => True) D.InOrder) ⟨s, []⟩ as)
    (hrun : run (Pool.step handle) ⟨s, []⟩ as = some p) (hquiet : p.Quiet) :
    D.value p.shared = D.derive (D.source p.shared) := by
  have hsound : p.Sound D.Rely (fun v s s' v' => D.Turn v s s' v') D.Inv
      fun _ v' s' => D.Good s' ∧ v' ≤ D.seen s' := by
    refine Pool.Sound.of_run (fun vs s request _ h => ⟨0, ?_, ?_⟩)
      (fun vs s s' i v v' h hi hturn hord => h.turn hi hturn hord) ⟨[], ?_, .nil⟩ hord hrun
    · exact ⟨h.good, h.value, h.last.imp_right (List.mem_append_left _)⟩
    · exact hhandle request 0 s h.good (Nat.zero_le _)
    · exact ⟨hgood, fun _ => hvalue, .inl hchanges⟩
  obtain ⟨vs, hinv, hdone⟩ := hsound.quiet hquiet
  refine hinv.value (Nat.le_antisymm hinv.good.le ?_)
  rcases hinv.last with hzero | hlast
  · rw [hzero]
    exact Nat.zero_le _
  · -- The job that made the last change is done, so the value has seen it.
    obtain ⟨r, -, hle⟩ := hdone _ hlast
    exact hle

end Derived

end Lib
