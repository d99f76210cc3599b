import Nomina.Dns.Resolve

/-!
# Load balancing

`apply_load_balance` gathers the addresses of each family in an answer, reorders them and puts them back
into the same places. Nothing else moves, and with round robin the addresses of a family are rotated.
-/

namespace Nomina

open Lib

/-- The records of a type, in order. -/
def ofType (t : RecordType) (records : List Record) : List Record :=
  records.filter fun r => r.data.recordType = t

section Refill

variable {rtype t : RecordType} {answers group : List Record}

/-- A record of another type stays in its place. -/
lemma getElem?_refill {i : ℕ} {r : Record} (hr : answers[i]? = some r) (htype : r.data.recordType ≠ rtype) :
    (refill rtype answers group)[i]? = some r := by
  induction answers generalizing group i with
  | nil => cases hr
  | cons a answers ih =>
    unfold refill
    cases i with
    | zero =>
      obtain rfl : a = r := Option.some.inj hr
      rw [if_neg htype]
      rfl
    | succ i =>
      split
      · split
        · exact ih hr
        · exact ih hr
      · exact ih hr

/-- The places of a type are filled with the group, in order. -/
lemma ofType_refill (hgroup : ∀ r ∈ group, r.data.recordType = rtype)
    (hlength : group.length = (ofType rtype answers).length) :
    ofType rtype (refill rtype answers group) = group := by
  induction answers generalizing group with
  | nil => exact (List.length_eq_zero_iff.mp hlength).symm
  | cons a answers ih =>
    unfold refill
    by_cases ha : a.data.recordType = rtype
    · rw [if_pos ha]
      unfold ofType at hlength ih ⊢
      rw [List.filter_cons_of_pos (by simpa using ha), List.length_cons] at hlength
      cases group with
      | nil => cases hlength
      | cons g group =>
        obtain ⟨hg, hrest⟩ := List.forall_mem_cons.mp hgroup
        dsimp only
        rw [List.filter_cons_of_pos (by simpa using hg), ih hrest (Nat.succ.inj hlength)]
    · rw [if_neg ha]
      unfold ofType at hlength ih ⊢
      rw [List.filter_cons_of_neg (by simpa using ha)] at hlength ⊢
      exact ih hgroup hlength

/-- The records of another type are the same. -/
lemma ofType_refill_of_ne (hgroup : ∀ r ∈ group, r.data.recordType = rtype) (ht : t ≠ rtype) :
    ofType t (refill rtype answers group) = ofType t answers := by
  induction answers generalizing group with
  | nil => rfl
  | cons a answers ih =>
    unfold refill
    unfold ofType at ih ⊢
    by_cases ha : a.data.recordType = rtype
    · have hne : ¬ a.data.recordType = t := fun h => ht (h.symm.trans ha)
      rw [if_pos ha, List.filter_cons_of_neg (by simpa using hne)]
      cases group with
      | nil =>
        dsimp only
        rw [List.filter_cons_of_neg (by simpa using hne)]
        exact ih (by simp)
      | cons g group =>
        obtain ⟨hg, hrest⟩ := List.forall_mem_cons.mp hgroup
        have hgne : ¬ g.data.recordType = t := fun h => ht (h.symm.trans hg)
        dsimp only
        rw [List.filter_cons_of_neg (by simpa using hgne)]
        exact ih hrest
    · rw [if_neg ha, List.filter_cons, List.filter_cons, ih hgroup]

end Refill

section Spread

variable {reorder : List Record → List Record}

/-- Reordering a type leaves the records of others in their places. -/
lemma getElem?_spread {answers : List Record} {rtype : RecordType} {i : ℕ} {r : Record}
    (hr : answers[i]? = some r) (htype : r.data.recordType ≠ rtype) :
    (spread reorder answers rtype)[i]? = some r := by
  unfold spread
  dsimp only
  split
  · exact hr
  · exact getElem?_refill hr htype

/-- The records of the type are reordered, those of others are the same. -/
lemma ofType_spread (hreorder : ∀ l, (reorder l).Perm l) (answers : List Record) (rtype : RecordType) :
    ofType rtype (spread reorder answers rtype) = reorder (ofType rtype answers) ∧
      ∀ t, t ≠ rtype → ofType t (spread reorder answers rtype) = ofType t answers := by
  have hperm := hreorder (ofType rtype answers)
  have hgroup : ∀ r ∈ reorder (ofType rtype answers), r.data.recordType = rtype := by
    intro r hr
    simpa using (List.mem_filter.mp (hperm.mem_iff.mp hr)).2
  unfold spread
  change ofType rtype (if (ofType rtype answers).length < 2 then answers
      else refill rtype answers (reorder (ofType rtype answers))) = _ ∧ ∀ t, t ≠ rtype →
    ofType t (if (ofType rtype answers).length < 2 then answers
      else refill rtype answers (reorder (ofType rtype answers))) = _
  split
  · rename_i hshort
    refine ⟨?_, fun _ _ => rfl⟩
    -- There is only one order of at most one record.
    match hsub : ofType rtype answers, hperm, hshort with
    | [], hperm, _ => exact hperm.symm.nil_eq
    | [r], hperm, _ => exact (List.perm_singleton.mp hperm).symm
  · exact ⟨ofType_refill hgroup hperm.length_eq, fun t ht => ofType_refill_of_ne hgroup ht⟩

end Spread

/-- The answers are the same, with the addresses of each family permuted among their places. -/
structure Balanced (answers answers' : List Record) : Prop where
  length : answers'.length = answers.length
  perm : answers'.Perm answers
  types : answers'.map (·.data.recordType) = answers.map (·.data.recordType)
  places : ∀ (i : ℕ) (r : Record), answers[i]? = some r → r.data.recordType ≠ .A →
    r.data.recordType ≠ .AAAA → answers'[i]? = some r

/-- Answers are a way to balance themselves. -/
lemma Balanced.refl (answers : List Record) : Balanced answers answers :=
  ⟨rfl, .refl _, rfl, fun _ _ hr _ _ => hr⟩

/-- Reordering the addresses of each family balances the answers. -/
lemma balanced_spread {reorder : List Record → List Record} (hreorder : ∀ l, (reorder l).Perm l)
    (answers : List Record) :
    Balanced answers ([RecordType.A, .AAAA].foldl (spread reorder) answers) ∧
      ∀ t ∈ [RecordType.A, .AAAA],
        ofType t ([RecordType.A, .AAAA].foldl (spread reorder) answers) = reorder (ofType t answers) := by
  obtain ⟨hperm₁, htypes₁⟩ := spread_spec hreorder answers .A
  obtain ⟨hperm₂, htypes₂⟩ := spread_spec hreorder (spread reorder answers .A) .AAAA
  obtain ⟨hA, hrest₁⟩ := ofType_spread hreorder answers .A
  obtain ⟨hAAAA, hrest₂⟩ := ofType_spread hreorder (spread reorder answers .A) .AAAA
  constructor
  · have hperm := hperm₂.trans hperm₁
    exact ⟨hperm.length_eq, hperm, htypes₂.trans htypes₁, fun i r hr hneA hneAAAA =>
      getElem?_spread (getElem?_spread hr hneA) hneAAAA⟩
  · intro t ht
    rcases List.mem_cons.mp ht with rfl | ht
    · exact (hrest₂ .A (by decide)).trans hA
    · rw [List.mem_singleton.mp ht]
      exact hAAAA.trans (congrArg reorder (hrest₁ .AAAA (by decide)))

/-- Load balancing only permutes the addresses of each family among their places; with round robin and at
least two answers each family is rotated by the counter, and switched off it changes nothing. -/
theorem applyLoadBalance_spec (C : Config) (E : Env) (answers : List Record) (s : Resolver) :
    ∃ answers' n, applyLoadBalance C E answers s = .ok answers' { s with rrCounter := n } ∧
      Balanced answers answers' ∧
      (C.settings.loadBalance = .RoundRobin → 2 ≤ answers.length → ∀ t ∈ [RecordType.A, .AAAA],
        ofType t answers' = (ofType t answers).rotate (s.rrCounter % (ofType t answers).length)) ∧
      (C.settings.loadBalance = .Off → answers' = answers) := by
  unfold applyLoadBalance
  by_cases hshort : answers.length < 2
  · rw [if_pos hshort]
    refine ⟨answers, s.rrCounter, rfl, .refl _, fun _ hlong => ?_, fun _ => rfl⟩
    omega
  · rw [if_neg hshort]
    cases hmode : C.settings.loadBalance with
    | Off => exact ⟨answers, s.rrCounter, rfl, .refl _, fun h => (nomatch h), fun _ => rfl⟩
    | RoundRobin =>
      obtain ⟨hbalanced, hrotated⟩ :=
        balanced_spread (fun l => List.rotate_perm l (s.rrCounter % l.length)) answers
      exact ⟨_, s.rrCounter + 1, rfl, hbalanced, fun _ _ => hrotated, fun h => (nomatch h)⟩
    | Random =>
      obtain ⟨hbalanced, -⟩ := balanced_spread E.shuffle_perm answers
      exact ⟨_, s.rrCounter, rfl, hbalanced, fun h => (nomatch h), fun h => (nomatch h)⟩

end Nomina
