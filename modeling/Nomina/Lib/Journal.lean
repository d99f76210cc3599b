import Mathlib.Data.List.Induction
import Mathlib.Data.List.Basic
import Mathlib.Tactic.Common

/-!
# Journals

A journal of what happened to the entries of a keyed table: values put under a key and keys dropped. What
a table holds under a key is the value put there last, unless the key was dropped since. The moments of a
journal are its prefixes, so "the table held a value at some moment after another one" is a statement about
two lengths.
-/

namespace Lib

/-- What happened to the entry of a key. -/
inductive JournalEntry (κ α : Type)
  | put (k : κ) (a : α)
  | drop (k : κ)
deriving DecidableEq

/-- The key of an entry. -/
def JournalEntry.key {κ α : Type} : JournalEntry κ α → κ
  | put k _ => k
  | drop k => k

/-- A journal, from its first entry to its last. -/
abbrev Journal (κ α : Type) := List (JournalEntry κ α)

namespace Journal

variable {κ α : Type} [DecidableEq κ]

/-- The effect of an entry on what is held under `k`. -/
def effect (k : κ) (held : Option α) : JournalEntry κ α → Option α
  | .put k' a => if k' = k then some a else held
  | .drop k' => if k' = k then none else held

/-- What is held under a key after the whole journal. -/
def latest (log : Journal κ α) (k : κ) : Option α :=
  log.foldl (effect k) none

variable {log : Journal κ α} {k : κ} {a : α}

@[simp] lemma latest_nil : latest ([] : Journal κ α) k = none := rfl

lemma latest_append_singleton (e : JournalEntry κ α) :
    latest (log ++ [e]) k = effect k (latest log k) e := by
  unfold latest
  rw [List.foldl_append, List.foldl_cons, List.foldl_nil]

@[simp] lemma latest_put_self : latest (log ++ [.put k a]) k = some a := by
  rw [latest_append_singleton, effect, if_pos rfl]

lemma latest_put_of_ne {k' : κ} (h : k' ≠ k) : latest (log ++ [.put k' a]) k = latest log k := by
  rw [latest_append_singleton, effect, if_neg h]

@[simp] lemma latest_drop_self : latest (log ++ [.drop k]) k = none := by
  rw [latest_append_singleton, effect, if_pos rfl]

lemma latest_drop_of_ne {k' : κ} (h : k' ≠ k) : latest (log ++ [.drop k']) k = latest log k := by
  rw [latest_append_singleton, effect, if_neg h]

/-- Entries about other keys change nothing. -/
lemma latest_of_key_ne {e : JournalEntry κ α} (h : e.key ≠ k) :
    latest (log ++ [e]) k = latest log k := by
  cases e with
  | put k' a => exact latest_put_of_ne h
  | drop k' => exact latest_drop_of_ne h

lemma latest_append_of_key_ne {more : Journal κ α} (h : ∀ e ∈ more, e.key ≠ k) :
    latest (log ++ more) k = latest log k := by
  induction more using List.reverseRecOn with
  | nil => rw [List.append_nil]
  | append_singleton more e ih =>
    rw [← List.append_assoc, latest_of_key_ne (h e (List.mem_append_right _ List.mem_cons_self))]
    exact ih fun e he => h e (List.mem_append_left _ he)

/-! ## Moments -/

/-- What is held at a moment: after the first `n` entries. -/
def heldAt (log : Journal κ α) (n : ℕ) (k : κ) : Option α :=
  latest (log.take n) k

/-- The moments of a journal stay the same when it goes on. -/
lemma heldAt_append {n : ℕ} (more : Journal κ α) (h : n ≤ log.length) :
    heldAt (log ++ more) n k = heldAt log n k := by
  unfold heldAt
  rw [List.take_append_of_le_length h]

@[simp] lemma heldAt_length : heldAt log log.length k = latest log k := by
  unfold heldAt
  rw [List.take_length]

/-- What is held at a moment was put before it, and nothing happened to its key in between. -/
lemma exists_put_of_heldAt {n : ℕ} (h : heldAt log n k = some a) :
    ∃ i < n, log[i]? = some (.put k a) ∧
      ∀ j, i < j → j < n → ∀ e, log[j]? = some e → e.key ≠ k := by
  induction n with
  | zero => cases h
  | succ n ih =>
    unfold heldAt at h ih
    cases hn : log[n]? with
    | none =>
      have hshort : log.length ≤ n := List.getElem?_eq_none_iff.mp hn
      rw [List.take_of_length_le (by omega)] at h
      rw [List.take_of_length_le hshort] at ih
      obtain ⟨i, hi, hput, hbetween⟩ := ih h
      refine ⟨i, by omega, hput, fun j hij hj e he => ?_⟩
      have hlt : j < log.length := (List.getElem?_eq_some_iff.mp he).1
      exact hbetween j hij (by omega) e he
    | some e =>
      rw [List.take_add_one, hn, Option.toList_some, latest_append_singleton] at h
      by_cases hkey : e.key = k
      · -- The last entry is about the key, so it is the one that put the value there.
        refine ⟨n, Nat.lt_succ_self n, ?_, fun j hij hj => by omega⟩
        cases e with
        | put k' a' =>
          change k' = k at hkey
          subst hkey
          rw [effect, if_pos rfl] at h
          cases h
          exact hn
        | drop k' =>
          change k' = k at hkey
          rw [effect, if_pos hkey] at h
          cases h
      · rw [← latest_append_singleton, latest_of_key_ne hkey] at h
        obtain ⟨i, hi, hput, hbetween⟩ := ih h
        refine ⟨i, by omega, hput, fun j hij hj e' he' => ?_⟩
        rcases Nat.lt_succ_iff_lt_or_eq.mp hj with hlt | rfl
        · exact hbetween j hij hlt e' he'
        · rw [hn] at he'
          cases he'
          exact hkey

/-- What is held under a key after an entry about it was put there by that entry or a later one. -/
lemma exists_put_of_key {e : JournalEntry κ α} {n p : ℕ} (he : log[p]? = some e) (hkey : e.key = k)
    (hp : p < n) (h : heldAt log n k = some a) : ∃ i, p ≤ i ∧ i < n ∧ log[i]? = some (.put k a) := by
  obtain ⟨i, hi, hput, hbetween⟩ := exists_put_of_heldAt h
  refine ⟨i, ?_, hi, hput⟩
  by_contra hlt
  exact hbetween p (by omega) hp e he hkey

/-! ## What was held since a moment -/

/-- At some moment from `since` on, the key held the value. -/
def HeldSince (log : Journal κ α) (since : ℕ) (k : κ) (a : α) : Prop :=
  ∃ n, since ≤ n ∧ n ≤ log.length ∧ heldAt log n k = some a

/-- What is held now was held since any moment that is past. -/
lemma heldSince_of_latest {since : ℕ} (h : latest log k = some a) (hsince : since ≤ log.length) :
    HeldSince log since k a :=
  ⟨log.length, hsince, Nat.le_refl _, by rw [heldAt_length, h]⟩

/-- A journal that goes on keeps its past. -/
lemma HeldSince.mono {log' : Journal κ α} {since : ℕ} (h : HeldSince log since k a) (hlog : log <+: log') :
    HeldSince log' since k a := by
  obtain ⟨more, rfl⟩ := hlog
  obtain ⟨n, hsince, hn, hheld⟩ := h
  refine ⟨n, hsince, ?_, ?_⟩
  · rw [List.length_append]
    omega
  · rw [heldAt_append more hn]
    exact hheld

/-- After an entry about a key, the key held only what that entry or a later one put there. -/
theorem HeldSince.put_from {e : JournalEntry κ α} {since p : ℕ} (h : HeldSince log since k a)
    (he : log[p]? = some e) (hkey : e.key = k) (hp : p < since) :
    ∃ i, p ≤ i ∧ log[i]? = some (.put k a) := by
  obtain ⟨n, hsince, -, hheld⟩ := h
  obtain ⟨i, hi, -, hput⟩ := exists_put_of_key he hkey (by omega) hheld
  exact ⟨i, hi, hput⟩

/-- After the drop of a key, it held a value only if one was put there later. -/
theorem HeldSince.put_after_drop {since p : ℕ} (h : HeldSince log since k a)
    (hdrop : log[p]? = some (.drop k)) (hp : p < since) :
    ∃ i, p < i ∧ log[i]? = some (.put k a) := by
  obtain ⟨i, hi, hput⟩ := h.put_from hdrop rfl hp
  refine ⟨i, ?_, hput⟩
  rcases Nat.lt_or_eq_of_le hi with hlt | rfl
  · exact hlt
  · rw [hdrop] at hput
    cases hput

end Journal

end Lib
