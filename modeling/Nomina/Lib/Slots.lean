import Mathlib.Data.List.Induction
import Mathlib.Data.List.Nodup
import Mathlib.Tactic.Common

/-!
# Slots

Lists of elements with keys that are written by replacing the first element of the same key, or by
appending when there is none. Whatever is put into such a list in whatever order, its elements of a
key afterwards are the last one put there and those that stood behind the first one before.
-/

namespace Lib

section

variable {α κ : Type} [DecidableEq κ] (key : α → κ)

/-- Replace the first element that has the key of `a`, or append `a`. -/
def put (a : α) : List α → List α
  | [] => [a]
  | b :: l => if key b = key a then a :: l else b :: put a l

/-- Put the elements of a list, one after the other. -/
def putAll (as l : List α) : List α :=
  as.foldl (fun l a => put key a l) l

/-- The elements that have a key. -/
def withKey (k : κ) (l : List α) : List α :=
  l.filter (key · == k)

variable {key} {k : κ} {a : α}

@[simp] lemma withKey_nil : withKey key k [] = [] := rfl

lemma withKey_cons_self (l : List α) : withKey key (key a) (a :: l) = a :: withKey key (key a) l := by
  simp [withKey]

lemma withKey_cons_of_ne (h : key a ≠ k) (l : List α) : withKey key k (a :: l) = withKey key k l := by
  simp [withKey, h]

/-- The first element of a key. -/
lemma find?_eq_head?_withKey (l : List α) : l.find? (key · == k) = (withKey key k l).head? :=
  List.head?_filter.symm

/-- Putting an element replaces the first one of its key. -/
lemma withKey_put_self (a : α) (l : List α) :
    withKey key (key a) (put key a l) = a :: (withKey key (key a) l).tail := by
  induction l with
  | nil => simp [put, withKey]
  | cons b l ih =>
    unfold put
    by_cases h : key b = key a
    · rw [if_pos h, withKey_cons_self, ← h, withKey_cons_self, List.tail_cons]
    · rw [if_neg h, withKey_cons_of_ne h, withKey_cons_of_ne h, ih]

/-- Putting an element leaves those of other keys alone. -/
lemma withKey_put_of_ne (h : key a ≠ k) (l : List α) :
    withKey key k (put key a l) = withKey key k l := by
  induction l with
  | nil => simp [put, withKey, h]
  | cons b l ih =>
    unfold put
    split
    · rename_i hb
      rw [withKey_cons_of_ne h, withKey_cons_of_ne (hb.trans_ne h)]
    · by_cases hk : key b = k
      · subst hk
        rw [withKey_cons_self, withKey_cons_self, ih]
      · rw [withKey_cons_of_ne hk, withKey_cons_of_ne hk, ih]

/-- Putting elements replaces the first one of a key by the last one that is put there. -/
lemma withKey_putAll (as l : List α) : withKey key k (putAll key as l) =
    match (withKey key k as).getLast? with
    | none => withKey key k l
    | some a => a :: (withKey key k l).tail := by
  -- The induction is on what is put last.
  induction as using List.reverseRecOn with
  | nil => rfl
  | append_singleton as a ih =>
    have hput : putAll key (as ++ [a]) l = put key a (putAll key as l) := by
      simp [putAll]
    have hsplit : withKey key k (as ++ [a]) = withKey key k as ++ withKey key k [a] := by
      simp [withKey]
    rw [hput, hsplit]
    by_cases h : key a = k
    · subst h
      rw [withKey_put_self, ih, withKey_cons_self, withKey_nil, List.getLast?_concat]
      dsimp only
      congr 1
      split <;> rfl
    · rw [withKey_put_of_ne h, ih, withKey_cons_of_ne h, withKey_nil, List.append_nil]

/-- What is found at a key afterwards: the last element put there, else what was found before. -/
lemma find?_putAll (as l : List α) : (putAll key as l).find? (key · == k) =
    ((withKey key k as).getLast?).or (l.find? (key · == k)) := by
  rw [find?_eq_head?_withKey, find?_eq_head?_withKey, withKey_putAll]
  cases (withKey key k as).getLast? <;> rfl

/-- A key is there after an element is put when it was there before or is the key of the element. -/
lemma mem_map_put {l : List α} : k ∈ (put key a l).map key ↔ k = key a ∨ k ∈ l.map key := by
  induction l with
  | nil => simp [put]
  | cons b l ih =>
    unfold put
    split
    · rename_i hb
      rw [List.map_cons, List.map_cons, List.mem_cons, List.mem_cons, hb]
      tauto
    · rw [List.map_cons, List.map_cons, List.mem_cons, List.mem_cons, ih]
      tauto

/-- The keys stay distinct when elements are put. -/
lemma nodup_put {l : List α} (h : (l.map key).Nodup) (a : α) : ((put key a l).map key).Nodup := by
  induction l with
  | nil => simp [put]
  | cons b l ih =>
    rw [List.map_cons, List.nodup_cons] at h
    unfold put
    split
    · rename_i hb
      rw [List.map_cons, List.nodup_cons, ← hb]
      exact h
    · rename_i hb
      rw [List.map_cons, List.nodup_cons, mem_map_put]
      exact ⟨not_or.mpr ⟨hb, h.1⟩, ih h.2⟩

lemma nodup_putAll {l : List α} (h : (l.map key).Nodup) (as : List α) :
    ((putAll key as l).map key).Nodup := by
  unfold putAll
  induction as generalizing l with
  | nil => exact h
  | cons a as ih => exact ih (nodup_put h a)

end

end Lib
