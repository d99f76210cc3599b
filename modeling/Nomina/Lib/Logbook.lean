import Mathlib.Data.List.Chain
import Mathlib.Data.List.Nodup
import Mathlib.Data.List.Range
import Mathlib.Tactic.Common

/-!
# Logs in a table

A log is a table whose rows get one id after the other. It is trimmed by id: the rows whose id is at most
the largest one less a number are deleted. As the ids have no gaps, what is left are the last rows.

A log is read page by page, the newest rows first. Between two pages rows may be added and old ones trimmed.
A row that is there all the time only moves back, so it is on one of the pages.
-/

namespace Lib

namespace Logbook

variable {α β : Type}

/-- The largest id, or 0. -/
def maxId (rows : List (ℕ × α)) : ℕ :=
  (rows.map Prod.fst).foldr max 0

/-- Add a row. -/
def append (rows : List (ℕ × α)) (a : α) : List (ℕ × α) :=
  rows ++ [(maxId rows + 1, a)]

/-- Delete the rows whose id is at most the largest one less `n`. -/
def trim (n : ℕ) (rows : List (ℕ × α)) : List (ℕ × α) :=
  rows.filter fun r => (maxId rows : ℤ) - n < r.1

/-! ## Ids -/

/-- The ids count up, without gaps. -/
def Numbered (rows : List (ℕ × α)) : Prop :=
  ∃ lo, rows.map Prod.fst = List.range' lo rows.length

lemma numbered_nil : Numbered ([] : List (ℕ × α)) :=
  ⟨1, rfl⟩

lemma foldr_max_range' (lo len : ℕ) : (List.range' lo (len + 1)).foldr max 0 = lo + len := by
  induction len generalizing lo with
  | zero => simp
  | succ len ih =>
    rw [List.range'_succ, List.foldr_cons, ih]
    omega

lemma maxId_append (rows : List (ℕ × α)) (a : α) : maxId (append rows a) = maxId rows + 1 := by
  have hfold (l : List ℕ) (n : ℕ) : (l ++ [n]).foldr max 0 = max (l.foldr max 0) n := by
    induction l with
    | nil => simp
    | cons m l ih => rw [List.cons_append, List.foldr_cons, List.foldr_cons, ih, Nat.max_assoc]
  unfold append maxId
  rw [List.map_append, List.map_singleton, hfold]
  omega

/-- The largest id is that of the last row. -/
lemma maxId_of_range' {lo : ℕ} {rows : List (ℕ × α)} (h : rows.map Prod.fst = List.range' lo rows.length)
    (hne : rows ≠ []) : maxId rows + 1 = lo + rows.length := by
  obtain ⟨len, hlen⟩ := Nat.exists_eq_succ_of_ne_zero (mt List.length_eq_zero_iff.mp hne)
  unfold maxId
  rw [h, hlen, Nat.succ_eq_add_one, foldr_max_range']
  omega

lemma Numbered.append {rows : List (ℕ × α)} (h : Numbered rows) (a : α) : Numbered (append rows a) := by
  obtain ⟨lo, hids⟩ := h
  by_cases hne : rows = []
  · subst hne
    exact ⟨1, rfl⟩
  · refine ⟨lo, ?_⟩
    unfold Logbook.append
    rw [List.map_append, hids, List.map_singleton, maxId_of_range' hids hne, List.length_append,
      List.length_singleton, List.range'_concat, Nat.one_mul]

lemma Numbered.drop {rows : List (ℕ × α)} (h : Numbered rows) (k : ℕ) : Numbered (rows.drop k) := by
  obtain ⟨lo, hids⟩ := h
  refine ⟨lo + k, ?_⟩
  rw [List.map_drop, hids, List.drop_range', List.length_drop, Nat.mul_one]

lemma Numbered.nodup {rows : List (ℕ × α)} (h : Numbered rows) : rows.Nodup := by
  obtain ⟨lo, hids⟩ := h
  exact List.Nodup.of_map Prod.fst (hids ▸ List.nodup_range')

lemma le_maxId {rows : List (ℕ × α)} {r : ℕ × α} (hr : r ∈ rows) : r.1 ≤ maxId rows := by
  have hle (l : List ℕ) {n : ℕ} (hn : n ∈ l) : n ≤ l.foldr max 0 := by
    induction l with
    | nil => cases hn
    | cons m l ih =>
      rcases List.mem_cons.mp hn with rfl | hn
      · exact Nat.le_max_left _ _
      · exact Nat.le_trans (ih hn) (Nat.le_max_right _ _)
  exact hle _ (List.mem_map_of_mem hr)

/-- What is left after a trim are the last rows. -/
lemma trim_eq_drop {rows : List (ℕ × α)} (h : Numbered rows) (n : ℕ) :
    trim n rows = rows.drop (rows.length - n) := by
  obtain ⟨lo, hids⟩ := h
  by_cases hne : rows = []
  · subst hne
    simp [trim]
  have hmax := maxId_of_range' hids hne
  have hget (i : ℕ) (hi : i < rows.length) : (rows[i]).1 = lo + i := by
    have hid : (rows.map Prod.fst)[i]? = (List.range' lo rows.length)[i]? := by rw [hids]
    rw [List.getElem?_map, List.getElem?_eq_getElem hi, List.getElem?_range' hi, Nat.one_mul] at hid
    exact Option.some.inj hid
  -- The rows before the cut fail the test, those from there on pass it.
  unfold trim
  conv_lhs => rw [← List.take_append_drop (rows.length - n) rows, List.filter_append]
  rw [List.take_append_drop, List.filter_eq_nil_iff.mpr, List.filter_eq_self.mpr, List.nil_append]
  · intro r hr
    obtain ⟨i, hi, rfl⟩ := List.mem_iff_getElem.mp hr
    rw [List.length_drop] at hi
    rw [List.getElem_drop, hget _ (by omega), decide_eq_true_eq]
    omega
  · intro r hr
    obtain ⟨i, hi, rfl⟩ := List.mem_iff_getElem.mp hr
    rw [List.length_take] at hi
    rw [List.getElem_take, hget _ (by omega), decide_eq_true_eq]
    omega

/-! ## Retention -/

/-- The rows are the last of the entries of `l`: all of them, or at least `n`. -/
structure Retains (n : ℕ) (rows : List (ℕ × α)) (l : List α) : Prop where
  numbered : Numbered rows
  last : rows.map Prod.snd <:+ l
  whole : rows.length = l.length ∨ n ≤ rows.length

lemma Retains.of_numbered {rows : List (ℕ × α)} (h : Numbered rows) (n : ℕ) :
    Retains n rows (rows.map Prod.snd) :=
  ⟨h, List.suffix_rfl, .inl (List.length_map _).symm⟩

lemma Retains.append {n : ℕ} {rows : List (ℕ × α)} {l : List α} (h : Retains n rows l) (a : α) :
    Retains n (append rows a) (l ++ [a]) := by
  refine ⟨h.numbered.append a, ?_, ?_⟩
  · obtain ⟨t, ht⟩ := h.last
    refine ⟨t, ?_⟩
    unfold Logbook.append
    rw [List.map_append, ← List.append_assoc, ht]
    rfl
  · unfold Logbook.append
    rw [List.length_append, List.length_append]
    have := h.whole
    simp only [List.length_singleton]
    omega

lemma Retains.trim {n m : ℕ} {rows : List (ℕ × α)} {l : List α} (h : Retains n rows l) (hm : n ≤ m) :
    Retains n (trim m rows) l := by
  rw [trim_eq_drop h.numbered]
  refine ⟨h.numbered.drop _, ?_, ?_⟩
  · rw [List.map_drop]
    exact (List.drop_suffix _ _).trans h.last
  · rw [List.length_drop]
    have := h.whole
    omega

/-- The entries of a batch. -/
lemma Retains.appendAll {n : ℕ} {rows : List (ℕ × α)} {l : List α} (h : Retains n rows l) (entries : List α) :
    Retains n (entries.foldl Logbook.append rows) (l ++ entries) := by
  induction entries generalizing rows l with
  | nil =>
    rw [List.append_nil]
    exact h
  | cons e entries ih =>
    have hrest := ih (h.append e)
    rwa [List.append_assoc] at hrest

lemma length_appendAll (rows : List (ℕ × α)) (entries : List α) :
    (entries.foldl append rows).length = rows.length + entries.length := by
  induction entries generalizing rows with
  | nil => rfl
  | cons e entries ih =>
    rw [List.foldl_cons, ih, append, List.length_append, List.length_cons]
    simp only [List.length_nil, List.length_cons]
    omega

/-- Nothing is left of the rows. -/
lemma trim_zero {rows : List (ℕ × α)} (h : Numbered rows) : trim 0 rows = [] := by
  rw [trim_eq_drop h, Nat.sub_zero, List.drop_length]

lemma length_trim {rows : List (ℕ × α)} (h : Numbered rows) (n : ℕ) : (trim n rows).length = min rows.length n := by
  rw [trim_eq_drop h, List.length_drop]
  omega

/-! ## Pages -/

/-- Page `k`, from 1, of `n` elements each. -/
def page (n k : ℕ) (l : List β) : List β :=
  (l.drop ((k - 1) * n)).take n

/-- The pages from `k` on, one of each list. -/
def pages (n : ℕ) : ℕ → List (List β) → List (List β)
  | _, [] => []
  | k, l :: ls => page n k l :: pages n (k + 1) ls

/-- New elements come at the front, and old ones may go at the back. -/
def Shifts (l l' : List β) : Prop :=
  ∃ new kept, l' = new ++ kept ∧ kept <+: l ∧ ∀ b ∈ new, b ∉ l

lemma mem_page {n k i : ℕ} {l : List β} {b : β} (hi : l[i]? = some b) (hle : (k - 1) * n ≤ i)
    (hlt : i < (k - 1) * n + n) : b ∈ page n k l := by
  refine List.mem_of_getElem? (i := i - (k - 1) * n) ?_
  unfold page
  rw [List.getElem?_take_of_lt (by omega), List.getElem?_drop, Nat.add_sub_cancel' hle]
  exact hi

/-- An element that stays only moves back. -/
lemma Shifts.getElem? {l l' : List β} {b : β} {i : ℕ} (h : Shifts l l') (hnodup : l.Nodup)
    (hi : l[i]? = some b) (hb : b ∈ l') : ∃ j, i ≤ j ∧ l'[j]? = some b := by
  obtain ⟨new, kept, rfl, hkept, hnew⟩ := h
  have hmem : b ∈ kept := by
    rcases List.mem_append.mp hb with hb | hb
    · exact absurd (List.mem_of_getElem? hi) (hnew b hb)
    · exact hb
  obtain ⟨j, hj⟩ := List.getElem?_of_mem hmem
  have hlt : j < kept.length := (List.getElem?_eq_some_iff.mp hj).1
  have hl : l[j]? = some b := by
    obtain ⟨t, rfl⟩ := hkept
    rw [List.getElem?_append_left hlt]
    exact hj
  obtain rfl : i = j := by
    obtain ⟨hi', heq⟩ := List.getElem?_eq_some_iff.mp hi
    obtain ⟨hj', heq'⟩ := List.getElem?_eq_some_iff.mp hl
    exact (hnodup.getElem_inj_iff).mp (heq.trans heq'.symm)
  refine ⟨new.length + i, Nat.le_add_left _ _, ?_⟩
  rw [List.getElem?_append_right (Nat.le_add_right _ _), Nat.add_sub_cancel_left]
  exact hj

/-- If the last page is the last one of its list, every element that was there all the time, and not before
the first page that was read, is on one of the pages. -/
theorem mem_pages {n k i : ℕ} {l : List β} {ls : List (List β)} {b : β} (hk : 0 < k)
    (hchain : List.IsChain Shifts (l :: ls)) (hnodup : ∀ l' ∈ l :: ls, l'.Nodup)
    (hstays : ∀ l' ∈ l :: ls, b ∈ l') (hi : l[i]? = some b) (hle : (k - 1) * n ≤ i)
    (hlast : ((l :: ls).getLast (List.cons_ne_nil l ls)).length ≤ (k + ls.length) * n) :
    ∃ p ∈ pages n k (l :: ls), b ∈ p := by
  -- Either the element is on the first page, or it is behind it and will still be so on the next list.
  have hnext : (k - 1) * n + n = k * n := by
    obtain ⟨m, rfl⟩ := Nat.exists_eq_add_of_lt hk
    rw [Nat.zero_add, Nat.add_sub_cancel, Nat.succ_mul]
  induction ls generalizing k l i with
  | nil =>
    have hlt : i < l.length := (List.getElem?_eq_some_iff.mp hi).1
    exact ⟨_, List.mem_cons_self, mem_page hi hle (by simp at hlast; omega)⟩
  | cons l' ls ih =>
    by_cases hlt : i < k * n
    · exact ⟨_, List.mem_cons_self, mem_page hi hle (hnext ▸ hlt)⟩
    · rw [List.isChain_cons_cons] at hchain
      obtain ⟨j, hij, hj⟩ := hchain.1.getElem? (hnodup l List.mem_cons_self) hi
        (hstays l' (List.mem_cons_of_mem l List.mem_cons_self))
      obtain ⟨p, hp, hb⟩ := ih (k := k + 1) (Nat.succ_pos k) hchain.2
        (fun t ht => hnodup t (List.mem_cons_of_mem l ht)) (fun t ht => hstays t (List.mem_cons_of_mem l ht)) hj
        (by rw [Nat.add_sub_cancel]; omega)
        (by rw [List.getLast_cons_cons, List.length_cons] at hlast; rwa [Nat.add_right_comm])
        (by rw [Nat.add_sub_cancel, Nat.succ_mul])
      exact ⟨p, List.mem_cons_of_mem _ hp, hb⟩

/-! ## Changes between two pages -/

/-- Rows with larger ids were added, and old ones deleted, but not so that the ids start again. -/
structure Grown (rows rows' : List (ℕ × α)) : Prop where
  numbered : Numbered rows'
  maxId : maxId rows ≤ maxId rows'
  rows : ∃ k new, rows' = rows.drop k ++ new ∧ ∀ r ∈ new, Logbook.maxId rows < r.1

lemma Grown.refl {rows : List (ℕ × α)} (h : Numbered rows) : Grown rows rows :=
  ⟨h, Nat.le_refl _, 0, [], (List.append_nil _).symm, nofun⟩

lemma Grown.trans {rows rows' rows'' : List (ℕ × α)} (h : Grown rows rows') (h' : Grown rows' rows'') :
    Grown rows rows'' := by
  obtain ⟨k, new, hrows, hnew⟩ := h.rows
  obtain ⟨k', new', hrows', hnew'⟩ := h'.rows
  refine ⟨h'.numbered, Nat.le_trans h.maxId h'.maxId, k + k', new.drop (k' - (rows.drop k).length) ++ new', ?_, ?_⟩
  · rw [hrows', hrows, List.drop_append, List.drop_drop, List.append_assoc]
  · intro r hr
    rcases List.mem_append.mp hr with hr | hr
    · exact hnew r (List.mem_of_mem_drop hr)
    · exact Nat.lt_of_le_of_lt h.maxId (hnew' r hr)

lemma Grown.append {rows : List (ℕ × α)} (h : Numbered rows) (a : α) : Grown rows (append rows a) := by
  refine ⟨h.append a, ?_, 0, [(Logbook.maxId rows + 1, a)], rfl, fun r hr => ?_⟩
  · rw [maxId_append]
    exact Nat.le_succ _
  · rw [List.mem_singleton.mp hr]
    exact Nat.lt_succ_self _

lemma Grown.trim {rows : List (ℕ × α)} (h : Numbered rows) {n : ℕ} (hn : 0 < n) : Grown rows (trim n rows) := by
  rw [trim_eq_drop h]
  refine ⟨h.drop _, ?_, rows.length - n, [], (List.append_nil _).symm, nofun⟩
  by_cases hne : rows = []
  · subst hne
    simp
  · have hpos : 0 < rows.length := List.length_pos_iff.mpr hne
    obtain ⟨lo, hids⟩ := h
    have hdrop : (rows.drop (rows.length - n)).map Prod.fst =
        List.range' (lo + (rows.length - n)) (rows.drop (rows.length - n)).length := by
      rw [List.map_drop, hids, List.drop_range', List.length_drop, Nat.mul_one]
    have hmax := maxId_of_range' hids hne
    have hmax' := maxId_of_range' hdrop (mt List.drop_eq_nil_iff.mp (by omega))
    rw [List.length_drop] at hmax'
    omega

lemma Grown.appendAll {rows : List (ℕ × α)} (h : Numbered rows) (entries : List α) :
    Grown rows (entries.foldl Logbook.append rows) := by
  induction entries generalizing rows with
  | nil => exact .refl h
  | cons e entries ih => exact (Grown.append h e).trans (ih (h.append e))

/-- A row whose id is not new was there before. -/
lemma Grown.mem_of_mem {rows rows' : List (ℕ × α)} (h : Grown rows rows') {r : ℕ × α} (hr : r ∈ rows')
    (hle : r.1 ≤ Logbook.maxId rows) : r ∈ rows := by
  obtain ⟨k, new, rfl, hnew⟩ := h.rows
  rcases List.mem_append.mp hr with hr | hr
  · exact List.mem_of_mem_drop hr
  · exact absurd (hnew r hr) (Nat.not_lt_of_le hle)

/-- A row that is there at first and at last was there all the time. -/
lemma mem_of_mem_getLast {l : List (ℕ × α)} {ls : List (List (ℕ × α))} (hchain : List.IsChain Grown (l :: ls))
    {r : ℕ × α} (hle : r.1 ≤ maxId l) (hr : r ∈ (l :: ls).getLast (List.cons_ne_nil l ls)) :
    ∀ l' ∈ l :: ls, r ∈ l' := by
  induction ls generalizing l with
  | nil => exact fun l' hl' => List.mem_singleton.mp hl' ▸ hr
  | cons l₁ ls ih =>
    rw [List.isChain_cons_cons] at hchain
    rw [List.getLast_cons_cons] at hr
    have hrest := ih hchain.2 (Nat.le_trans hle hchain.1.maxId) hr
    intro l' hl'
    rcases List.mem_cons.mp hl' with rfl | hl'
    · exact hchain.1.mem_of_mem (hrest l₁ List.mem_cons_self) hle
    · exact hrest l' hl'

/-- The rows that meet a condition, the newest first. -/
def newest (p : ℕ × α → Bool) (rows : List (ℕ × α)) : List (ℕ × α) :=
  (rows.filter p).reverse

lemma Grown.shifts {rows rows' : List (ℕ × α)} (h : Grown rows rows') (p : ℕ × α → Bool) :
    Shifts (newest p rows) (newest p rows') := by
  obtain ⟨k, new, rfl, hnew⟩ := h.rows
  refine ⟨newest p new, newest p (rows.drop k), ?_, ?_, fun r hr hold => ?_⟩
  · unfold newest
    rw [List.filter_append, List.reverse_append]
  · exact List.reverse_prefix.mpr ((List.drop_suffix k rows).filter p)
  · have hr' : r ∈ new := List.mem_of_mem_filter (List.mem_reverse.mp hr)
    have hold' : r ∈ rows := List.mem_of_mem_filter (List.mem_reverse.mp hold)
    exact absurd (hnew r hr') (Nat.not_lt_of_le (le_maxId hold'))

lemma nodup_newest {rows : List (ℕ × α)} (h : Numbered rows) (p : ℕ × α → Bool) : (newest p rows).Nodup :=
  List.nodup_reverse.mpr (h.nodup.filter p)

end Logbook

end Lib
