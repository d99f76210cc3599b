import Mathlib.Data.List.AList
import Mathlib.Data.List.Dedup
import Mathlib.Data.List.Sort
import Mathlib.Tactic.Common

/-!
# Maps and ordered sets

Collections of the Rust standard library over the association lists of Mathlib: the hash map of
vectors filled by `entry(key).or_default().push(value)`, the hash map that is bounded and purged,
and the ordered set that is only ever filled and then iterated.
-/

namespace Lib

section Grouped

variable {κ β : Type} [DecidableEq κ]

/-- A map from keys to vectors. -/
abbrev Grouped (κ β : Type) := AList (fun _ : κ => List β)

/-- `map.entry(k).or_default().push(b)`. -/
def pushAt (m : Grouped κ β) (k : κ) (b : β) : Grouped κ β :=
  m.insert k ((m.lookup k).getD [] ++ [b])

/-- The map filled by pushing the values of a list one after the other. -/
def collect (l : List (κ × β)) : Grouped κ β :=
  l.foldl (fun m p => pushAt m p.1 p.2) ∅

/-- The vector at a key, empty where the map has no entry. -/
def Grouped.at (m : Grouped κ β) (k : κ) : List β :=
  (m.lookup k).getD []

/-- Pushing a value appends it to the vector at its key and leaves the others alone. -/
lemma at_pushAt (m : Grouped κ β) (k k' : κ) (b : β) :
    (pushAt m k b).at k' = if k = k' then m.at k' ++ [b] else m.at k' := by
  unfold pushAt Grouped.at
  by_cases h : k = k'
  · subst h
    simp
  · rw [AList.lookup_insert_ne (Ne.symm h)]
    simp [h]

/-- Pushing a value adds its key. -/
lemma mem_pushAt {m : Grouped κ β} {k k' : κ} {b : β} :
    k' ∈ pushAt m k b ↔ k' = k ∨ k' ∈ m := by
  unfold pushAt
  exact AList.mem_insert m

/-- Filling a map from `m` on appends, at each key, the values pushed under that key. -/
lemma at_foldl_pushAt (l : List (κ × β)) (m : Grouped κ β) (k : κ) :
    (l.foldl (fun m p => pushAt m p.1 p.2) m).at k =
      m.at k ++ (l.filter (fun p => p.1 = k)).map Prod.snd := by
  induction l generalizing m with
  | nil => simp
  | cons p l ih =>
    rw [List.foldl_cons, ih, at_pushAt]
    by_cases h : p.1 = k
    · simp [h]
    · simp [h]

/-- Filling a map from `m` on adds exactly the pushed keys. -/
lemma mem_foldl_pushAt (l : List (κ × β)) (m : Grouped κ β) (k : κ) :
    k ∈ l.foldl (fun m p => pushAt m p.1 p.2) m ↔ k ∈ m ∨ k ∈ l.map Prod.fst := by
  induction l generalizing m with
  | nil => simp
  | cons p l ih =>
    rw [List.foldl_cons, ih, mem_pushAt]
    simp only [List.map_cons, List.mem_cons]
    tauto

/-- The vector a filled map has at a key: the values of that key, in the order of the list. -/
lemma at_collect (l : List (κ × β)) (k : κ) :
    (collect l).at k = (l.filter (fun p => p.1 = k)).map Prod.snd := by
  unfold collect
  rw [at_foldl_pushAt]
  simp [Grouped.at]

/-- The keys of a filled map are those of the list. -/
lemma mem_collect {l : List (κ × β)} {k : κ} : k ∈ collect l ↔ k ∈ l.map Prod.fst := by
  unfold collect
  rw [mem_foldl_pushAt]
  simp

/-- Looking up a key of the map gives its vector. -/
lemma lookup_eq_some_at {m : Grouped κ β} {k : κ} (h : k ∈ m) : m.lookup k = some (m.at k) := by
  unfold Grouped.at
  obtain ⟨v, hv⟩ := Option.isSome_iff_exists.mp (AList.lookup_isSome.mpr h)
  simp [hv]

/-- A key the map does not have has the empty vector. -/
lemma at_of_notMem {m : Grouped κ β} {k : κ} (h : k ∉ m) : m.at k = [] := by
  unfold Grouped.at
  rw [AList.lookup_eq_none.mpr h]
  rfl

/-- The first hit of a lookup along a list of keys is the vector of the first key present. -/
lemma findSome?_lookup (m : Grouped κ β) (keys : List κ) :
    keys.findSome? m.lookup = (keys.find? (fun k => decide (k ∈ m))).map m.at := by
  induction keys with
  | nil => rfl
  | cons k keys ih =>
    by_cases h : k ∈ m
    · simp [h, lookup_eq_some_at h]
    · simp [h, AList.lookup_eq_none.mpr h, ih]

/-- The values of the entries under their keys, filtered by a key, are the vector at that key. -/
lemma at_eq_of_entries (m : Grouped κ β) (k : κ) :
    ((m.entries.flatMap fun e => e.2.map fun b => (e.1, b)).filter (·.1 = k)).map Prod.snd =
      m.at k := by
  obtain ⟨entries, hkeys⟩ := m
  induction entries with
  | nil => rfl
  | cons e entries ih =>
    obtain ⟨hfresh, hkeys'⟩ := List.nodupKeys_cons.mp hkeys
    have ih := ih hkeys'
    unfold Grouped.at AList.lookup at ih ⊢
    dsimp only at ih ⊢
    rw [List.flatMap_cons, List.filter_append, List.map_append, ih]
    by_cases hk : e.1 = k
    · subst hk
      have hnone : entries.dlookup e.1 = none := List.dlookup_eq_none.mpr hfresh
      rw [hnone]
      have hall : ((e.2.map fun b => (e.1, b)).filter (·.1 = e.1)) = e.2.map fun b => (e.1, b) := by
        refine List.filter_eq_self.mpr ?_
        simp
      obtain ⟨k, v⟩ := e
      rw [hall, List.dlookup_cons_eq]
      simp
    · have hnone : ((e.2.map fun b => (e.1, b)).filter (·.1 = k)) = [] := by
        refine List.filter_eq_nil_iff.mpr ?_
        simp [hk]
      obtain ⟨k', v⟩ := e
      rw [hnone, List.dlookup_cons_ne entries ⟨k', v⟩ (Ne.symm hk)]
      rfl

end Grouped

/-- The order in which a hash map is iterated over. -/
structure IterationOrder (α : Type) where
  arrange : List α → List α
  perm : ∀ l, (arrange l).Perm l

/-- The order in which the entries stand. -/
def IterationOrder.plain {α : Type} : IterationOrder α :=
  ⟨id, fun l => .refl l⟩

section Bounded

variable {κ β : Type} [DecidableEq κ]

/-- A map from keys to values. -/
abbrev Map (κ β : Type) := AList (fun _ : κ => β)

/-- `map.len()`. -/
def Map.len (m : Map κ β) : ℕ :=
  m.entries.length

/-- `map.retain(|_, b| p(b))`. -/
def Map.retain (m : Map κ β) (p : β → Bool) : Map κ β :=
  ⟨m.entries.filter fun e => p e.2, m.nodupKeys.sublist List.filter_sublist⟩

/-- What is retained was there. -/
lemma Map.lookup_of_retain {m : Map κ β} {p : β → Bool} {k : κ} {b : β}
    (h : (m.retain p).lookup k = some b) : m.lookup k = some b := by
  have hmem : Sigma.mk k b ∈ (m.retain p).entries := AList.mem_lookup_iff.mp h
  exact AList.mem_lookup_iff.mpr (List.mem_of_mem_filter hmem)

omit [DecidableEq κ] in
/-- Retaining does not enlarge a map. -/
lemma Map.len_retain_le (m : Map κ β) (p : β → Bool) : Map.len (m.retain p) ≤ m.len :=
  List.length_filter_le _ _

/-- Inserting enlarges a map by at most one. -/
lemma Map.len_insert_le (m : Map κ β) (k : κ) (b : β) : Map.len (m.insert k b) ≤ m.len + 1 := by
  unfold Map.len
  rw [AList.entries_insert, List.length_cons]
  exact Nat.succ_le_succ (List.kerase_sublist k m.entries).length_le

/-- Removing does not enlarge a map. -/
lemma Map.len_erase_le (m : Map κ β) (k : κ) : Map.len (m.erase k) ≤ m.len :=
  (List.kerase_sublist k m.entries).length_le

/-- `*map.entry(k).or_insert(0) += 1`. -/
def Map.bump (m : Map κ ℕ) (k : κ) : Map κ ℕ :=
  m.insert k ((m.lookup k).getD 0 + 1)

/-- Count a key, unless it is new and the map is full. -/
def Map.bumpWithin (cap : ℕ) (m : Map κ ℕ) (k : κ) : Map κ ℕ :=
  if m.len < cap ∨ k ∈ m then Map.bump m k else m

end Bounded

/-- The first value found is `b` when some element gives `b` and none gives another value. -/
lemma findSome?_eq_of_unique {α β : Type} {f : α → Option β} {l : List α} {a : α} {b : β}
    (ha : a ∈ l) (hb : f a = some b) (h : ∀ a' ∈ l, ∀ b', f a' = some b' → b' = b) :
    l.findSome? f = some b := by
  have hsome : (l.findSome? f).isSome := by
    rw [List.findSome?_isSome_iff]
    exact ⟨a, ha, by rw [hb]; rfl⟩
  obtain ⟨b', hb'⟩ := Option.isSome_iff_exists.mp hsome
  obtain ⟨a', ha', hfa'⟩ := List.exists_of_findSome?_eq_some hb'
  rw [hb', h a' ha' b' hfa']

/-- A concatenation over values of which one yields something is what that one yields. -/
lemma flatMap_eq_of_unique {α β : Type} {l : List α} {f : α → List β} {a : α} (hnodup : l.Nodup)
    (ha : a ∈ l) (h : ∀ b ∈ l, b ≠ a → f b = []) : l.flatMap f = f a := by
  obtain ⟨before, after, rfl⟩ := List.append_of_mem ha
  have hdistinct := List.nodup_middle.mp hnodup
  have hfresh : a ∉ before ++ after := (List.nodup_cons.mp hdistinct).1
  have hrest : ∀ b ∈ before ++ after, f b = [] := by
    intro b hb
    refine h b ?_ fun heq => hfresh (heq ▸ hb)
    rcases List.mem_append.mp hb with hb | hb
    · exact List.mem_append_left _ hb
    · exact List.mem_append_right _ (List.mem_cons_of_mem a hb)
  rw [List.flatMap_append, List.flatMap_cons,
    List.flatMap_eq_nil_iff.mpr fun b hb => hrest b (List.mem_append_left _ hb),
    List.flatMap_eq_nil_iff.mpr fun b hb => hrest b (List.mem_append_right _ hb), List.nil_append,
    List.append_nil]

/-- Elements that give nothing do not matter to the first value found. -/
lemma findSome?_filter_of_none {α β : Type} {f : α → Option β} {p : α → Bool} {l : List α}
    (h : ∀ a ∈ l, p a = false → f a = none) : (l.filter p).findSome? f = l.findSome? f := by
  induction l with
  | nil => rfl
  | cons a l ih =>
    have hrest := ih fun b hb => h b (List.mem_cons_of_mem a hb)
    cases hp : p a with
    | true => rw [List.filter_cons_of_pos hp, List.findSome?_cons, List.findSome?_cons, hrest]
    | false =>
      rw [List.filter_cons_of_neg (by rw [hp]; exact Bool.false_ne_true), hrest, List.findSome?_cons,
        h a List.mem_cons_self hp]

/-- A row is found by its key. -/
lemma find?_of_nodup_map {α β : Type} [BEq β] [LawfulBEq β] {key : α → β} {l : List α}
    (h : (l.map key).Nodup) {a : α} (ha : a ∈ l) : l.find? (fun b => key b == key a) = some a := by
  obtain ⟨b, hb⟩ : ∃ b, l.find? (fun b => key b == key a) = some b := by
    have hsome : (l.find? (fun b => key b == key a)).isSome = true :=
      List.find?_isSome.mpr ⟨a, ha, beq_self_eq_true _⟩
    exact Option.isSome_iff_exists.mp hsome
  have hkey : key b = key a := eq_of_beq (List.find?_some (p := fun b => key b == key a) hb)
  have hsame : b = a := List.inj_on_of_nodup_map h (List.mem_of_find?_eq_some hb) ha hkey
  rw [hb, hsame]

/-- Where two searches of a list end differently, one of them found an element that the other test
rejects. -/
lemma find?_ne {α : Type} {p q : α → Bool} {l : List α} (h : l.find? p ≠ l.find? q) :
    (∃ a, l.find? p = some a ∧ q a = false) ∨ (∃ a, l.find? q = some a ∧ p a = false) := by
  induction l with
  | nil => exact absurd rfl h
  | cons a l ih =>
    cases hp : p a with
    | true =>
      cases hq : q a with
      | true => simp [hp, hq] at h
      | false => exact .inl ⟨a, by simp [hp], hq⟩
    | false =>
      cases hq : q a with
      | true => exact .inr ⟨a, by simp [hq], hp⟩
      | false =>
        simp only [List.find?_cons, hp, hq] at h ⊢
        exact ih h

/-- In a list that a relation orders strictly, a search finds the least element that passes the test. -/
lemma find?_eq_some_iff_of_pairwise {α : Type} {R : α → α → Prop} {p : α → Bool} {l : List α} {a : α}
    (h : l.Pairwise R) (hasymm : ∀ a b, R a b → ¬R b a) :
    l.find? p = some a ↔ a ∈ l ∧ p a = true ∧ ∀ b ∈ l, R b a → p b = false := by
  constructor
  · intro hfind
    obtain ⟨hp, before, after, rfl, hbefore⟩ := List.find?_eq_some_iff_append.mp hfind
    refine ⟨List.mem_append_right _ List.mem_cons_self, hp, fun b hb hba => ?_⟩
    rcases List.mem_append.mp hb with hb | hb
    · exact Bool.not_eq_true' _ |>.mp (hbefore b hb)
    · rcases List.mem_cons.mp hb with rfl | hb
      · exact absurd hba (hasymm _ _ hba)
      · have hab := List.rel_of_pairwise_cons (List.pairwise_append.mp h).2.1 hb
        exact absurd hba (hasymm _ _ hab)
  · rintro ⟨ha, hp, hmin⟩
    obtain ⟨before, after, rfl⟩ := List.append_of_mem ha
    refine List.find?_eq_some_iff_append.mpr ⟨hp, before, after, rfl, fun b hb => ?_⟩
    have hba := (List.pairwise_append.mp h).2.2 b hb a List.mem_cons_self
    rw [hmin b (List.mem_append_left _ hb) hba]
    rfl

/-- In a list that a relation orders, the element a search finds is related to every other one that
passes the test. -/
lemma rel_of_find?_eq_some {α : Type} {R : α → α → Prop} {p : α → Bool} {l : List α} {a : α}
    (h : l.Pairwise R) (hfind : l.find? p = some a) {b : α} (hb : b ∈ l) (hp : p b = true) :
    b = a ∨ R a b := by
  obtain ⟨-, before, after, rfl, hbefore⟩ := List.find?_eq_some_iff_append.mp hfind
  rcases List.mem_append.mp hb with hb | hb
  · exact absurd hp (by simpa using hbefore b hb)
  · rcases List.mem_cons.mp hb with rfl | hb
    · exact .inl rfl
    · exact .inr (List.rel_of_pairwise_cons (List.pairwise_append.mp h).2.1 hb)

/-- Among the elements of a list with a property one has the greatest measure. -/
lemma exists_mem_max {α : Type} {P : α → Prop} (f : α → ℕ) {l : List α} (h : ∃ a ∈ l, P a) :
    ∃ a ∈ l, P a ∧ ∀ b ∈ l, P b → f b ≤ f a := by
  induction l with
  | nil =>
    obtain ⟨a, ha, -⟩ := h
    cases ha
  | cons c l ih =>
    by_cases hl : ∃ a ∈ l, P a
    · obtain ⟨a, ha, hPa, hmax⟩ := ih hl
      by_cases hc : P c ∧ f a < f c
      · refine ⟨c, List.mem_cons_self, hc.1, fun b hb hPb => ?_⟩
        rcases List.mem_cons.mp hb with rfl | hb
        · exact le_rfl
        · exact (hmax b hb hPb).trans hc.2.le
      · refine ⟨a, List.mem_cons_of_mem c ha, hPa, fun b hb hPb => ?_⟩
        rcases List.mem_cons.mp hb with rfl | hb
        · exact not_lt.mp fun hlt => hc ⟨hPb, hlt⟩
        · exact hmax b hb hPb
    · obtain ⟨a, ha, hPa⟩ := h
      have hac : a = c := by
        rcases List.mem_cons.mp ha with hac | ha
        · exact hac
        · exact absurd ⟨a, ha, hPa⟩ hl
      subst hac
      refine ⟨a, List.mem_cons_self, hPa, fun b hb hPb => ?_⟩
      rcases List.mem_cons.mp hb with rfl | hb
      · exact le_rfl
      · exact absurd ⟨b, hb, hPb⟩ hl

/-- Sorting is stable: among elements of the same rank the order of the list is kept. -/
lemma pairwise_insertionSort_stable {α : Type} {r S : α → α → Prop} [DecidableRel r] [Std.Total r]
    [IsTrans α r] {l : List α} (h : l.Pairwise S) :
    (l.insertionSort r).Pairwise fun a b => r a b ∧ (r b a → S a b) := by
  have hinsert : ∀ (a : α) (l : List α), (∀ b ∈ l, S a b) →
      l.Pairwise (fun a b => r a b ∧ (r b a → S a b)) →
      (l.orderedInsert r a).Pairwise fun a b => r a b ∧ (r b a → S a b) := by
    intro a l
    induction l with
    | nil => exact fun _ _ => List.pairwise_singleton _ _
    | cons c l ih =>
      intro hS hl
      have hc := List.pairwise_cons.mp hl
      rw [List.orderedInsert_cons]
      split
      · rename_i hac
        refine List.pairwise_cons.mpr ⟨fun b hb => ⟨?_, fun _ => hS b hb⟩, hl⟩
        rcases List.mem_cons.mp hb with rfl | hb
        · exact hac
        · exact trans_of r hac (hc.1 b hb).1
      · rename_i hac
        refine List.pairwise_cons.mpr ⟨fun b hb => ?_, ih (fun b hb => hS b (List.mem_cons_of_mem c hb)) hc.2⟩
        rcases List.mem_cons.mp ((List.perm_orderedInsert r a l).mem_iff.mp hb) with rfl | hb
        · exact ⟨(total_of r c b).resolve_right hac, fun hbc => absurd hbc hac⟩
        · exact hc.1 b hb
  induction l with
  | nil => exact .nil
  | cons a l ih =>
    have ha := List.pairwise_cons.mp h
    rw [List.insertionSort_cons]
    refine hinsert a _ (fun b hb => ?_) (ih ha.2)
    exact ha.1 b ((List.perm_insertionSort r l).mem_iff.mp hb)

section OrderedSet

variable {α β : Type}

/-- A concatenation only sees the values where the function yields something. -/
lemma flatMap_filter_nonempty (f : α → List β) (l : List α) :
    (l.filter (fun a => !(f a).isEmpty)).flatMap f = l.flatMap f := by
  induction l with
  | nil => rfl
  | cons a l ih =>
    by_cases hf : f a = []
    · simp [hf, ih]
    · simp [hf, ih]

variable [DecidableEq α]

/-- The values of a list in increasing order of `rank`, each once: iterating a `BTreeSet`. -/
def btreeSet (rank : α → ℕ) (l : List α) : List α :=
  l.dedup.insertionSort (fun a b => rank a ≤ rank b)

variable {rank : α → ℕ}

/-- Iterating the set visits exactly the inserted values. -/
@[simp] lemma mem_btreeSet {l : List α} {a : α} : a ∈ btreeSet rank l ↔ a ∈ l := by
  unfold btreeSet
  rw [(List.perm_insertionSort _ _).mem_iff, List.mem_dedup]

/-- Iterating the set visits no value twice. -/
lemma nodup_btreeSet (l : List α) : (btreeSet rank l).Nodup := by
  unfold btreeSet
  rw [(List.perm_insertionSort _ _).nodup_iff]
  exact List.nodup_dedup l

/-- Iterating the set visits the values in increasing order. -/
lemma pairwise_btreeSet (l : List α) :
    (btreeSet rank l).Pairwise (fun a b => rank a ≤ rank b) := by
  unfold btreeSet
  have : Std.Total (fun a b : α => rank a ≤ rank b) := ⟨fun a b => Nat.le_total _ _⟩
  have : IsTrans α (fun a b : α => rank a ≤ rank b) := ⟨fun _ _ _ h h' => Nat.le_trans h h'⟩
  exact List.pairwise_insertionSort _ _

/-- Two sets that agree on the values where `f` yields something give the same concatenation. -/
lemma flatMap_btreeSet_congr (hrank : Function.Injective rank) {f : α → List β} {l l' : List α}
    (h : ∀ a, f a ≠ [] → (a ∈ l ↔ a ∈ l')) :
    (btreeSet rank l).flatMap f = (btreeSet rank l').flatMap f := by
  rw [← flatMap_filter_nonempty f (btreeSet rank l), ← flatMap_filter_nonempty f (btreeSet rank l')]
  have hperm : ((btreeSet rank l).filter (fun a => !(f a).isEmpty)).Perm
      ((btreeSet rank l').filter (fun a => !(f a).isEmpty)) := by
    rw [List.perm_ext_iff_of_nodup ((nodup_btreeSet l).filter _) ((nodup_btreeSet l').filter _)]
    intro a
    simp only [List.mem_filter, mem_btreeSet, Bool.not_eq_true', List.isEmpty_eq_false_iff]
    constructor
    · rintro ⟨ha, hf⟩
      exact ⟨(h a hf).mp ha, hf⟩
    · rintro ⟨ha, hf⟩
      exact ⟨(h a hf).mpr ha, hf⟩
  rw [hperm.eq_of_pairwise (fun a b _ _ hab hba => hrank (Nat.le_antisymm hab hba))
    ((pairwise_btreeSet l).filter _) ((pairwise_btreeSet l').filter _)]

/-- Sorting a list into the classes of a function and joining the classes rearranges it. -/
lemma flatMap_filter_perm (f : β → α) {keys : List α} (hkeys : keys.Nodup) {l : List β}
    (h : ∀ b ∈ l, f b ∈ keys) : (keys.flatMap fun k => l.filter (f · == k)).Perm l := by
  induction keys generalizing l with
  | nil =>
    have hnil : l = [] := List.eq_nil_iff_forall_not_mem.mpr fun b hb => by simpa using h b hb
    simp [hnil]
  | cons k keys ih =>
    rw [List.nodup_cons] at hkeys
    -- The other classes are those of the elements outside the class of `k`.
    have hrest : (keys.flatMap fun k' => l.filter (f · == k')) =
        keys.flatMap fun k' => (l.filter fun b => !(f b == k)).filter (f · == k') := by
      refine List.flatMap_congr fun k' hk' => ?_
      rw [List.filter_filter]
      refine List.filter_congr fun b _ => ?_
      by_cases hb : f b = k'
      · have hne : k' ≠ k := fun heq => hkeys.1 (heq ▸ hk')
        simp [hb, hne]
      · simp [hb]
    have hperm := ih hkeys.2 (l := l.filter fun b => !(f b == k)) fun b hb => by
      obtain ⟨hb, hne⟩ := List.mem_filter.mp hb
      rcases List.mem_cons.mp (h b hb) with heq | hmem
      · simp [heq] at hne
      · exact hmem
    rw [List.flatMap_cons, hrest]
    exact (hperm.append_left _).trans (List.filter_append_perm _ l)

end OrderedSet

end Lib
