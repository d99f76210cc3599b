import Mathlib.Data.List.Infix
import Mathlib.Data.Set.Image
import Mathlib.Tactic.Common

/-!
# Trees of names

A name is a list of labels, the leftmost first, and it lies below the names that it ends with. A tree of
names is given by its apex and its owner names: a name is in it when it is the apex or an owner, or an
owner lies below it. An owner whose first label is the wildcard covers the names below its encloser, the
rest of it.

A walk from a name up to the top takes the name itself, if it is an owner, and otherwise the nearest
wildcard. Wildcards are meant for the names whose closest encloser is theirs. `nearest_iff_meantFor` says
for which names the nearest wildcard is the one that is meant, and `takes_map` that a walk does not depend
on how labels are written, as long as different ones are written differently.
-/

namespace Lib

variable {α β : Type*}

/-- The name `a` lies below the name `b`. -/
def Below (a b : List α) : Prop :=
  b <:+ a ∧ b ≠ a

section Below

variable {a b c : List α}

instance [DecidableEq α] : Decidable (Below a b) :=
  inferInstanceAs (Decidable (_ ∧ _))

lemma Below.length_lt (h : Below a b) : b.length < a.length :=
  lt_of_le_of_ne h.1.length_le fun hlength => h.2 (h.1.eq_of_length hlength)

lemma Below.trans (h : Below a b) (h' : Below b c) : Below a c := by
  refine ⟨h'.1.trans h.1, ?_⟩
  rintro rfl
  exact absurd (h'.length_lt.trans h.length_lt) (lt_irrefl _)

lemma Below.asymm (h : Below a b) : ¬Below b a :=
  fun h' => absurd (h.length_lt.trans h'.length_lt) (lt_irrefl _)

/-- A name lies below what is left of it without its first label. -/
lemma below_cons (x : α) (a : List α) : Below (x :: a) a :=
  ⟨List.suffix_cons x a, (List.cons_ne_self x a).symm⟩

/-- The names that a name lies below are in a line. -/
lemma below_cases (h : Below a b) (h' : Below a c) : b = c ∨ Below b c ∨ Below c b := by
  by_cases heq : b = c
  · exact .inl heq
  · rcases List.suffix_or_suffix_of_suffix h.1 h'.1 with hsuffix | hsuffix
    · exact .inr (.inr ⟨hsuffix, heq⟩)
    · exact .inr (.inl ⟨hsuffix, fun h => heq h.symm⟩)

/-- Names that are written label by label lie below what is written for the names they lie below. -/
lemma below_map {f : α → β} (hf : f.Injective) {s : List β} :
    Below (a.map f) s ↔ ∃ b, Below a b ∧ b.map f = s := by
  constructor
  · rintro ⟨hsuffix, hne⟩
    obtain ⟨b, hb, rfl⟩ := List.suffix_map_iff.mp hsuffix
    exact ⟨b, ⟨hb, fun heq => hne (by rw [heq])⟩, rfl⟩
  · rintro ⟨b, hb, rfl⟩
    exact ⟨hb.1.map f, fun heq => hb.2 (hf.list_map heq)⟩

lemma below_map_map {f : α → β} (hf : f.Injective) : Below (a.map f) (b.map f) ↔ Below a b := by
  rw [below_map hf]
  constructor
  · rintro ⟨b', hb', heq⟩
    rwa [← hf.list_map heq]
  · exact fun h => ⟨b, h, rfl⟩

end Below

/-- A tree of names: its apex and its owner names. -/
structure NameTree (α : Type*) where
  apex : List α
  owners : Set (List α)

namespace NameTree

variable (t : NameTree α) (w : α) (n : List α)

/-- An owner lies below the name. -/
def OwnerBelow : Prop :=
  ∃ o ∈ t.owners, Below o n

/-- The name exists. -/
def Present : Prop :=
  n = t.apex ∨ n ∈ t.owners ∨ t.OwnerBelow n

/-- The name is an owner, or a wildcard covers it. -/
def Found : Prop :=
  n ∈ t.owners ∨ ∃ e, Below n e ∧ w :: e ∈ t.owners

/-- The closest encloser of a name: the longest of its ancestors that exists. -/
def ClosestEncloser (e : List α) : Prop :=
  Below n e ∧ t.Present e ∧ ∀ m, Below n m → Below m e → ¬t.Present m

/-- The wildcard under `e` is the nearest one above the name. -/
def Nearest (e : List α) : Prop :=
  Below n e ∧ w :: e ∈ t.owners ∧ ∀ m, Below n m → Below m e → w :: m ∉ t.owners

/-- The owner that a walk up from a name takes. -/
def Takes (o : List α) : Prop :=
  n ∈ t.owners ∧ o = n ∨ n ∉ t.owners ∧ ∃ e, t.Nearest w n e ∧ o = w :: e

/-- Every existing name on the way up from `n`, this one included, that has a wildcard above it also has
one at or below it on the way. -/
def Sheltered : Prop :=
  ∀ m, m = n ∨ Below n m → t.Present m → ∀ e, Below m e → w :: e ∈ t.owners →
    ∃ nearer, Below n nearer ∧ (nearer = m ∨ Below nearer m) ∧ w :: nearer ∈ t.owners

/-- The wildcard under `e` is meant for the name: the name does not exist, and `e` is its closest
encloser. -/
def MeantFor (e : List α) : Prop :=
  ¬t.Present n ∧ t.ClosestEncloser n e ∧ w :: e ∈ t.owners

/-- The tree with its labels written in another way. -/
def map (f : α → β) : NameTree β where
  apex := t.apex.map f
  owners := List.map f '' t.owners

variable {t w n} {e e' : List α}

/-- The encloser of a wildcard exists. -/
lemma present_of_wildcard (h : w :: e ∈ t.owners) : t.Present e :=
  .inr (.inr ⟨_, h, below_cons w e⟩)

/-- Where a wildcard stands above a name, one is the nearest. -/
lemma exists_nearest (he : Below n e) (hwild : w :: e ∈ t.owners) : ∃ m, t.Nearest w n m := by
  classical
  -- By induction on how far the wildcard is above the name.
  induction hk : n.length - e.length using Nat.strong_induction_on generalizing e with
  | _ k ih =>
    by_cases hnearer : ∃ m, Below n m ∧ Below m e ∧ w :: m ∈ t.owners
    · obtain ⟨m, hm, hme, hmwild⟩ := hnearer
      have hlt := hme.length_lt
      have hle := hm.length_lt
      exact ih (n.length - m.length) (by omega) hm hmwild rfl
    · exact ⟨e, he, hwild, fun m hm hme hmwild => hnearer ⟨m, hm, hme, hmwild⟩⟩

/-- What a walk takes is an owner. -/
lemma Takes.mem_owners {o : List α} (h : t.Takes w n o) : o ∈ t.owners := by
  rcases h with ⟨hn, rfl⟩ | ⟨-, e, he, rfl⟩
  · exact hn
  · exact he.2.1

/-- A walk finds an owner exactly when the name is one or is covered by one. -/
lemma exists_takes_iff : (∃ o, t.Takes w n o) ↔ t.Found w n := by
  constructor
  · rintro ⟨o, ⟨hn, -⟩ | ⟨-, e, he, -⟩⟩
    · exact .inl hn
    · exact .inr ⟨e, he.1, he.2.1⟩
  · intro h
    by_cases hn : n ∈ t.owners
    · exact ⟨n, .inl ⟨hn, rfl⟩⟩
    · obtain ⟨e, he, hwild⟩ := h.resolve_left hn
      obtain ⟨m, hm⟩ := exists_nearest he hwild
      exact ⟨_, .inr ⟨hn, m, hm, rfl⟩⟩

/-! ## The closest encloser -/

/-- A wildcard that is meant for a name is the nearest one. -/
lemma MeantFor.nearest (h : t.MeantFor w n e) : t.Nearest w n e :=
  ⟨h.2.1.1, h.2.2, fun m hm hme hwild => h.2.1.2.2 m hm hme (present_of_wildcard hwild)⟩

/-- The nearest wildcard above a sheltered name is meant for it. -/
lemma Sheltered.meantFor (h : t.Sheltered w n) (he : t.Nearest w n e) : t.MeantFor w n e := by
  obtain ⟨hbelow, hwild, hnearest⟩ := he
  have habsent : ∀ m, m = n ∨ Below n m → Below m e → ¬t.Present m := by
    intro m hm hme hpresent
    obtain ⟨nearer, hn, hcases, hnwild⟩ := h m hm hpresent e hme hwild
    refine hnearest nearer hn ?_ hnwild
    rcases hcases with rfl | hnearer
    · exact hme
    · exact hnearer.trans hme
  exact ⟨habsent n (.inl rfl) hbelow, ⟨hbelow, present_of_wildcard hwild, fun m hm => habsent m (.inr hm)⟩,
    hwild⟩

/-- A name without a wildcard above it is sheltered. -/
lemma sheltered_of_not_nearest (h : ∀ e, ¬t.Nearest w n e) : t.Sheltered w n := by
  intro m hm _ e he hwild
  have hn : Below n e := by
    rcases hm with rfl | hm
    · exact he
    · exact hm.trans he
  obtain ⟨e', he'⟩ := exists_nearest hn hwild
  exact absurd he' (h e')

/-- A name that a wildcard is meant for is sheltered. -/
lemma MeantFor.sheltered (h : t.MeantFor w n e) : t.Sheltered w n := by
  obtain ⟨habsent, ⟨hbelow, -, hbetween⟩, hwild⟩ := h
  intro m hm hpresent d hd hdwild
  rcases hm with rfl | hm
  · exact absurd hpresent habsent
  · -- An existing name above the name is at or above the encloser.
    rcases below_cases hm hbelow with rfl | habove | hnearer
    · exact ⟨m, hm, .inl rfl, hwild⟩
    · exact absurd hpresent (hbetween m hm habove)
    · exact ⟨e, hbelow, .inr hnearer, hwild⟩

/-- The nearest wildcard is the one that is meant for the name exactly when the name is sheltered. -/
theorem nearest_iff_meantFor : (∀ e, t.Nearest w n e ↔ t.MeantFor w n e) ↔ t.Sheltered w n := by
  constructor
  · intro h
    by_cases hnearest : ∃ e, t.Nearest w n e
    · obtain ⟨e, he⟩ := hnearest
      exact ((h e).mp he).sheltered
    · exact sheltered_of_not_nearest (not_exists.mp hnearest)
  · exact fun h e => ⟨h.meantFor, MeantFor.nearest⟩

/-! ## Labels written in another way -/

variable {f : α → β}

lemma mem_map_owners (hf : f.Injective) : n.map f ∈ (t.map f).owners ↔ n ∈ t.owners :=
  hf.list_map.mem_set_image

/-- The nearest wildcard is the one written for the nearest. -/
lemma nearest_map (hf : f.Injective) {s : List β} :
    (t.map f).Nearest (f w) (n.map f) s ↔ ∃ e, t.Nearest w n e ∧ e.map f = s := by
  constructor
  · rintro ⟨hbelow, hwild, hnearest⟩
    obtain ⟨e, he, rfl⟩ := (below_map hf).mp hbelow
    rw [← List.map_cons, mem_map_owners hf] at hwild
    refine ⟨e, ⟨he, hwild, fun m hm hme hmwild => ?_⟩, rfl⟩
    refine hnearest (m.map f) ((below_map_map hf).mpr hm) ((below_map_map hf).mpr hme) ?_
    rwa [← List.map_cons, mem_map_owners hf]
  · rintro ⟨e, ⟨he, hwild, hnearest⟩, rfl⟩
    refine ⟨(below_map_map hf).mpr he, ?_, ?_⟩
    · rwa [← List.map_cons, mem_map_owners hf]
    · intro s hs hse hswild
      obtain ⟨m, hm, rfl⟩ := (below_map hf).mp hs
      rw [← List.map_cons, mem_map_owners hf] at hswild
      exact hnearest m hm ((below_map_map hf).mp hse) hswild

/-- A walk takes what is written for the owner that it takes. -/
theorem takes_map (hf : f.Injective) {o : List α} :
    (t.map f).Takes (f w) (n.map f) (o.map f) ↔ t.Takes w n o := by
  unfold Takes
  rw [mem_map_owners hf, hf.list_map.eq_iff]
  refine or_congr_right (and_congr_right fun _ => ?_)
  constructor
  · rintro ⟨s, hs, ho⟩
    obtain ⟨e, he, rfl⟩ := (nearest_map hf).mp hs
    exact ⟨e, he, hf.list_map (by rw [ho, List.map_cons])⟩
  · rintro ⟨e, he, rfl⟩
    exact ⟨e.map f, (nearest_map hf).mpr ⟨e, he, rfl⟩, List.map_cons⟩

end NameTree

end Lib
