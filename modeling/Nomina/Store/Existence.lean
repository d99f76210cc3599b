import Nomina.Lib.NameTree
import Nomina.Store.Build

/-!
# Existence of names

DNS tells a name that does not exist (NXDOMAIN) from one that exists without data of the type asked
for (NODATA), and a name exists also when it is the apex or when something is stored below it. The
store keeps owner names as flat keys, the texts that their names are displayed by, and walks up a key
from dot to dot. The main result says exactly for which queries its answer agrees with the existence
of the name in the tree of owner names, where a name is what its labels are.
-/

namespace Nomina

open Lib

/-! ## The tree of owner names -/

/-- The label of a wildcard owner. -/
def wildcardLabel : Label := [0x2a]

variable (K : Crates)

/-- The keys of the zone are those of the owner names. -/
def StoredZone.OwnedBy (zone : StoredZone) (owners : List Name) : Prop :=
  ∀ key, key ∈ zone.records ↔ ∃ owner ∈ owners, nameKey K owner = key

/-- The owner names of a zone, label by label and ignoring ASCII case. -/
def labelTree (zone : StoredZone) (owners : List Name) : NameTree Label where
  apex := zone.apex.toLowercase.labels
  owners := {labels | ∃ owner ∈ owners, owner.toLowercase.labels = labels}

/-- A name is the apex. -/
def IsApex (zone : StoredZone) (qname : Name) : Prop :=
  qname.toLowercase = zone.apex.toLowercase

/-- A stored owner name is equal to the name, or is a wildcard that matches it. -/
def HasOwner (zone : StoredZone) (owners : List Name) (qname : Name) : Prop :=
  (labelTree zone owners).Found wildcardLabel qname.toLowercase.labels

/-- A stored owner name lies below the name. -/
def HasOwnerBelow (zone : StoredZone) (owners : List Name) (qname : Name) : Prop :=
  (labelTree zone owners).OwnerBelow qname.toLowercase.labels

/-- A lookup has something to answer a name with: an owner, or the SOA of the zone at the apex. -/
def Answerable (zone : StoredZone) (owners : List Name) (qname : Name) (qtype : RecordType) : Prop :=
  HasOwner zone owners qname ∨ (IsApex zone qname ∧ qtype = .SOA)

/-- The name exists in the zone: it is the apex, an owner name is equal to it or lies below it, or
a wildcard owner matches it. -/
def NameExists (zone : StoredZone) (owners : List Name) (qname : Name) : Prop :=
  IsApex zone qname ∨ HasOwner zone owners qname ∨ HasOwnerBelow zone owners qname

/-- The result tells whether the name exists: NXDOMAIN exactly when it does not, and otherwise
NOERROR, authoritatively or with NODATA. -/
def ReportsExistence (r : LookupResult) (nameExists : Prop) : Prop :=
  (r.outcome = .NxDomain ↔ ¬ nameExists) ∧ (r.rcode = .NXDomain ↔ ¬ nameExists) ∧
    (nameExists → r.rcode = .NoError ∧ (r.outcome = .Authoritative ∨ r.outcome = .NoData))

/-! ## The tree that is displayed -/

/-- What stands between the dots of the displayed name. -/
def shownLabels (n : Name) : List Str :=
  split '.' (nameKey K n)

/-- The owner names of a zone as they are displayed. -/
def shownTree (zone : StoredZone) (owners : List Name) : NameTree Str where
  apex := shownLabels K zone.apex
  owners := {labels | ∃ owner ∈ owners, shownLabels K owner = labels}

/-- By the displayed names, the walk up from `qname` takes `owner`. It stops before the top, so a
wildcard that is the whole name is taken for itself only. -/
def ShownTakes (zone : StoredZone) (owners : List Name) (qname owner : Name) : Prop :=
  (shownTree K zone owners).Takes ['*'] (shownLabels K qname) (shownLabels K owner) ∧
    (shownLabels K owner = shownLabels K qname ∨ shownLabels K owner ≠ [['*']])

/-- By the displayed names, a lookup has something to answer a name with: the walk takes an owner, or it is
the SOA of the zone. -/
def ShownAnswerable (zone : StoredZone) (owners : List Name) (qname : Name) (qtype : RecordType) : Prop :=
  (∃ owner ∈ owners, ShownTakes K zone owners qname owner) ∨
    (shownLabels K qname = shownLabels K zone.apex ∧ qtype = .SOA)

/-- The displayed names and the labels say alike whether there is something to answer a name with. -/
def ShownAlike (zone : StoredZone) (owners : List Name) (qname : Name) (qtype : RecordType) : Prop :=
  ShownAnswerable K zone owners qname qtype ↔ Answerable zone owners qname qtype

/-! ## What the flat keys find -/

section Shown

variable {K : Crates} {zone : StoredZone} {owners : List Name} {qname owner : Name} {key : Str}

/-- Behind a dot of a text stands a text whose parts are the last of its parts. -/
lemma below_split_iff {a b : Str} : Below (split '.' a) (split '.' b) ↔ b ∈ dotParents a := by
  unfold Below
  rw [split_suffix_iff, Ne, split_inj, mem_dotParents]
  constructor
  · rintro ⟨rfl | hpre, hne⟩
    · exact absurd rfl hne
    · exact hpre
  · rintro ⟨pre, rfl⟩
    refine ⟨.inr ⟨pre, rfl⟩, fun heq => ?_⟩
    have hlength := congrArg List.length heq
    rw [List.length_append, List.length_cons] at hlength
    omega

/-- Some of the last parts of a text are the parts of a text. -/
lemma exists_split_of_below {a : Str} {parts : List Str} (h : Below (split '.' a) parts) (hne : parts ≠ []) :
    ∃ b, split '.' b = parts :=
  ⟨join ['.'] parts,
    List.splitOn_intercalate '.' (fun _ hpart => notMem_of_mem_split (h.1.subset hpart)) hne⟩

lemma mem_shownTree (howned : zone.OwnedBy K owners) :
    split '.' key ∈ (shownTree K zone owners).owners ↔ key ∈ zone.records := by
  rw [howned key]
  exact exists_congr fun owner => and_congr_right fun _ => split_inj

/-- A wildcard that is displayed under `e` is the nearest one exactly when no other key of a wildcard is met
on the way from dot to dot. -/
lemma nearest_shown (howned : zone.OwnedBy K owners) {e : Str} :
    (shownTree K zone owners).Nearest ['*'] (split '.' key) (split '.' e) ↔
      e ∈ dotParents key ∧ '*' :: '.' :: e ∈ zone.records ∧
        ∀ nearer ∈ dotParents key, e ∈ dotParents nearer → '*' :: '.' :: nearer ∉ zone.records := by
  have hwild : ∀ e : Str, ['*'] :: split '.' e ∈ (shownTree K zone owners).owners ↔
      '*' :: '.' :: e ∈ zone.records := by
    intro e
    rw [← mem_shownTree howned, split_wildcard]
  unfold NameTree.Nearest
  rw [below_split_iff, hwild]
  refine and_congr_right fun _ => and_congr_right fun _ => ?_
  constructor
  · intro h nearer hkey hbelow
    rw [← hwild]
    exact h _ (below_split_iff.mpr hkey) (below_split_iff.mpr hbelow)
  · intro h m hkey hbelow
    obtain ⟨nearer, rfl⟩ : ∃ nearer, split '.' nearer = m :=
      exists_split_of_below hkey fun hnil => by simpa [hnil] using hbelow.length_lt
    rw [hwild]
    exact h nearer (below_split_iff.mp hkey) (below_split_iff.mp hbelow)

/-- Without an entry of its own, a name is looked for among the wildcards above it. -/
lemma ownerKey_of_notMem (hexact : key ∉ zone.records) {k : Str} :
    ownerKey zone key = some k ↔ ∃ e, k = '*' :: '.' :: e ∧ e ∈ dotParents key ∧
      '*' :: '.' :: e ∈ zone.records ∧
        ∀ nearer ∈ dotParents key, e ∈ dotParents nearer → '*' :: '.' :: nearer ∉ zone.records := by
  have hasymm : ∀ a b : Str, (∃ pre, a = pre ++ '.' :: b) → ¬∃ pre, b = pre ++ '.' :: a := by
    intro a b h h'
    rw [← mem_dotParents, ← below_split_iff] at h h'
    exact h.asymm h'
  unfold ownerKey candidateKeys
  rw [List.find?_cons_of_neg (by simpa using hexact), List.find?_map, Option.map_eq_some_iff]
  refine exists_congr fun e => ?_
  rw [find?_eq_some_iff_of_pairwise (pairwise_dotParents key) hasymm]
  simp only [Function.comp_apply, decide_eq_true_eq, decide_eq_false_iff_not, ← mem_dotParents]
  constructor
  · rintro ⟨h, rfl⟩
    exact ⟨rfl, h⟩
  · rintro ⟨rfl, h⟩
    exact ⟨h, rfl⟩

/-- The owner entry of a name is that of the owner which the walk over the displayed names takes. -/
lemma ownerKey_eq_iff (howned : zone.OwnedBy K owners) (howner : owner ∈ owners) :
    ownerKey zone (nameKey K qname) = some (nameKey K owner) ↔ ShownTakes K zone owners qname owner := by
  unfold ShownTakes NameTree.Takes shownLabels
  rw [mem_shownTree howned, split_inj]
  by_cases hexact : nameKey K qname ∈ zone.records
  · have hself : ownerKey zone (nameKey K qname) = some (nameKey K qname) :=
      List.find?_cons_of_pos (by simpa using hexact)
    rw [hself, Option.some_inj]
    simp only [hexact, true_and, not_true_eq_false, false_and, or_false]
    exact ⟨fun h => ⟨h.symm, .inl h.symm⟩, fun h => h.1.symm⟩
  · have hne : nameKey K owner ≠ nameKey K qname :=
      fun heq => hexact ((howned _).mpr ⟨owner, howner, heq⟩)
    rw [ownerKey_of_notMem hexact]
    simp only [hexact, hne, false_and, not_false_eq_true, true_and, false_or]
    constructor
    · rintro ⟨e, heq, he⟩
      rw [heq, split_wildcard]
      refine ⟨⟨split '.' e, (nearest_shown howned).mpr he, rfl⟩, fun htop => ?_⟩
      exact split_ne_nil '.' e (List.cons.inj htop).2
    · rintro ⟨⟨m, hm, heq⟩, htop⟩
      obtain ⟨e, rfl⟩ : ∃ e, split '.' e = m := by
        refine exists_split_of_below hm.1 fun hnil => htop ?_
        rw [heq, hnil]
      refine ⟨e, ?_, (nearest_shown howned).mp hm⟩
      rw [← split_inj (c := '.'), heq, split_wildcard]

/-- An owner entry is found exactly when the walk over the displayed names takes an owner. -/
lemma ownerKey_isSome_iff (howned : zone.OwnedBy K owners) :
    (ownerKey zone (nameKey K qname)).isSome ↔ ∃ owner ∈ owners, ShownTakes K zone owners qname owner := by
  rw [Option.isSome_iff_exists]
  constructor
  · rintro ⟨k, hk⟩
    obtain ⟨owner, howner, rfl⟩ := (howned k).mp (by simpa using List.find?_some hk)
    exact ⟨owner, howner, (ownerKey_eq_iff howned howner).mp hk⟩
  · rintro ⟨owner, howner, htakes⟩
    exact ⟨_, (ownerKey_eq_iff howned howner).mpr htakes⟩

end Shown

/-! ## Lookups -/

section Lookup

variable {K : Crates} {zone : StoredZone} {owners : List Name} {qname : Name} {qtype : RecordType}

/-- A lookup in a zone answers NOERROR when it has something to answer the displayed name with. -/
lemma lookupIn_found (howned : zone.OwnedBy K owners) (viewId : ℤ) (viewName : Option Str)
    (h : ShownAnswerable K zone owners qname qtype) :
    (lookupIn K zone viewId viewName qname qtype).rcode = .NoError ∧
      ((lookupIn K zone viewId viewName qname qtype).outcome = .Authoritative ∨
        (lookupIn K zone viewId viewName qname qtype).outcome = .NoData) := by
  by_cases hsoa : qtype = .SOA ∧ nameKey K qname = nameKey K zone.apex
  · rw [lookupIn_soa hsoa]
    exact ⟨rfl, .inl rfl⟩
  · have howner : ∃ owner ∈ owners, ShownTakes K zone owners qname owner :=
      h.resolve_right fun hapex => hsoa ⟨hapex.2, split_inj.mp hapex.1⟩
    obtain ⟨k, hk⟩ := Option.isSome_iff_exists.mp ((ownerKey_isSome_iff howned).mpr howner)
    rw [lookupIn_entry hsoa, recordsAt_eq, hk]
    exact answer_outcome ..

/-- A lookup in a zone answers NXDOMAIN in every other case. -/
lemma lookupIn_not_found (howned : zone.OwnedBy K owners) (viewId : ℤ) (viewName : Option Str)
    (h : ¬ShownAnswerable K zone owners qname qtype) :
    (lookupIn K zone viewId viewName qname qtype).rcode = .NXDomain ∧
      (lookupIn K zone viewId viewName qname qtype).outcome = .NxDomain := by
  obtain ⟨howner, hsoa⟩ := not_or.mp h
  have hnone : ownerKey zone (nameKey K qname) = none := by
    rw [← Option.not_isSome_iff_eq_none, ownerKey_isSome_iff howned]
    exact howner
  rw [lookupIn_entry fun h => hsoa ⟨split_inj.mpr h.2, h.1⟩, recordsAt_eq, hnone]
  exact ⟨rfl, rfl⟩

/-- What a lookup has something to answer with exists. -/
lemma nameExists_of_answerable (h : Answerable zone owners qname qtype) : NameExists zone owners qname := by
  rcases h with howner | hapex
  · exact .inr (.inl howner)
  · exact .inl hapex.1

/-- Any other name exists as the apex or by the owners below it. -/
lemma nameExists_iff_of_not_answerable (h : ¬Answerable zone owners qname qtype) :
    NameExists zone owners qname ↔ IsApex zone qname ∨ HasOwnerBelow zone owners qname :=
  or_congr_right (or_iff_right fun howner => h (.inl howner))

/-- A lookup tells whether a name exists exactly when it finds the names that exist and no others. -/
lemma reportsExistence_lookupIn (howned : zone.OwnedBy K owners) (viewId : ℤ) (viewName : Option Str)
    (P : Prop) :
    ReportsExistence (lookupIn K zone viewId viewName qname qtype) P ↔
      (ShownAnswerable K zone owners qname qtype ↔ P) := by
  by_cases hfound : ShownAnswerable K zone owners qname qtype
  · obtain ⟨hrcode, houtcome⟩ := lookupIn_found howned viewId viewName hfound
    constructor
    · intro h
      refine iff_of_true hfound (by_contra fun hP => ?_)
      rw [h.2.1.mpr hP] at hrcode
      cases hrcode
    · intro h
      have hP := h.mp hfound
      refine ⟨?_, ?_, fun _ => ⟨hrcode, houtcome⟩⟩
      · rcases houtcome with h | h <;> simp [h, hP]
      · simp [hrcode, hP]
  · obtain ⟨hrcode, houtcome⟩ := lookupIn_not_found howned viewId viewName hfound
    constructor
    · exact fun h => iff_of_false hfound (h.2.1.mp hrcode)
    · intro h
      have hP : ¬P := fun hP => hfound (h.mpr hP)
      exact ⟨iff_of_true houtcome hP, iff_of_true hrcode hP, fun h => absurd h hP⟩

end Lookup

/-! ## Names that are displayed plainly -/

/-- The names are displayed label by label, by texts without dots that tell labels apart, and none of them
is a wildcard at the top. -/
structure ShownPlainly (f : Label → Str) (names : List Name) : Prop where
  injective : f.Injective
  wildcard : f wildcardLabel = ['*']
  shown : ∀ n ∈ names, shownLabels K n = n.toLowercase.labels.map f
  notTop : ∀ n ∈ names, n.toLowercase.labels ≠ [wildcardLabel]

section Plain

variable {K : Crates} {f : Label → Str} {zone : StoredZone} {owners : List Name} {qname owner : Name}
  {qtype : RecordType}

/-- The displayed tree of such names is the tree of their labels. -/
lemma ShownPlainly.shownTree_eq (h : ShownPlainly K f (zone.apex :: owners)) :
    shownTree K zone owners = (labelTree zone owners).map f := by
  have howners : ∀ owner ∈ owners, shownLabels K owner = owner.toLowercase.labels.map f :=
    fun owner howner => h.shown owner (List.mem_cons_of_mem _ howner)
  unfold shownTree labelTree NameTree.map
  rw [h.shown zone.apex List.mem_cons_self]
  congr 1
  ext labels
  constructor
  · rintro ⟨owner, howner, rfl⟩
    exact ⟨_, ⟨owner, howner, rfl⟩, (howners owner howner).symm⟩
  · rintro ⟨_, ⟨owner, howner, rfl⟩, rfl⟩
    exact ⟨owner, howner, howners owner howner⟩

/-- The walk over such displayed names takes the owner that the labels say. -/
lemma ShownPlainly.takes_iff (h : ShownPlainly K f (zone.apex :: qname :: owners)) (howner : owner ∈ owners) :
    ShownTakes K zone owners qname owner ↔
      (labelTree zone owners).Takes wildcardLabel qname.toLowercase.labels owner.toLowercase.labels := by
  have htree : shownTree K zone owners = (labelTree zone owners).map f := by
    refine ShownPlainly.shownTree_eq ⟨h.injective, h.wildcard, ?_, ?_⟩
    · exact fun n hn => h.shown n (List.cons_subset_cons _ (List.subset_cons_self _ _) hn)
    · exact fun n hn => h.notTop n (List.cons_subset_cons _ (List.subset_cons_self _ _) hn)
  have hin : owner ∈ zone.apex :: qname :: owners := List.mem_cons_of_mem _ (List.mem_cons_of_mem _ howner)
  have htop : shownLabels K owner ≠ [['*']] := by
    rw [h.shown owner hin, ← h.wildcard]
    exact fun heq => h.notTop owner hin (h.injective.list_map heq)
  unfold ShownTakes
  rw [htree, h.shown owner hin, h.shown qname (List.mem_cons_of_mem _ List.mem_cons_self), ← h.wildcard,
    NameTree.takes_map h.injective]
  rw [h.shown owner hin, ← h.wildcard] at htop
  exact and_iff_left (.inr htop)

/-- Of such names, the displayed ones and the labels say alike what there is to answer with. -/
lemma ShownPlainly.answerable_iff (h : ShownPlainly K f (zone.apex :: qname :: owners)) :
    ShownAnswerable K zone owners qname qtype ↔ Answerable zone owners qname qtype := by
  unfold ShownAnswerable Answerable HasOwner IsApex
  refine or_congr ?_ (and_congr_left fun _ => ?_)
  · rw [← NameTree.exists_takes_iff]
    constructor
    · rintro ⟨owner, howner, htakes⟩
      exact ⟨_, (h.takes_iff howner).mp htakes⟩
    · rintro ⟨o, htakes⟩
      obtain ⟨owner, howner, rfl⟩ : o ∈ (labelTree zone owners).owners := htakes.mem_owners
      exact ⟨owner, howner, (h.takes_iff howner).mpr htakes⟩
  · rw [h.shown qname (List.mem_cons_of_mem _ List.mem_cons_self), h.shown zone.apex List.mem_cons_self,
      h.injective.list_map.eq_iff]
    exact ⟨fun heq => congrArg Name.mk heq, congrArg Name.labels⟩

end Plain

/-- Names are displayed plainly by crates that show labels as they are, when none has a dot in a label or is a
wildcard at the top. -/
lemma shownPlainly_plain {names : List Name}
    (h : ∀ n ∈ names, shownLabels plainCrates n = n.toLowercase.labels.map plainLabelText)
    (htop : ∀ n ∈ names, n.toLowercase.labels ≠ [wildcardLabel]) :
    ShownPlainly plainCrates plainLabelText names := by
  refine ⟨?_, rfl, h, htop⟩
  refine List.map_injective_iff.mpr fun b c hbc => ?_
  have hvalid : ∀ b : UInt8, Nat.isValidChar b.toNat := by
    intro b
    have hlt := b.toNat_lt
    exact .inl (by omega)
  have hcode : ∀ b : UInt8, (Char.ofNat b.toNat).toNat = b.toNat := by
    intro b
    unfold Char.ofNat
    rw [dif_pos (hvalid b)]
    rfl
  rw [← UInt8.toNat_inj, ← hcode b, hbc, hcode]

/-! ## The answer and the tree -/

/-- The answer for a name of the zone tells whether the name exists exactly when one of two things holds.
The displayed names and the labels say alike whether there is something to answer with, and there is, or the
name is not the apex and no owner name lies below it. Or there is something by the displayed names only, and
the name is the apex or an owner name lies below it. For names that are displayed plainly, it does exactly
when there is something to answer with, or the name is not the apex and no owner name lies below it. -/
theorem reportsExistence_iff (s : ZoneStore) (client : IpAddr) (geo : ClientGeo) (qname : Name)
    (qtype : RecordType) (zone : StoredZone) (owners : List Name) (hz : s.zoneFor qname = some zone)
    (howned : zone.OwnedBy K owners) :
    (ReportsExistence (s.lookup K qname qtype client geo) (NameExists zone owners qname) ↔
      (ShownAlike K zone owners qname qtype ∧
        (Answerable zone owners qname qtype ∨ (¬IsApex zone qname ∧ ¬HasOwnerBelow zone owners qname))) ∨
      (ShownAnswerable K zone owners qname qtype ∧ ¬Answerable zone owners qname qtype ∧
        (IsApex zone qname ∨ HasOwnerBelow zone owners qname))) ∧
    ∀ f, ShownPlainly K f (zone.apex :: qname :: owners) →
      (ReportsExistence (s.lookup K qname qtype client geo) (NameExists zone owners qname) ↔
        Answerable zone owners qname qtype ∨ (¬IsApex zone qname ∧ ¬HasOwnerBelow zone owners qname)) := by
  rw [lookup_of_zoneFor hz, reportsExistence_lookupIn howned]
  refine ⟨?_, fun f hplain => ?_⟩
  · unfold ShownAlike
    by_cases hfound : Answerable zone owners qname qtype
    · simp only [hfound, nameExists_of_answerable hfound, iff_true, true_or, and_true, not_true_eq_false,
        false_and, and_false, or_false]
    · rw [nameExists_iff_of_not_answerable hfound]
      by_cases hshown : ShownAnswerable K zone owners qname qtype
      · simp only [hfound, hshown, true_iff, false_and, false_or, not_false_eq_true, true_and]
      · simp only [hfound, hshown, false_iff, not_or, not_false_eq_true, true_and, false_or, false_and, or_false]
  · rw [hplain.answerable_iff]
    by_cases hfound : Answerable zone owners qname qtype
    · exact iff_of_true (iff_of_true hfound (nameExists_of_answerable hfound)) (.inl hfound)
    · rw [nameExists_iff_of_not_answerable hfound]
      simp only [hfound, false_iff, not_or, false_or]

/-- The keys of the small zone are those of its records' owners. -/
lemma ownedBy_homeLan {recs : List (Str × StoredRecord)} {owners : List Name}
    (h : owners.map (nameKey plainCrates) = recs.map Prod.fst) :
    (homeLan recs).OwnedBy plainCrates owners := by
  intro key
  rw [← List.mem_map, h]
  exact mem_collect

/-- A name covered by a wildcard owner is reported as existing. -/
theorem reportsExistence_iff_wildcard :
    ReportsExistence
      ((homeStore [("*.dyn.home.lan", .ofIpv4 none 0x0a090909)]).lookup plainCrates
        (.ofPlain "host.dyn.home.lan") .TXT (.v4 0x08080808) {})
      (NameExists (homeLan [("*.dyn.home.lan", .ofIpv4 none 0x0a090909)]) [.ofPlain "*.dyn.home.lan"]
        (.ofPlain "host.dyn.home.lan")) := by
  have howned : (homeLan [("*.dyn.home.lan", .ofIpv4 none 0x0a090909)]).OwnedBy plainCrates
      [.ofPlain "*.dyn.home.lan"] := ownedBy_homeLan (by decide +kernel)
  refine ((reportsExistence_iff plainCrates _ _ _ _ _ _ _ rfl howned).2 plainLabelText
    (shownPlainly_plain (by decide +kernel) (by decide +kernel))).mpr (.inl (.inl (.inr ?_)))
  exact ⟨(Name.ofPlain "dyn.home.lan").labels, by decide +kernel, _, List.mem_cons_self, by decide +kernel⟩

/-- A name with an owner below it and no entry of its own is denied with NXDOMAIN, although all
records are records of all views. -/
theorem lookup_denies_empty_nonTerminal :
    (homeStore [("nas.lab.home.lan", .ofIpv4 none 0x0a000005)]).zoneFor (.ofPlain "lab.home.lan") =
        some (homeLan [("nas.lab.home.lan", .ofIpv4 none 0x0a000005)]) ∧
      (homeLan [("nas.lab.home.lan", .ofIpv4 none 0x0a000005)]).OwnedBy plainCrates
        [.ofPlain "nas.lab.home.lan"] ∧
      NameExists (homeLan [("nas.lab.home.lan", .ofIpv4 none 0x0a000005)]) [.ofPlain "nas.lab.home.lan"]
        (.ofPlain "lab.home.lan") ∧
      ((homeStore [("nas.lab.home.lan", .ofIpv4 none 0x0a000005)]).lookup plainCrates
        (.ofPlain "lab.home.lan") .A (.v4 0x08080808) {}).rcode = .NXDomain := by
  refine ⟨rfl, ownedBy_homeLan (by decide +kernel), ?_, by decide +kernel⟩
  exact .inr (.inr ⟨_, ⟨_, List.mem_cons_self, rfl⟩, by decide +kernel⟩)

/-! ## Built zones -/

/-- The owner names of the rows that are stored. -/
def storedOwners (z : Zone) (rows : List DnsRecord) : List Name :=
  rows.filterMap fun row =>
    if (storedRecord K z row).isSome then (recordFqdnName K row.name z.name).toOption else none

variable {K} in
/-- A row that is stored is stored under the key of its owner name. -/
lemma storedRecord_owner {z : Zone} {row : DnsRecord} {key : Str} {r : StoredRecord}
    (h : storedRecord K z row = some (key, r)) :
    ∃ owner, recordFqdnName K row.name z.name = .ok owner ∧ nameKey K owner = key := by
  unfold storedRecord at h
  split at h
  · cases h
  · split at h
    · cases h
    · split at h
      · cases h
      · split at h
        · cases h
        · rename_i owner howner
          cases h
          exact ⟨owner, howner, rfl⟩

variable {K} in
/-- The keys of a built zone are those of the owner names of its rows. -/
theorem ownedBy_storedZone (z : Zone) (apex : Name) (signingKey : Option DnssecKey) (rows : List DnsRecord) :
    (storedZone K z apex signingKey rows).OwnedBy K (storedOwners K z rows) := by
  intro key
  unfold storedZone storedOwners
  dsimp only
  rw [mem_collect, List.mem_map]
  simp only [List.mem_filterMap]
  constructor
  · rintro ⟨⟨_, r⟩, ⟨row, hrow, hstored⟩, rfl⟩
    obtain ⟨owner, howner, hkey⟩ := storedRecord_owner hstored
    refine ⟨owner, ⟨row, hrow, ?_⟩, hkey⟩
    rw [hstored, howner]
    rfl
  · rintro ⟨owner, ⟨row, hrow, howner⟩, rfl⟩
    obtain ⟨hsome, hread⟩ := Option.ite_none_right_eq_some.mp howner
    obtain ⟨⟨key, r⟩, hstored⟩ := Option.isSome_iff_exists.mp hsome
    obtain ⟨owner', howner', rfl⟩ := storedRecord_owner hstored
    rw [howner'] at hread
    cases hread
    exact ⟨_, ⟨row, hrow, hstored⟩, rfl⟩

variable {K} in
/-- The keys of a zone of a store that was built are those of owner names. -/
lemma exists_ownedBy {t : Tables} {zone : StoredZone} (h : zone ∈ (buildFrom K t).zones) :
    ∃ owners, zone.OwnedBy K owners := by
  obtain ⟨z, -, -, apex, -, rfl⟩ := exists_of_mem_buildFrom h
  exact ⟨_, ownedBy_storedZone z apex _ _⟩

end Nomina
