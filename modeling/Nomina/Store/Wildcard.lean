import Nomina.Store.Existence
import Nomina.Store.Mirror

/-!
# Wildcards and the closest encloser

A wildcard owner `*.E` is meant for the names whose closest encloser is `E`: no name on the way from
the query name up to `E`, the query name included, exists in the zone. The store takes the nearest
wildcard above the displayed name. The main result says exactly for which names it takes the right one.
-/

namespace Nomina

open Lib

variable (K : Crates)

/-- The store answers a name from the owner entry `k` of its zone. -/
def ZoneStore.AnswersFrom (s : ZoneStore) (qname : Name) (k : Str) : Prop :=
  ∃ zone, s.zoneFor qname = some zone ∧ ownerKey zone (nameKey K qname) = some k

/-- The store answers a name from the entry of the wildcard owner under `encloser`. -/
def ZoneStore.AnswersFromWildcard (s : ZoneStore) (owners : List Name) (qname : Name)
    (encloser : List Label) : Prop :=
  ∃ owner ∈ owners, owner.toLowercase.labels = wildcardLabel :: encloser ∧
    s.AnswersFrom K qname (nameKey K owner)

/-- The owner that the walk over the displayed names takes is the wildcard under `encloser`. -/
def ShownWildcard (zone : StoredZone) (owners : List Name) (qname : Name) (encloser : List Label) : Prop :=
  ∃ owner ∈ owners, owner.toLowercase.labels = wildcardLabel :: encloser ∧
    ShownTakes K zone owners qname owner

/-- Wildcards are used for the names of their encloser: a name is answered from a wildcard owner when
the name does not exist, its closest encloser is the one of the wildcard, and the wildcard is an
owner, and from no other wildcard. -/
def FollowsEncloser (s : ZoneStore) (zone : StoredZone) (owners : List Name) (qname : Name) : Prop :=
  ∀ encloser, s.AnswersFromWildcard K owners qname encloser ↔
    (labelTree zone owners).MeantFor wildcardLabel qname.toLowercase.labels encloser

/-- Every existing name on the way up from the query name, this one included, that has a wildcard above it
also has one at or below it on the way. -/
def Sheltered (zone : StoredZone) (owners : List Name) (qname : Name) : Prop :=
  (labelTree zone owners).Sheltered wildcardLabel qname.toLowercase.labels

/-- The wildcard that is taken by the displayed names is the nearest one above the query name. -/
def ShowsNearest (zone : StoredZone) (owners : List Name) (qname : Name) : Prop :=
  ∀ encloser, ShownWildcard K zone owners qname encloser ↔
    (labelTree zone owners).Nearest wildcardLabel qname.toLowercase.labels encloser

section

variable {K} {s : ZoneStore} {zone : StoredZone} {owners : List Name} {qname : Name}

/-- The store answers from the wildcard that the walk over the displayed names takes. -/
lemma answersFromWildcard_iff (hz : s.zoneFor qname = some zone) (howned : zone.OwnedBy K owners)
    (encloser : List Label) :
    s.AnswersFromWildcard K owners qname encloser ↔ ShownWildcard K zone owners qname encloser := by
  unfold ZoneStore.AnswersFromWildcard ShownWildcard ZoneStore.AnswersFrom
  refine exists_congr fun owner => and_congr_right fun howner => and_congr_right fun _ => ?_
  rw [← ownerKey_eq_iff howned howner]
  simp [hz]

/-- A lookup answers with the records of the entry that the name is answered from. -/
lemma lookup_of_answersFrom {k : Str} (hz : s.zoneFor qname = some zone) (h : s.AnswersFrom K qname k)
    (hapex : nameKey K qname ≠ nameKey K zone.apex) (qtype : RecordType) (client : IpAddr)
    (geo : ClientGeo) :
    s.lookup K qname qtype client geo =
      answer K zone (s.clientView client geo) ((s.viewFor client geo).map Prod.snd) qname qtype
        (zone.records.at k) := by
  obtain ⟨zone', hz', hk⟩ := h
  obtain rfl : zone = zone' := Option.some.inj (hz.symm.trans hz')
  rw [lookup_of_zoneFor hz, lookupIn_entry fun hsoa => hapex hsoa.2, recordsAt_eq, hk]
  rfl

/-- Names that are displayed plainly, and are no owners, are answered from the nearest wildcard. -/
lemma ShownPlainly.showsNearest {f : Label → Str} (h : ShownPlainly K f (zone.apex :: qname :: owners))
    (hexact : qname.toLowercase.labels ∉ (labelTree zone owners).owners) :
    ShowsNearest K zone owners qname := by
  intro encloser
  constructor
  · rintro ⟨owner, howner, hlabels, htakes⟩
    rcases (h.takes_iff howner).mp htakes with ⟨hself, -⟩ | ⟨-, e, he, heq⟩
    · exact absurd hself hexact
    · obtain rfl : e = encloser := (List.cons.inj (heq.symm.trans hlabels)).2
      exact he
  · intro he
    obtain ⟨owner, howner, hlabels⟩ := he.2.1
    exact ⟨owner, howner, hlabels, (h.takes_iff howner).mpr (.inr ⟨hexact, encloser, he, hlabels⟩)⟩

end

/-- Wildcards follow the closest encloser for a name exactly when either every existing name on the way up
from it, the name itself included, that has a wildcard above it also has one at or below it on the way, and
the wildcard that is taken by the displayed names is the nearest one above the name; or some existing name
on the way does not, and no wildcard is taken by the displayed names. For names that are displayed plainly,
of which the query name is no owner, they do exactly when the existing names on the way are such. -/
theorem followsEncloser_iff (s : ZoneStore) (zone : StoredZone) (owners : List Name) (qname : Name)
    (hz : s.zoneFor qname = some zone) (howned : zone.OwnedBy K owners) :
    (FollowsEncloser K s zone owners qname ↔
      (Sheltered zone owners qname ∧ ShowsNearest K zone owners qname) ∨
        (¬Sheltered zone owners qname ∧ ∀ encloser, ¬ShownWildcard K zone owners qname encloser)) ∧
    ∀ f, ShownPlainly K f (zone.apex :: qname :: owners) →
      qname.toLowercase.labels ∉ (labelTree zone owners).owners →
        (FollowsEncloser K s zone owners qname ↔ Sheltered zone owners qname) := by
  unfold FollowsEncloser
  simp only [answersFromWildcard_iff hz howned]
  by_cases hsheltered : Sheltered zone owners qname
  · -- The nearest wildcard is the one that is meant.
    have hmeant := NameTree.nearest_iff_meantFor.mpr hsheltered
    refine ⟨?_, fun f hplain hexact => iff_of_true (fun e => ?_) hsheltered⟩
    · unfold ShowsNearest
      simp only [hsheltered, hmeant, true_and, not_true_eq_false, false_and, or_false]
    · rw [← hmeant]
      exact hplain.showsNearest hexact e
  · -- No wildcard is meant for the name.
    have hnone : ∀ e, ¬(labelTree zone owners).MeantFor wildcardLabel qname.toLowercase.labels e :=
      fun e he => hsheltered he.sheltered
    refine ⟨?_, fun f hplain hexact => iff_of_false (fun h => hsheltered ?_) hsheltered⟩
    · simp only [hsheltered, hnone, false_and, not_false_eq_true, true_and, false_or, iff_false]
    · refine NameTree.sheltered_of_not_nearest fun e he => hnone e ?_
      exact (h e).mp ((hplain.showsNearest hexact e).mpr he)

/-- A wildcard under the apex, and a host under a name that has no records. -/
def wildcardRecords : List (Str × StoredRecord) :=
  [("*.home.lan", .ofIpv4 none 0x0a000001), ("nas.lab.home.lan", .ofIpv4 none 0x0a000005)]

/-- The owners of these records. -/
def wildcardOwners : List Name :=
  [.ofPlain "*.home.lan", .ofPlain "nas.lab.home.lan"]

lemma ownedBy_wildcardRecords : (homeLan wildcardRecords).OwnedBy plainCrates wildcardOwners :=
  ownedBy_homeLan (by decide +kernel)

/-- A name under the apex is answered from the wildcard there. -/
theorem followsEncloser_home :
    FollowsEncloser plainCrates (homeStore wildcardRecords) (homeLan wildcardRecords) wildcardOwners
      (.ofPlain "printer.home.lan") := by
  have hexact : ∀ owner ∈ wildcardOwners, owner.toLowercase.labels ≠ (Name.ofPlain "printer.home.lan").labels ∧
      ¬Below owner.toLowercase.labels (Name.ofPlain "printer.home.lan").labels := by decide +kernel
  refine ((followsEncloser_iff plainCrates _ _ _ _ rfl ownedBy_wildcardRecords).2 plainLabelText
    (shownPlainly_plain (by decide +kernel) (by decide +kernel)) ?_).mpr ?_
  · rintro ⟨owner, howner, heq⟩
    exact (hexact owner howner).1 heq
  · rintro m hm hpresent e he ⟨owner, howner, hwild⟩
    -- Of the names on the way up, the wildcard is above the name itself only, which does not exist.
    have hself : ∀ m ∈ (Name.ofPlain "printer.home.lan").labels.tails, ∀ owner ∈ wildcardOwners,
        ∀ e ∈ m.tails, e ≠ m → owner.toLowercase.labels = wildcardLabel :: e →
          m = (Name.ofPlain "printer.home.lan").labels := by decide +kernel
    have hway : m ∈ (Name.ofPlain "printer.home.lan").labels.tails := by
      rw [List.mem_tails]
      rcases hm with rfl | hm
      · exact List.suffix_rfl
      · exact hm.1
    obtain rfl := hself m hway owner howner e ((List.mem_tails _ _).mpr he.1) he.2 hwild
    rcases hpresent with happex | ⟨owner, howner, heq⟩ | ⟨_, ⟨owner, howner, rfl⟩, hbelow⟩
    · exact absurd happex (by decide +kernel)
    · exact absurd heq (hexact owner howner).1
    · exact absurd hbelow (hexact owner howner).2

/-- A name under the name without records is answered from the wildcard of the apex. -/
theorem not_followsEncloser_lab :
    (homeStore wildcardRecords).zoneFor (.ofPlain "printer.lab.home.lan") =
        some (homeLan wildcardRecords) ∧
      (homeLan wildcardRecords).OwnedBy plainCrates wildcardOwners ∧ (homeLan wildcardRecords).Unpinned ∧
      (Name.ofPlain "printer.lab.home.lan").toLowercase.labels ∉
        (labelTree (homeLan wildcardRecords) wildcardOwners).owners ∧
      ((homeStore wildcardRecords).lookup plainCrates (.ofPlain "printer.lab.home.lan") .A
        (.v4 0x08080808) {}).answers = [⟨.ofPlain "printer.lab.home.lan", 300, .a 0x0a000001⟩] ∧
      ¬FollowsEncloser plainCrates (homeStore wildcardRecords) (homeLan wildcardRecords) wildcardOwners
        (.ofPlain "printer.lab.home.lan") := by
  refine ⟨rfl, ownedBy_wildcardRecords, ?_, ?_, by decide +kernel, ?_⟩
  · intro key r hr
    change r ∈ (collect wildcardRecords).at key at hr
    rw [at_collect] at hr
    obtain ⟨p, hp, rfl⟩ := List.mem_map.mp hr
    have hviews : ∀ p ∈ wildcardRecords, p.2.viewId = none := by decide
    exact hviews p (List.mem_filter.mp hp).1
  · rintro ⟨owner, howner, heq⟩
    have hother : ∀ owner ∈ wildcardOwners,
        owner.toLowercase.labels ≠ (Name.ofPlain "printer.lab.home.lan").toLowercase.labels := by decide +kernel
    exact hother owner howner heq
  · intro h
    have hanswers : (homeStore wildcardRecords).AnswersFromWildcard plainCrates wildcardOwners
        (.ofPlain "printer.lab.home.lan") (Name.ofPlain "home.lan").labels := by
      refine ⟨.ofPlain "*.home.lan", List.mem_cons_self, by decide +kernel, ?_⟩
      exact ⟨homeLan wildcardRecords, rfl, by decide +kernel⟩
    obtain ⟨-, ⟨-, -, hbetween⟩, -⟩ := (h _).mp hanswers
    refine hbetween (Name.ofPlain "lab.home.lan").labels (by decide +kernel) (by decide +kernel) ?_
    exact .inr (.inr ⟨_, ⟨.ofPlain "nas.lab.home.lan", by decide +kernel, rfl⟩, by decide +kernel⟩)

end Nomina
