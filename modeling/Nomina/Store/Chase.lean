import Nomina.Store.Build
import Nomina.Store.Visibility

/-!
# The CNAME chase

What a lookup answers where a name shows a CNAME and nothing of the type asked for. The first main
result gives the shape of the answers: sets of CNAMEs, each at the target of the one before, and at
most one set of records of the type asked for at the end. The second says exactly when those last
records are the ones that a query for the target itself is answered with.
-/

namespace Nomina

open Lib

variable (K : Crates)

/-! ## Chains of CNAMEs -/

/-- The target of a CNAME record. -/
def StoredRecord.cnameTarget (r : StoredRecord) : Option Name :=
  match r.rdata with
  | .cname target => some target
  | _ => none

/-- The CNAMEs answered under one owner name. -/
structure CnameSet where
  owner : Name
  cnames : List StoredRecord

/-- The answers a set of CNAMEs makes. -/
def CnameSet.records (g : CnameSet) : List Record :=
  g.cnames.map (·.toRecord g.owner)

/-- The target of the last CNAME of a set. -/
def CnameSet.PointsTo (g : CnameSet) (target : Name) : Prop :=
  (g.cnames.filterMap StoredRecord.cnameTarget).getLast? = some target

/-- The CNAMEs that a zone shows a view at a name. -/
def cnamesAt (zone : StoredZone) (viewId : ℤ) (name : Name) : CnameSet :=
  ⟨name, shown K zone viewId name .CNAME⟩

/-- A set of CNAMEs follows another one: it is what the zone shows at the target of the last CNAME,
which is inside the zone. -/
def Follows (zone : StoredZone) (viewId : ℤ) (g g' : CnameSet) : Prop :=
  g.PointsTo g'.owner ∧ zone.apex.zoneOf g'.owner = true ∧ g' = cnamesAt K zone viewId g'.owner ∧
    g'.cnames ≠ []

/-- The records that may end a chain: those of the type asked for at the target of its last CNAME,
inside the zone. -/
def IsFinal (zone : StoredZone) (viewId : ℤ) (qtype : RecordType) (groups : List CnameSet)
    (final : List Record) : Prop :=
  ∃ g target, groups.getLast? = some g ∧ g.PointsTo target ∧ zone.apex.zoneOf target = true ∧
    shown K zone viewId target qtype ≠ [] ∧
    final = (shown K zone viewId target qtype).map (·.toRecord target)

/-- The answers are sets of CNAMEs, at most `bound + 1` of them, that begin at the name and follow each
other, and then, after at most `bound` sets, the records that end the chain, or nothing. -/
structure IsChase (zone : StoredZone) (viewId : ℤ) (qtype : RecordType) (bound : ℕ) (name : Name)
    (groups : List CnameSet) (final answers : List Record) : Prop where
  answers : answers = groups.flatMap CnameSet.records ++ final
  first : groups.head? = some (cnamesAt K zone viewId name)
  chain : groups.IsChain (Follows K zone viewId)
  length : groups.length ≤ bound + 1
  final : final = [] ∨ groups.length ≤ bound ∧ IsFinal K zone viewId qtype groups final

/-- The name has an answer without a chase: the managed SOA, a record of the type asked for or, for
ANY, any record. -/
def DirectMatch (zone : StoredZone) (viewId : ℤ) (qname : Name) (qtype : RecordType) : Prop :=
  (qtype = .SOA ∧ nameKey K qname = nameKey K zone.apex) ∨
    shown K zone viewId qname qtype ≠ [] ∨ (qtype = .ANY ∧ ∃ t, shown K zone viewId qname t ≠ [])

section

variable {K} {zone : StoredZone} {viewId : ℤ} {qtype : RecordType} {name qname : Name}

/-- The chase goes on with the target of the last CNAME. -/
lemma nextTarget_eq (cnames : List StoredRecord) :
    nextTarget cnames = (cnames.filterMap StoredRecord.cnameTarget).getLast? := by
  induction cnames using List.reverseRecOn with
  | nil => rfl
  | append_singleton cnames r ih =>
    have hstep : nextTarget (cnames ++ [r]) = r.cnameTarget.or (nextTarget cnames) := by
      unfold nextTarget StoredRecord.cnameTarget
      rw [List.foldl_append, List.foldl_cons, List.foldl_nil]
      cases r.rdata <;> rfl
    rw [hstep, List.filterMap_append, List.getLast?_append, ih]
    congr 1
    rw [List.filterMap_cons]
    cases r.cnameTarget <;> rfl

/-- A chase that stops at its first set of CNAMEs. -/
lemma IsChase.stop (bound : ℕ) (name : Name) :
    IsChase K zone viewId qtype bound name [cnamesAt K zone viewId name] []
      (cnamesAt K zone viewId name).records := by
  refine ⟨?_, rfl, .singleton _, Nat.le_add_left 1 bound, .inl rfl⟩
  rw [List.flatMap_singleton, List.append_nil]

/-- A chase that ends at the target of its first set of CNAMEs. -/
lemma IsChase.ends {bound : ℕ} {target : Name} (hpoints : (cnamesAt K zone viewId name).PointsTo target)
    (hin : zone.apex.zoneOf target = true) (hdirect : shown K zone viewId target qtype ≠ []) :
    IsChase K zone viewId qtype (bound + 1) name [cnamesAt K zone viewId name]
      ((shown K zone viewId target qtype).map (·.toRecord target))
      ((cnamesAt K zone viewId name).records ++
        (shown K zone viewId target qtype).map (·.toRecord target)) := by
  refine ⟨?_, rfl, .singleton _, Nat.le_add_left 1 (bound + 1), .inr ⟨Nat.le_add_left 1 bound, ?_⟩⟩
  · rw [List.flatMap_singleton]
  · exact ⟨_, target, rfl, hpoints, hin, hdirect, rfl⟩

/-- A set of CNAMEs in front of the chase from its target. -/
lemma IsChase.cons {bound : ℕ} {target : Name} {groups : List CnameSet} {final answers : List Record}
    (h : IsChase K zone viewId qtype bound target groups final answers)
    (hpoints : (cnamesAt K zone viewId name).PointsTo target) (hin : zone.apex.zoneOf target = true)
    (hcnames : shown K zone viewId target .CNAME ≠ []) :
    IsChase K zone viewId qtype (bound + 1) name (cnamesAt K zone viewId name :: groups) final
      ((cnamesAt K zone viewId name).records ++ answers) := by
  obtain ⟨g, groups, rfl⟩ : ∃ g rest, groups = g :: rest := by
    cases groups with
    | nil => cases h.first
    | cons g rest => exact ⟨g, rest, rfl⟩
  obtain rfl : g = cnamesAt K zone viewId target := Option.some.inj h.first
  refine ⟨?_, rfl, ?_, Nat.succ_le_succ h.length, ?_⟩
  · rw [h.answers, ← List.append_assoc, ← List.flatMap_cons]
  · exact .cons_cons ⟨hpoints, hin, rfl, hcnames⟩ h.chain
  · rcases h.final with hnone | ⟨hlength, g, target', hlast, hfinal⟩
    · exact .inl hnone
    · exact .inr ⟨Nat.succ_le_succ hlength, g, target', hlast, hfinal⟩

/-- The chase from the CNAMEs shown at a name. -/
lemma exists_isChase_chase (remaining : ℕ) (name : Name) :
    ∃ groups final, IsChase K zone viewId qtype remaining name groups final
      (chase K zone viewId qtype remaining name (shown K zone viewId name .CNAME)) := by
  induction remaining generalizing name with
  | zero => exact ⟨_, _, .stop 0 name⟩
  | succ remaining ih =>
    have hstop : ∃ groups final, IsChase K zone viewId qtype (remaining + 1) name groups final
        ((cnamesAt K zone viewId name).records ++ []) := by
      rw [List.append_nil]
      exact ⟨_, _, .stop (remaining + 1) name⟩
    rw [chase_succ, nextTarget_eq]
    cases htarget : ((shown K zone viewId name .CNAME).filterMap StoredRecord.cnameTarget).getLast? with
    | none => exact hstop
    | some target =>
      dsimp only
      cases hin : zone.apex.zoneOf target with
      | false => exact hstop
      | true =>
        unfold chaseAt
        by_cases hdirect : shown K zone viewId target qtype = []
        · by_cases hcnames : shown K zone viewId target .CNAME = []
          · rw [if_pos rfl, if_neg (not_not.mpr hdirect), if_pos hcnames]
            exact hstop
          · obtain ⟨groups, final, h⟩ := ih target
            rw [if_pos rfl, if_neg (not_not.mpr hdirect), if_neg hcnames]
            exact ⟨_, _, h.cons htarget hin hcnames⟩
        · rw [if_pos rfl, if_pos hdirect]
          exact ⟨_, _, .ends htarget hin hdirect⟩

/-- A name that shows a CNAME, and has no answer without a chase, is answered from its owner entry by
the chase. -/
lemma lookupIn_chase (viewName : Option Str) (hno : ¬DirectMatch K zone viewId qname qtype)
    (hcname : shown K zone viewId qname .CNAME ≠ []) :
    lookupIn K zone viewId viewName qname qtype =
      .ok (chase K zone viewId qtype 8 qname (shown K zone viewId qname .CNAME)) viewName := by
  obtain ⟨hsoa, hrest⟩ := not_or.mp hno
  obtain ⟨hdirect, hany⟩ := not_or.mp hrest
  have hdirect := not_not.mp hdirect
  have hnotAny : qtype ≠ .ANY := fun h => hany ⟨h, .CNAME, hcname⟩
  rw [lookupIn_entry hsoa]
  cases hrec : recordsAt zone (nameKey K qname) with
  | none => exact absurd (shown_of_recordsAt_none hrec .CNAME) hcname
  | some recs =>
    rw [shown_of_recordsAt hrec] at hdirect hcname ⊢
    rw [Option.elim_some]
    unfold answer
    simp [hnotAny, hdirect, hcname]

/-- A name that shows a CNAME, and has no direct match, is answered by a chase. -/
lemma exists_isChase_lookupIn (viewName : Option Str) (hno : ¬DirectMatch K zone viewId qname qtype)
    (hcname : shown K zone viewId qname .CNAME ≠ []) :
    ∃ groups final, IsChase K zone viewId qtype 8 qname groups final
      (lookupIn K zone viewId viewName qname qtype).answers := by
  rw [lookupIn_chase viewName hno hcname]
  exact exists_isChase_chase 8 qname

end

/-- Where the zone of a name shows a CNAME there and the name has no direct match, the answers are the
CNAMEs of the name, then the CNAMEs at the target of each set, nine sets at most, and at the end, after
at most eight sets, the records of the type asked for at the last target, or nothing. -/
theorem lookup_isChase (s : ZoneStore) (client : IpAddr) (geo : ClientGeo) (qname : Name)
    (qtype : RecordType) (zone : StoredZone) (hz : s.zoneFor qname = some zone)
    (hno : ¬DirectMatch K zone (s.clientView client geo) qname qtype)
    (hcname : shown K zone (s.clientView client geo) qname .CNAME ≠ []) :
    ∃ groups final, IsChase K zone (s.clientView client geo) qtype 8 qname groups final
      (s.lookup K qname qtype client geo).answers := by
  rw [lookup_of_zoneFor hz]
  exact exists_isChase_lookupIn _ hno hcname

/-- A CNAME record of all views. -/
def StoredRecord.ofCname (target : Str) : StoredRecord :=
  ⟨.CNAME, 300, none, .cname (.ofPlain target), rfl⟩

/-- Two names that are CNAMEs of each other. -/
def cnameCycle : List (Str × StoredRecord) :=
  [("www.home.lan", .ofCname "web.home.lan"), ("web.home.lan", .ofCname "www.home.lan")]

/-- A query that runs into the cycle is answered with nine CNAMEs. -/
theorem lookup_isChase_cycle :
    (∃ groups final, IsChase plainCrates (homeLan cnameCycle)
      ((homeStore cnameCycle).clientView (.v4 0x08080808) {}) .A 8 (.ofPlain "www.home.lan") groups final
      ((homeStore cnameCycle).lookup plainCrates (.ofPlain "www.home.lan") .A (.v4 0x08080808) {}).answers) ∧
    ((homeStore cnameCycle).lookup plainCrates (.ofPlain "www.home.lan") .A (.v4 0x08080808)
      {}).answers.length = 9 := by
  refine ⟨lookup_isChase plainCrates (homeStore cnameCycle) _ _ _ _ (homeLan cnameCycle) rfl ?_
    (by decide +kernel), by decide +kernel⟩
  rintro (⟨h, -⟩ | hshown | ⟨h, -⟩)
  · cases h
  · exact hshown (by decide +kernel)
  · cases h

/-! ## The end of a chain -/

/-- The answers are CNAMEs, at least one, and then records of the type asked for at the name `t`, at
least one. -/
def EndsIn (answers : List Record) (qtype : RecordType) (t : Name) (final : List Record) : Prop :=
  ∃ chain, answers = chain ++ final ∧ chain ≠ [] ∧ (∀ r ∈ chain, r.data.recordType = .CNAME) ∧
    final ≠ [] ∧ ∀ r ∈ final, r.data.recordType = qtype ∧ r.name = t

/-- The store holds records of the types that can be managed, as `parse_record_type` admits them. -/
def ZoneStore.Manageable (s : ZoneStore) : Prop :=
  ∀ zone ∈ s.zones, ∀ key, ∀ r ∈ zone.records.at key, r.rtype ∈ supportedRecordTypes

/-- Two zones show the same TTLs and data of a type at a name. -/
def SameDataAt (zone zone' : StoredZone) (viewId : ℤ) (t : Name) (qtype : RecordType) : Prop :=
  (shown K zone' viewId t qtype).map (fun r => (r.ttl, r.rdata)) =
    (shown K zone viewId t qtype).map (fun r => (r.ttl, r.rdata))

section

variable {K} {s : ZoneStore} {client : IpAddr} {geo : ClientGeo} {qname t : Name} {qtype : RecordType}
  {final answers : List Record} {zone : StoredZone} {viewId : ℤ} {viewName : Option Str} {name : Name}

/-- A built store holds manageable types. -/
lemma manageable_buildFrom (tables : Tables) : (buildFrom K tables).Manageable :=
  fun _ hzone _ _ hr => rtype_of_mem_buildFrom hzone hr

/-- What a zone shows has the type asked for. -/
lemma recordType_of_mem_shown {r : StoredRecord} (h : r ∈ shown K zone viewId name qtype) :
    r.rdata.recordType = qtype :=
  r.typed.trans (mem_of_mem_resolve h).2

/-- What a zone shows is stored in it. -/
lemma exists_key_of_mem_shown {r : StoredRecord} (h : r ∈ shown K zone viewId name qtype) :
    ∃ key, r ∈ zone.records.at key :=
  exists_key_of_mem_recordsAt (mem_of_mem_resolve h).1

/-- Every set of a chase is what the zone shows at its owner. -/
lemma eq_cnamesAt_of_mem {groups : List CnameSet} (hfirst : groups.head? = some (cnamesAt K zone viewId name))
    (hchain : groups.IsChain (Follows K zone viewId)) :
    ∀ g ∈ groups, g = cnamesAt K zone viewId g.owner := by
  induction groups generalizing name with
  | nil => exact fun g hg => absurd hg List.not_mem_nil
  | cons g groups ih =>
    obtain rfl : g = cnamesAt K zone viewId name := Option.some.inj hfirst
    intro g' hg'
    rcases List.mem_cons.mp hg' with rfl | hrest
    · rfl
    · cases groups with
      | nil => cases hrest
      | cons g₂ groups =>
        have hfollows := (List.isChain_cons_cons.mp hchain).1
        exact ih (congrArg some hfollows.2.2.1) ((List.isChain_cons_cons.mp hchain).2) g' hrest

/-- The sets of a chase are CNAMEs. -/
lemma IsChase.recordType_eq {bound : ℕ} {groups : List CnameSet}
    (h : IsChase K zone viewId qtype bound name groups final answers) :
    ∀ r ∈ groups.flatMap CnameSet.records, r.data.recordType = .CNAME := by
  intro r hr
  obtain ⟨g, hg, hr⟩ := List.mem_flatMap.mp hr
  rw [eq_cnamesAt_of_mem h.first h.chain g hg] at hr
  obtain ⟨stored, hstored, rfl⟩ := List.mem_map.mp hr
  exact recordType_of_mem_shown hstored

/-- The records that end a chase are what the zone shows of the type asked for at the target. -/
lemma IsFinal.recordType_eq {groups : List CnameSet} (h : IsFinal K zone viewId qtype groups final) :
    ∀ r ∈ final, r.data.recordType = qtype := by
  obtain ⟨g, target, -, -, -, -, rfl⟩ := h
  intro r hr
  obtain ⟨stored, hstored, rfl⟩ := List.mem_map.mp hr
  exact recordType_of_mem_shown hstored

/-- A name that shows the type asked for is answered with what it shows. -/
lemma lookupIn_direct (hany : qtype ≠ .ANY)
    (hsoa : ¬(qtype = .SOA ∧ nameKey K name = nameKey K zone.apex)) (hdirect : shown K zone viewId name qtype ≠ []) :
    lookupIn K zone viewId viewName name qtype =
      .ok ((shown K zone viewId name qtype).map (·.toRecord name)) viewName := by
  rw [lookupIn_entry hsoa]
  cases hrec : recordsAt zone (nameKey K name) with
  | none => exact absurd (shown_of_recordsAt_none hrec qtype) hdirect
  | some recs =>
    rw [shown_of_recordsAt hrec] at hdirect ⊢
    rw [Option.elim_some]
    unfold answer
    simp [hany, hdirect]

/-- A name that shows neither the type asked for nor a CNAME has no answers. -/
lemma lookupIn_nothing (hany : qtype ≠ .ANY) (hsoa : ¬(qtype = .SOA ∧ nameKey K name = nameKey K zone.apex))
    (hdirect : shown K zone viewId name qtype = []) (hcname : shown K zone viewId name .CNAME = []) :
    (lookupIn K zone viewId viewName name qtype).answers = [] := by
  rw [lookupIn_entry hsoa]
  cases hrec : recordsAt zone (nameKey K name) with
  | none => rfl
  | some recs =>
    rw [shown_of_recordsAt hrec] at hdirect hcname
    rw [Option.elim_some]
    unfold answer
    simp [hany, hdirect, hcname, LookupResult.nodata]

/-- The answers are of the type asked for, or the name is answered by a chase. -/
lemma lookupIn_cases (viewName : Option Str) (hany : qtype ≠ .ANY) :
    (∀ r ∈ (lookupIn K zone viewId viewName name qtype).answers, r.data.recordType = qtype) ∨
      ¬DirectMatch K zone viewId name qtype ∧ shown K zone viewId name .CNAME ≠ [] := by
  by_cases hsoa : qtype = .SOA ∧ nameKey K name = nameKey K zone.apex
  · left
    rw [lookupIn_soa hsoa]
    intro r hr
    rw [List.mem_singleton.mp hr]
    exact hsoa.1.symm
  · by_cases hdirect : shown K zone viewId name qtype = []
    · by_cases hcname : shown K zone viewId name .CNAME = []
      · left
        rw [lookupIn_nothing hany hsoa hdirect hcname]
        exact fun r hr => absurd hr List.not_mem_nil
      · right
        refine ⟨?_, hcname⟩
        rintro (h | h | ⟨h, -⟩)
        · exact hsoa h
        · exact h hdirect
        · exact hany h
    · left
      rw [lookupIn_direct hany hsoa hdirect]
      intro r hr
      obtain ⟨stored, hstored, rfl⟩ := List.mem_map.mp hr
      exact recordType_of_mem_shown hstored

/-- Answers are split into a chain and its end in one way. -/
lemma final_eq_of_append {chain chain' final final' : List Record} (hcname : qtype ≠ .CNAME)
    (hchain : ∀ r ∈ chain, r.data.recordType = .CNAME) (hfinal : ∀ r ∈ final, r.data.recordType = qtype)
    (hchain' : ∀ r ∈ chain', r.data.recordType = .CNAME)
    (hfinal' : ∀ r ∈ final', r.data.recordType = qtype) (h : chain ++ final = chain' ++ final') :
    final = final' := by
  have hsplit : ∀ chain final : List Record, (∀ r ∈ chain, r.data.recordType = .CNAME) →
      (∀ r ∈ final, r.data.recordType = qtype) →
      (chain ++ final).filter (fun r => r.data.recordType == qtype) = final := by
    intro chain final hchain hfinal
    rw [List.filter_append, List.filter_eq_nil_iff.mpr, List.nil_append, List.filter_eq_self.mpr]
    · exact fun r hr => beq_iff_eq.mpr (hfinal r hr)
    · intro r hr
      rw [hchain r hr, beq_iff_eq]
      exact hcname.symm
  rw [← hsplit chain final hchain hfinal, h, hsplit chain' final' hchain' hfinal']

/-- A chain that ends in records of the type asked for ends in those that the zone shows at the
target. -/
lemma EndsIn.lookupIn (hany : qtype ≠ .ANY) (hcname : qtype ≠ .CNAME)
    (h : EndsIn (lookupIn K zone viewId viewName qname qtype).answers qtype t final) :
    zone.apex.zoneOf t = true ∧ shown K zone viewId t qtype ≠ [] ∧
      final = (shown K zone viewId t qtype).map (·.toRecord t) := by
  obtain ⟨chain, hanswers, hne, hchain, hfinalNe, hfinal⟩ := h
  rcases lookupIn_cases viewName hany with hsame | ⟨hno, hvisible⟩
  · -- The first record would be a CNAME of the type asked for.
    obtain ⟨r, hr⟩ := List.exists_mem_of_ne_nil _ hne
    refine absurd ?_ hcname
    rw [← hchain r hr]
    exact (hsame r (hanswers ▸ List.mem_append_left _ hr)).symm
  · obtain ⟨groups, final', hchase⟩ := exists_isChase_lookupIn viewName hno hvisible
    have hsplit := hchase.answers.symm.trans hanswers
    rcases hchase.final with rfl | ⟨-, hend⟩
    · have hnil := final_eq_of_append hcname hchase.recordType_eq (by simp) hchain
        (fun r hr => (hfinal r hr).1) hsplit
      exact absurd hnil.symm hfinalNe
    · have heq := final_eq_of_append hcname hchase.recordType_eq hend.recordType_eq hchain
        (fun r hr => (hfinal r hr).1) hsplit
      obtain ⟨g, target, -, -, hin, hshown, rfl⟩ := hend
      -- The end is not empty, and its records carry the target.
      obtain ⟨r, hr⟩ := List.exists_mem_of_ne_nil _ hfinalNe
      have hname := (hfinal r hr).2
      rw [← heq] at hr
      obtain ⟨stored, -, rfl⟩ := List.mem_map.mp hr
      obtain rfl : target = t := hname
      exact ⟨hin, hshown, heq.symm⟩

/-- A name is answered with given records of the type asked for when those are what it shows. -/
lemma lookupIn_answers_eq_iff (hany : qtype ≠ .ANY) (hcname : qtype ≠ .CNAME) (hsoa : qtype ≠ .SOA)
    (hne : final ≠ []) (hfinal : ∀ r ∈ final, r.data.recordType = qtype) :
    (lookupIn K zone viewId viewName t qtype).answers = final ↔
      (shown K zone viewId t qtype).map (·.toRecord t) = final := by
  have hnotSoa : ¬(qtype = .SOA ∧ nameKey K t = nameKey K zone.apex) := fun h => hsoa h.1
  by_cases hdirect : shown K zone viewId t qtype = []
  · rw [hdirect, List.map_nil]
    refine ⟨fun h => ?_, fun h => absurd h.symm hne⟩
    by_cases hvisible : shown K zone viewId t .CNAME = []
    · rwa [lookupIn_nothing hany hnotSoa hdirect hvisible] at h
    · -- The first record would be a CNAME.
      have hno : ¬DirectMatch K zone viewId t qtype := by
        rintro (h | h | ⟨h, -⟩)
        · exact hnotSoa h
        · exact h hdirect
        · exact hany h
      rw [lookupIn_chase viewName hno hvisible] at h
      obtain ⟨stored, hstored⟩ := List.exists_mem_of_ne_nil _ hvisible
      have hmem : stored.toRecord t ∈
          chase K zone viewId qtype 8 t (shown K zone viewId t .CNAME) := by
        rw [chase_succ]
        exact List.mem_append_left _ (List.mem_map_of_mem hstored)
      have htype := hfinal (stored.toRecord t) (h ▸ hmem)
      exact absurd (htype.symm.trans (recordType_of_mem_shown hstored)) hcname
  · rw [lookupIn_direct hany hnotSoa hdirect]
    exact Iff.rfl

/-- Records of a name are told apart by their TTLs and data. -/
lemma map_toRecord_eq_iff (recs recs' : List StoredRecord) :
    recs.map (·.toRecord t) = recs'.map (·.toRecord t) ↔
      recs.map (fun r => (r.ttl, r.rdata)) = recs'.map (fun r => (r.ttl, r.rdata)) := by
  have hinjective : Function.Injective fun p : ℕ × RData => (⟨t, p.1, p.2⟩ : Record) := by
    rintro ⟨ttl, data⟩ ⟨ttl', data'⟩ h
    cases h
    rfl
  rw [← (List.map_injective_iff.mpr hinjective).eq_iff, List.map_map, List.map_map]
  exact Iff.rfl

end

/-- The records that end a chain are the answers for the target itself exactly when the zone that serves
the target is the zone of the query, or shows the client the same data of that type at the target. -/
theorem endsIn_agrees_iff (s : ZoneStore) (hs : s.Manageable) (client : IpAddr) (geo : ClientGeo)
    (qname t : Name) (qtype : RecordType) (hany : qtype ≠ .ANY) (hcname : qtype ≠ .CNAME)
    (final : List Record) (h : EndsIn (s.lookup K qname qtype client geo).answers qtype t final) :
    (s.lookup K t qtype client geo).answers = final ↔
      ∃ zone zone', s.zoneFor qname = some zone ∧ s.zoneFor t = some zone' ∧
        (zone' = zone ∨ SameDataAt K zone zone' (s.clientView client geo) t qtype) := by
  have hfinal : ∀ r ∈ final, r.data.recordType = qtype := by
    obtain ⟨-, -, -, -, -, hfinal⟩ := h
    exact fun r hr => (hfinal r hr).1
  have hne : final ≠ [] := by
    obtain ⟨-, -, -, -, hne, -⟩ := h
    exact hne
  cases hzone : s.zoneFor qname with
  | none =>
    rw [lookup_of_zoneFor_none hzone] at h
    obtain ⟨chain, hanswers, -, -, -, -⟩ := h
    exact absurd (List.append_eq_nil_iff.mp hanswers.symm).2 hne
  | some zone =>
    rw [lookup_of_zoneFor hzone] at h
    obtain ⟨hin, hshown, heq⟩ := EndsIn.lookupIn hany hcname h
    have hmem : zone ∈ s.zones := List.mem_of_find?_eq_some hzone
    obtain ⟨zone', hzone'⟩ : ∃ zone', s.zoneFor t = some zone' := by
      refine Option.isSome_iff_exists.mp ?_
      unfold ZoneStore.zoneFor
      rw [List.find?_isSome]
      exact ⟨zone, hmem, hin⟩
    have hsoa : qtype ≠ .SOA := by
      rintro rfl
      obtain ⟨r, hr⟩ := List.exists_mem_of_ne_nil _ hshown
      obtain ⟨key, hkey⟩ := exists_key_of_mem_shown hr
      have hsupported := hs zone hmem key r hkey
      rw [(mem_of_mem_resolve hr).2] at hsupported
      exact absurd hsupported (by decide)
    rw [lookup_of_zoneFor hzone', lookupIn_answers_eq_iff hany hcname hsoa hne hfinal, heq,
      map_toRecord_eq_iff, hzone']
    constructor
    · intro hsame
      exact ⟨zone, zone', rfl, rfl, .inr hsame⟩
    · rintro ⟨w, w', hw, hw', hcases⟩
      cases hw
      cases hw'
      rcases hcases with rfl | hsame
      · rfl
      · exact hsame

/-- A database with the zone `home.lan` and the zone `lab.home.lan` below it. The outer zone has a CNAME
to `nas.lab.home.lan`, and records of its own for that name. -/
def nestedTables (nas : Str) : Tables :=
  { Tables.empty with
    zones := [⟨1, "home.lan", true, .defaultFor "home.lan", 300, 1⟩,
      ⟨2, "lab.home.lan", true, .defaultFor "lab.home.lan", 300, 1⟩]
    records := [⟨1, 1, none, "www", "CNAME", none, "nas.lab.home.lan.", true⟩,
      ⟨2, 1, none, "nas.lab", "A", none, "192.168.1.10", true⟩,
      ⟨3, 2, none, "nas", "A", none, nas, true⟩] }

/-- The chain of `www.home.lan` ends in the address that the outer zone has for the target. -/
lemma endsIn_nested (nas : Str) (h : nas = "192.168.1.10" ∨ nas = "192.168.1.20") :
    EndsIn ((buildFrom plainCrates (nestedTables nas)).lookup plainCrates (.ofPlain "www.home.lan") .A
      (.v4 0x08080808) {}).answers .A (.ofPlain "nas.lab.home.lan")
      [⟨.ofPlain "nas.lab.home.lan", 300, .a 0xc0a8010a⟩] := by
  refine ⟨[⟨.ofPlain "www.home.lan", 300, .cname (.ofPlain "nas.lab.home.lan")⟩], ?_, by simp, ?_, by simp,
    ?_⟩
  · rcases h with rfl | rfl <;> decide +kernel
  · intro r hr
    rw [List.mem_singleton.mp hr]
    rfl
  · intro r hr
    rw [List.mem_singleton.mp hr]
    exact ⟨rfl, rfl⟩

/-- Both names are in a zone. -/
lemma nested_zoneFor (name : Str) (h : name = "www.home.lan" ∨ name = "nas.lab.home.lan") :
    ((buildFrom plainCrates (nestedTables "192.168.1.10")).zoneFor (.ofPlain name)).isSome := by
  rcases h with rfl | rfl <;> decide +kernel

/-- Where the inner zone has the same address, the target itself is answered with it. -/
theorem endsIn_agrees_iff_nested :
    ((buildFrom plainCrates (nestedTables "192.168.1.10")).lookup plainCrates
      (.ofPlain "nas.lab.home.lan") .A (.v4 0x08080808) {}).answers =
      [⟨.ofPlain "nas.lab.home.lan", 300, .a 0xc0a8010a⟩] := by
  rw [endsIn_agrees_iff plainCrates _ (manageable_buildFrom _) _ _ (.ofPlain "www.home.lan") _ .A
    (by decide) (by decide) _ (endsIn_nested _ (.inl rfl))]
  refine ⟨_, _, (Option.some_get (nested_zoneFor _ (.inl rfl))).symm,
    (Option.some_get (nested_zoneFor _ (.inr rfl))).symm, .inr ?_⟩
  unfold SameDataAt
  decide +kernel

/-- Where it has another address, the chain and the target disagree. -/
theorem endsIn_disagrees_nested :
    EndsIn ((buildFrom plainCrates (nestedTables "192.168.1.20")).lookup plainCrates
        (.ofPlain "www.home.lan") .A (.v4 0x08080808) {}).answers .A (.ofPlain "nas.lab.home.lan")
        [⟨.ofPlain "nas.lab.home.lan", 300, .a 0xc0a8010a⟩] ∧
      ((buildFrom plainCrates (nestedTables "192.168.1.20")).lookup plainCrates
        (.ofPlain "nas.lab.home.lan") .A (.v4 0x08080808) {}).answers =
        [⟨.ofPlain "nas.lab.home.lan", 300, .a 0xc0a80114⟩] :=
  ⟨endsIn_nested _ (.inr rfl), by decide +kernel⟩

end Nomina
