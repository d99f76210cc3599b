import Nomina.Store.Lookup

/-!
# What a client can see

Two stores that differ only in records pinned to views other than the client's. A lookup chooses an
owner entry before it looks at views, so an entry that holds only records of other views can still
be chosen: it turns NXDOMAIN into NODATA and hides a wildcard. The main result says exactly when
the two lookups agree: at every name the lookup consults, the two stores choose the same entry or
show the client nothing of the types asked for.
-/

namespace Nomina

open Lib

/-! ## The owner entry chosen for a name -/

/-- Where two zones choose different entries for a name, one of them chose an entry that the other
does not have. -/
lemma ownerKey_ne {zone zone' : StoredZone} {key : Str}
    (h : ownerKey zone key ≠ ownerKey zone' key) :
    (∃ k, ownerKey zone key = some k ∧ k ∉ zone'.records) ∨
      (∃ k, ownerKey zone' key = some k ∧ k ∉ zone.records) := by
  unfold ownerKey at *
  simpa using find?_ne h

/-! ## Records visible to a view -/

/-- The records a client of view `viewId` may be shown. -/
def visible (viewId : ℤ) (recs : List StoredRecord) : List StoredRecord :=
  recs.filter (fun r => r.viewId.isNone || r.pinnedTo viewId)

/-- `resolve` only looks at the visible records. -/
lemma resolve_visible (viewId : ℤ) (recs : List StoredRecord) (t : RecordType) :
    resolve (visible viewId recs) viewId t = resolve recs viewId t := by
  have hpin : (visible viewId recs).filter (fun r => r.rtype == t && r.pinnedTo viewId) =
      recs.filter (fun r => r.rtype == t && r.pinnedTo viewId) := by
    unfold visible
    rw [List.filter_filter]
    congr 1
    funext r
    cases r.pinnedTo viewId <;> simp
  have hall : (visible viewId recs).filter (fun r => r.rtype == t && r.viewId.isNone) =
      recs.filter (fun r => r.rtype == t && r.viewId.isNone) := by
    unfold visible
    rw [List.filter_filter]
    congr 1
    funext r
    cases r.viewId.isNone <;> simp
  unfold resolve
  rw [hpin, hall]

/-- Records with the same visible part resolve alike. -/
lemma resolve_congr {viewId : ℤ} {recs recs' : List StoredRecord}
    (h : visible viewId recs = visible viewId recs') (t : RecordType) :
    resolve recs viewId t = resolve recs' viewId t := by
  rw [← resolve_visible viewId recs, h, resolve_visible]

/-- What resolves at a type has that type and is one of the records. -/
lemma mem_of_mem_resolve {viewId : ℤ} {recs : List StoredRecord} {t : RecordType}
    {r : StoredRecord} (h : r ∈ resolve recs viewId t) : r ∈ recs ∧ r.rtype = t := by
  unfold resolve at h
  dsimp only at h
  split at h
  · simp only [List.mem_filter, Bool.and_eq_true, beq_iff_eq] at h
    exact ⟨h.1, h.2.1⟩
  · simp only [List.mem_filter, Bool.and_eq_true, beq_iff_eq] at h
    exact ⟨h.1, h.2.1⟩

/-- All records shown for an ANY query depend on the visible part only. -/
lemma resolve_all_congr {viewId : ℤ} {recs recs' : List StoredRecord}
    (h : ∀ t, resolve recs viewId t = resolve recs' viewId t) :
    (recordTypes recs).flatMap (resolve recs viewId) =
      (recordTypes recs').flatMap (resolve recs' viewId) := by
  have hfun : resolve recs' viewId = resolve recs viewId := funext fun t => (h t).symm
  have hmem : ∀ (rs : List StoredRecord) (t : RecordType), resolve rs viewId t ≠ [] →
      t ∈ rs.map StoredRecord.rtype := by
    intro rs t hne
    obtain ⟨r, hr⟩ := List.exists_mem_of_ne_nil _ hne
    obtain ⟨hmem, rfl⟩ := mem_of_mem_resolve hr
    exact List.mem_map_of_mem hmem
  rw [hfun]
  unfold recordTypes
  refine flatMap_btreeSet_congr RecordType.code_injective ?_
  intro t hne
  exact ⟨fun _ => hmem recs' t (h t ▸ hne), fun _ => hmem recs t hne⟩

/-! ## Two stores that differ in records of other views -/

/-- Two zones that differ at most in records that view `viewId` does not see. -/
structure SameForView (viewId : ℤ) (zone zone' : StoredZone) : Prop where
  apex : zone.apex = zone'.apex
  soa : zone.soa = zone'.soa
  soaTtl : zone.soaTtl = zone'.soaTtl
  signer : zone.signer = zone'.signer
  records : ∀ key, visible viewId (zone.records.at key) = visible viewId (zone'.records.at key)

/-- Two stores with the same views and zones whose records differ only in records pinned to views
other than `viewId`. -/
structure DifferInOtherViews (viewId : ℤ) (s s' : ZoneStore) : Prop where
  views : s.views = s'.views
  zones : List.Forall₂ (SameForView viewId) s.zones s'.zones

variable (K : Crates)

/-- The records of a type that a zone shows a view at a name. -/
def shown (zone : StoredZone) (viewId : ℤ) (name : Name) (t : RecordType) : List StoredRecord :=
  resolve ((recordsAt zone (nameKey K name)).getD []) viewId t

/-- The names a lookup in `zone` goes on to after the CNAME records `cnames`, following `chase`. -/
def chaseTargets (zone : StoredZone) (viewId : ℤ) (qtype : RecordType) :
    (remaining : ℕ) → (cnames : List StoredRecord) → List Name
  | 0, _ => []
  | remaining + 1, cnames =>
    match nextTarget cnames with
    | none => []
    | some target =>
      if !zone.apex.zoneOf target then []
      else if shown K zone viewId target qtype ≠ [] then [target]
      else target ::
        chaseTargets zone viewId qtype remaining (shown K zone viewId target .CNAME)

/-- The names at which a lookup consults the zone: the query name and, when it is answered by a
CNAME, the targets followed from there. -/
def consulted (zone : StoredZone) (viewId : ℤ) (qname : Name) (qtype : RecordType) : List Name :=
  if qtype = .ANY ∨ shown K zone viewId qname qtype ≠ [] then [qname]
  else qname :: chaseTargets K zone viewId qtype 8 (shown K zone viewId qname .CNAME)

/-- The types a query asks for at a name: all of them for ANY, else its own type and CNAME. -/
def asks (qtype t : RecordType) : Prop :=
  qtype = .ANY ∨ t = qtype ∨ t = .CNAME

/-- Both zones answer the name from the same owner entry, or neither shows the view a record of a
type asked for. -/
def SameEntry (zone zone' : StoredZone) (viewId : ℤ) (qtype : RecordType) (name : Name) : Prop :=
  ownerKey zone (nameKey K name) = ownerKey zone' (nameKey K name) ∨
    ∀ t, asks qtype t → shown K zone viewId name t = [] ∧ shown K zone' viewId name t = []

/-! ## One name -/

section OneName

variable {K : Crates} {zone zone' : StoredZone} {viewId : ℤ} {qtype : RecordType} {name : Name}

/-- Zones that answer a name from the same entry show the same there. -/
lemma shown_eq_of_ownerKey_eq (hz : SameForView viewId zone zone')
    (h : ownerKey zone (nameKey K name) = ownerKey zone' (nameKey K name)) (t : RecordType) :
    shown K zone viewId name t = shown K zone' viewId name t := by
  unfold shown
  rw [recordsAt_eq, recordsAt_eq, h]
  cases ownerKey zone' (nameKey K name) with
  | none => rfl
  | some k => exact resolve_congr (hz.records k) t

/-- A zone that answers a name from an entry the other zone does not have shows nothing there. -/
lemma shown_eq_nil_of_notMem (hz : SameForView viewId zone zone') {k : Str}
    (hk : ownerKey zone (nameKey K name) = some k) (hk' : k ∉ zone'.records) (t : RecordType) :
    shown K zone viewId name t = [] := by
  have hvis : visible viewId (zone.records.at k) = visible viewId [] := by
    rw [hz.records k, at_of_notMem hk']
  unfold shown
  rw [recordsAt_eq, hk]
  exact resolve_congr hvis t

/-- The relation between two zones seen by one view is symmetric. -/
lemma SameForView.symm (hz : SameForView viewId zone zone') : SameForView viewId zone' zone :=
  ⟨hz.apex.symm, hz.soa.symm, hz.soaTtl.symm, hz.signer.symm, fun key => (hz.records key).symm⟩

/-- Where two zones choose different entries for a name, one of them has an entry for it and shows
the view nothing. -/
lemma shown_eq_nil_of_ownerKey_ne (hz : SameForView viewId zone zone')
    (h : ownerKey zone (nameKey K name) ≠ ownerKey zone' (nameKey K name)) :
    ((ownerKey zone (nameKey K name)).isSome ∧ ∀ t, shown K zone viewId name t = []) ∨
      ((ownerKey zone' (nameKey K name)).isSome ∧ ∀ t, shown K zone' viewId name t = []) := by
  rcases ownerKey_ne h with ⟨k, hk, hk'⟩ | ⟨k, hk, hk'⟩
  · exact .inl ⟨by simp [hk], shown_eq_nil_of_notMem hz hk hk'⟩
  · exact .inr ⟨by simp [hk], shown_eq_nil_of_notMem hz.symm hk hk'⟩

/-- What a zone shows at a name is chosen from the entry for it. -/
lemma shown_of_recordsAt {recs : List StoredRecord} (h : recordsAt zone (nameKey K name) = some recs)
    (t : RecordType) : shown K zone viewId name t = resolve recs viewId t := by
  unfold shown
  rw [h, Option.getD_some]

/-- Without an entry for a name, nothing is shown there. -/
lemma shown_of_recordsAt_none (h : recordsAt zone (nameKey K name) = none) (t : RecordType) :
    shown K zone viewId name t = [] := by
  unfold shown
  rw [h]
  rfl

end OneName

/-! ## The CNAME chase -/

section Chase

variable {K : Crates} {zone zone' : StoredZone} {viewId : ℤ} {qtype : RecordType}

/-- What `chase` adds for a target it follows. -/
def chaseAt (K : Crates) (zone : StoredZone) (viewId : ℤ) (qtype : RecordType) (remaining : ℕ)
    (target : Name) : List Record :=
  if shown K zone viewId target qtype ≠ [] then
    (shown K zone viewId target qtype).map (·.toRecord target)
  else if shown K zone viewId target .CNAME = [] then []
  else chase K zone viewId qtype remaining target (shown K zone viewId target .CNAME)

/-- One turn of `chase`: the CNAMEs themselves, then what the target adds. -/
lemma chase_succ (remaining : ℕ) (current : Name) (cnames : List StoredRecord) :
    chase K zone viewId qtype (remaining + 1) current cnames =
      cnames.map (·.toRecord current) ++
        match nextTarget cnames with
        | none => []
        | some target =>
          if zone.apex.zoneOf target then chaseAt K zone viewId qtype remaining target else [] := by
  unfold chase
  congr 1
  cases nextTarget cnames with
  | none => rfl
  | some target =>
    cases hin : zone.apex.zoneOf target with
    | false => simp [hin]
    | true =>
      unfold chaseAt
      cases hrec : recordsAt zone (nameKey K target) with
      | none => simp [hin, hrec, shown_of_recordsAt_none hrec]
      | some trecs =>
        simp only [hin, hrec, shown_of_recordsAt hrec]
        by_cases hd : resolve trecs viewId qtype = []
        · simp [hd]
        · simp [hd]

/-- A chase that starts from some CNAME emits something. -/
lemma chase_ne_nil (remaining : ℕ) (current : Name) {cnames : List StoredRecord}
    (h : cnames ≠ []) : chase K zone viewId qtype remaining current cnames ≠ [] := by
  cases remaining with
  | zero => simp [chase, h]
  | succ remaining => simp [chase_succ, h]

/-- A target adds nothing exactly when it shows neither the type asked for nor a CNAME. -/
lemma chaseAt_eq_nil {remaining : ℕ} {target : Name} :
    chaseAt K zone viewId qtype remaining target = [] ↔
      shown K zone viewId target qtype = [] ∧ shown K zone viewId target .CNAME = [] := by
  unfold chaseAt
  by_cases hd : shown K zone viewId target qtype = []
  · by_cases hc : shown K zone viewId target .CNAME = []
    · simp [hd, hc]
    · simp [hd, hc, chase_ne_nil remaining target hc]
  · simp [hd]

/-- Nothing asked for is shown exactly when neither the query's type nor a CNAME is. -/
lemma forall_asks {p : RecordType → Prop} (hany : qtype ≠ .ANY) :
    (∀ t, asks qtype t → p t) ↔ p qtype ∧ p .CNAME := by
  unfold asks
  constructor
  · intro h
    exact ⟨h qtype (.inr (.inl rfl)), h .CNAME (.inr (.inr rfl))⟩
  · rintro ⟨hq, hc⟩ t (h | rfl | rfl)
    · exact absurd h hany
    · exact hq
    · exact hc

/-- A chase without CNAMEs follows no target. -/
lemma chaseTargets_nil (remaining : ℕ) : chaseTargets K zone viewId qtype remaining [] = [] := by
  cases remaining <;> rfl

/-- Two zones chase alike from the same CNAMEs exactly when they have the same entry, or show
nothing asked for, at every target followed. -/
lemma chase_eq_iff (hz : SameForView viewId zone zone') (hany : qtype ≠ .ANY) (remaining : ℕ) :
    ∀ (current : Name) (cnames : List StoredRecord),
      chase K zone viewId qtype remaining current cnames =
          chase K zone' viewId qtype remaining current cnames ↔
        ∀ n ∈ chaseTargets K zone viewId qtype remaining cnames,
          SameEntry K zone zone' viewId qtype n := by
  induction remaining with
  | zero =>
    intro current cnames
    simp [chase, chaseTargets]
  | succ remaining ih =>
    intro current cnames
    rw [chase_succ, chase_succ, List.append_cancel_left_eq, ← hz.apex]
    unfold chaseTargets
    cases hnext : nextTarget cnames with
    | none => simp
    | some target =>
      cases hin : zone.apex.zoneOf target with
      | false => simp [hin]
      | true =>
        simp only [hin, if_true, Bool.not_true, Bool.false_eq_true, if_false]
        by_cases hown : ownerKey zone (nameKey K target) = ownerKey zone' (nameKey K target)
        · -- The same entry: both zones emit the same and go on from the same CNAMEs.
          have hshown := shown_eq_of_ownerKey_eq hz hown
          have hsame : SameEntry K zone zone' viewId qtype target := .inl hown
          unfold chaseAt
          simp only [← hshown]
          by_cases hd : shown K zone viewId target qtype = []
          · by_cases hc : shown K zone viewId target .CNAME = []
            · simp [hd, hc, chaseTargets_nil, hsame]
            · simp [hd, hc, hsame, ih target]
          · simp [hd, hsame]
        · -- Different entries: one zone adds nothing, so the other must not either.
          have hentry : SameEntry K zone zone' viewId qtype target ↔
              (shown K zone viewId target qtype = [] ∧ shown K zone' viewId target qtype = []) ∧
              (shown K zone viewId target .CNAME = [] ∧
                shown K zone' viewId target .CNAME = []) := by
            unfold SameEntry
            rw [forall_asks hany]
            simp [hown]
          have hrest : (∀ n ∈ (if shown K zone viewId target qtype ≠ [] then [target]
              else target :: chaseTargets K zone viewId qtype remaining
                (shown K zone viewId target .CNAME)), SameEntry K zone zone' viewId qtype n) ↔
              SameEntry K zone zone' viewId qtype target := by
            by_cases hd : shown K zone viewId target qtype = []
            · constructor
              · intro h
                exact h target (by simp [hd])
              · intro h
                have hc := (hentry.mp h).2.1
                simp [hd, hc, chaseTargets_nil, h]
            · simp [hd]
          rw [hrest, hentry]
          rcases shown_eq_nil_of_ownerKey_ne hz hown with ⟨-, hnil⟩ | ⟨-, hnil⟩
          · rw [chaseAt_eq_nil.mpr ⟨hnil _, hnil _⟩, eq_comm, chaseAt_eq_nil]
            simp [hnil]
          · rw [chaseAt_eq_nil.mpr ⟨hnil _, hnil _⟩, chaseAt_eq_nil]
            simp [hnil]

end Chase

/-! ## The whole lookup -/

section Lookup

variable {K : Crates} {zone zone' : StoredZone} {viewId : ℤ} {qtype : RecordType} {qname : Name}
  {viewName : Option Str} {recs recs' : List StoredRecord}

/-- Zones that differ in records only have the same SOA record. -/
lemma SameForView.soaRecord (hz : SameForView viewId zone zone') :
    zone.soaRecord = zone'.soaRecord := by
  unfold StoredZone.soaRecord
  rw [hz.apex, hz.soa, hz.soaTtl]

/-- An ANY query finds nothing exactly when no type shows a record. -/
lemma flatMap_resolve_eq_nil :
    (recordTypes recs).flatMap (resolve recs viewId) = [] ↔
      ∀ t, resolve recs viewId t = [] := by
  rw [List.flatMap_eq_nil_iff]
  constructor
  · intro h t
    by_contra hne
    obtain ⟨r, hr⟩ := List.exists_mem_of_ne_nil _ hne
    obtain ⟨hmem, rfl⟩ := mem_of_mem_resolve hr
    exact hne (h r.rtype (by simp [recordTypes, List.mem_map_of_mem hmem]))
  · intro h t _
    exact h t

/-- A found name is answered with NODATA exactly when the entry shows nothing asked for. -/
lemma answer_eq_nodata_iff :
    answer K zone viewId viewName qname qtype recs = .nodata zone.soaRecord viewName ↔
      ∀ t, asks qtype t → resolve recs viewId t = [] := by
  unfold answer
  by_cases hany : qtype = .ANY
  · subst hany
    by_cases hnil : (recordTypes recs).flatMap (resolve recs viewId) = []
    · simp [hnil, asks, flatMap_resolve_eq_nil.mp hnil]
    · have hnot : ¬ ∀ t, resolve recs viewId t = [] := fun h => hnil (flatMap_resolve_eq_nil.mpr h)
      simpa [hnil, asks, LookupResult.ok, LookupResult.nodata] using hnot
  · rw [forall_asks hany]
    by_cases hd : resolve recs viewId qtype = []
    · by_cases hc : resolve recs viewId .CNAME = []
      · simp [hany, hd, hc]
      · simp [hany, hd, hc, LookupResult.ok, LookupResult.nodata]
    · simp [hany, hd, LookupResult.ok, LookupResult.nodata]

/-- A found name is not answered as one that was not found. -/
lemma answer_ne_nxdomain (authority : List Record) :
    answer K zone viewId viewName qname qtype recs ≠
      ⟨[], authority, .NXDomain, .NxDomain, viewName⟩ := by
  intro h
  have hrcode := congrArg LookupResult.rcode h
  rw [(answer_outcome ..).1] at hrcode
  cases hrcode

/-- The query name is always consulted. -/
lemma qname_mem_consulted : qname ∈ consulted K zone viewId qname qtype := by
  unfold consulted
  split <;> simp

/-- A query name that shows nothing asked for is the only name consulted. -/
lemma consulted_of_nothing (h : ∀ t, asks qtype t → shown K zone viewId qname t = []) :
    consulted K zone viewId qname qtype = [qname] := by
  unfold consulted
  by_cases hany : qtype = .ANY
  · simp [hany]
  · rw [h .CNAME (.inr (.inr rfl)), chaseTargets_nil]
    simp

/-- Two zones that both have an entry for the query name answer alike exactly when they agree at
every name consulted. -/
lemma answer_eq_iff (hz : SameForView viewId zone zone')
    (hr : recordsAt zone (nameKey K qname) = some recs)
    (hr' : recordsAt zone' (nameKey K qname) = some recs') :
    answer K zone viewId viewName qname qtype recs =
        answer K zone' viewId viewName qname qtype recs' ↔
      ∀ n ∈ consulted K zone viewId qname qtype, SameEntry K zone zone' viewId qtype n := by
  have hs : ∀ t, shown K zone viewId qname t = resolve recs viewId t := shown_of_recordsAt hr
  have hs' : ∀ t, shown K zone' viewId qname t = resolve recs' viewId t := shown_of_recordsAt hr'
  by_cases hown : ownerKey zone (nameKey K qname) = ownerKey zone' (nameKey K qname)
  · have hres : ∀ t, resolve recs viewId t = resolve recs' viewId t := by
      intro t
      rw [← hs, ← hs', shown_eq_of_ownerKey_eq hz hown]
    have hsame : SameEntry K zone zone' viewId qtype qname := .inl hown
    by_cases hany : qtype = .ANY
    · subst hany
      have hall := resolve_all_congr hres
      simp [answer, consulted, hall, hsame, hz.soaRecord]
    · unfold answer consulted
      simp only [hs, ← hres, hz.soaRecord]
      by_cases hd : resolve recs viewId qtype = []
      · by_cases hc : resolve recs viewId .CNAME = []
        · simp [hany, hd, hc, chaseTargets_nil, hsame]
        · simp [hany, hd, hc, hsame, LookupResult.ok, chase_eq_iff hz hany]
      · simp [hany, hd, hsame]
  · -- One of the two entries shows nothing, and that zone answers NODATA.
    have hentry : SameEntry K zone zone' viewId qtype qname ↔
        ∀ t, asks qtype t → shown K zone viewId qname t = [] ∧ shown K zone' viewId qname t = [] :=
      or_iff_right hown
    have hrest : (∀ n ∈ consulted K zone viewId qname qtype, SameEntry K zone zone' viewId qtype n) ↔
        SameEntry K zone zone' viewId qtype qname := by
      constructor
      · intro h
        exact h qname qname_mem_consulted
      · intro h
        rw [consulted_of_nothing fun t ht => (hentry.mp h t ht).1]
        simpa using h
    rw [hrest, hentry]
    rcases shown_eq_nil_of_ownerKey_ne hz hown with ⟨-, hnil⟩ | ⟨-, hnil⟩
    · have hno : answer K zone viewId viewName qname qtype recs = .nodata zone.soaRecord viewName :=
        answer_eq_nodata_iff.mpr fun t _ => hs t ▸ hnil t
      rw [hno, hz.soaRecord, eq_comm, answer_eq_nodata_iff]
      simp [hnil, hs']
    · have hno : answer K zone' viewId viewName qname qtype recs' =
          .nodata zone'.soaRecord viewName :=
        answer_eq_nodata_iff.mpr fun t _ => hs' t ▸ hnil t
      rw [hno, ← hz.soaRecord, answer_eq_nodata_iff]
      simp [hnil, hs]

/-- Two zones look a name up alike exactly when the managed SOA answers, or an entry is found in
both or in neither and the zones agree at every name consulted. -/
lemma lookupIn_eq_iff (hz : SameForView viewId zone zone') :
    lookupIn K zone viewId viewName qname qtype = lookupIn K zone' viewId viewName qname qtype ↔
      (qtype = .SOA ∧ nameKey K qname = nameKey K zone.apex) ∨
      ((ownerKey zone (nameKey K qname)).isSome = (ownerKey zone' (nameKey K qname)).isSome ∧
        ∀ n ∈ consulted K zone viewId qname qtype, SameEntry K zone zone' viewId qtype n) := by
  by_cases hsoa : qtype = .SOA ∧ nameKey K qname = nameKey K zone.apex
  · have hsoa' := hsoa
    rw [hz.apex] at hsoa'
    rw [lookupIn_soa hsoa, lookupIn_soa hsoa', hz.soaRecord]
    exact iff_of_true rfl (.inl hsoa)
  · have hsoa' := hsoa
    rw [hz.apex] at hsoa'
    have hiff := recordsAt_eq zone (nameKey K qname)
    have hiff' := recordsAt_eq zone' (nameKey K qname)
    rw [or_iff_right hsoa, lookupIn_entry hsoa, lookupIn_entry hsoa']
    cases hk : ownerKey zone (nameKey K qname) with
    | none =>
      rw [hk, Option.map_none] at hiff
      cases hk' : ownerKey zone' (nameKey K qname) with
      | none =>
        -- NXDOMAIN in both: nothing is shown, so only the query name is consulted.
        rw [hk', Option.map_none] at hiff'
        have hnil : ∀ t, shown K zone viewId qname t = [] := shown_of_recordsAt_none hiff
        have hsame : SameEntry K zone zone' viewId qtype qname := .inl (hk.trans hk'.symm)
        rw [consulted_of_nothing fun t _ => hnil t]
        simp [hiff, hiff', hz.soaRecord, hsame]
      | some k' =>
        rw [hk', Option.map_some] at hiff'
        simpa [hiff, hiff'] using (answer_ne_nxdomain _).symm
    | some k =>
      rw [hk, Option.map_some] at hiff
      cases hk' : ownerKey zone' (nameKey K qname) with
      | none =>
        rw [hk', Option.map_none] at hiff'
        simpa [hiff, hiff'] using answer_ne_nxdomain _
      | some k' =>
        rw [hk', Option.map_some] at hiff'
        simp [hiff, hiff', answer_eq_iff hz hiff hiff']

end Lookup

/-! ## Split-horizon isolation -/

/-- Searching two lists of corresponding zones by apex finds corresponding zones. -/
lemma find?_zoneOf_rel {viewId : ℤ} {zones zones' : List StoredZone} (qname : Name)
    (h : List.Forall₂ (SameForView viewId) zones zones') :
    (zones.find? (·.apex.zoneOf qname) = none ∧ zones'.find? (·.apex.zoneOf qname) = none) ∨
      ∃ zone zone', zones.find? (·.apex.zoneOf qname) = some zone ∧
        zones'.find? (·.apex.zoneOf qname) = some zone' ∧ SameForView viewId zone zone' := by
  induction h with
  | nil => exact .inl ⟨rfl, rfl⟩
  | @cons zone zone' zones zones' hz _ ih =>
    cases hin : zone.apex.zoneOf qname with
    | true =>
      have hin' : zone'.apex.zoneOf qname = true := hz.apex ▸ hin
      exact .inr ⟨zone, zone', by simp [hin], by simp [hin'], hz⟩
    | false =>
      have hin' : zone'.apex.zoneOf qname = false := hz.apex ▸ hin
      simpa [hin, hin'] using ih

/-- For two stores that differ only in records pinned to views other than the client's, a lookup
gives the client the same result exactly when no zone covers the name, or the managed SOA answers,
or the query name has an owner entry in both stores or in neither and, at every name consulted, the
two stores answer from the same owner entry or show nothing of the types asked for. -/
theorem lookup_eq_iff_sameEntry (s s' : ZoneStore) (client : IpAddr) (geo : ClientGeo)
    (h : DifferInOtherViews (s.clientView client geo) s s') (qname : Name) (qtype : RecordType) :
    s.lookup K qname qtype client geo = s'.lookup K qname qtype client geo ↔
      ∀ zone zone', s.zoneFor qname = some zone → s'.zoneFor qname = some zone' →
        (qtype = .SOA ∧ nameKey K qname = nameKey K zone.apex) ∨
        ((ownerKey zone (nameKey K qname)).isSome = (ownerKey zone' (nameKey K qname)).isSome ∧
          ∀ n ∈ consulted K zone (s.clientView client geo) qname qtype,
            SameEntry K zone zone' (s.clientView client geo) qtype n) := by
  have hview : s'.viewFor client geo = s.viewFor client geo := by
    unfold ZoneStore.viewFor
    rw [h.views]
  have hclient : s'.clientView client geo = s.clientView client geo := by
    unfold ZoneStore.clientView
    rw [hview]
  unfold ZoneStore.lookup
  rw [hview, hclient]
  unfold ZoneStore.zoneFor
  rcases find?_zoneOf_rel qname h.zones with ⟨hnone, hnone'⟩ | ⟨zone, zone', hsome, hsome', hz⟩
  · simp [hnone, hnone']
  · rw [hsome, hsome', lookupIn_eq_iff hz]
    constructor
    · intro hagree _ _ heq heq'
      cases heq
      cases heq'
      exact hagree
    · intro hagree
      exact hagree zone zone' rfl rfl

/-- Lists of records with the same visible part make stores that differ in other views. -/
lemma homeStore_differ {viewId : ℤ} {recs recs' : List (Str × StoredRecord)}
    (h : recs.filter (fun p => p.2.viewId.isNone || p.2.pinnedTo viewId) =
      recs'.filter (fun p => p.2.viewId.isNone || p.2.pinnedTo viewId)) :
    DifferInOtherViews viewId (homeStore recs) (homeStore recs') := by
  have hvis : ∀ (l : List (Str × StoredRecord)) (key : Str), visible viewId ((collect l).at key) =
      ((l.filter (fun p => p.2.viewId.isNone || p.2.pinnedTo viewId)).filter
        (fun p => p.1 = key)).map Prod.snd := by
    intro l key
    rw [at_collect, visible, List.filter_map, List.filter_filter, List.filter_filter]
    simp only [Function.comp_def, Bool.and_comm]
  refine ⟨rfl, .cons ⟨rfl, rfl, rfl, rfl, fun key => ?_⟩ .nil⟩
  simp only [homeLan]
  rw [hvis, hvis, h]

/-- A record of another view changes nothing where the client has a record at the same name. -/
theorem lookup_eq_iff_sameEntry_nas :
    (homeStore [("nas.home.lan", .ofIpv4 none 0xcb007105),
        ("nas.home.lan", .ofIpv4 (some 1) 0x0a000005)]).lookup plainCrates (.ofPlain "nas.home.lan")
        .A (.v4 0x08080808) {} =
      (homeStore [("nas.home.lan", .ofIpv4 none 0xcb007105)]).lookup plainCrates
        (.ofPlain "nas.home.lan") .A (.v4 0x08080808) {} := by
  rw [lookup_eq_iff_sameEntry plainCrates _ _ _ _ (homeStore_differ (by decide +kernel))]
  intro zone zone' h h'
  cases h
  cases h'
  refine .inr ⟨by decide +kernel, ?_⟩
  intro n hn
  have hq : n = .ofPlain "nas.home.lan" := by
    have hcons : consulted plainCrates (homeLan [("nas.home.lan", .ofIpv4 none 0xcb007105),
        ("nas.home.lan", .ofIpv4 (some 1) 0x0a000005)]) noView (.ofPlain "nas.home.lan") .A =
        [.ofPlain "nas.home.lan"] := by decide +kernel
    exact List.mem_singleton.mp (hcons ▸ hn)
  subst hq
  exact .inl (by decide +kernel)

/-- A record of another view reveals that its name exists: without it the client is told NXDOMAIN,
with it NODATA. -/
theorem lookup_reveals_other_view :
    DifferInOtherViews
        ((homeStore [("nas.home.lan", .ofIpv4 (some 1) 0x0a000005)]).clientView (.v4 0x08080808) {})
        (homeStore [("nas.home.lan", .ofIpv4 (some 1) 0x0a000005)]) (homeStore []) ∧
      ((homeStore [("nas.home.lan", .ofIpv4 (some 1) 0x0a000005)]).lookup plainCrates
        (.ofPlain "nas.home.lan") .A (.v4 0x08080808) {}).rcode = .NoError ∧
      ((homeStore []).lookup plainCrates (.ofPlain "nas.home.lan") .A (.v4 0x08080808) {}).rcode =
        .NXDomain := by
  exact ⟨homeStore_differ (by decide +kernel), by decide +kernel, by decide +kernel⟩

end Nomina
