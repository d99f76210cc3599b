import Nomina.Store.Visibility

/-!
# Zones that mirror each other

Two stored zones with the same apex and SOA whose owner entries hold the same records in some order.
When no record is pinned to a view and an owner has at most one CNAME, they answer every name alike:
with the same records, in some order. The bound on CNAMEs is what makes the chase independent of the
order, since it goes on with the last CNAME of an owner. Zones that also differ in the serial of their
SOA answer alike but for the serial.
-/

namespace Nomina

open Lib

/-- No record of the zone is pinned to a view. -/
def StoredZone.Unpinned (zone : StoredZone) : Prop :=
  ∀ key, ∀ r ∈ zone.records.at key, r.viewId = none

/-- An owner of the zone has at most one CNAME. -/
def StoredZone.OneCname (zone : StoredZone) : Prop :=
  ∀ key, ((zone.records.at key).filter (·.rtype == .CNAME)).length ≤ 1

/-- The second zone holds what the first holds, up to the order of the records of an owner. -/
structure Mirrors (zone zone' : StoredZone) : Prop where
  apex : zone'.apex = zone.apex
  soa : zone'.soa = zone.soa
  soaTtl : zone'.soaTtl = zone.soaTtl
  keys : ∀ key, key ∈ zone'.records ↔ key ∈ zone.records
  records : ∀ key, (zone'.records.at key).Perm (zone.records.at key)

/-- The answers of two lookups are the same up to the order of the records. The name of the view,
which is for the log, is not compared. -/
structure SameAnswer (r r' : LookupResult) : Prop where
  rcode : r'.rcode = r.rcode
  outcome : r'.outcome = r.outcome
  authority : r'.authority = r.authority
  answers : r'.answers.Perm r.answers

variable {K : Crates} {zone zone' : StoredZone} {viewId viewId' : ℤ}

/-! ## Records without views -/

/-- Records that are pinned to no view are shown to every client. -/
lemma resolve_of_unpinned {recs : List StoredRecord} (h : ∀ r ∈ recs, r.viewId = none) (viewId : ℤ)
    (t : RecordType) : resolve recs viewId t = recs.filter (·.rtype == t) := by
  have hspecific : recs.filter (fun r => r.rtype == t && r.pinnedTo viewId) = [] := by
    refine List.filter_eq_nil_iff.mpr fun r hr => ?_
    simp [StoredRecord.pinnedTo, h r hr]
  have hall : recs.filter (fun r => r.rtype == t && r.viewId.isNone) =
      recs.filter (·.rtype == t) := by
    refine List.filter_congr fun r hr => ?_
    simp [h r hr]
  unfold resolve
  rw [hspecific, hall]
  rfl

/-- All records shown for an ANY query, or for a transfer: every record once. -/
lemma resolve_all_perm {recs : List StoredRecord} (h : ∀ r ∈ recs, r.viewId = none) (viewId : ℤ) :
    ((recordTypes recs).flatMap (resolve recs viewId)).Perm recs := by
  have hresolve : resolve recs viewId = fun t => recs.filter (·.rtype == t) :=
    funext fun t => resolve_of_unpinned h viewId t
  rw [hresolve]
  refine flatMap_filter_perm StoredRecord.rtype (nodup_btreeSet _) ?_
  intro r hr
  rw [mem_btreeSet]
  exact List.mem_map_of_mem hr

/-- Permuted records that are pinned to no view resolve alike, up to order. -/
lemma resolve_perm {recs recs' : List StoredRecord} (hperm : recs'.Perm recs)
    (h : ∀ r ∈ recs, r.viewId = none) (viewId viewId' : ℤ) (t : RecordType) :
    (resolve recs' viewId' t).Perm (resolve recs viewId t) := by
  have h' : ∀ r ∈ recs', r.viewId = none := fun r hr => h r (hperm.mem_iff.mp hr)
  rw [resolve_of_unpinned h, resolve_of_unpinned h']
  exact hperm.filter _

/-- The CNAMEs of an owner that has at most one are the same list. -/
lemma resolve_cname_eq {recs recs' : List StoredRecord} (hperm : recs'.Perm recs)
    (h : ∀ r ∈ recs, r.viewId = none) (hone : (recs.filter (·.rtype == .CNAME)).length ≤ 1)
    (viewId viewId' : ℤ) : resolve recs' viewId' .CNAME = resolve recs viewId .CNAME := by
  have hcname := resolve_perm hperm h viewId viewId' .CNAME
  rw [resolve_of_unpinned h viewId] at hcname ⊢
  cases hlist : recs.filter (·.rtype == .CNAME) with
  | nil =>
    rw [hlist] at hcname
    exact hcname.eq_nil
  | cons r rest =>
    have hrest : rest = [] := by
      rw [hlist] at hone
      simpa using hone
    rw [hlist, hrest] at hcname
    rw [hrest]
    exact List.perm_singleton.mp hcname

/-! ## The same answers -/

/-- The SOA records are the same. -/
lemma Mirrors.soaRecord (h : Mirrors zone zone') : zone'.soaRecord = zone.soaRecord := by
  unfold StoredZone.soaRecord
  rw [h.apex, h.soa, h.soaTtl]

/-- The entry found for a name: none in both zones, or permuted records. -/
lemma Mirrors.recordsAt (h : Mirrors zone zone') (key : Str) :
    (recordsAt zone key = none ∧ recordsAt zone' key = none) ∨
      ∃ owner, recordsAt zone key = some (zone.records.at owner) ∧
        recordsAt zone' key = some (zone'.records.at owner) := by
  have howner : ownerKey zone' key = ownerKey zone key := by
    unfold ownerKey
    simp only [h.keys]
  rw [recordsAt_eq zone', recordsAt_eq zone, howner]
  cases ownerKey zone key with
  | none => exact .inl ⟨rfl, rfl⟩
  | some owner => exact .inr ⟨owner, rfl, rfl⟩

/-- An emptiness test does not see the order. -/
lemma isEmpty_eq_of_perm {α : Type} {l l' : List α} (h : l'.Perm l) : l'.isEmpty = l.isEmpty := by
  rw [Bool.eq_iff_iff, List.isEmpty_iff, List.isEmpty_iff]
  exact ⟨fun hl => (hl ▸ h).nil_eq.symm, fun hl => (hl ▸ h).eq_nil⟩

/-- The chase emits the same records, up to order. -/
lemma Mirrors.chase (h : Mirrors zone zone') (hviews : zone.Unpinned) (hcname : zone.OneCname)
    (qtype : RecordType) (remaining : ℕ) (current : Name) (cnames : List StoredRecord) :
    (chase K zone' viewId' qtype remaining current cnames).Perm
      (chase K zone viewId qtype remaining current cnames) := by
  induction remaining generalizing current cnames with
  | zero => exact .refl _
  | succ remaining ih =>
    unfold Nomina.chase
    refine List.Perm.append_left _ ?_
    cases nextTarget cnames with
    | none => exact .refl _
    | some target =>
      dsimp only
      rw [h.apex]
      split
      · exact .refl _
      · rcases h.recordsAt (nameKey K target) with ⟨hnone, hnone'⟩ | ⟨owner, hsome, hsome'⟩
        · rw [hnone, hnone']
        · rw [hsome, hsome']
          dsimp only
          have hdirect := resolve_perm (h.records owner) (hviews owner) viewId viewId' qtype
          have hchain := resolve_cname_eq (h.records owner) (hviews owner) (hcname owner) viewId viewId'
          rw [isEmpty_eq_of_perm hdirect, hchain]
          split
          · exact hdirect.map _
          · split
            · exact .refl _
            · exact ih target _

/-- The answer from an owner entry is the same, up to order. -/
lemma Mirrors.answer (h : Mirrors zone zone') (hviews : zone.Unpinned) (hcname : zone.OneCname)
    (viewName viewName' : Option Str) (qname : Name) (qtype : RecordType) (owner : Str) :
    SameAnswer (answer K zone viewId viewName qname qtype (zone.records.at owner))
      (answer K zone' viewId' viewName' qname qtype (zone'.records.at owner)) := by
  have hviews' : ∀ r ∈ zone'.records.at owner, r.viewId = none :=
    fun r hr => hviews owner r ((h.records owner).mem_iff.mp hr)
  unfold Nomina.answer
  dsimp only
  rw [h.soaRecord]
  split
  · -- ANY: every record of the entry.
    have hany := ((resolve_all_perm hviews' viewId').trans (h.records owner)).trans
      (resolve_all_perm (hviews owner) viewId).symm
    have hany' := hany.map (·.toRecord qname)
    rw [isEmpty_eq_of_perm hany']
    split
    · exact ⟨rfl, rfl, rfl, .refl _⟩
    · exact ⟨rfl, rfl, rfl, hany'⟩
  · have hdirect := resolve_perm (h.records owner) (hviews owner) viewId viewId' qtype
    have hchain := resolve_cname_eq (h.records owner) (hviews owner) (hcname owner) viewId viewId'
    rw [isEmpty_eq_of_perm hdirect, hchain]
    split
    · exact ⟨rfl, rfl, rfl, hdirect.map _⟩
    · split
      · exact ⟨rfl, rfl, rfl, h.chase hviews hcname qtype 8 qname _⟩
      · exact ⟨rfl, rfl, rfl, .refl _⟩

/-- Zones that mirror each other answer every name alike. -/
theorem Mirrors.lookupIn (h : Mirrors zone zone') (hviews : zone.Unpinned) (hcname : zone.OneCname)
    (viewName viewName' : Option Str) (qname : Name) (qtype : RecordType) :
    SameAnswer (lookupIn K zone viewId viewName qname qtype)
      (lookupIn K zone' viewId' viewName' qname qtype) := by
  by_cases hsoa : qtype = .SOA ∧ nameKey K qname = nameKey K zone.apex
  · have hsoa' := hsoa
    rw [← h.apex] at hsoa'
    rw [lookupIn_soa hsoa, lookupIn_soa hsoa', h.soaRecord]
    exact ⟨rfl, rfl, rfl, .refl _⟩
  · have hsoa' := hsoa
    rw [← h.apex] at hsoa'
    rw [lookupIn_entry hsoa, lookupIn_entry hsoa', h.soaRecord]
    rcases h.recordsAt (nameKey K qname) with ⟨hnone, hnone'⟩ | ⟨owner, hsome, hsome'⟩
    · rw [hnone, hnone']
      exact ⟨rfl, rfl, rfl, .refl _⟩
    · rw [hsome, hsome']
      exact h.answer hviews hcname viewName viewName' qname qtype owner

/-! ## Zones that differ in the serial -/

/-- A record, with the serial left out of an SOA. -/
def Record.unserialed (r : Record) : Record :=
  match r.data with
  | .soa soa => { r with data := .soa { soa with serial := 0 } }
  | _ => r

/-- The answers of two lookups are the same up to the order of the records and the serials of SOA
records. -/
structure SameButSerial (r r' : LookupResult) : Prop where
  rcode : r'.rcode = r.rcode
  outcome : r'.outcome = r.outcome
  authority : r'.authority.map Record.unserialed = r.authority.map Record.unserialed
  answers : (r'.answers.map Record.unserialed).Perm (r.answers.map Record.unserialed)

lemma SameButSerial.refl (r : LookupResult) : SameButSerial r r :=
  ⟨rfl, rfl, rfl, .refl _⟩

/-- The same answer, and then another serial. -/
lemma SameAnswer.trans_serial {r r' r'' : LookupResult} (h : SameAnswer r r')
    (h' : SameButSerial r' r'') : SameButSerial r r'' :=
  ⟨h'.rcode.trans h.rcode, h'.outcome.trans h.outcome, h'.authority.trans (by rw [h.authority]),
    h'.answers.trans (h.answers.map _)⟩

section Serial

variable {soa : SOA}

/-- The chase does not look at the SOA. -/
lemma chase_withSoa (qtype : RecordType) (remaining : ℕ) (current : Name)
    (cnames : List StoredRecord) :
    chase K { zone with soa } viewId qtype remaining current cnames =
      chase K zone viewId qtype remaining current cnames := by
  induction remaining generalizing current cnames with
  | zero => rfl
  | succ remaining ih =>
    simp only [chase, ih]
    rfl

variable (hserial : { soa with serial := 0 } = { zone.soa with serial := 0 })

include hserial

/-- SOA records that differ in the serial. -/
lemma unserialed_withSoa :
    ({ zone with soa } : StoredZone).soaRecord.unserialed = zone.soaRecord.unserialed := by
  have hsoa : ∀ soa : SOA, (⟨zone.apex, zone.soaTtl, .soa soa⟩ : Record).unserialed =
      ⟨zone.apex, zone.soaTtl, .soa { soa with serial := 0 }⟩ := fun _ => rfl
  unfold StoredZone.soaRecord
  rw [hsoa, hsoa, hserial]

/-- Zones that differ in the serial answer alike but for the serial. -/
lemma lookupIn_withSoa (viewName : Option Str) (qname : Name) (qtype : RecordType) :
    SameButSerial (lookupIn K { zone with soa } viewId viewName qname qtype)
      (lookupIn K zone viewId viewName qname qtype) := by
  have hsoa := unserialed_withSoa hserial
  have hrecords : recordsAt { zone with soa } (nameKey K qname) = recordsAt zone (nameKey K qname) := rfl
  have hauthority : [zone.soaRecord].map Record.unserialed =
      [({ zone with soa } : StoredZone).soaRecord].map Record.unserialed := by
    rw [List.map_singleton, List.map_singleton, hsoa]
  have hnodata : SameButSerial (.nodata ({ zone with soa } : StoredZone).soaRecord viewName)
      (.nodata zone.soaRecord viewName) := ⟨rfl, rfl, hauthority, .refl _⟩
  unfold lookupIn
  rw [hrecords]
  split
  · exact ⟨rfl, rfl, rfl, .of_eq hauthority⟩
  · split
    · exact ⟨rfl, rfl, hauthority, .refl _⟩
    · rename_i recs _
      unfold answer
      dsimp only
      rw [chase_withSoa]
      split
      · split
        · exact hnodata
        · exact .refl _
      · split
        · exact .refl _
        · split
          · exact .refl _
          · exact hnodata

end Serial

/-- A zone that mirrors another one up to the serial answers alike but for the serial. -/
theorem Mirrors.lookupIn_serial (h : Mirrors zone { zone' with soa := zone.soa })
    (hserial : { zone.soa with serial := 0 } = { zone'.soa with serial := 0 }) (hviews : zone.Unpinned)
    (hcname : zone.OneCname) (viewName viewName' : Option Str) (qname : Name) (qtype : RecordType) :
    SameButSerial (Nomina.lookupIn K zone viewId viewName qname qtype)
      (Nomina.lookupIn K zone' viewId' viewName' qname qtype) :=
  (h.lookupIn hviews hcname viewName viewName' qname qtype).trans_serial
    (lookupIn_withSoa hserial viewName' qname qtype)

end Nomina
