import Mathlib.Data.List.Forall2
import Mathlib.Tactic.Ring
import Nomina.Dns.Denial
import Nomina.Dns.NameCase
import Nomina.Store.Chase

/-!
# Signatures of answers

`sign_records` groups the records of an answer by the folded text of their owner and by type, and appends
the signature of each group. When the texts tell the owners apart as ignoring ASCII case does, the groups
are the record sets of the answer, so that each of them is signed once. The signature is over all records
of the set, unless it is a set of aliases or of SOA records, of which one is signed. An NSEC3 record denies
the range from a hash to the next value, which `increment_hash` counts up to.
-/

namespace Nomina

open Lib

/-! ## The next hash -/

/-- The value of a byte string with one more byte before it. -/
lemma ofBeBytes_cons (x : UInt8) (b : Bytes) : ofBeBytes (x :: b) = x.toNat * 256 ^ b.length + ofBeBytes b := by
  induction b using List.reverseRecOn with
  | nil => simp [ofBeBytes, ofDigitsBE]
  | append_singleton b y ih =>
    rw [← List.cons_append, ofBeBytes_concat, ofBeBytes_concat, ih, List.length_append,
      List.length_singleton, pow_succ]
    ring

/-- Below a carry the byte is counted up. -/
lemma incrementHash_carry {b : UInt8} {bs : Bytes} (h : (incrementHash bs).1 = true) :
    incrementHash (b :: bs) = (b == 255, (b + 1) :: (incrementHash bs).2) := by
  rw [incrementHash]
  exact if_pos h

/-- Without a carry the byte stays. -/
lemma incrementHash_stay {b : UInt8} {bs : Bytes} (h : (incrementHash bs).1 = false) :
    incrementHash (b :: bs) = (false, b :: (incrementHash bs).2) := by
  rw [incrementHash]
  exact if_neg (by rw [h]; exact Bool.false_ne_true)

/-- The hash keeps its length. -/
lemma length_incrementHash (bytes : Bytes) : (incrementHash bytes).2.length = bytes.length := by
  induction bytes with
  | nil => rfl
  | cons b bs ih =>
    cases hcarry : (incrementHash bs).1 with
    | true => rw [incrementHash_carry hcarry, List.length_cons, ih, List.length_cons]
    | false => rw [incrementHash_stay hcarry, List.length_cons, ih, List.length_cons]

/-- A hash is counted up by one; what does not fit any more is the carry. -/
lemma ofBeBytes_incrementHash (bytes : Bytes) :
    ofBeBytes (incrementHash bytes).2 + (incrementHash bytes).1.toNat * 256 ^ bytes.length =
      ofBeBytes bytes + 1 := by
  induction bytes with
  | nil => rfl
  | cons b bs ih =>
    cases hcarry : (incrementHash bs).1 with
    | false =>
      rw [hcarry, Bool.toNat_false, Nat.zero_mul, Nat.add_zero] at ih
      rw [incrementHash_stay hcarry, Bool.toNat_false, Nat.zero_mul, Nat.add_zero, ofBeBytes_cons,
        length_incrementHash, ih, ofBeBytes_cons, Nat.add_assoc]
    | true =>
      rw [hcarry, Bool.toNat_true, Nat.one_mul] at ih
      rw [incrementHash_carry hcarry, ofBeBytes_cons, length_incrementHash, List.length_cons, ofBeBytes_cons]
      -- The byte and the carry out of it make up one more.
      have hbyte : (b + 1).toNat + (b == 255).toNat * 256 = b.toNat + 1 := by
        revert b
        exact forall_byte (by decide +kernel)
      calc (b + 1).toNat * 256 ^ bs.length + ofBeBytes (incrementHash bs).2 +
            (b == 255).toNat * 256 ^ (bs.length + 1)
          = ((b + 1).toNat + (b == 255).toNat * 256) * 256 ^ bs.length +
              ofBeBytes (incrementHash bs).2 := by ring
        _ = (b.toNat + 1) * 256 ^ bs.length + ofBeBytes (incrementHash bs).2 := by rw [hbyte]
        _ = b.toNat * 256 ^ bs.length + ofBeBytes bs + 1 := by rw [Nat.add_assoc, ← ih]; ring

/-- `increment_hash` counts up by one, modulo the range of the bytes, and keeps their number; and the next
hash of an NSEC3 record is the one after the hash of its owner. -/
theorem incrementHash_spec :
    (∀ bytes : Bytes, (incrementHash bytes).2.length = bytes.length ∧
      ofBeBytes (incrementHash bytes).2 = (ofBeBytes bytes + 1) % 256 ^ bytes.length) ∧
    ∀ (S : SigningCrates) (now : ℤ) (signer : ZoneSigner) (owner : Name) (present : List RecordType)
      (ttl : ℕ), ∀ r ∈ signer.nsec3Records S now owner present ttl, r.data.recordType = .NSEC3 →
        ∃ p hash next, signer.nsec3 = some p ∧ S.nsec3Hash p owner = some hash ∧
          r.data = .nsec3 p.salt p.iterations next (present ++ [.RRSIG]) ∧ next.length = hash.length ∧
          ofBeBytes next = (ofBeBytes hash + 1) % 256 ^ hash.length := by
  have hnext : ∀ bytes : Bytes, (incrementHash bytes).2.length = bytes.length ∧
      ofBeBytes (incrementHash bytes).2 = (ofBeBytes bytes + 1) % 256 ^ bytes.length := by
    intro bytes
    have hlength := length_incrementHash bytes
    have hlt : ofBeBytes (incrementHash bytes).2 < 256 ^ bytes.length := by
      have hbits := ofBeBytes_lt hlength
      rwa [pow_mul] at hbits
    have hmod : (ofBeBytes (incrementHash bytes).2 + (incrementHash bytes).1.toNat * 256 ^ bytes.length) %
        256 ^ bytes.length = ofBeBytes (incrementHash bytes).2 := by
      rw [Nat.add_mul_mod_self_right, Nat.mod_eq_of_lt hlt]
    rw [ofBeBytes_incrementHash] at hmod
    exact ⟨hlength, hmod.symm⟩
  refine ⟨hnext, ?_⟩
  intro S now signer owner present ttl r hr htype
  unfold ZoneSigner.nsec3Records at hr
  split at hr
  · cases hr
  · rename_i p hp
    split at hr
    · cases hr
    · rename_i hash hhash
      split at hr
      · cases hr
      · rename_i owner' _
        rcases List.mem_cons.mp hr with rfl | hr
        · exact ⟨p, hash, _, hp, hhash, rfl, (hnext hash).1, (hnext hash).2⟩
        · -- The other record is the signature.
          obtain ⟨sig, -, rfl⟩ := Option.map_eq_some_iff.mp (Option.mem_toList.mp hr)
          cases htype

/-- The carry goes past a byte that is full, and stops at the next one. -/
example : incrementHash [0x12, 0xff, 0xff] = (false, [0x13, 0, 0]) := by decide

/-! ## Record sets -/

/-- The record set has the given records, where those with equal data count as one. -/
structure CoversRecords (S : SigningCrates) (set records : List Record) : Prop where
  subset : set ⊆ records
  equalData : ∀ r ∈ records, ∃ r' ∈ set, r'.EqualData S r

section Insert

variable {S : SigningCrates} {records : List Record} {r : Record}

lemma recordSet_concat (records : List Record) (r : Record) :
    recordSet S (records ++ [r]) = recordSetInsert S (recordSet S records) r := by
  unfold recordSet
  rw [List.foldl_append, List.foldl_cons, List.foldl_nil]

/-- A record set that has one record only keeps it or takes the new one. -/
lemma recordSetInsert_of_singleton (set : List Record) (h : isSingleton r.data.recordType = true) :
    set ≠ [] ∧ recordSetInsert S set r = set ∨ recordSetInsert S set r = [r] := by
  unfold isSingleton at h
  unfold recordSetInsert
  split
  · split
    · rename_i hkeeps
      refine .inl ⟨?_, rfl⟩
      rintro rfl
      cases hkeeps
    · exact .inr rfl
  · rename_i hsoa
    rw [Bool.not_eq_true] at hsoa
    rw [hsoa, Bool.false_or] at h
    rw [if_pos h]
    exact .inr rfl

/-- Any other record set takes the new record unless it has one of equal data. -/
lemma recordSetInsert_of_not_singleton (set : List Record) (h : isSingleton r.data.recordType = false) :
    recordSetInsert S set r = if set.any (·.EqualData S r) then set else set ++ [r] := by
  unfold isSingleton at h
  rw [Bool.or_assoc, Bool.or_eq_false_iff] at h
  unfold recordSetInsert
  rw [h.1, h.2, if_neg Bool.false_ne_true, if_neg Bool.false_ne_true]

/-- No records are made up. -/
lemma recordSet_subset (records : List Record) : recordSet S records ⊆ records := by
  induction records using List.reverseRecOn with
  | nil => exact List.Subset.refl _
  | append_singleton records r ih =>
    have hold : recordSet S records ⊆ records ++ [r] := List.subset_append_of_subset_left _ ih
    have hnew : [r] ⊆ records ++ [r] := List.subset_append_right _ _
    rw [recordSet_concat]
    cases hone : isSingleton r.data.recordType with
    | true =>
      rcases recordSetInsert_of_singleton (S := S) (recordSet S records) hone with ⟨-, heq⟩ | heq
      · rwa [heq]
      · rwa [heq]
    | false =>
      rw [recordSetInsert_of_not_singleton _ hone]
      split
      · exact hold
      · exact List.append_subset.mpr ⟨hold, hnew⟩

/-- Of records of which a set has one only, one is left. -/
lemma exists_recordSet_eq (hone : ∀ r ∈ records, isSingleton r.data.recordType = true) (hne : records ≠ []) :
    ∃ r, recordSet S records = [r] := by
  induction records using List.reverseRecOn with
  | nil => exact absurd rfl hne
  | append_singleton records r ih =>
    rw [recordSet_concat]
    rcases recordSetInsert_of_singleton (S := S) (recordSet S records) (hone r List.mem_concat_self) with
      ⟨hset, heq⟩ | heq
    · have hrecords : records ≠ [] := by
        rintro rfl
        exact hset rfl
      rw [heq]
      exact ih (fun r' hr' => hone r' (List.mem_append_left _ hr')) hrecords
    · exact ⟨r, heq⟩

/-- Of other records one is left of each data. -/
lemma exists_mem_recordSet (hone : ∀ r ∈ records, isSingleton r.data.recordType = false) (hr : r ∈ records) :
    ∃ r' ∈ recordSet S records, r'.EqualData S r := by
  induction records using List.reverseRecOn with
  | nil => exact absurd hr List.not_mem_nil
  | append_singleton records new ih =>
    rw [recordSet_concat, recordSetInsert_of_not_singleton _ (hone new List.mem_concat_self)]
    rcases List.mem_append.mp hr with hr | hr
    · obtain ⟨r', hr', hequal⟩ := ih (fun r' hr' => hone r' (List.mem_append_left _ hr')) hr
      refine ⟨r', ?_, hequal⟩
      split
      · exact hr'
      · exact List.mem_append_left _ hr'
    · obtain rfl := List.mem_singleton.mp hr
      split
      · rename_i hany
        simpa using hany
      · exact ⟨r, List.mem_concat_self, rfl⟩

/-- Records of one type are covered by their record set when they have equal data, should it have one record
only. -/
lemma coversRecords_recordSet {t : RecordType} (htype : ∀ r ∈ records, r.data.recordType = t)
    (hone : isSingleton t = true → ∀ r ∈ records, ∀ r' ∈ records, r.EqualData S r') :
    CoversRecords S (recordSet S records) records := by
  refine ⟨recordSet_subset records, fun r hr => ?_⟩
  cases ht : isSingleton t with
  | true =>
    obtain ⟨r', hset⟩ := exists_recordSet_eq (S := S) (fun r hr => by rw [htype r hr, ht])
      (List.ne_nil_of_mem hr)
    have hr' : r' ∈ recordSet S records := by
      rw [hset]
      exact List.mem_cons_self
    exact ⟨r', hr', hone ht r' (recordSet_subset records hr') r hr⟩
  | false => exact exists_mem_recordSet (fun r hr => by rw [htype r hr, ht]) hr

end Insert

/-- The records belong to one record set: their owners agree ignoring ASCII case, and so do their types. -/
def Record.SameRrset (r r' : Record) : Prop :=
  r.name.EqIgnoringCase r'.name ∧ r.data.recordType = r'.data.recordType

instance (r r' : Record) : Decidable (r.SameRrset r') :=
  inferInstanceAs (Decidable (r.name.toLowercase = r'.name.toLowercase ∧ _))

lemma Record.SameRrset.symm {r r' : Record} (h : r.SameRrset r') : r'.SameRrset r :=
  ⟨Eq.symm h.1, h.2.symm⟩

lemma Record.SameRrset.trans {r r' r'' : Record} (h : r.SameRrset r') (h' : r'.SameRrset r'') :
    r.SameRrset r'' :=
  ⟨Eq.trans h.1 h'.1, h.2.trans h'.2⟩

/-- The records of the record set of `r`. -/
def rrsetOf (records : List Record) (r : Record) : List Record :=
  records.filter fun r' => r'.SameRrset r

/-! ## Signatures -/

section Groups

open ZoneSigner

/-- The signatures are one for each record set of the records, made over the records of that set. -/
structure SignsEach (S : SigningCrates) (now : ℤ) (signer : ZoneSigner) (K : Crates)
    (records sigs : List Record) : Prop where
  signed : List.Forall₂ (fun g sig => signer.signGroup S now g = some sig) (rrsetGroups K records) sigs
  distinct : (rrsetGroups K records).Pairwise fun g g' => ∀ r ∈ g.2, ∀ r' ∈ g'.2, ¬ r.SameRrset r'
  grouped : ∀ r ∈ records, r.data.recordType ≠ .RRSIG → ∃ g ∈ rrsetGroups K records, r ∈ g.2
  covers : ∀ g ∈ rrsetGroups K records, ∀ r ∈ g.2, CoversRecords S (recordSet S g.2) (rrsetOf records r)

/-- The folded texts of the owners tell the record sets apart, and those that can have one record only
have one. -/
structure SetsToldApart (S : SigningCrates) (K : Crates) (records : List Record) : Prop where
  told : ∀ r ∈ records, ∀ r' ∈ records, r.data.recordType ≠ .RRSIG →
    (rrsetKey K r = rrsetKey K r' ↔ r.SameRrset r')
  single : ∀ r ∈ records, ∀ r' ∈ records, r.SameRrset r' → isSingleton r.data.recordType = true →
    r.EqualData S r'

/-- The signer can sign every record set that has records. -/
def ZoneSigner.Succeeds (S : SigningCrates) (now : ℤ) (signer : ZoneSigner) : Prop :=
  ∀ name rtype ttl records, records ≠ [] → (signer.signRrset S now name rtype ttl records).isSome = true

variable {S : SigningCrates} {now : ℤ} {signer : ZoneSigner} {K : Crates} {records sigs : List Record}
  {g : (Str × RecordType) × List Record} {r r' : Record}

/-- The records under a key. -/
def groupOf (K : Crates) (records : List Record) (k : Str × RecordType) : List Record :=
  (records.filter fun r => r.data.recordType != .RRSIG).filter fun r => rrsetKey K r = k

lemma mem_groupOf {k : Str × RecordType} :
    r ∈ groupOf K records k ↔ r ∈ records ∧ r.data.recordType ≠ .RRSIG ∧ rrsetKey K r = k := by
  unfold groupOf
  rw [List.mem_filter, List.mem_filter, bne_iff_ne, decide_eq_true_iff, and_assoc]

/-- What is grouped under a key. -/
lemma at_groups (k : Str × RecordType) :
    (collect ((records.filter fun r => r.data.recordType != .RRSIG).map fun r => (rrsetKey K r, r))).at k =
      groupOf K records k := by
  rw [at_collect, List.filter_map, List.map_map]
  exact List.map_id _

/-- There is a group for each key of a record, with the records of that key. -/
lemma mem_rrsetGroups :
    g ∈ rrsetGroups K records ↔ g.2 = groupOf K records g.1 ∧ ∃ r, r ∈ g.2 := by
  unfold rrsetGroups
  simp only [List.mem_map, List.mem_insertionSort, ← AList.mem_keys, mem_collect, at_groups]
  constructor
  · rintro ⟨k, ⟨p, ⟨r, hr, rfl⟩, rfl⟩, rfl⟩
    rw [List.mem_filter, bne_iff_ne] at hr
    exact ⟨rfl, r, mem_groupOf.mpr ⟨hr.1, hr.2, rfl⟩⟩
  · rintro ⟨hg, r, hr⟩
    obtain ⟨hmem, htype, hkey⟩ := mem_groupOf.mp (hg ▸ hr)
    refine ⟨g.1, ⟨_, ⟨r, List.mem_filter.mpr ⟨hmem, bne_iff_ne.mpr htype⟩, rfl⟩, hkey⟩, ?_⟩
    rw [← hg]

/-- A record of a group. -/
lemma mem_of_mem_group (hg : g ∈ rrsetGroups K records) (hr : r ∈ g.2) :
    r ∈ records ∧ r.data.recordType ≠ .RRSIG ∧ rrsetKey K r = g.1 := by
  rw [(mem_rrsetGroups.mp hg).1] at hr
  exact mem_groupOf.mp hr

/-- Every record that is signed is in the group of its key. -/
lemma exists_group (hr : r ∈ records) (htype : r.data.recordType ≠ .RRSIG) :
    ∃ g ∈ rrsetGroups K records, r ∈ g.2 := by
  have hmem : r ∈ groupOf K records (rrsetKey K r) := mem_groupOf.mpr ⟨hr, htype, rfl⟩
  exact ⟨(rrsetKey K r, groupOf K records (rrsetKey K r)), mem_rrsetGroups.mpr ⟨rfl, r, hmem⟩, hmem⟩

/-- Different groups have different keys. -/
lemma pairwise_rrsetGroups : (rrsetGroups K records).Pairwise fun g g' => g.1 ≠ g'.1 := by
  unfold rrsetGroups
  refine List.pairwise_map.mpr ?_
  exact (List.perm_insertionSort _ _).nodup_iff.mpr (AList.nodupKeys _)

/-- The group of a record is its record set. -/
lemma SetsToldApart.group_eq (h : SetsToldApart S K records) (hg : g ∈ rrsetGroups K records) (hr : r ∈ g.2) :
    g.2 = rrsetOf records r := by
  obtain ⟨hmem, htype, hkey⟩ := mem_of_mem_group hg hr
  rw [(mem_rrsetGroups.mp hg).1]
  unfold groupOf rrsetOf
  rw [List.filter_filter]
  refine List.filter_congr fun r' hr' => ?_
  rw [Bool.eq_iff_iff, Bool.and_eq_true, decide_eq_true_iff, decide_eq_true_iff, bne_iff_ne, ← hkey]
  constructor
  · rintro ⟨hsame, htype'⟩
    exact (h.told r' hr' r hmem htype').mp hsame
  · intro hsame
    have htype' : r'.data.recordType ≠ .RRSIG := by
      rw [hsame.2]
      exact htype
    exact ⟨(h.told r' hr' r hmem htype').mpr hsame, htype'⟩

/-- Every group is signed. -/
lemma forall₂_signGroup (hsign : signer.Succeeds S now) {groups : List ((Str × RecordType) × List Record)}
    (hgroups : ∀ g ∈ groups, ∃ r, r ∈ g.2) :
    List.Forall₂ (fun g sig => signer.signGroup S now g = some sig) groups
      (groups.filterMap (signer.signGroup S now)) := by
  induction groups with
  | nil => exact .nil
  | cons g groups ih =>
    obtain ⟨⟨r, hr⟩, hrest⟩ := List.forall_mem_cons.mp hgroups
    obtain ⟨⟨k, t⟩, rs⟩ := g
    obtain ⟨r, rs, rfl⟩ := List.exists_cons_of_ne_nil (List.ne_nil_of_mem hr)
    obtain ⟨sig, hsig⟩ := Option.isSome_iff_exists.mp
      (hsign r.name t r.ttl (r :: rs) (List.cons_ne_nil r rs))
    have hgroup : signer.signGroup S now ((k, t), r :: rs) = some sig := hsig
    rw [List.filterMap_cons_some hgroup]
    exact .cons hgroup (ih hrest)

/-- What is told apart is signed record set by record set. -/
lemma SetsToldApart.signsEach (hsign : signer.Succeeds S now) (h : SetsToldApart S K records) :
    SignsEach S now signer K records ((rrsetGroups K records).filterMap (signer.signGroup S now)) := by
  refine ⟨forall₂_signGroup hsign fun g hg => (mem_rrsetGroups.mp hg).2, ?_, fun r hr => exists_group hr, ?_⟩
  · refine pairwise_rrsetGroups.imp_of_mem fun hg hg' hne r hr r' hr' hsame => hne ?_
    obtain ⟨hmem, htype, hkey⟩ := mem_of_mem_group hg hr
    obtain ⟨hmem', -, hkey'⟩ := mem_of_mem_group hg' hr'
    rw [← hkey, ← hkey']
    exact (h.told r hmem r' hmem' htype).mpr hsame
  · intro g hg r hr
    rw [← h.group_eq hg hr]
    refine coversRecords_recordSet (t := g.1.2) (fun r' hr' => ?_) fun hone r' hr' r'' hr'' => ?_
    · exact congrArg Prod.snd (mem_of_mem_group hg hr').2.2
    · obtain ⟨hmem', htype', hkey'⟩ := mem_of_mem_group hg hr'
      obtain ⟨hmem'', -, hkey''⟩ := mem_of_mem_group hg hr''
      refine h.single r' hmem' r'' hmem'' ((h.told r' hmem' r'' hmem'' htype').mp (hkey'.trans hkey''.symm)) ?_
      rw [← hone]
      exact congrArg (fun k => isSingleton k.2) hkey'

/-- A signature covers a record of the record set of each record of its group. -/
lemma SignsEach.exists_covered (h : SignsEach S now signer K records sigs) (hg : g ∈ rrsetGroups K records)
    (hr : r ∈ g.2) : ∃ r' ∈ recordSet S g.2, r'.SameRrset r := by
  have hcovers := h.covers g hg r hr
  have hmem : r ∈ rrsetOf records r :=
    List.mem_filter.mpr ⟨(mem_of_mem_group hg hr).1, decide_eq_true ⟨rfl, rfl⟩⟩
  obtain ⟨r', hr', -⟩ := hcovers.equalData r hmem
  exact ⟨r', hr', of_decide_eq_true (List.mem_filter.mp (hcovers.subset hr')).2⟩

/-- Records of one key are signed as one record set, which they therefore are. -/
lemma SignsEach.sameRrset (h : SignsEach S now signer K records sigs) (hr : r ∈ records) (hr' : r' ∈ records)
    (htype : r.data.recordType ≠ .RRSIG) (hkey : rrsetKey K r = rrsetKey K r') : r.SameRrset r' := by
  obtain ⟨g, hg, hrg⟩ := exists_group (K := K) hr htype
  have htypes : r.data.recordType = r'.data.recordType := congrArg Prod.snd hkey
  have hrg' : r' ∈ g.2 := by
    rw [(mem_rrsetGroups.mp hg).1]
    exact mem_groupOf.mpr ⟨hr', htypes ▸ htype, hkey.symm.trans (mem_of_mem_group hg hrg).2.2⟩
  -- A covered record is in the record sets of both.
  obtain ⟨x, hx, hsame⟩ := h.exists_covered hg hrg
  have hsame' : x.SameRrset r' :=
    of_decide_eq_true (List.mem_filter.mp ((h.covers g hg r' hrg').subset hx)).2
  exact hsame.symm.trans hsame'

/-- The records of a record set are signed together, under one key. -/
lemma SignsEach.rrsetKey_eq (h : SignsEach S now signer K records sigs) (hr : r ∈ records) (hr' : r' ∈ records)
    (htype : r.data.recordType ≠ .RRSIG) (hsame : r.SameRrset r') : rrsetKey K r = rrsetKey K r' := by
  obtain ⟨g, hg, hrg⟩ := exists_group (K := K) hr htype
  obtain ⟨g', hg', hrg'⟩ := exists_group (K := K) hr' (hsame.2 ▸ htype)
  have heq : g = g' := by
    by_contra hne
    have hsymm : Std.Symm fun g g' : (Str × RecordType) × List Record =>
        ∀ r ∈ g.2, ∀ r' ∈ g'.2, ¬ r.SameRrset r' :=
      ⟨fun _ _ hapart r hr r' hr' hs => hapart r' hr' r hr hs.symm⟩
    exact h.distinct.forall hg hg' hne r hrg r' hrg' hsame
  subst heq
  exact (mem_of_mem_group hg hrg).2.2.trans (mem_of_mem_group hg hrg').2.2.symm

/-- All records of a record set that has one record only have the data of the one that is signed. -/
lemma SignsEach.equalData (h : SignsEach S now signer K records sigs) (hr : r ∈ records) (hr' : r' ∈ records)
    (hsame : r.SameRrset r') (hone : isSingleton r.data.recordType = true) : r.EqualData S r' := by
  have htype : r.data.recordType ≠ .RRSIG := by
    intro ht
    rw [ht] at hone
    cases hone
  obtain ⟨g, hg, hrg⟩ := exists_group (K := K) hr htype
  have hgroup : ∀ x ∈ g.2, isSingleton x.data.recordType = true := by
    intro x hx
    have hkey := (mem_of_mem_group hg hx).2.2.trans (mem_of_mem_group hg hrg).2.2.symm
    rw [← hone]
    exact congrArg (fun k => isSingleton k.2) hkey
  obtain ⟨x, hset⟩ := exists_recordSet_eq (S := S) hgroup (List.ne_nil_of_mem hrg)
  have hall : ∀ r'' ∈ rrsetOf records r, x.EqualData S r'' := by
    intro r'' hr''
    obtain ⟨y, hy, hequal⟩ := (h.covers g hg r hrg).equalData r'' hr''
    rw [hset, List.mem_singleton] at hy
    exact hy ▸ hequal
  have hfirst := hall r (List.mem_filter.mpr ⟨hr, decide_eq_true ⟨rfl, rfl⟩⟩)
  have hsecond := hall r' (List.mem_filter.mpr ⟨hr', decide_eq_true hsame.symm⟩)
  exact Eq.trans (Eq.symm hfirst) hsecond

/-- What is signed record set by record set is told apart. -/
lemma SignsEach.setsToldApart (h : SignsEach S now signer K records sigs) : SetsToldApart S K records :=
  ⟨fun _ hr _ hr' htype => ⟨h.sameRrset hr hr' htype, h.rrsetKey_eq hr hr' htype⟩,
    fun _ hr _ hr' => h.equalData hr hr'⟩

/-- The signatures that are appended are one for each record set exactly when these are told apart. -/
lemma signsEach_iff_setsToldApart (hsign : signer.Succeeds S now) (records : List Record) :
    (∃ sigs, signer.signRecords S now K records = records ++ sigs ∧ SignsEach S now signer K records sigs) ↔
      SetsToldApart S K records := by
  constructor
  · rintro ⟨sigs, -, h⟩
    exact h.setsToldApart
  · intro h
    exact ⟨_, rfl, h.signsEach hsign⟩

end Groups

/-! ## Answers of signed zones -/

/-- Records are signed record set by record set exactly when their record sets are told apart; and so is
every answer that is looked up in a signed zone for a query with the DO bit, whatever owners it has. -/
theorem signsEach_iff (X : QueryCrates) (now : ℤ) (signer : ZoneSigner)
    (hsign : signer.Succeeds X.signing now) :
    (∀ records,
      (∃ sigs, signer.signRecords X.signing now X.toCrates records = records ++ sigs ∧
        SignsEach X.signing now signer X.toCrates records sigs) ↔
      SetsToldApart X.signing X.toCrates records) ∧
    ∀ (C : Config) (E : Env) (q : DnsQuery) (s : Resolver), E.unixTime = now → LooksUp X C E q →
      q.dnssecOk = true → C.store.signerFor q.qname = some signer →
      (C.lookup X q).outcome = .Authoritative →
        ∃ out s' sigs, resolveQuery X C E q s = .ok out s' ∧
          out.answers.Perm ((C.lookup X q).answers ++ sigs) ∧
          (SignsEach X.signing now signer X.toCrates (C.lookup X q).answers sigs ↔
            SetsToldApart X.signing X.toCrates (C.lookup X q).answers) := by
  refine ⟨fun records => signsEach_iff_setsToldApart hsign records, ?_⟩
  intro C E q s hnow hlooks hdo hsigner houtcome
  have hzone : C.store.zoneFor q.qname ≠ none := by
    intro hnone
    unfold ZoneStore.signerFor at hsigner
    rw [hnone] at hsigner
    cases hsigner
  obtain ⟨stat, rcode, hlookup⟩ := resolveLookup_local hzone C.upstream.isSome s
  obtain ⟨answers, n, hanswer, hperm, -⟩ := hlooks.answerQuery hlookup
  obtain ⟨stats, qlog, hrun, -⟩ := resolveQuery_run hanswer
  have hout : (signed X C E q (C.lookup X q).outcome
      ⟨(C.lookup X q).answers, (C.lookup X q).authority, rcode, true, C.upstream.isSome⟩).answers =
        signer.signRecords X.signing now X.toCrates (C.lookup X q).answers := by
    unfold signed
    rw [houtcome, if_pos ⟨hdo, by decide⟩, hsigner, ← hnow]
    rfl
  rw [hout] at hperm
  exact ⟨_, _, _, hrun, hperm, fun h => h.setsToldApart, fun h => h.signsEach hsign⟩

/-- Crates that sign every record set with the number of its records. -/
def countingCrates : QueryCrates :=
  { plainQueryCrates with signing :=
    { plainQueryCrates.signing with rrsig := fun _ _ _ records _ => some (Nat.toDigits 10 records.length) } }

/-- The records of a zone with an alias of a host with two addresses. -/
def aliasRecords : List (Str × StoredRecord) :=
  [("www.home.lan", .ofCname "nas.home.lan"),
    ("nas.home.lan", .ofIpv4 none 0x0a000005), ("nas.home.lan", .ofIpv4 none 0x0a000006)]

/-- An alias and the two addresses of its target are answered with two signatures. -/
theorem signsEach_iff_www : ∃ out s' sigs,
    resolveQuery countingCrates (signedConfig aliasRecords) (smallEnv 0) (signedQuery "WWW.home.lan" .A)
      (.initial 1024 0 86400) = .ok out s' ∧
    out.answers.length = 5 ∧
    out.answers.Perm ([⟨.ofPlain "WWW.home.lan", 300, .cname (.ofPlain "nas.home.lan")⟩,
      ⟨.ofPlain "nas.home.lan", 300, .a 0x0a000005⟩, ⟨.ofPlain "nas.home.lan", 300, .a 0x0a000006⟩] ++ sigs) ∧
    SignsEach countingCrates.signing 1767225600 homeSigner countingCrates.toCrates
      ((signedConfig aliasRecords).lookup countingCrates (signedQuery "WWW.home.lan" .A)).answers sigs := by
  have hanswers : ((signedConfig aliasRecords).lookup countingCrates (signedQuery "WWW.home.lan" .A)).answers =
      [⟨.ofPlain "WWW.home.lan", 300, .cname (.ofPlain "nas.home.lan")⟩,
        ⟨.ofPlain "nas.home.lan", 300, .a 0x0a000005⟩, ⟨.ofPlain "nas.home.lan", 300, .a 0x0a000006⟩] := by
    decide +kernel
  have htold : SetsToldApart countingCrates.signing countingCrates.toCrates
      ((signedConfig aliasRecords).lookup countingCrates (signedQuery "WWW.home.lan" .A)).answers := by
    rw [hanswers]
    constructor <;> decide +kernel
  have hlooks : LooksUp countingCrates (signedConfig aliasRecords) (smallEnv 0)
      (signedQuery "WWW.home.lan" .A) := ⟨rfl, by decide +kernel⟩
  obtain ⟨out, s', sigs, hrun, hperm, heach⟩ :=
    (signsEach_iff countingCrates 1767225600 homeSigner fun _ _ _ _ _ => rfl).2 (signedConfig aliasRecords)
      (smallEnv 0) (signedQuery "WWW.home.lan" .A) (.initial 1024 0 86400) rfl hlooks rfl rfl
      (by decide +kernel)
  have hlength : ((resolveQuery countingCrates (signedConfig aliasRecords) (smallEnv 0)
      (signedQuery "WWW.home.lan" .A)).result (.initial 1024 0 86400)).toOption.map (·.answers.length) =
        some 5 := by
    decide +kernel
  unfold EStateM.result at hlength
  rw [hrun] at hlength
  have hsigned := heach.mpr htold
  rw [hanswers] at hperm
  exact ⟨out, s', sigs, hrun, Option.some.inj hlength, hperm, hsigned⟩

/-- An alias of `www.home.lan`. -/
def wwwAlias (target : String) : Record :=
  ⟨.ofPlain "www.home.lan", 300, .cname (.ofPlain target.toList)⟩

/-- The answer of a zone with two aliases of one owner. -/
def twoAliases : List Record :=
  [wwwAlias "nas.home.lan", wwwAlias "web.home.lan"]

/-- Of two aliases of one owner the last one only is signed. -/
theorem not_signsEach_aliases :
    homeSigner.Succeeds countingCrates.signing 1767225600 ∧
    ((signedConfig [("www.home.lan", .ofCname "nas.home.lan"), ("www.home.lan", .ofCname "web.home.lan")]).lookup
      countingCrates (signedQuery "www.home.lan" .A)).answers = twoAliases ∧
    homeSigner.signRecords countingCrates.signing 1767225600 countingCrates.toCrates twoAliases =
      twoAliases ++ [⟨.ofPlain "www.home.lan", 300, .other .RRSIG "1"⟩] ∧
    recordSet countingCrates.signing twoAliases = [wwwAlias "web.home.lan"] ∧
    ¬ ∃ sigs, homeSigner.signRecords countingCrates.signing 1767225600 countingCrates.toCrates twoAliases =
        twoAliases ++ sigs ∧
      SignsEach countingCrates.signing 1767225600 homeSigner countingCrates.toCrates twoAliases sigs := by
  refine ⟨fun _ _ _ _ _ => rfl, by decide +kernel, by decide +kernel, by decide +kernel, ?_⟩
  rintro ⟨sigs, -, h⟩
  have hnas : wwwAlias "nas.home.lan" ∈ twoAliases := List.mem_cons_self
  have hweb : wwwAlias "web.home.lan" ∈ twoAliases := List.mem_cons_of_mem _ List.mem_cons_self
  have hequal := h.setsToldApart.single _ hnas _ hweb (by decide +kernel) rfl
  exact absurd hequal (by decide +kernel)

end Nomina
