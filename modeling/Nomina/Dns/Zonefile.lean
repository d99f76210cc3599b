import Nomina.Dns.Printing
import Nomina.Lib.MasterFile
import Nomina.Web.Api

/-!
# Exported zones

`export_zone` prints a zone as a master file, which the zone-file parser of the crate reads by the
rules of RFC 1035 (`Crates.ReadsZonefiles`). These are not the rules by which the store reads rows: a
name in record data that has dots but none at its end is absolute for `parse_rdata` and relative in a
file, and a record without a TTL has the TTL of the zone for the store and the one stated last in a
file. The main result is that the text of an exported zone is read as the records that the store has
for its rows when these rules agree on it (`Portable`).
-/

namespace Nomina

open Lib MasterFile

/-! ## Reading zone files -/

/-- The positions of the names in the fields of record data. -/
def nameFields : RecordType → List ℕ
  | .SOA => [0, 1]
  | .CNAME | .NS | .PTR | .ANAME => [0]
  | .MX | .SVCB | .HTTPS => [1]
  | .SRV => [3]
  | .NAPTR => [5]
  | _ => []

/-- The fields of record data in a file, with the names completed by the origin. -/
def completed (origin : Str) (t : RecordType) (fs : List Str) : List Str :=
  fs.mapIdx fun i f => if i ∈ nameFields t then absolute origin f else f

/-- The type of a mnemonic, among the types of an exported zone. -/
def exportedType (rtype : Str) : Option RecordType :=
  (.SOA :: supportedRecordTypes).find? fun t => t.toText == toAsciiUppercase rtype

/-- How names and data are read in a zone file. -/
def zoneReading (K : Crates) : Reading Name RData where
  name s := (K.fromUtf8 s).toOption
  data origin rtype fs := (exportedType rtype).bind fun t =>
    (K.tryFromStr t (join [' '] (completed origin t fs))).toOption

/-- The records of a zone file by the rules of RFC 1035. -/
def readZonefile (K : Crates) (text : Str) (origin : Name) : Option (List Record) :=
  (readFile (zoneReading K) (origin.toText K) text).map fun records =>
    records.map fun r => ⟨r.1, r.2.1, r.2.2⟩

/-- Owners with their data: none is there twice, and no owner has two of a type that it may have one
of. -/
structure DistinctData (l : List (Str × RData)) : Prop where
  nodup : l.Nodup
  single : ((l.filter fun p => isSingleton p.2.recordType).map fun p => (p.1, p.2.recordType)).Nodup

/-- The owners of some records with their data. -/
def ownerData (K : Crates) (records : List Record) : List (Str × RData) :=
  records.map fun r => (nameKey K r.name, r.data)

/-- What the program relies on when zone files are read. -/
structure Crates.ReadsZonefiles (K : Crates) : Prop where
  /-- Distinct records are read by the rules of RFC 1035, and returned in some order. -/
  zonefile : ∀ {text origin records}, readZonefile K text origin = some records →
    DistinctData (ownerData K records) → ∃ rs, K.parseZonefile text origin = .ok rs ∧ rs.Perm records
  /-- Record data is read by its fields, whatever blanks are between them. -/
  data : ∀ {t s s' fs}, fields s = some fs → fields s' = some fs → K.tryFromStr t s = K.tryFromStr t s'

/-! ## Rows that the API accepts -/

/-- The row is one that `create_record` writes for a request with these values: it is enabled and in
all views, its texts are trimmed, and they pass the checks. -/
structure Accepted (K : Crates) (z : Zone) (r : DnsRecord) : Prop where
  enabled : r.enabled = true
  views : r.viewId = none
  name : trim r.name = r.name
  rtype : toAsciiUppercase (trim r.rtype) = r.rtype
  data : trim r.data = r.data
  /-- A `u32`. -/
  ttl : ∀ ttl, r.ttl = some ttl → ttl < 2 ^ 32
  readsData : ∃ d, Api.recordData K r.rtype z.name r.data = .ok d
  readsName : ∃ owner, recordFqdnName K r.name z.name = .ok owner

section Accepted

variable {K : Crates} {z : Zone} {r : DnsRecord}

/-- Something was read. -/
lemma exists_ok_iff {α : Type} (e : Except Str α) : (∃ a, e = .ok a) ↔ e.toOption.isSome = true := by
  cases e with
  | ok a => exact ⟨fun _ => rfl, fun _ => ⟨a, rfl⟩⟩
  | error m => exact ⟨nofun, nofun⟩

instance : Decidable (Accepted K z r) :=
  decidable_of_iff (r.enabled = true ∧ r.viewId = none ∧ trim r.name = r.name ∧
      toAsciiUppercase (trim r.rtype) = r.rtype ∧ trim r.data = r.data ∧
      (∀ ttl ∈ r.ttl, ttl < 2 ^ 32) ∧
      (Api.recordData K r.rtype z.name r.data).toOption.isSome = true ∧
      (recordFqdnName K r.name z.name).toOption.isSome = true)
    ⟨fun ⟨enabled, views, name, rtype, data, ttl, readsData, readsName⟩ =>
        ⟨enabled, views, name, rtype, data, ttl, (exists_ok_iff _).mpr readsData,
          (exists_ok_iff _).mpr readsName⟩,
      fun h => ⟨h.enabled, h.views, h.name, h.rtype, h.data, h.ttl, (exists_ok_iff _).mp h.readsData,
        (exists_ok_iff _).mp h.readsName⟩⟩

/-- What the store reads of an accepted row. -/
lemma Accepted.stored (h : Accepted K z r) :
    ∃ t d owner, t ∈ supportedRecordTypes ∧ r.rtype = t.toText ∧ d.recordType = t ∧
      K.tryFromStr t (prequalifyData t r.data z.name) = .ok d ∧
      recordFqdnName K r.name z.name = .ok owner ∧
      ∃ typed, storedRecord K z r = some (nameKey K owner, ⟨t, r.ttl.getD z.defaultTtl, none, d, typed⟩) := by
  obtain ⟨d, hdata⟩ := h.readsData
  obtain ⟨owner, howner⟩ := h.readsName
  unfold Api.recordData at hdata
  cases htype : parseRecordType r.rtype with
  | error e =>
    rw [htype] at hdata
    cases hdata
  | ok t =>
    rw [htype] at hdata
    dsimp only at hdata
    have htyped := parseRdata_recordType hdata
    have hfound : t ∈ supportedRecordTypes ∧ r.rtype = t.toText := by
      unfold parseRecordType at htype
      dsimp only at htype
      split at htype
      · rename_i t' hfind
        cases htype
        have htext := List.find?_some hfind
        rw [beq_iff_eq, h.rtype] at htext
        exact ⟨List.mem_of_find?_eq_some hfind, htext.symm⟩
      · cases htype
    have hread : K.tryFromStr t (prequalifyData t r.data z.name) = .ok d := by
      unfold parseRdata at hdata
      split at hdata
      · cases hdata
      · cases hdata
        assumption
    refine ⟨t, d, owner, hfound.1, hfound.2, htyped, hread, howner, htyped, ?_⟩
    unfold storedRecord
    rw [h.enabled, h.views]
    simp only [Bool.not_true, Bool.false_eq_true, if_false]
    split
    · rename_i heq
      rw [htype] at heq
      cases heq
    · rename_i heq
      rw [htype] at heq
      cases heq
      split
      · rename_i heq
        rw [hdata] at heq
        cases heq
      · rename_i heq
        rw [hdata] at heq
        cases heq
        rw [howner]

end Accepted

/-! ## Texts that mean the same to the store and in a file -/

/-- Whether the store itself makes the name absolute in data of so many fields. -/
def qualifies (t : RecordType) (n : ℕ) : Bool :=
  match t with
  | .CNAME | .NS | .PTR => n == 1
  | .MX => n == 2
  | .SRV => n == 4
  | _ => false

/-- A name of record data that is the same name for the store and in a file: it ends with a dot or,
where the store makes it absolute, it is the apex or a single label. -/
def PortableName (qualified : Bool) (f : Str) : Prop :=
  endsAbsolute f = true ∨ qualified = true ∧ (f = ['@'] ∨ '.' ∉ f)

instance (qualified : Bool) (f : Str) : Decidable (PortableName qualified f) :=
  inferInstanceAs (Decidable (_ ∨ _ ∧ (_ ∨ _)))

/-- Record data whose fields are the same to the store and in a file. -/
structure PortableData (t : RecordType) (data : Str) (fs : List Str) : Prop where
  fields : fields data = some fs
  ne_nil : fs ≠ []
  /-- The store looks for the name between blanks of any kind. -/
  pieces : match t with
    | .CNAME | .NS | .PTR => fs = [data]
    | .MX | .SRV => splitWhitespace data = fs
    | _ => True
  names : ∀ i f, fs[i]? = some f → i ∈ nameFields t → PortableName (qualifies t fs.length) f

section Data

variable {K : Crates} {t : RecordType} {zone data : Str} {fs : List Str}

/-- The two ways of making a name absolute agree exactly on the portable names. -/
lemma qualify_eq_absolute_iff {f : Str} (hzone : zone ≠ []) (hne : f ≠ []) (htrim : trim f = f) :
    qualify zone f = absolute (zone ++ ['.']) f ↔ PortableName true f := by
  have hroot : (zone ++ ['.'] == ['.']) = false := by simpa using hzone
  have hempty : f.isEmpty = false := by simpa using hne
  unfold qualify absolute PortableName
  dsimp only
  rw [htrim, hempty, hroot]
  cases hat : f == ['@'] with
  | true =>
    simp only [Bool.or_true, if_true, true_and, true_iff]
    exact .inr (.inl (beq_iff_eq.mp hat))
  | false =>
    have hne_at : f ≠ ['@'] := beq_eq_false_iff_ne.mp hat
    cases habsolute : endsAbsolute f with
    | true => simp [endsWith_of_endsAbsolute habsolute]
    | false =>
      simp only [Bool.or_self, Bool.false_eq_true, if_false, false_or, true_and, hne_at]
      constructor
      · intro heq hdot
        have hlength := congrArg List.length heq
        have hpositive := List.length_pos_iff.mpr hzone
        rw [List.contains_iff_mem.mpr hdot] at hlength
        split at hlength
        all_goals
          simp only [if_true, List.length_append, List.length_cons, List.length_nil] at hlength
          omega
      · intro hdot
        have hends : endsWith f ['.'] = false := by
          rw [Bool.eq_false_iff, ne_eq, endsWith_iff]
          rintro ⟨pre, rfl⟩
          simp at hdot
        have hcontains : f.contains '.' = false := by simpa using hdot
        rw [hends, hcontains]
        simp

/-- Data whose names are absolute stays as it is in a file. -/
lemma completed_eq_self {origin : Str}
    (h : ∀ i f, fs[i]? = some f → i ∈ nameFields t → endsAbsolute f = true) :
    completed origin t fs = fs := by
  unfold completed
  refine List.ext_getElem? fun i => ?_
  rw [List.getElem?_mapIdx]
  cases hf : fs[i]? with
  | none => rfl
  | some f =>
    rw [Option.map_some]
    split
    · rename_i hi
      have habsolute := h i f hf hi
      have hat : (f == ['@']) = false := by
        rw [beq_eq_false_iff_ne]
        rintro rfl
        cases habsolute
      unfold absolute
      rw [hat, habsolute]
      rfl
    · rfl

section Read

variable (hfiles : K.ReadsZonefiles) (h : PortableData t data fs)

include hfiles h

/-- Data that the store leaves alone is read alike. -/
lemma PortableData.read_unqualified (hqualifies : qualifies t fs.length = false)
    (hdata : prequalifyData t data zone = data) :
    K.tryFromStr t (join [' '] (completed (zone ++ ['.']) t fs)) =
      K.tryFromStr t (prequalifyData t data zone) := by
  have hcompleted : completed (zone ++ ['.']) t fs = fs := by
    refine completed_eq_self fun i f hf hi => ?_
    rcases h.names i f hf hi with habsolute | ⟨hq, -⟩
    · exact habsolute
    · rw [hqualifies] at hq
      cases hq
  rw [hdata, hcompleted]
  exact hfiles.data (fields_join (isOne_of_mem_fields h.fields)) h.fields

omit hfiles in
/-- Data that is one name is read alike. -/
lemma PortableData.read_name (hzone : zone ≠ []) (htrim : trim data = data)
    (hfields : nameFields t = [0]) (hqualifies : qualifies t 1 = true) (hfs : fs = [data])
    (hdata : prequalifyData t data zone = qualify zone data) :
    K.tryFromStr t (join [' '] (completed (zone ++ ['.']) t fs)) =
      K.tryFromStr t (prequalifyData t data zone) := by
  subst hfs
  have hne : data ≠ [] := by
    obtain ⟨c, rest, rfl, -⟩ := (isOne_of_mem_fields h.fields data (by simp)).exists_cons
    simp
  have hportable := h.names 0 data rfl (by rw [hfields]; simp)
  rw [List.length_singleton, hqualifies] at hportable
  have htext : join [' '] (completed (zone ++ ['.']) t [data]) = absolute (zone ++ ['.']) data := by
    unfold completed
    rw [hfields]
    simp [join]
  rw [hdata, (qualify_eq_absolute_iff hzone hne htrim).mpr hportable, htext]

/-- Portable data is read alike by the store and in a file. -/
lemma PortableData.read (hzone : zone ≠ []) (htrim : trim data = data) :
    K.tryFromStr t (join [' '] (completed (zone ++ ['.']) t fs)) =
      K.tryFromStr t (prequalifyData t data zone) := by
  have hpieces := h.pieces
  have hlast : ∀ f ∈ fs, splitWhitespace data = fs → PortableName true f →
      qualify zone f = absolute (zone ++ ['.']) f := by
    intro f hf hsplit hportable
    have hfield := isField_of_mem_splitWhitespace (hsplit ▸ hf)
    exact (qualify_eq_absolute_iff hzone hfield.ne_nil (trim_eq_self hfield.noBlank)).mpr hportable
  cases t with
  | CNAME => exact h.read_name hzone htrim rfl rfl hpieces rfl
  | NS => exact h.read_name hzone htrim rfl rfl hpieces rfl
  | PTR => exact h.read_name hzone htrim rfl rfl hpieces rfl
  | MX =>
    dsimp only at hpieces
    by_cases hlength : fs.length = 2
    · obtain ⟨pref, exchange, rfl⟩ := List.length_eq_two.mp hlength
      have hqualify := hlast exchange (by simp) hpieces (h.names 1 exchange rfl (by decide))
      unfold prequalifyData
      dsimp only
      rw [hpieces]
      dsimp only
      rw [hqualify]
      simp [join, completed, nameFields]
    · refine h.read_unqualified hfiles (by simpa [qualifies] using hlength) ?_
      unfold prequalifyData
      dsimp only
      rw [hpieces]
      split
      · exact absurd rfl hlength
      · rfl
  | SRV =>
    dsimp only at hpieces
    by_cases hlength : fs.length = 4
    · obtain ⟨prio, weight, port, target, rfl⟩ := List.length_eq_four.mp hlength
      have hqualify := hlast target (by simp) hpieces (h.names 3 target rfl (by decide))
      unfold prequalifyData
      dsimp only
      rw [hpieces]
      dsimp only
      rw [hqualify]
      simp [join, completed, nameFields]
    · refine h.read_unqualified hfiles (by simpa [qualifies] using hlength) ?_
      unfold prequalifyData
      dsimp only
      rw [hpieces]
      split
      · exact absurd rfl hlength
      · rfl
  | _ => exact h.read_unqualified hfiles rfl rfl

end Read

end Data

/-! ## The entries of an exported zone -/

/-- The owner of an exported record. -/
def ownerField (r : DnsRecord) : Str :=
  if r.name == ['@'] || r.name.isEmpty then ['@'] else r.name

/-- The TTL of an exported record, when it has one. -/
def ttlFields (r : DnsRecord) : List Str :=
  match r.ttl with
  | some ttl => [Nat.toDigits 10 ttl]
  | none => []

/-- The entry of an exported record. -/
def rowEntry (r : DnsRecord) : Entry :=
  ⟨false, ownerField r :: ttlFields r ++ ["IN".toList, r.rtype] ++ (fields r.data).getD []⟩

/-- The fields of the exported SOA entry behind its type. -/
def soaFields (z : Zone) : List Str :=
  [z.soa.primaryNs, z.soa.adminEmail, Nat.toDigits 10 z.serial, Api.fmtInt z.soa.refresh,
    Api.fmtInt z.soa.retry, Api.fmtInt z.soa.expire, Nat.toDigits 10 z.soa.minimum]

/-- The entries before those of the records. -/
def headEntries (z : Zone) : List Entry :=
  [⟨false, ["$ORIGIN".toList, z.name ++ ['.']]⟩,
    ⟨false, ["$TTL".toList, Nat.toDigits 10 z.defaultTtl]⟩,
    ⟨false, ['@'] :: "IN".toList :: "SOA".toList :: soaFields z⟩]

/-- A row that means the same to the store and in a file: its name is one field that neither ends with
a dot nor looks like a directive, its owner is displayed under the zone, and its data is portable. -/
structure PortableRow (K : Crates) (z : Zone) (r : DnsRecord) : Prop where
  owner : IsOne (ownerField r)
  dot : endsWith r.name ['.'] = false
  directive : r.name.head? ≠ some '$'
  displayed : ∀ owner, recordFqdnName K r.name z.name = .ok owner → DisplayedUnder z.name (nameKey K owner)
  data : ∀ t, parseRecordType r.rtype = .ok t → ∃ fs, PortableData t r.data fs

section Scan

variable {K : Crates} {z : Zone} {es : List Entry} {fs : List Str} {rest : Str}

/-- Digits are plain. -/
lemma isPlain_of_isDigit {c : Char} (h : c.isDigit = true) : isPlain c = true := by
  have hne : ∀ d : Char, d.isDigit = false → c ≠ d := by
    rintro d hd rfl
    rw [h] at hd
    cases hd
  simp [isPlain, isBlank, isDelimiter, hne ' ' (by decide), hne '\t' (by decide), hne '\r' (by decide),
    hne '\n' (by decide), hne ';' (by decide), hne '(' (by decide), hne ')' (by decide),
    hne '"' (by decide), hne '\\' (by decide)]

lemma isOne_toDigits (n : ℕ) : IsOne (Nat.toDigits 10 n) :=
  isOne_of_plain Nat.toDigits_ne_nil fun _ hc =>
    isPlain_of_isDigit (Nat.isDigit_of_mem_toDigits (by decide) (by decide) hc)

lemma isOne_fmtInt (n : ℤ) : IsOne (Api.fmtInt n) := by
  unfold Api.fmtInt
  split
  · refine isOne_of_plain (by simp) fun c hc => ?_
    rcases List.mem_cons.mp hc with rfl | hc
    · decide
    · exact isPlain_of_isDigit (Nat.isDigit_of_mem_toDigits (by decide) (by decide) hc)
  · exact isOne_toDigits _

/-- The mnemonic of a supported type is one field, and neither a number nor a class. -/
lemma toText_spec {t : RecordType} (h : t ∈ supportedRecordTypes) :
    IsOne t.toText ∧ readNumber t.toText = none ∧ toAsciiUppercase t.toText ≠ ['I', 'N'] ∧
      exportedType t.toText = some t ∧ t.toText ≠ "SOA".toList := by
  simp only [supportedRecordTypes, List.mem_cons, List.not_mem_nil, or_false] at h
  rcases h with rfl | rfl | rfl | rfl | rfl | rfl | rfl | rfl | rfl | rfl | rfl | rfl | rfl | rfl |
    rfl | rfl | rfl | rfl | rfl | rfl
  all_goals decide

/-- A blank between fields is skipped. -/
lemma run_blank {depth : ℕ} {c : Char} (hc : isBlank c = true) :
    (Scan.within es depth fs).run (c :: rest) = (Scan.within es depth fs).run rest := by
  have hskip : (Scan.within es depth fs).run ([] ++ c :: rest) =
      (Scan.within es depth (fs ++ [])).run rest := run_field rfl hc
  rwa [List.nil_append, List.append_nil] at hskip

/-- A line of the SOA entry: a number and a comment. -/
lemma run_number {number comment : Str} (hnumber : IsOne number) (hcomment : '\n' ∉ comment) :
    (Scan.within es 1 fs).run
        (number ++ ' ' :: (';' :: comment ++ '\n' :: '\t' :: '\t' :: rest)) =
      (Scan.within es 1 (fs ++ [number])).run rest := by
  rw [run_field hnumber rfl, run_comment hcomment, run_blank rfl, run_blank rfl]

/-- The head of an exported zone is scanned to its entries. -/
lemma run_exportHead (hname : IsOne (z.name ++ ['.'])) (hns : IsOne z.soa.primaryNs)
    (hmail : IsOne z.soa.adminEmail) :
    (Scan.start []).run (Api.exportHead z ++ rest) = (Scan.start (headEntries z)).run rest := by
  have htext : Api.exportHead z ++ rest =
      "$ORIGIN".toList ++ ' ' :: ((z.name ++ ['.']) ++ '\n' :: ("$TTL".toList ++ ' ' ::
        (Nat.toDigits 10 z.defaultTtl ++ '\n' :: (['@'] ++ '\t' :: ("IN".toList ++ '\t' ::
        ("SOA".toList ++ '\t' :: (z.soa.primaryNs ++ ' ' :: (z.soa.adminEmail ++ ' ' :: '(' :: '\n' ::
        '\t' :: '\t' :: (Nat.toDigits 10 z.serial ++ ' ' :: (';' :: " serial".toList ++
        '\n' :: '\t' :: '\t' :: (Api.fmtInt z.soa.refresh ++ ' ' :: (';' :: " refresh".toList ++
        '\n' :: '\t' :: '\t' :: (Api.fmtInt z.soa.retry ++ ' ' :: (';' :: " retry".toList ++
        '\n' :: '\t' :: '\t' :: (Api.fmtInt z.soa.expire ++ ' ' :: (';' :: " expire".toList ++
        '\n' :: '\t' :: '\t' :: (Nat.toDigits 10 z.soa.minimum ++ ' ' :: (';' :: " minimum".toList ++
        '\n' :: '\t' :: '\t' :: (')' :: ([] ++ '\n' :: rest)))))))))))))))))))) := by
    unfold Api.exportHead
    simp only [List.append_assoc]
    rfl
  rw [htext, run_firstField (by decide) rfl, run_lastField hname (by simp),
    run_firstField (by decide) rfl, run_lastField (isOne_toDigits _) (by simp),
    run_firstField (by decide) rfl, run_field (show IsOne "IN".toList by decide) rfl,
    run_field (show IsOne "SOA".toList by decide) rfl, run_field hns rfl, run_field hmail rfl, run_open,
    run_newline, run_blank rfl, run_blank rfl, run_number (isOne_toDigits _) (by decide),
    run_number (isOne_fmtInt _) (by decide), run_number (isOne_fmtInt _) (by decide),
    run_number (isOne_fmtInt _) (by decide), run_number (isOne_toDigits _) (by decide), run_close,
    run_lastField (show fields [] = some [] from rfl) (by simp)]
  rfl

/-- The line of an accepted portable record is scanned to its entry. -/
lemma run_exportLine {r : DnsRecord} (haccepted : Accepted K z r) (hportable : PortableRow K z r) :
    (Scan.start es).run (Api.exportLine r ++ rest) = (Scan.start (es ++ [rowEntry r])).run rest := by
  obtain ⟨t, -, -, htype, hrtype, -⟩ := haccepted.stored
  obtain ⟨fs, hdata⟩ := hportable.data t (by rw [hrtype]; exact parseRecordType_toText htype)
  have hmnemonic : IsOne r.rtype := hrtype ▸ (toText_spec htype).1
  have httl : fields ((r.ttl.map (Nat.toDigits 10)).getD []) = some (ttlFields r) := by
    unfold ttlFields
    cases r.ttl with
    | none => rfl
    | some ttl => exact isOne_toDigits ttl
  have htext : Api.exportLine r ++ rest = ownerField r ++ '\t' ::
      ((r.ttl.map (Nat.toDigits 10)).getD [] ++ '\t' :: ("IN".toList ++ '\t' ::
        (r.rtype ++ '\t' :: (r.data ++ '\n' :: rest)))) := by
    unfold Api.exportLine
    dsimp only
    rw [haccepted.enabled, haccepted.views]
    cases r.ttl
    all_goals
      simp only [List.append_assoc, if_true]
      rfl
  rw [htext, run_firstField hportable.owner rfl, run_field httl rfl,
    run_field (show IsOne "IN".toList by decide) rfl, run_field hmnemonic rfl,
    run_lastField hdata.fields (by simp)]
  unfold rowEntry
  rw [hdata.fields]
  simp

/-- The text of an exported zone is scanned to its entries. -/
lemma scan_exportText (hname : IsOne (z.name ++ ['.'])) (hns : IsOne z.soa.primaryNs)
    (hmail : IsOne z.soa.adminEmail) {rows : List DnsRecord} (haccepted : ∀ r ∈ rows, Accepted K z r)
    (hportable : ∀ r ∈ rows, PortableRow K z r) :
    scan (Api.exportText z rows) = some (headEntries z ++ rows.map rowEntry) := by
  refine scan_of_run ?_
  unfold Api.exportText
  rw [run_exportHead hname hns hmail]
  -- The lines are scanned one after the other.
  generalize headEntries z = es
  induction rows generalizing es with
  | nil =>
    rw [List.map_nil, List.append_nil]
    rfl
  | cons r rows ih =>
    have hr := haccepted r List.mem_cons_self
    obtain ⟨t, -, -, htype, hrtype, -⟩ := hr.stored
    have hsoa : (r.rtype == "SOA".toList) = false := by
      rw [beq_eq_false_iff_ne, hrtype]
      exact (toText_spec htype).2.2.2.2
    rw [List.flatMap_cons, hsoa, if_neg (by simp),
      run_exportLine hr (hportable r List.mem_cons_self),
      ih (fun r hr => haccepted r (List.mem_cons_of_mem _ hr))
        (fun r hr => hportable r (List.mem_cons_of_mem _ hr)), List.append_assoc]
    rfl

end Scan

/-! ## The records of an exported zone -/

/-- Every row has the TTL that was stated last before it, or states its own: `stated` is the last one
so far, and `ttl` is the one of the zone. -/
def TtlsKept (ttl : ℕ) : (stated : ℕ) → List DnsRecord → Prop
  | _, [] => True
  | stated, r :: rows => r.ttl.getD stated = r.ttl.getD ttl ∧ TtlsKept ttl (r.ttl.getD stated) rows

instance (ttl : ℕ) : (stated : ℕ) → (rows : List DnsRecord) → Decidable (TtlsKept ttl stated rows)
  | _, [] => .isTrue trivial
  | stated, r :: rows =>
    have := instDecidableTtlsKept ttl (r.ttl.getD stated) rows
    inferInstanceAs (Decidable (_ ∧ _))

/-- The record is what the store has for the row. -/
def IsServed (K : Crates) (z : Zone) (r : DnsRecord) (record : Record) : Prop :=
  ∃ owner sr, recordFqdnName K r.name z.name = .ok owner ∧
    storedRecord K z r = some (nameKey K owner, sr) ∧ sr.viewId = none ∧ sr.toRecord owner = record

section Read

variable {K : Crates} {z : Zone}

/-- The TTL and the class of an exported record are read. -/
lemma header_rowEntry {r : DnsRecord} {t : RecordType} (htype : t ∈ supportedRecordTypes)
    (hrtype : r.rtype = t.toText) (httl : ∀ ttl, r.ttl = some ttl → ttl < 2 ^ 32) (stated : ℕ)
    (fs : List Str) :
    header (some stated) (ttlFields r ++ ["IN".toList, r.rtype] ++ fs) =
      (some (r.ttl.getD stated), r.rtype :: fs) := by
  obtain ⟨-, hnumber, hclass, -⟩ := toText_spec htype
  have hrest : ∀ ttl, header (some ttl) ("IN".toList :: r.rtype :: fs) = (some ttl, r.rtype :: fs) := by
    intro ttl
    have hin : readNumber "IN".toList = none := by decide
    have hin' : (toAsciiUppercase "IN".toList == ['I', 'N']) = true := by decide
    have hmnemonic : (toAsciiUppercase r.rtype == ['I', 'N']) = false := by
      rw [beq_eq_false_iff_ne, hrtype]
      exact hclass
    rw [header, hin]
    dsimp only
    rw [if_pos hin', header, hrtype, hnumber]
    dsimp only
    rw [← hrtype, hmnemonic]
    rfl
  unfold ttlFields
  cases hr : r.ttl with
  | none => exact hrest stated
  | some ttl =>
    have hread := readNumber_toDigits (httl ttl hr)
    change header (some stated) (Nat.toDigits 10 ttl :: "IN".toList :: r.rtype :: fs) = _
    rw [header, hread]
    exact hrest ttl

/-- The owner of a portable row is completed to the name that the store reads. -/
lemma fromUtf8_ownerField {r : DnsRecord} (hzone : z.name ≠ []) (haccepted : Accepted K z r)
    (hportable : PortableRow K z r) {owner : Name} (howner : recordFqdnName K r.name z.name = .ok owner) :
    K.fromUtf8 (absolute (z.name ++ ['.']) (ownerField r)) = .ok owner := by
  have hroot : (z.name ++ ['.'] == ['.']) = false := by simpa using hzone
  have htrim : trimEndMatches '.' r.name = r.name := by
    unfold trimEndMatches
    refine List.rdropWhile_eq_self_iff.mpr fun hne hlast => ?_
    have hends : endsWith r.name ['.'] = true := by
      rw [endsWith_iff]
      refine ⟨r.name.dropLast, ?_⟩
      rw [← beq_iff_eq.mp hlast, List.dropLast_append_getLast]
    rw [hportable.dot] at hends
    cases hends
  unfold recordFqdnName at howner
  dsimp only at howner
  rw [haccepted.name, htrim] at howner
  have htext : (if (r.name.isEmpty || r.name == ['@']) = true then z.name ++ ['.']
      else r.name ++ '.' :: z.name ++ ['.']) = absolute (z.name ++ ['.']) (ownerField r) := by
    unfold ownerField absolute
    rw [Bool.or_comm, hroot]
    cases hapex : r.name == ['@'] || r.name.isEmpty with
    | true => rfl
    | false =>
      rw [Bool.or_eq_false_iff] at hapex
      have hrelative : endsAbsolute r.name = false := by
        rw [Bool.eq_false_iff]
        intro habsolute
        have hends := endsWith_of_endsAbsolute habsolute
        rw [hportable.dot] at hends
        cases hends
      simp [hapex.1, hrelative]
  rw [htext] at howner
  split at howner
  · cases howner
  · cases howner
    assumption

/-- The entry of a row is read as what the store has for it. -/
lemma readEntry_rowEntry (hfiles : K.ReadsZonefiles) (hzone : z.name ≠ []) {r : DnsRecord}
    (haccepted : Accepted K z r) (hportable : PortableRow K z r) {stated : ℕ}
    (hkept : r.ttl.getD stated = r.ttl.getD z.defaultTtl) (previous : Option Str) :
    ∃ record owner, IsServed K z r record ∧
      readEntry (zoneReading K) ⟨z.name ++ ['.'], some stated, previous⟩ (rowEntry r) =
        some (⟨z.name ++ ['.'], some (r.ttl.getD stated), some owner⟩,
          [(record.name, record.ttl, record.data)]) := by
  obtain ⟨t, d, owner, htype, hrtype, -, hread, howner, typed, hstored⟩ := haccepted.stored
  obtain ⟨fs, hdata⟩ := hportable.data t (by rw [hrtype]; exact parseRecordType_toText htype)
  obtain ⟨f, fs, rfl⟩ := List.exists_cons_of_ne_nil hdata.ne_nil
  refine ⟨⟨owner, r.ttl.getD z.defaultTtl, d⟩, absolute (z.name ++ ['.']) (ownerField r),
    ⟨owner, _, howner, hstored, rfl, rfl⟩, ?_⟩
  have hdollar : (ownerField r).head? ≠ some '$' := by
    unfold ownerField
    split
    · decide
    · exact hportable.directive
  have horigin : (ownerField r == "$ORIGIN".toList) = false := by
    rw [beq_eq_false_iff_ne]
    intro heq
    rw [heq] at hdollar
    exact hdollar rfl
  have httl : (ownerField r == "$TTL".toList) = false := by
    rw [beq_eq_false_iff_ne]
    intro heq
    rw [heq] at hdollar
    exact hdollar rfl
  have hdirective : ((ownerField r).head? == some '$') = false := beq_eq_false_iff_ne.mpr hdollar
  -- Name, header and data of the record.
  have hname : (zoneReading K).name (absolute (z.name ++ ['.']) (ownerField r)) = some owner := by
    unfold zoneReading
    dsimp only
    rw [fromUtf8_ownerField hzone haccepted hportable howner]
    rfl
  have hrdata : (zoneReading K).data (z.name ++ ['.']) r.rtype (f :: fs) = some d := by
    unfold zoneReading
    dsimp only
    rw [hrtype, (toText_spec htype).2.2.2.1, Option.bind_some, hdata.read hfiles hzone haccepted.data,
      hread]
    rfl
  have hrecord : readRecord (zoneReading K) ⟨z.name ++ ['.'], some stated, previous⟩
      (absolute (z.name ++ ['.']) (ownerField r))
      (ttlFields r ++ ["IN".toList, r.rtype] ++ f :: fs) =
        some (⟨z.name ++ ['.'], some (r.ttl.getD stated), some (absolute (z.name ++ ['.']) (ownerField r))⟩,
          owner, r.ttl.getD stated, d) := by
    unfold readRecord
    rw [header_rowEntry htype hrtype haccepted.ttl]
    dsimp only
    rw [hname, Option.bind_some, hrdata, Option.map_some]
  unfold readEntry rowEntry
  rw [hdata.fields]
  simp only [Bool.false_eq_true, if_false, List.cons_append, Option.getD_some, horigin, httl, hdirective]
  rw [hrecord, hkept]
  rfl

/-- The entries of the rows are read as what the store has for them. -/
lemma readEntries_rows (hfiles : K.ReadsZonefiles) (hzone : z.name ≠ []) {rows : List DnsRecord}
    (haccepted : ∀ r ∈ rows, Accepted K z r) (hportable : ∀ r ∈ rows, PortableRow K z r) {stated : ℕ}
    (hkept : TtlsKept z.defaultTtl stated rows) (previous : Option Str) :
    ∃ records, List.Forall₂ (IsServed K z) rows records ∧
      readEntries (zoneReading K) ⟨z.name ++ ['.'], some stated, previous⟩ (rows.map rowEntry) =
        some (records.map fun r => (r.name, r.ttl, r.data)) := by
  induction rows generalizing stated previous with
  | nil => exact ⟨[], .nil, rfl⟩
  | cons r rows ih =>
    obtain ⟨record, owner, hserved, hentry⟩ := readEntry_rowEntry hfiles hzone
      (haccepted r List.mem_cons_self) (hportable r List.mem_cons_self) hkept.1 previous
    obtain ⟨records, hrecords, hread⟩ := ih (fun r hr => haccepted r (List.mem_cons_of_mem _ hr))
      (fun r hr => hportable r (List.mem_cons_of_mem _ hr)) hkept.2 (some owner)
    refine ⟨record :: records, .cons hserved hrecords, ?_⟩
    rw [List.map_cons, readEntries, hentry, Option.bind_some]
    dsimp only
    rw [hread]
    rfl

/-- A zone whose head means the same to the store and in a file: its name and the names of its SOA are
single fields, its name can be the origin, and its SOA is read. -/
structure PortableHead (K : Crates) (z : Zone) : Prop where
  origin : IsOne (z.name ++ ['.'])
  absolute : endsAbsolute (z.name ++ ['.']) = true
  primaryNs : IsOne z.soa.primaryNs
  adminEmail : IsOne z.soa.adminEmail
  soa : ∃ d, K.tryFromStr .SOA (join [' '] (completed (z.name ++ ['.']) .SOA (soaFields z))) = .ok d
  /-- A `u32`. -/
  ttl : z.defaultTtl < 2 ^ 32

/-- The head of an exported zone is read as its SOA record, and leaves the origin and the TTL. -/
lemma readEntries_head (hhead : PortableHead K z) {apex : Name}
    (hapex : K.fromUtf8 (z.name ++ ['.']) = .ok apex) (origin : Str) (es : List Entry) :
    ∃ d : RData, d.recordType = .SOA ∧
      readEntries (zoneReading K) ⟨origin, none, none⟩ (headEntries z ++ es) =
        (readEntries (zoneReading K) ⟨z.name ++ ['.'], some z.defaultTtl, some (z.name ++ ['.'])⟩ es).map
          fun records => (apex, z.defaultTtl, d) :: records := by
  obtain ⟨d, hd⟩ := hhead.soa
  refine ⟨d, K.tryFromStr_recordType hd, ?_⟩
  have horigin : Lib.MasterFile.absolute origin (z.name ++ ['.']) = z.name ++ ['.'] := by
    have hat : (z.name ++ ['.'] == ['@']) = false := by
      rw [beq_eq_false_iff_ne]
      intro heq
      have habsolute := hhead.absolute
      rw [heq] at habsolute
      cases habsolute
    unfold Lib.MasterFile.absolute
    rw [hat, hhead.absolute]
    rfl
  have hentry₁ : readEntry (zoneReading K) ⟨origin, none, none⟩
      ⟨false, ["$ORIGIN".toList, z.name ++ ['.']]⟩ = some (⟨z.name ++ ['.'], none, none⟩, []) := by
    change some ((⟨Lib.MasterFile.absolute origin (z.name ++ ['.']), none, none⟩ : Context), []) = _
    rw [horigin]
  have hentry₂ : readEntry (zoneReading K) ⟨z.name ++ ['.'], none, none⟩
      ⟨false, ["$TTL".toList, Nat.toDigits 10 z.defaultTtl]⟩ =
        some (⟨z.name ++ ['.'], some z.defaultTtl, none⟩, []) := by
    change (readNumber (Nat.toDigits 10 z.defaultTtl)).map _ = _
    rw [readNumber_toDigits hhead.ttl]
    rfl
  have hrdata : (zoneReading K).data (z.name ++ ['.']) "SOA".toList (soaFields z) = some d := by
    unfold zoneReading
    dsimp only
    rw [show exportedType "SOA".toList = some .SOA by decide, Option.bind_some, hd]
    rfl
  have hname : (zoneReading K).name (z.name ++ ['.']) = some apex := by
    unfold zoneReading
    dsimp only
    rw [hapex]
    rfl
  have hentry₃ : readEntry (zoneReading K) ⟨z.name ++ ['.'], some z.defaultTtl, none⟩
      ⟨false, ['@'] :: "IN".toList :: "SOA".toList :: soaFields z⟩ =
        some (⟨z.name ++ ['.'], some z.defaultTtl, some (z.name ++ ['.'])⟩,
          [(apex, z.defaultTtl, d)]) := by
    change (((zoneReading K).name (z.name ++ ['.'])).bind fun name =>
      ((zoneReading K).data (z.name ++ ['.']) "SOA".toList (soaFields z)).map fun data =>
        ((⟨z.name ++ ['.'], some z.defaultTtl, some (z.name ++ ['.'])⟩ : Context), name, z.defaultTtl,
          data)).map _ = _
    rw [hname, Option.bind_some, hrdata]
    rfl
  unfold headEntries
  rw [List.cons_append, readEntries, hentry₁, Option.bind_some, List.cons_append, readEntries, hentry₂,
    Option.bind_some, List.cons_append, readEntries, hentry₃, Option.bind_some, List.nil_append]
  dsimp only
  cases readEntries (zoneReading K) ⟨z.name ++ ['.'], some z.defaultTtl, some (z.name ++ ['.'])⟩ es with
  | none => rfl
  | some records => rfl

/-- The text of an exported zone is read as its SOA record and what the store has for its rows. -/
theorem readZonefile_exportText (hfiles : K.ReadsZonefiles) (hhead : PortableHead K z)
    (hzone : z.name ≠ []) {apex : Name} (hapex : K.fromUtf8 (z.name ++ ['.']) = .ok apex)
    {rows : List DnsRecord} (haccepted : ∀ r ∈ rows, Accepted K z r)
    (hportable : ∀ r ∈ rows, PortableRow K z r) (hkept : TtlsKept z.defaultTtl z.defaultTtl rows)
    (origin : Name) :
    ∃ soa records, soa.data.recordType = .SOA ∧ List.Forall₂ (IsServed K z) rows records ∧
      readZonefile K (Api.exportText z rows) origin = some (soa :: records) := by
  obtain ⟨d, hd, hread⟩ := readEntries_head hhead hapex (origin.toText K) (rows.map rowEntry)
  obtain ⟨records, hrecords, hrows⟩ := readEntries_rows hfiles hzone haccepted hportable hkept
    (some (z.name ++ ['.']))
  refine ⟨⟨apex, z.defaultTtl, d⟩, records, hd, hrecords, ?_⟩
  unfold readZonefile readFile
  rw [scan_exportText hhead.origin hhead.primaryNs hhead.adminEmail haccepted hportable,
    Option.bind_some, hread, hrows, Option.map_some, Option.map_some, List.map_cons, List.map_map]
  exact congrArg (fun rest => some (_ :: rest)) (List.map_id'' (fun _ => rfl) records)

end Read

/-! ## Crates that read zone files -/

/-- Read SOA data from its fields. -/
def soaData (fs : List Str) : Except Str RData :=
  match fs with
  | [mname, rname, serial, refresh, retry, expire, minimum] =>
    match plainName mname, plainName rname, [serial, refresh, retry, expire, minimum].mapM readNumber with
    | .ok mname, .ok rname, some [serial, refresh, retry, expire, minimum] =>
      .ok (.soa ⟨mname, rname, serial, refresh, retry, expire, minimum⟩)
    | _, _, _ => .error "malformed SOA"
  | _ => .error "malformed SOA"

/-- Read record data from its fields. -/
def fieldData (t : RecordType) (fs : List Str) : Except Str RData :=
  match t, fs with
  | .SOA, fs => soaData fs
  | t, [f] => plainRData t f
  | .A, _ | .AAAA, _ | .CNAME, _ | .NS, _ | .PTR, _ | _, [] => .error "unexpected fields"
  | t, fs => .ok (.other t (join [' '] fs))

/-- Data that is read from fields keeps the type. -/
lemma fieldData_recordType {t : RecordType} {fs : List Str} {d : RData} (h : fieldData t fs = .ok d) :
    d.recordType = t := by
  unfold fieldData at h
  split at h
  · unfold soaData at h
    split at h
    · split at h
      · cases h
        rfl
      · cases h
    · cases h
  · exact plainRData_recordType h
  all_goals first
    | cases h; done
    | cases h; rfl

/-- Crates that read record data by its fields. -/
def fieldCrates : Crates :=
  { idnCrates with
    tryFromStr t s := match fields s with
      | some fs => fieldData t fs
      | none => .error "unexpected token"
    tryFromStr_recordType := by
      intro t s d h
      split at h
      · exact fieldData_recordType h
      · cases h }

/-- Whether the second of two records takes the place of the first: it has the same owner, and the same
data or a type of which there is one record. -/
def replaces (r r' : Record) : Bool :=
  nameKey fieldCrates r.name == nameKey fieldCrates r'.name &&
    (r.data == r'.data ||
      isSingleton r.data.recordType && r.data.recordType == r'.data.recordType)

/-- The records of a file as they are collected: later ones take the place of earlier ones. -/
def collected : List Record → List Record
  | [] => []
  | r :: records => if records.any (replaces r) then collected records else r :: collected records

/-- Distinct records are all kept. -/
lemma collected_eq_self {records : List Record} (h : DistinctData (ownerData fieldCrates records)) :
    collected records = records := by
  induction records with
  | nil => rfl
  | cons r records ih =>
    unfold ownerData at h ih
    rw [List.map_cons] at h
    obtain ⟨hnot, hnodup⟩ := List.nodup_cons.mp h.nodup
    have hsingle := h.single
    rw [List.filter_cons] at hsingle
    have hrest : ((records.map fun r => (nameKey fieldCrates r.name, r.data)).filter
        (fun p => isSingleton p.2.recordType) |>.map fun p => (p.1, p.2.recordType)).Nodup := by
      split at hsingle
      · exact (List.nodup_cons.mp hsingle).2
      · exact hsingle
    have hnone : records.any (replaces r) = false := by
      rw [List.any_eq_false]
      intro r' hr' hreplaces
      simp only [replaces, Bool.and_eq_true, beq_iff_eq, Bool.or_eq_true] at hreplaces
      obtain ⟨hname, hdata | ⟨hone, htype⟩⟩ := hreplaces
      · exact hnot (List.mem_map.mpr ⟨r', hr', by rw [hname, hdata]⟩)
      · rw [if_pos hone, List.map_cons] at hsingle
        refine (List.nodup_cons.mp hsingle).1 (List.mem_map.mpr
          ⟨(nameKey fieldCrates r'.name, r'.data), List.mem_filter.mpr ⟨List.mem_map_of_mem hr', ?_⟩, ?_⟩)
        · dsimp only
          rw [← htype]
          exact hone
        · dsimp only
          rw [hname, htype]
    rw [collected, hnone, if_neg (by simp), ih ⟨hnodup, hrest⟩]

/-- Crates that read zone files by the rules of RFC 1035. -/
def fileCrates : Crates :=
  { fieldCrates with
    parseZonefile text origin := match readZonefile fieldCrates text origin with
      | some records => .ok (collected records)
      | none => .error "unexpected token" }

/-- `fileCrates` reads zone files as the program relies on. -/
lemma file_readsZonefiles : fileCrates.ReadsZonefiles := by
  constructor
  case zonefile =>
    intro text origin records hread hdistinct
    have hread : readZonefile fieldCrates text origin = some records := hread
    refine ⟨records, ?_, .refl _⟩
    change (match readZonefile fieldCrates text origin with
      | some records => Except.ok (collected records)
      | none => _) = _
    rw [hread]
    exact congrArg Except.ok (collected_eq_self hdistinct)
  case data =>
    intro t s s' fs hs hs'
    change (match fields s with
      | some fs => fieldData t fs
      | none => _) = (match fields s' with
      | some fs => fieldData t fs
      | none => _)
    rw [hs, hs']

/-- `fileCrates` prints names faithfully. -/
lemma file_printsNames : fileCrates.PrintsNames :=
  idn_labelCodec.printsNames rfl rfl

end Nomina
