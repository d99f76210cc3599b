import Nomina.ReadOnly
import Nomina.Store.Mirror

/-!
# Printing and reading back

A transfer prints what the primary holds and the secondary reads it back: owner names, SOA names and
record data. What that rests on is how the crate prints and reads (`Crates.PrintsNames`, `Printed`).
Names that are read and printed label by label satisfy it.

The owner of a record is made relative to the zone by comparing its printed name with the name the
zone is configured under (`DisplayedUnder`). A record of a stream becomes a row that is read as the
same record, under the same owner, when the owner is displayed under that name.
-/

namespace Nomina

open Lib Sql

variable {K : Crates}

/-! ## Printing and reading names -/

/-- What the program relies on when it prints names and reads them back. -/
structure Crates.PrintsNames (K : Crates) : Prop where
  /-- A name that was read is printed to a text that is read as that name. -/
  read_text : ∀ {s n}, K.fromUtf8 s = .ok n → K.fromUtf8 (n.toText K) = .ok n
  /-- The folded text without trailing dots is read as a name with that folded text. -/
  read_key : ∀ {s n}, K.fromUtf8 s = .ok n →
    ∃ m, K.fromUtf8 (nameKey K n ++ ['.']) = .ok m ∧ nameKey K m = nameKey K n
  /-- Blanks are escaped, and `@` is in no label that is read. -/
  plain : ∀ {s n}, K.fromUtf8 s = .ok n → ∀ c ∈ n.toText K, c ≠ '@' ∧ isWhitespace c = false
  /-- Only the root is printed as dots. -/
  dots : ∀ {s n}, K.fromUtf8 s = .ok n → trimEndMatches '.' (n.toText K) = [] → n.labels = []
  /-- A dot alone is the root. -/
  dot : ∀ {n}, K.fromUtf8 ['.'] = .ok n → n.labels = []
  /-- With a second dot behind it, the text of a name is no name or that name. -/
  twoDots : ∀ {s n m}, K.fromUtf8 s = .ok n →
    K.fromUtf8 (trimEndMatches '.' (n.toText K) ++ ['.', '.']) = .ok m → m = n
  /-- A name read from a text with two dots behind it is read so again. -/
  read_twoDots : ∀ {p n}, K.fromUtf8 (p ++ ['.', '.']) = .ok n →
    K.fromUtf8 (trimEndMatches '.' (n.toText K) ++ ['.', '.']) = .ok n
  /-- More text behind a name makes its text longer, by a dot and a label. -/
  longer : ∀ {s n p m}, K.fromUtf8 s = .ok n → K.fromUtf8 (nameKey K n ++ '.' :: p ++ ['.']) = .ok m →
    (nameKey K n).length + 2 ≤ (nameKey K m).length
  /-- More text before a name makes it another name. -/
  other : ∀ {x p n m}, K.fromUtf8 (p ++ ['.']) = .ok n → K.fromUtf8 (x ++ '.' :: p ++ ['.']) = .ok m →
    nameKey K m ≠ nameKey K n

/-- The printed form of a name ends with a dot. -/
lemma endsWith_toText (n : Name) : endsWith (n.toText K) ['.'] = true := by
  rw [endsWith_iff]
  unfold Name.toText
  split
  · exact ⟨[], rfl⟩
  · rename_i hne
    obtain ⟨init, l, hlabels⟩ := List.eq_nil_or_concat' n.labels |>.resolve_left (by simpa using hne)
    refine ⟨init.flatMap (fun l => K.labelText l ++ ['.']) ++ K.labelText l, ?_⟩
    rw [hlabels]
    simp

/-- A folded name is as free of blanks and of `@` as the name. -/
lemma Crates.PrintsNames.plain_key (h : K.PrintsNames) {s : Str} {n : Name}
    (hn : K.fromUtf8 s = .ok n) : ∀ c ∈ nameKey K n, c ≠ '@' ∧ isWhitespace c = false := by
  intro c hc
  unfold nameKey toAsciiLowercase at hc
  obtain ⟨d, hd, rfl⟩ := List.mem_map.mp hc
  obtain ⟨hat, hblank⟩ := h.plain hn d (mem_of_mem_trimEndMatches hd)
  rw [isWhitespace_toLower]
  exact ⟨fun heq => hat ((toLower_eq_iff (by decide)).mp heq), hblank⟩

/-! ### SOA names -/

/-- A name that was read, or else `d`. -/
def readOr (d : Name) : Except Str Name → Name
  | .ok n => n
  | .error _ => d

section Soa

variable {apex : Name} {s : Str}

/-- The name with no zone behind it: the text with two dots, or the root. -/
lemma recordFqdnName_nil {p r : Str} (hr : trimEndMatches '.' (trim p) = r) :
    readOr apex (recordFqdnName K p []) =
      readOr apex (K.fromUtf8 (if r.isEmpty || r == ['@'] then ['.'] else r ++ ['.', '.'])) := by
  unfold recordFqdnName
  dsimp only
  rw [hr]
  have htext : (if (r.isEmpty || r == ['@']) = true then ([] : Str) ++ ['.']
      else r ++ '.' :: ([] : Str) ++ ['.']) =
        if (r.isEmpty || r == ['@']) = true then ['.'] else r ++ ['.', '.'] := by
    split <;> simp
  rw [htext]
  cases K.fromUtf8 (if (r.isEmpty || r == ['@']) = true then ['.'] else r ++ ['.', '.']) with
  | ok n => rfl
  | error e => rfl

/-- A printed name with no zone behind it: the root when only dots are left of it, else with two
dots. -/
lemma Crates.PrintsNames.recordFqdnName_toText (h : K.PrintsNames) {n : Name}
    (hn : K.fromUtf8 s = .ok n) :
    readOr apex (recordFqdnName K (trimEndMatches '.' (n.toText K)) []) =
      readOr apex (K.fromUtf8 (if (trimEndMatches '.' (n.toText K)).isEmpty then n.toText K
        else trimEndMatches '.' (n.toText K) ++ ['.', '.'])) := by
  have htrim : trim (trimEndMatches '.' (n.toText K)) = trimEndMatches '.' (n.toText K) :=
    trim_eq_self fun c hc => (h.plain hn c (mem_of_mem_trimEndMatches hc)).2
  have hat : (trimEndMatches '.' (n.toText K) == ['@']) = false := by
    rw [beq_eq_false_iff_ne]
    intro heq
    exact (h.plain hn '@' (mem_of_mem_trimEndMatches (by rw [heq]; simp))).1 rfl
  rw [recordFqdnName_nil (r := trimEndMatches '.' (n.toText K)) (by rw [htrim, trimEndMatches_idem]),
    hat, Bool.or_false]
  split
  · rename_i hempty
    have hroot := h.dots hn (List.isEmpty_iff.mp hempty)
    have htext : n.toText K = ['.'] := by
      unfold Name.toText
      rw [hroot]
      rfl
    rw [htext]
  · rfl

/-- The primary server of a SOA record that was built, printed and built again is the same. -/
lemma Crates.PrintsNames.mname_eq (h : K.PrintsNames) (hapex : K.fromUtf8 s = .ok apex)
    (primaryNs : Str) {n : Name}
    (hn : n = readOr apex (recordFqdnName K (trimEndMatches '.' primaryNs) [])) :
    readOr apex (recordFqdnName K (trimEndMatches '.' (n.toText K)) []) = n := by
  rw [recordFqdnName_nil rfl] at hn
  generalize hr : trimEndMatches '.' (trim (trimEndMatches '.' primaryNs)) = r at hn
  cases hfrom : K.fromUtf8 (if (r.isEmpty || r == ['@']) = true then ['.'] else r ++ ['.', '.']) with
  | error e =>
    -- The name is the apex of the zone.
    rw [hfrom] at hn
    have hn : n = apex := hn
    subst hn
    rw [h.recordFqdnName_toText hapex]
    split
    · rw [h.read_text hapex]
      rfl
    · cases htwo : K.fromUtf8 (trimEndMatches '.' (n.toText K) ++ ['.', '.']) with
      | ok m => exact h.twoDots hapex htwo
      | error e => rfl
  | ok m =>
    rw [hfrom] at hn
    have hn : n = m := hn
    subst hn
    rw [h.recordFqdnName_toText hfrom]
    split
    · rw [h.read_text hfrom]
      rfl
    · rename_i hne
      split at hfrom
      · -- The root is printed as a dot.
        have hroot := h.dot hfrom
        unfold Name.toText at hne
        rw [hroot] at hne
        exact absurd rfl hne
      · rw [h.read_twoDots hfrom]
        rfl

/-- The mail address of a SOA record that was built, printed and built again is the same. -/
lemma Crates.PrintsNames.rname_eq (h : K.PrintsNames) (hapex : K.fromUtf8 s = .ok apex)
    (adminEmail : Str) {n : Name} (hn : n = readOr apex (soaRname K adminEmail)) :
    readOr apex (soaRname K (n.toText K)) = n := by
  have hsome : ∃ s', K.fromUtf8 s' = .ok n := by
    unfold soaRname at hn
    dsimp only at hn
    split at hn
    · exact ⟨s, by rw [hn]; exact hapex⟩
    · rename_i name hname
      exact ⟨_, by rw [hn]; exact hname⟩
  obtain ⟨s', hs'⟩ := hsome
  have htrim : trim (n.toText K) = n.toText K := trim_eq_self fun c hc => (h.plain hs' c hc).2
  have hat : splitOnce '@' (n.toText K) = none := by
    unfold splitOnce
    rw [if_neg]
    intro hcontains
    exact (h.plain hs' '@' (List.contains_iff_mem.mp hcontains)).1 rfl
  unfold soaRname
  dsimp only
  rw [htrim, hat]
  dsimp only
  rw [endsWith_toText, if_pos rfl, h.read_text hs']
  rfl

end Soa

/-! ## Printing and reading record data -/

/-- The text of an absolute name: a field that ends with a dot. -/
structure IsAbsolute (s : Str) : Prop extends IsField s where
  dot : endsWith s ['.'] = true

/-- How data of the types with a name in them is printed: the name is absolute, and the fields before
it are separated by single blanks. -/
def PrintsAbsolute (t : RecordType) (text : Str) : Prop :=
  match t with
  | .CNAME | .NS | .PTR => IsAbsolute text
  | .MX => ∃ pref exchange, text = pref ++ ' ' :: exchange ∧ IsField pref ∧ IsAbsolute exchange
  | .SRV => ∃ prio weight port target,
    text = prio ++ ' ' :: weight ++ ' ' :: port ++ ' ' :: target ∧
      IsField prio ∧ IsField weight ∧ IsField port ∧ IsAbsolute target
  | _ => True

variable (K) in
/-- The data is printed to a text that is read as that data. -/
structure Printed (d : RData) : Prop where
  read : K.tryFromStr d.recordType (K.rdataText d) = .ok d
  absolute : PrintsAbsolute d.recordType (K.rdataText d)

section Data

variable {zone : Str}

/-- Absolute names stay as they are. -/
lemma IsAbsolute.qualify {s : Str} (h : IsAbsolute s) : qualify zone s = s := by
  have hat : (s == ['@']) = false := by
    rw [beq_eq_false_iff_ne]
    rintro rfl
    have := h.dot
    cases this
  have hempty : s.isEmpty = false := by simpa using h.ne_nil
  unfold Nomina.qualify
  dsimp only
  rw [trim_eq_self h.noBlank, hempty, hat, h.dot]
  rfl

/-- Printed data stays as it is when its names are made absolute. -/
lemma prequalifyData_of_printsAbsolute {t : RecordType} {text : Str} (h : PrintsAbsolute t text) :
    prequalifyData t text zone = text := by
  unfold PrintsAbsolute at h
  split at h
  · exact h.qualify
  · exact h.qualify
  · exact h.qualify
  · obtain ⟨pref, exchange, rfl, hpref, hexchange⟩ := h
    unfold prequalifyData
    dsimp only
    rw [hpref.splitWhitespace_append, hexchange.splitWhitespace]
    dsimp only
    rw [hexchange.qualify]
  · obtain ⟨prio, weight, port, target, rfl, hprio, hweight, hport, htarget⟩ := h
    have hsplit : splitWhitespace (prio ++ ' ' :: weight ++ ' ' :: port ++ ' ' :: target) =
        [prio, weight, port, target] := by
      simp only [List.append_assoc, List.cons_append]
      rw [hprio.splitWhitespace_append, hweight.splitWhitespace_append, hport.splitWhitespace_append,
        htarget.splitWhitespace]
    unfold prequalifyData
    dsimp only
    rw [hsplit]
    dsimp only
    rw [htarget.qualify]
  · rename_i hcname hns hptr hmx hsrv
    unfold prequalifyData
    split
    · exact absurd rfl hcname
    · exact absurd rfl hns
    · exact absurd rfl hptr
    · exact absurd rfl hmx
    · exact absurd rfl hsrv
    · rfl

/-- Printed data is read back. -/
lemma Printed.parseRdata {d : RData} (h : Printed K d) :
    parseRdata K d.recordType (K.rdataText d) zone = .ok d := by
  unfold Nomina.parseRdata
  rw [prequalifyData_of_printsAbsolute h.absolute, h.read]

/-- The mnemonic of a supported type is read back. -/
lemma parseRecordType_toText {t : RecordType} (h : t ∈ supportedRecordTypes) :
    parseRecordType t.toText = .ok t := by
  simp only [supportedRecordTypes, List.mem_cons, List.not_mem_nil, or_false] at h
  rcases h with rfl | rfl | rfl | rfl | rfl | rfl | rfl | rfl | rfl | rfl | rfl | rfl | rfl | rfl |
    rfl | rfl | rfl | rfl | rfl | rfl
  all_goals rfl

end Data

/-! ## Records to rows and back -/

/-- The owner is displayed as the name of the zone, or as a text that does not end with a dot, a dot
and the name of the zone. -/
def DisplayedUnder (zoneName key : Str) : Prop :=
  key = zoneName ∨ ∃ rel, key = rel ++ '.' :: zoneName ∧ rel ≠ [] ∧ trimEndMatches '.' rel = rel

variable (K) in
/-- The name that the owner key of an entry is read as. -/
def ownerName (key : Str) : Name :=
  readOr ⟨[]⟩ (K.fromUtf8 (key ++ ['.']))

variable (K) in
/-- The row of a stored record of an owner. -/
def replicaTuple (zoneName key : Str) (r : StoredRecord) : Db.RecordTuple :=
  (relativeOwner K zoneName (ownerName K key), r.rtype.toText, r.ttl, K.rdataText r.rdata)

variable (K) in
/-- The key is the folded text of a name that was read. -/
def IsOwnerKey (key : Str) : Prop :=
  ∃ s n, K.fromUtf8 s = .ok n ∧ key = nameKey K n

section Rows

variable {zoneName key : Str}

/-- An owner key is read as a name with that key. -/
lemma IsOwnerKey.read (h : K.PrintsNames) (hkey : IsOwnerKey K key) :
    K.fromUtf8 (key ++ ['.']) = .ok (ownerName K key) ∧ nameKey K (ownerName K key) = key := by
  obtain ⟨s, n, hn, rfl⟩ := hkey
  obtain ⟨m, hm, hmkey⟩ := h.read_key hn
  unfold ownerName
  rw [hm]
  exact ⟨rfl, hmkey⟩

/-- The relative name of an owner that is displayed under the zone is read as the owner. -/
lemma recordFqdnName_relativeOwner (h : K.PrintsNames) (hkey : IsOwnerKey K key)
    (hunder : DisplayedUnder zoneName key) :
    recordFqdnName K (relativeOwner K zoneName (ownerName K key)) zoneName =
      .ok (ownerName K key) := by
  obtain ⟨hread, hname⟩ := hkey.read h
  have hplain := h.plain_key hread
  rw [hname] at hplain
  have hfolded : toAsciiLowercase (trimEndMatches '.' ((ownerName K key).toText K)) = key := hname
  unfold relativeOwner
  dsimp only
  rw [hfolded]
  rcases hunder with rfl | ⟨rel, rfl, hne, hdot⟩
  · -- The apex.
    rw [if_pos (by simp)]
    have htrim : trimEndMatches '.' (trim ['@']) = ['@'] := by decide
    unfold recordFqdnName
    dsimp only
    rw [htrim]
    simp only [beq_self_eq_true, Bool.or_true, if_true, hread]
  · have hlong : (rel ++ '.' :: zoneName == zoneName) = false := by
      rw [beq_eq_false_iff_ne]
      intro heq
      have := congrArg List.length heq
      simp only [List.length_append, List.length_cons] at this
      omega
    have hat : (rel == ['@']) = false := by
      rw [beq_eq_false_iff_ne]
      rintro rfl
      exact (hplain '@' (by simp)).1 rfl
    have hempty : rel.isEmpty = false := by simpa using hne
    have htrim : trim rel = rel := trim_eq_self fun c hc => (hplain c (by simp [hc])).2
    rw [hlong, if_neg (by simp), stripSuffix_append, Option.getD_some]
    unfold recordFqdnName
    dsimp only
    rw [htrim, hdot, hempty, hat]
    simp only [Bool.or_self, Bool.false_eq_true, if_false]
    rw [hread]

/-- The row of a stored record is read as that record, under the same owner. -/
lemma storedRecord_replicaRow (h : K.PrintsNames) (hkey : IsOwnerKey K key) {z : Zone} (zoneId : ℕ)
    (hunder : DisplayedUnder z.name key) {r : StoredRecord} (hview : r.viewId = none)
    (htype : r.rtype ∈ supportedRecordTypes) (hdata : Printed K r.rdata) :
    storedRecord K z (replicaRow zoneId (replicaTuple K z.name key r)) = some (key, r) := by
  have hrtype : parseRecordType r.rtype.toText = .ok r.rtype := parseRecordType_toText htype
  have hrdata : parseRdata K r.rtype (K.rdataText r.rdata) z.name = .ok r.rdata := by
    rw [← r.typed]
    exact hdata.parseRdata
  have hname := recordFqdnName_relativeOwner h hkey hunder
  unfold replicaTuple replicaRow storedRecord
  dsimp only
  rw [if_neg (by simp)]
  split
  · rename_i heq
    rw [hrtype] at heq
    cases heq
  · rename_i heq
    rw [hrtype] at heq
    cases heq
    split
    · rename_i heq
      rw [hrdata] at heq
      cases heq
    · rename_i heq
      rw [hrdata] at heq
      cases heq
      rw [hname]
      dsimp only
      rw [(hkey.read h).2]
      obtain ⟨rtype, ttl, viewId, rdata, typed⟩ := r
      cases hview
      rfl

/-- The row of a record is read without regard to its id. -/
lemma storedRecord_unnumbered (z : Zone) (r : DnsRecord) :
    storedRecord K z (unnumbered r) = storedRecord K z r := rfl

end Rows

/-! ## What a stream carries -/

/-- An entry of a zone that the primary built: its key is that of a name, and its records are of
supported types and pinned to no view. -/
structure Carried (K : Crates) (key : Str) (recs : List StoredRecord) : Prop where
  owner : IsOwnerKey K key
  views : ∀ r ∈ recs, r.viewId = none
  types : ∀ r ∈ recs, r.rtype ∈ supportedRecordTypes

section Stream

variable {zoneName : Str}

/-- Supported types are those a transfer stores, and SOA is none of them. -/
lemma isSupported_of_mem {t : RecordType} (h : t ∈ supportedRecordTypes) : isSupported t = true := by
  unfold isSupported
  exact List.contains_iff_mem.mpr (List.mem_map_of_mem h)

/-- A record of a supported type becomes its row. -/
lemma transferTuple_toRecord (zoneLc : Str) (owner : Name) {r : StoredRecord}
    (htype : r.rtype ∈ supportedRecordTypes) :
    (match (r.toRecord owner).data with
      | .soa _ => none
      | _ => recordTuple K zoneLc (r.toRecord owner)) =
      some (relativeOwner K zoneLc owner, r.rtype.toText, r.ttl, K.rdataText r.rdata) := by
  have hsupported : isSupported r.rdata.recordType = true := by
    rw [r.typed]
    exact isSupported_of_mem htype
  split
  · rename_i soa heq
    have hsoa : r.rtype = .SOA := by
      rw [← r.typed]
      exact congrArg RData.recordType heq
    rw [hsoa] at htype
    exact absurd htype (by decide)
  · unfold recordTuple StoredRecord.toRecord
    dsimp only
    rw [if_pos hsupported, r.typed]

/-- The rows of the records that an entry contributes. -/
lemma transferTuples_axfrEntry (h : K.PrintsNames) {viewId : ℤ} {key : Str}
    {recs : List StoredRecord} (hcarried : Carried K key recs)
    (hzone : toAsciiLowercase (trimEndMatches '.' zoneName) = zoneName) :
    transferTuples K zoneName (axfrEntry K viewId key recs) =
      ((recordTypes recs).flatMap (resolve recs viewId)).map (replicaTuple K zoneName key) := by
  unfold transferTuples axfrEntry
  dsimp only
  rw [hzone, (hcarried.owner.read h).1]
  dsimp only
  rw [List.filterMap_map, ← List.filterMap_eq_map]
  refine List.filterMap_congr fun r hr => ?_
  have hmem : r ∈ recs := (resolve_all_perm hcarried.views viewId).mem_iff.mp hr
  exact transferTuple_toRecord zoneName (ownerName K key) (hcarried.types r hmem)

lemma transferTuples_append (records records' : List Record) :
    transferTuples K zoneName (records ++ records') =
      transferTuples K zoneName records ++ transferTuples K zoneName records' :=
  List.filterMap_append

lemma transferTuples_flatMap {α : Type} (f : α → List Record) (l : List α) :
    transferTuples K zoneName (l.flatMap f) = l.flatMap fun a => transferTuples K zoneName (f a) :=
  List.filterMap_flatMap

/-- The SOA record of a zone is not stored as a row. -/
lemma transferTuples_soaRecord (zone : StoredZone) :
    transferTuples K zoneName [zone.soaRecord] = [] := rfl

/-- The rows of a stream: those of its entries. -/
lemma transferTuples_stream (h : K.PrintsNames) {viewId : ℤ}
    {entries : List (Str × List StoredRecord)} (zone : StoredZone)
    (hcarried : ∀ e ∈ entries, Carried K e.1 e.2)
    (hzone : toAsciiLowercase (trimEndMatches '.' zoneName) = zoneName) :
    transferTuples K zoneName (zone.soaRecord ::
        (entries.flatMap fun e => axfrEntry K viewId e.1 e.2) ++ [zone.soaRecord]) =
      entries.flatMap fun e =>
        ((recordTypes e.2).flatMap (resolve e.2 viewId)).map (replicaTuple K zoneName e.1) := by
  rw [← List.singleton_append, transferTuples_append, transferTuples_append,
    transferTuples_soaRecord, List.nil_append, List.append_nil, transferTuples_flatMap]
  exact List.flatMap_congr fun e he => transferTuples_axfrEntry h (hcarried e he) hzone

/-- The stored records of the rows of a stream: those of its entries. -/
lemma storedRecords_stream (h : K.PrintsNames) {viewId : ℤ} {zoneId : ℕ} {z : Zone}
    (hname : z.name = zoneName) {entries : List (Str × List StoredRecord)}
    (hcarried : ∀ e ∈ entries, Carried K e.1 e.2)
    (hunder : ∀ e ∈ entries, DisplayedUnder zoneName e.1)
    (hdata : ∀ e ∈ entries, ∀ r ∈ e.2, Printed K r.rdata) :
    ((entries.flatMap fun e => ((recordTypes e.2).flatMap (resolve e.2 viewId)).map
        (replicaTuple K zoneName e.1)).map (replicaRow zoneId)).filterMap (storedRecord K z) =
      entries.flatMap fun e =>
        ((recordTypes e.2).flatMap (resolve e.2 viewId)).map fun r => (e.1, r) := by
  subst hname
  rw [List.map_flatMap, List.filterMap_flatMap]
  refine List.flatMap_congr fun e he => ?_
  have hc := hcarried e he
  rw [List.map_map, List.filterMap_map, ← List.filterMap_eq_map]
  refine List.filterMap_congr fun r hr => ?_
  have hmem : r ∈ e.2 := (resolve_all_perm hc.views viewId).mem_iff.mp hr
  exact storedRecord_replicaRow h hc.owner zoneId (hunder e he) (hc.views r hmem)
    (hc.types r hmem) (hdata e he r hmem)

end Stream

/-! ## Names that are read label by label -/

/-- Read an absolute name label by label. -/
def readDotted (read : Str → Option Label) (s : Str) : Except Str Name :=
  match ((stripSuffix s ['.']).map (split '.')).bind (·.mapM read) with
  | some labels => .ok ⟨labels⟩
  | none => .error "malformed label"

/-- Labels that are read and printed: what is printed is folded, free of dots, blanks and `@`, and is
read as the label it was printed from. -/
structure LabelCodec (read : Str → Option Label) (text : Label → Str) : Prop where
  read_nil : read [] = none
  read_text : ∀ {p l}, read p = some l → read (text l) = some l
  ne_nil : ∀ {p l}, read p = some l → text l ≠ []
  folded : ∀ {p l}, read p = some l → toAsciiLowercase (text l) = text l
  plain : ∀ {p l}, read p = some l → ∀ c ∈ text l, c ≠ '.' ∧ c ≠ '@' ∧ isWhitespace c = false

section Codec

variable {read : Str → Option Label} {text : Label → Str}

/-- A name is read from parts that are joined by dots and followed by one. -/
lemma readDotted_eq_ok {s : Str} {n : Name} : readDotted read s = .ok n ↔
    ∃ body, s = body ++ ['.'] ∧ (split '.' body).mapM read = some n.labels := by
  unfold readDotted
  constructor
  · intro h
    split at h
    · rename_i labels hlabels
      cases h
      obtain ⟨parts, hparts, hread⟩ := Option.bind_eq_some_iff.mp hlabels
      obtain ⟨body, hbody, rfl⟩ := Option.map_eq_some_iff.mp hparts
      exact ⟨body, stripSuffix_eq_some.mp hbody, hread⟩
    · cases h
  · rintro ⟨body, rfl, hread⟩
    rw [stripSuffix_append, Option.map_some, Option.bind_some, hread]

/-- A name that is read from a text with a dot at its end has the labels of the text. -/
lemma readDotted_concat {body : Str} {n : Name} :
    readDotted read (body ++ ['.']) = .ok n ↔ (split '.' body).mapM read = some n.labels := by
  rw [readDotted_eq_ok]
  constructor
  · rintro ⟨body', hbody, hread⟩
    rw [List.append_cancel_right hbody]
    exact hread
  · intro hread
    exact ⟨body, rfl, hread⟩

/-- The labels of a text with a dot in it are those before and those after the dot. -/
lemma mapM_split_append {a b : Str} {labels : List Label}
    (h : (split '.' (a ++ '.' :: b)).mapM read = some labels) :
    ∃ front back, (split '.' a).mapM read = some front ∧ (split '.' b).mapM read = some back ∧
      labels = front ++ back := by
  rw [split_append_cons, List.mapM_append] at h
  simp only [Option.bind_eq_bind, Option.bind_eq_some_iff, Option.pure_def, Option.some.injEq] at h
  obtain ⟨front, hfront, back, hback, hlabels⟩ := h
  exact ⟨front, back, hfront, hback, hlabels.symm⟩

/-- Every label was read from a part. -/
lemma exists_of_mapM {parts : List Str} {labels : List Label} (h : parts.mapM read = some labels) :
    ∀ l ∈ labels, ∃ p, read p = some l := by
  induction parts generalizing labels with
  | nil =>
    cases h
    simp
  | cons p parts ih =>
    rw [List.mapM_cons] at h
    simp only [Option.bind_eq_bind, Option.bind_eq_some_iff, Option.pure_def, Option.some.injEq] at h
    obtain ⟨l, hl, labels', hlabels', rfl⟩ := h
    intro l' hl'
    rcases List.mem_cons.mp hl' with rfl | hl'
    · exact ⟨p, hl⟩
    · exact ih hlabels' l' hl'

/-- A text has parts, so a name that is read from it has labels. -/
lemma ne_nil_of_mapM_split {body : Str} {labels : List Label}
    (h : (split '.' body).mapM read = some labels) : labels ≠ [] := by
  rintro rfl
  cases hparts : split '.' body with
  | nil => exact split_ne_nil '.' body hparts
  | cons p parts =>
    rw [hparts, List.mapM_cons] at h
    simp only [Option.bind_eq_bind, Option.bind_eq_some_iff, Option.pure_def, Option.some.injEq,
      reduceCtorEq, and_false, exists_false] at h

/-- A name that is read has labels, and each of them was read from a part. -/
lemma labels_of_readDotted {s : Str} {n : Name} (hn : readDotted read s = .ok n) :
    (∀ l ∈ n.labels, ∃ p, read p = some l) ∧ n.labels ≠ [] := by
  obtain ⟨body, -, hbody⟩ := readDotted_eq_ok.mp hn
  exact ⟨exists_of_mapM hbody, ne_nil_of_mapM_split hbody⟩

section

variable (h : LabelCodec read text) {labels : List Label}
  (hlabels : ∀ l ∈ labels, ∃ p, read p = some l)

include h hlabels

/-- The texts of labels are read as the labels. -/
lemma LabelCodec.mapM_texts : (labels.map text).mapM read = some labels := by
  induction labels with
  | nil => rfl
  | cons l labels ih =>
    obtain ⟨p, hp⟩ := hlabels l List.mem_cons_self
    rw [List.map_cons, List.mapM_cons, h.read_text hp,
      ih fun l' hl' => hlabels l' (List.mem_cons_of_mem _ hl')]
    rfl

/-- The joined texts of labels are split into the texts. -/
lemma LabelCodec.split_join (hne : labels ≠ []) :
    split '.' (join ['.'] (labels.map text)) = labels.map text := by
  unfold split join
  refine List.splitOn_intercalate '.' ?_ (by simpa using hne)
  intro t ht hdot
  obtain ⟨l, hl, rfl⟩ := List.mem_map.mp ht
  obtain ⟨p, hp⟩ := hlabels l hl
  exact (h.plain hp '.' hdot).1 rfl

/-- The joined texts of labels are not empty, are folded and do not end with a dot. -/
lemma LabelCodec.join_spec (hne : labels ≠ []) :
    join ['.'] (labels.map text) ≠ [] ∧
      toAsciiLowercase (join ['.'] (labels.map text)) = join ['.'] (labels.map text) ∧
      trimEndMatches '.' (join ['.'] (labels.map text)) = join ['.'] (labels.map text) := by
  obtain ⟨init, l, rfl⟩ := (List.eq_nil_or_concat' labels).resolve_left hne
  obtain ⟨p, hp⟩ := hlabels l (by simp)
  -- The join ends with the text of the last label.
  have hlast : ∃ pre, join ['.'] ((init ++ [l]).map text) = pre ++ text l := by
    rw [List.map_append]
    by_cases hinit : init = []
    · exact ⟨[], by simp [hinit, join]⟩
    · refine ⟨join ['.'] (init.map text) ++ ['.'], ?_⟩
      rw [join_append _ (by simpa using hinit) (by simp)]
      simp [join]
  obtain ⟨pre, hpre⟩ := hlast
  refine ⟨?_, ?_, ?_⟩
  · rw [hpre]
    simp [h.ne_nil hp]
  · rw [toAsciiLowercase_join, List.map_map]
    have hmap : (init ++ [l]).map (toAsciiLowercase ∘ text) = (init ++ [l]).map text :=
      List.map_congr_left fun l' hl' => by
        obtain ⟨p', hp'⟩ := hlabels l' hl'
        exact h.folded hp'
    rw [hmap]
    rfl
  · unfold trimEndMatches
    rw [List.rdropWhile_eq_self_iff]
    intro hjoin
    have hmem : (join ['.'] ((init ++ [l]).map text)).getLast hjoin ∈ text l := by
      simp only [hpre]
      rw [List.getLast_append_of_ne_nil _ (h.ne_nil hp)]
      exact List.getLast_mem _
    simpa using (h.plain hp _ hmem).1

end

variable (h : LabelCodec read text)

include h

/-- No label is read from an empty text. -/
lemma LabelCodec.mapM_split_nil : (split '.' []).mapM read = none := by
  have hnil : split '.' [] = [[]] := rfl
  rw [hnil, List.mapM_cons, h.read_nil]
  rfl

/-- A name is read again from its joined labels. -/
lemma LabelCodec.readDotted_join {s : Str} {n : Name} (hn : readDotted read s = .ok n) :
    readDotted read (join ['.'] (n.labels.map text) ++ ['.']) = .ok n := by
  obtain ⟨hlabels, hne⟩ := labels_of_readDotted hn
  rw [readDotted_concat, h.split_join hlabels hne, h.mapM_texts hlabels]

/-- A text with two dots at its end has an empty label. -/
lemma LabelCodec.readDotted_twoDots {p : Str} {n : Name} :
    readDotted read (p ++ ['.', '.']) ≠ .ok n := by
  intro hn
  have hdots : p ++ ['.', '.'] = (p ++ ['.']) ++ ['.'] := by simp
  rw [hdots, readDotted_concat] at hn
  obtain ⟨-, back, -, hback, -⟩ := mapM_split_append hn
  rw [h.mapM_split_nil] at hback
  cases hback

/-- The joined texts of some labels and some more. -/
lemma LabelCodec.length_join_append {front back : List Label}
    (hfront : ∀ l ∈ front, ∃ p, read p = some l) (hfrontne : front ≠ [])
    (hback : ∀ l ∈ back, ∃ p, read p = some l) (hbackne : back ≠ []) :
    (join ['.'] (front.map text)).length + 2 ≤ (join ['.'] ((front ++ back).map text)).length ∧
      (join ['.'] (back.map text)).length + 2 ≤ (join ['.'] ((front ++ back).map text)).length := by
  have hfrontpos := List.length_pos_iff.mpr (h.join_spec hfront hfrontne).1
  have hbackpos := List.length_pos_iff.mpr (h.join_spec hback hbackne).1
  rw [List.map_append, join_append _ (by simpa using hfrontne) (by simpa using hbackne)]
  simp only [List.length_append, List.length_cons, List.length_nil]
  omega

variable (hlabel : K.labelText = text)

include hlabel

/-- The text and the key of a name: its labels, joined. -/
lemma LabelCodec.printed {s : Str} {n : Name} (hn : readDotted read s = .ok n) :
    n.toText K = join ['.'] (n.labels.map text) ++ ['.'] ∧
      nameKey K n = join ['.'] (n.labels.map text) := by
  obtain ⟨hlabels, hne⟩ := labels_of_readDotted hn
  have hflat : ∀ {ls : List Label}, ls ≠ [] →
      (ls.flatMap fun l => text l ++ ['.']) = join ['.'] (ls.map text) ++ ['.'] := by
    intro ls hls
    rw [← flatMap_append_sep _ (by simpa using hls), List.flatMap_map]
  have htext : n.toText K = join ['.'] (n.labels.map text) ++ ['.'] := by
    unfold Name.toText
    rw [if_neg (by simpa using hne), hlabel, hflat hne]
  obtain ⟨-, hfolded, htrim⟩ := h.join_spec hlabels hne
  refine ⟨htext, ?_⟩
  unfold nameKey
  rw [htext]
  have hdot : trimEndMatches '.' (join ['.'] (n.labels.map text) ++ ['.']) =
      trimEndMatches '.' (join ['.'] (n.labels.map text)) :=
    List.rdropWhile_concat_pos _ _ _ (by simp)
  rw [hdot, htrim, hfolded]

/-- The characters of a printed name. -/
lemma LabelCodec.plain_toText {s : Str} {n : Name} (hn : readDotted read s = .ok n) :
    ∀ c ∈ n.toText K, c ≠ '@' ∧ isWhitespace c = false := by
  intro c hc
  obtain ⟨hlabels, hne⟩ := labels_of_readDotted hn
  unfold Name.toText at hc
  rw [if_neg (by simpa using hne), hlabel] at hc
  obtain ⟨l, hl, hc⟩ := List.mem_flatMap.mp hc
  obtain ⟨p, hp⟩ := hlabels l hl
  rcases List.mem_append.mp hc with hc | hc
  · exact (h.plain hp c hc).2
  · rw [List.mem_singleton.mp hc]
    decide

/-- More text behind a name makes it longer. -/
lemma LabelCodec.length_behind {s p : Str} {n m : Name} (hn : readDotted read s = .ok n)
    (hm : readDotted read (nameKey K n ++ '.' :: p ++ ['.']) = .ok m) :
    (nameKey K n).length + 2 ≤ (nameKey K m).length := by
  obtain ⟨hlabels, hne⟩ := labels_of_readDotted hn
  have hnkey := (h.printed hlabel hn).2
  rw [(h.printed hlabel hm).2]
  rw [readDotted_concat] at hm
  obtain ⟨front, back, hfront, hback, hsum⟩ := mapM_split_append hm
  rw [hnkey, h.split_join hlabels hne, h.mapM_texts hlabels] at hfront
  cases hfront
  rw [hnkey, hsum]
  exact (h.length_join_append hlabels hne (exists_of_mapM hback) (ne_nil_of_mapM_split hback)).1

/-- More text before a name makes it longer. -/
lemma LabelCodec.length_before {x p : Str} {n m : Name} (hn : readDotted read (p ++ ['.']) = .ok n)
    (hm : readDotted read (x ++ '.' :: p ++ ['.']) = .ok m) :
    (nameKey K n).length + 2 ≤ (nameKey K m).length := by
  obtain ⟨hlabels, hne⟩ := labels_of_readDotted hn
  rw [(h.printed hlabel hn).2, (h.printed hlabel hm).2]
  rw [readDotted_concat] at hn hm
  obtain ⟨front, back, hfront, hback, hsum⟩ := mapM_split_append hm
  rw [hn] at hback
  cases hback
  rw [hsum]
  exact (h.length_join_append (exists_of_mapM hfront) (ne_nil_of_mapM_split hfront) hlabels hne).2

/-- Names that are read and printed label by label are printed faithfully. -/
theorem LabelCodec.printsNames (hname : K.fromUtf8 = readDotted read) : K.PrintsNames := by
  constructor <;> rw [hname]
  case read_text =>
    intro s n hn
    rw [(h.printed hlabel hn).1]
    exact h.readDotted_join hn
  case read_key =>
    intro s n hn
    refine ⟨n, ?_, rfl⟩
    rw [(h.printed hlabel hn).2]
    exact h.readDotted_join hn
  case plain =>
    intro s n hn
    exact h.plain_toText hlabel hn
  case dots =>
    intro s n hn hdots
    obtain ⟨hlabels, hne⟩ := labels_of_readDotted hn
    have hkey := (h.printed hlabel hn).2
    unfold nameKey at hkey
    rw [hdots] at hkey
    exact absurd hkey.symm (h.join_spec hlabels hne).1
  case dot =>
    intro n hn
    have hlabels : (split '.' []).mapM read = some n.labels := readDotted_concat.mp hn
    rw [h.mapM_split_nil] at hlabels
    cases hlabels
  case twoDots =>
    intro s n m _ hm
    exact absurd hm h.readDotted_twoDots
  case read_twoDots =>
    intro p n hn
    exact absurd hn h.readDotted_twoDots
  case longer =>
    intro s n p m hn hm
    exact h.length_behind hlabel hn hm
  case other =>
    intro x p n m hn hm heq
    have hlonger := h.length_before hlabel hn hm
    rw [heq] at hlonger
    omega

end Codec

/-! ### An internationalised label -/

/-- Read a label of plain text, or `bücher`. -/
def idnLabel (s : Str) : Option Label :=
  if s = "bücher".toList then some bucherLabel else plainLabel s

/-- Crates that handle plain text and one internationalised label. -/
def idnCrates : Crates :=
  { plainCrates with labelText := idnLabelText, fromUtf8 := readDotted idnLabel }

section Idn

/-- The characters of plain labels. -/
def IsPlainChar (c : Char) : Prop :=
  c = '*' ∨ c.isAlphanum = true ∨ c = '-' ∨ c = '_'

/-- Where the plain characters stand. -/
lemma isPlainChar_iff {c : Char} : IsPlainChar c ↔
    c.toNat = 42 ∨ c.toNat = 45 ∨ c.toNat = 95 ∨ (48 ≤ c.toNat ∧ c.toNat ≤ 57) ∨
      (65 ≤ c.toNat ∧ c.toNat ≤ 90) ∨ (97 ≤ c.toNat ∧ c.toNat ≤ 122) := by
  have halnum : c.isAlphanum = true ↔ (65 ≤ c.toNat ∧ c.toNat ≤ 90) ∨
      (97 ≤ c.toNat ∧ c.toNat ≤ 122) ∨ (48 ≤ c.toNat ∧ c.toNat ≤ 57) := by
    unfold Char.isAlphanum Char.isAlpha Char.isUpper Char.isLower Char.isDigit
    simp only [Bool.or_eq_true, Bool.and_eq_true, decide_eq_true_eq, ge_iff_le,
      UInt32.le_iff_toNat_le, or_assoc]
    rfl
  have hchar : ∀ d : Char, c = d ↔ c.toNat = d.toNat := fun d => Char.toNat_inj.symm
  unfold IsPlainChar
  rw [halnum, hchar, hchar, hchar]
  change c.toNat = 42 ∨ _ ∨ c.toNat = 45 ∨ c.toNat = 95 ↔ _
  omega

/-- Folding a plain character gives a plain character. -/
lemma IsPlainChar.toLower {c : Char} (h : IsPlainChar c) : IsPlainChar c.toLower := by
  rw [isPlainChar_iff, toNat_toLower] at *
  split <;> omega

/-- A plain character is ASCII, and no dot, `@` or blank. -/
lemma IsPlainChar.plain {c : Char} (h : IsPlainChar c) :
    c.toNat < 128 ∧ c ≠ '.' ∧ c ≠ '@' ∧ isWhitespace c = false := by
  have hnat := isPlainChar_iff.mp h
  refine ⟨by omega, ?_, ?_, ?_⟩
  · rintro rfl
    revert hnat
    decide
  · rintro rfl
    revert hnat
    decide
  · unfold isWhitespace
    rw [Bool.eq_false_iff]
    intro hblank
    simp only [Bool.or_eq_true, Bool.and_eq_true, decide_eq_true_eq, beq_iff_eq] at hblank
    omega

/-- A label of plain text: its characters are plain, it is read folded, and is printed folded. -/
lemma plainLabel_eq_some {p : Str} {l : Label} (h : plainLabel p = some l) :
    (∀ c ∈ toAsciiLowercase p, IsPlainChar c) ∧ toAsciiLowercase p ≠ [] ∧
      plainLabel (toAsciiLowercase p) = some l ∧ plainLabelText l = toAsciiLowercase p := by
  unfold plainLabel at h
  split at h
  · rename_i hp
    obtain ⟨hne, hlen, hchars⟩ := hp
    cases h
    have hplain : ∀ c ∈ p, IsPlainChar c := by
      intro c hc
      rcases hchars with rfl | hall
      · exact .inl (List.mem_singleton.mp hc)
      · have := List.all_eq_true.mp hall c hc
        simp only [Bool.or_eq_true, beq_iff_eq, or_assoc] at this
        exact .inr this
    have hlower : ∀ c ∈ toAsciiLowercase p, IsPlainChar c := by
      intro c hc
      obtain ⟨d, hd, rfl⟩ := List.mem_map.mp hc
      exact (hplain d hd).toLower
    refine ⟨hlower, by simpa [toAsciiLowercase] using hne, ?_, ?_⟩
    · unfold plainLabel
      rw [if_pos, toAsciiLowercase_idem]
      refine ⟨by simpa [toAsciiLowercase] using hne, by simpa [toAsciiLowercase] using hlen, ?_⟩
      rcases hchars with rfl | hall
      · exact .inl rfl
      · right
        refine List.all_eq_true.mpr fun c hc => ?_
        obtain ⟨d, hd, rfl⟩ := List.mem_map.mp hc
        have hd' := List.all_eq_true.mp hall d hd
        simp only [Bool.or_eq_true, beq_iff_eq, or_assoc] at hd' ⊢
        rcases (IsPlainChar.toLower (.inr hd')) with hstar | hplain
        · exact absurd ((toLower_eq_iff (by decide)).mp hstar) (by
            rintro rfl
            revert hd'
            decide)
        · exact hplain
    · unfold plainLabelText
      rw [List.map_map]
      refine (List.map_congr_left fun c hc => ?_).trans (List.map_id _)
      exact ofNat_byte (hlower c hc).plain.1
  · cases h

/-- Plain text is not `bücher`. -/
lemma ne_bucher_of_plain {p : Str} (hp : ∀ c ∈ p, IsPlainChar c) : p ≠ "bücher".toList := by
  rintro rfl
  have hu := (hp 'ü' (by decide)).plain.1
  revert hu
  decide

/-- How the label of `bücher` is printed. -/
lemma idnLabelText_bucher : idnLabelText bucherLabel = "bücher".toList :=
  if_pos rfl

/-- A label is the one of `bücher`, or one of plain text, which is printed folded. -/
lemma idnLabel_cases {p : Str} {l : Label} (h : idnLabel p = some l) :
    l = bucherLabel ∨ (plainLabel p = some l ∧ idnLabelText l = toAsciiLowercase p) := by
  by_cases hl : l = bucherLabel
  · exact .inl hl
  · right
    have hplain : plainLabel p = some l := by
      unfold idnLabel at h
      split at h
      · cases h
        exact absurd rfl hl
      · exact h
    refine ⟨hplain, ?_⟩
    unfold idnLabelText
    rw [if_neg hl]
    exact (plainLabel_eq_some hplain).2.2.2

/-- The labels of `idnCrates` are read and printed faithfully. -/
lemma idn_labelCodec : LabelCodec idnLabel idnLabelText := by
  constructor
  case read_nil => decide
  case read_text =>
    intro p l h
    rcases idnLabel_cases h with rfl | ⟨hp, htext⟩
    · rw [idnLabelText_bucher]
      rfl
    · obtain ⟨hplain, -, hread, -⟩ := plainLabel_eq_some hp
      rw [htext]
      unfold idnLabel
      rw [if_neg (ne_bucher_of_plain hplain)]
      exact hread
  case ne_nil =>
    intro p l h
    rcases idnLabel_cases h with rfl | ⟨hp, htext⟩
    · rw [idnLabelText_bucher]
      decide
    · rw [htext]
      exact (plainLabel_eq_some hp).2.1
  case folded =>
    intro p l h
    rcases idnLabel_cases h with rfl | ⟨hp, htext⟩
    · rw [idnLabelText_bucher]
      decide
    · rw [htext, toAsciiLowercase_idem]
  case plain =>
    intro p l h
    rcases idnLabel_cases h with rfl | ⟨hp, htext⟩
    · have hall : ("bücher".toList.all fun c => c ≠ '.' ∧ c ≠ '@' ∧ isWhitespace c = false) = true := by
        decide
      rw [idnLabelText_bucher]
      exact fun c hc => of_decide_eq_true (List.all_eq_true.mp hall c hc)
    · rw [htext]
      intro c hc
      exact ((plainLabel_eq_some hp).1 c hc).plain.2

/-- `idnCrates` prints names faithfully. -/
lemma idn_printsNames : idnCrates.PrintsNames :=
  idn_labelCodec.printsNames rfl rfl

end Idn

end Nomina
