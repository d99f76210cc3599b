import Nomina.Dns.SoaNames
import Nomina.Lib.Labels

/-!
# Owners of imported and transferred records

An import and a transfer write a row for every record of a supported type. Both display the owner, fold it
and cut the name of the zone off its end as text, and `record_fqdn_name` puts the zone behind the name of
the row again. That gives the owner back when it is displayed as the name of the zone, or as a text that
does not end with a dot, a dot and the name of the zone. An owner that is displayed otherwise is not
dropped: its whole text becomes the name of a row in the zone, which is served at another owner.
-/

namespace Nomina

open Lib

/-! ## Rows of records -/

section Rows

variable (K : Crates)

/-- The row that an import writes for a record. -/
def importedRow (zoneName : Str) (rec : Record) : Option Db.RecordTuple :=
  recordTuple K (toAsciiLowercase (trimEndMatches '.' zoneName)) rec

/-- The row that a transfer writes for a record. SOA records are kept with the zone. -/
def transferredRow (zoneName : Str) (rec : Record) : Option Db.RecordTuple :=
  match rec.data with
  | .soa _ => none
  | _ => importedRow K zoneName rec

/-- The names are the same, ignoring ASCII case. -/
def SameName (n m : Name) : Prop :=
  n.toLowercase = m.toLowercase

instance (n m : Name) : Decidable (SameName n m) :=
  inferInstanceAs (Decidable (n.toLowercase = m.toLowercase))

/-- A record is dropped only if its type is not supported or its owner lies outside the zone; the name of
the row that is written for it is read as its owner, and there the record is served. -/
structure OwnerSurvives (z : Zone) (rec : Record) (row : Option Db.RecordTuple) : Prop where
  dropped : row = none → isSupported rec.data.recordType = false ∨
    ∃ apex, recordFqdnName K ['@'] z.name = .ok apex ∧ apex.zoneOf rec.name = false
  named : ∀ tuple ∈ row, ∃ owner, recordFqdnName K tuple.1 z.name = .ok owner ∧ SameName owner rec.name
  served : ∀ tuple ∈ row, ∀ key stored,
    storedRecord K z (replicaRow z.id tuple) = some (key, stored) →
      ∃ owner, SameName owner rec.name ∧ key = nameKey K owner

/-- The rows are those of the records, and all owners survive. -/
def OwnersSurvive (z : Zone) (records : List Record) (rowOf : Record → Option Db.RecordTuple)
    (rows : List Db.RecordTuple) : Prop :=
  rows = records.filterMap rowOf ∧ ∀ rec ∈ records, OwnerSurvives K z rec (rowOf rec)

/-- The displayed owner, folded, is read as the owner. -/
def ReadsBack (n : Name) : Prop :=
  ∃ m, K.fromUtf8 (nameKey K n ++ ['.']) = .ok m ∧ SameName m n

/-- The owner is displayed under the name of the zone, and is read as it is displayed. -/
def OwnerKept (zoneName : Str) (n : Name) : Prop :=
  DisplayedUnder zoneName (nameKey K n) ∧ ReadsBack K n

/-- The labels of a name that stands in a message: none is empty. -/
def Name.IsProper (n : Name) : Prop :=
  ∀ l ∈ n.labels, l ≠ []

/-- What the program relies on when it displays owners and reads names: names are read label by label, at
the dots that are not escaped, and labels are displayed as such texts. -/
structure Crates.ReadsLabels (read : Str → Option Label) : Prop where
  /-- A name is read label by label. -/
  byLabel : ∀ {body n}, body ≠ [] → K.fromUtf8 (body ++ ['.']) = .ok n →
    (labelTexts (body ++ ['.'])).mapM read = some n.labels
  /-- Dots and backslashes in labels are escaped. -/
  closed : ∀ {l}, l ≠ [] → IsLabelText (K.labelText l)
  /-- So are blanks. -/
  plain : ∀ {l}, ∀ c ∈ K.labelText l, isWhitespace c = false
  /-- So is `@`. -/
  notAt : ∀ {l}, K.labelText l ≠ ['@']
  /-- The text of a label with that of another behind it is not read as the first. -/
  grows : ∀ {l q m k}, read (toAsciiLowercase (K.labelText l) ++ q) = some m → read q = some k →
    m.map lowerByte ≠ l.map lowerByte

end Rows

variable {K : Crates} {read : Str → Option Label}

/-! ## Owners as text -/

/-- A name is read from the text that the record and the zone are put together to. -/
lemma recordFqdnName_eq_ok {name zoneName : Str} {n : Name} :
    recordFqdnName K name zoneName = .ok n ↔
      K.fromUtf8 (if (trimEndMatches '.' (trim name)).isEmpty || trimEndMatches '.' (trim name) == ['@']
        then zoneName ++ ['.'] else trimEndMatches '.' (trim name) ++ '.' :: zoneName ++ ['.']) = .ok n := by
  unfold recordFqdnName
  dsimp only
  split
  · rename_i e he
    rw [he]
    exact ⟨fun h => (nomatch h), fun h => (nomatch h)⟩
  · rename_i m hm
    rw [hm]

/-- The name of the apex. -/
lemma recordFqdnName_at {zoneName : Str} {n : Name} :
    recordFqdnName K ['@'] zoneName = .ok n ↔ K.fromUtf8 (zoneName ++ ['.']) = .ok n := by
  have hat : trimEndMatches '.' (trim ['@']) = ['@'] := by decide
  rw [recordFqdnName_eq_ok, hat, if_pos (by simp)]

/-- The name of a row whose name is put before the zone as it is. -/
lemma recordFqdnName_plain {name zoneName : Str} {n : Name} (htrim : trimEndMatches '.' (trim name) = name)
    (hne : name ≠ []) (hat : name ≠ ['@']) :
    recordFqdnName K name zoneName = .ok n ↔ K.fromUtf8 (name ++ '.' :: zoneName ++ ['.']) = .ok n := by
  rw [recordFqdnName_eq_ok, htrim, if_neg (by simp [hne, hat])]

/-- As many labels are read as there are texts. -/
lemma length_of_mapM {parts : List Str} {labels : List Label} (h : parts.mapM read = some labels) :
    labels.length = parts.length := by
  induction parts generalizing labels with
  | nil =>
    cases h
    rfl
  | cons p parts ih =>
    rw [List.mapM_cons] at h
    simp only [Option.bind_eq_bind, Option.bind_eq_some_iff, Option.pure_def, Option.some.injEq] at h
    obtain ⟨l, -, labels', hlabels', rfl⟩ := h
    rw [List.length_cons, List.length_cons, ih hlabels']

/-- The same names have as many labels. -/
lemma SameName.length_eq {n m : Name} (h : SameName n m) : n.labels.length = m.labels.length := by
  have hlabels := congrArg (fun k : Name => k.labels.length) h
  unfold Name.toLowercase at hlabels
  simpa using hlabels

/-- The folded texts of the labels of a name. -/
def keyTexts (K : Crates) (n : Name) : List Str :=
  n.labels.map fun l => toAsciiLowercase (K.labelText l)

section Displayed

open LabelScan

variable (h : K.ReadsLabels read) {n : Name} (hn : n.IsProper)

include h hn

/-- The folded texts of labels are texts of labels. -/
lemma isLabelText_of_mem_keyTexts : ∀ p ∈ keyTexts K n, IsLabelText p := by
  intro p hp
  obtain ⟨l, hl, rfl⟩ := List.mem_map.mp hp
  exact (h.closed (hn l hl)).toAsciiLowercase

omit h hn in
/-- A name with labels is displayed as the texts of its labels with dots. -/
lemma toAsciiLowercase_toText (hne : n.labels ≠ []) :
    toAsciiLowercase (n.toText K) = dotted (keyTexts K n) := by
  unfold Name.toText dotted keyTexts toAsciiLowercase
  rw [if_neg (by simpa using hne), List.map_flatMap, List.flatMap_map]
  refine List.flatMap_congr fun l _ => ?_
  rw [List.map_append]
  rfl

omit h hn in
/-- Behind the key of a name with labels there are dots. -/
lemma exists_dots_nameKey (hne : n.labels ≠ []) :
    ∃ j, dotted (keyTexts K n) = nameKey K n ++ List.replicate (j + 1) '.' := by
  have hkey : nameKey K n = trimEndMatches '.' (dotted (keyTexts K n)) := by
    unfold nameKey
    rw [← trimEndMatches_toAsciiLowercase, toAsciiLowercase_toText hne]
  obtain ⟨k, hk⟩ := exists_trimmed '.' (dotted (keyTexts K n))
  rw [← hkey] at hk
  obtain ⟨j, rfl⟩ : ∃ j, k = j + 1 := by
    refine Nat.exists_eq_succ_of_ne_zero ?_
    rintro rfl
    -- The text ends with a dot, which is not in the key.
    obtain ⟨front, p, hparts⟩ :=
      (List.eq_nil_or_concat' (keyTexts K n)).resolve_left (by simpa [keyTexts] using hne)
    have hlast : dotted (keyTexts K n) = dotted front ++ p ++ ['.'] := by
      rw [hparts]
      unfold dotted
      simp
    rw [List.replicate_zero, List.append_nil] at hk
    have htrim : trimEndMatches '.' (nameKey K n) = nameKey K n := by
      rw [hkey, trimEndMatches_idem]
    have hshort := (List.rdropWhile_prefix (· == '.') (dotted front ++ p)).length_le
    rw [← hk, hlast] at htrim
    unfold trimEndMatches at htrim
    rw [List.rdropWhile_concat_pos _ _ _ (by simp)] at htrim
    rw [htrim, List.length_append, List.length_singleton] at hshort
    omega
  exact ⟨j, hk⟩

/-- The key of a name with labels: behind it stood the dot that ends the name, or that dot and an escaped
one. -/
lemma nameKey_cases (hne : n.labels ≠ []) :
    ((start.read (nameKey K n)).escaped = false ∧
      keyTexts K n = (start.read (nameKey K n)).done ++ [(start.read (nameKey K n)).sofar]) ∨
    ((start.read (nameKey K n)).escaped = true ∧
      keyTexts K n = (start.read (nameKey K n)).done ++ [(start.read (nameKey K n)).sofar ++ ['.']]) := by
  have hclosed := isLabelText_of_mem_keyTexts h hn
  have hread := read_dotted hclosed
  have hempty : [] ∉ labelTexts (dotted (keyTexts K n)) := by
    unfold labelTexts
    rw [hread]
    exact fun hnil => (hclosed [] hnil).1 rfl
  obtain ⟨j, hj⟩ := exists_dots_nameKey (K := K) hne
  rw [hj] at hread hempty
  rw [← List.append_nil (List.replicate (j + 1) '.')] at hempty
  rcases dots_cases hempty with ⟨hescaped, rfl⟩ | ⟨hescaped, hle⟩
  · refine .inl ⟨hescaped, ?_⟩
    rw [read_append, List.replicate_one, read_dot hescaped] at hread
    have hdone := congrArg LabelScan.done hread
    change _ ++ [] = _ at hdone
    rw [List.append_nil] at hdone
    exact hdone.symm
  · refine .inr ⟨hescaped, ?_⟩
    obtain rfl | rfl : j = 0 ∨ j = 1 := by omega
    · -- Behind an escaped dot alone the label would go on.
      rw [read_append, List.replicate_one, read_escaped hescaped] at hread
      have hsofar := congrArg LabelScan.sofar hread
      change _ ++ ['.'] = [] at hsofar
      exact absurd hsofar (by simp)
    · rw [read_append] at hread
      change (start.read (nameKey K n)).read ('.' :: '.' :: []) = _ at hread
      rw [read_escaped hescaped, read_dot rfl] at hread
      have hdone := congrArg LabelScan.done hread
      change _ ++ [] = _ at hdone
      rw [List.append_nil] at hdone
      exact hdone.symm

/-- The labels of the key are those of the name. -/
lemma labelTexts_nameKey (hne : n.labels ≠ []) : labelTexts (nameKey K n ++ ['.']) = keyTexts K n := by
  rcases nameKey_cases h hn hne with ⟨hescaped, htexts⟩ | ⟨hescaped, htexts⟩
  · rw [labelTexts_dot hescaped, htexts]
    rfl
  · rw [labelTexts_append, hescaped, read_escaped rfl, htexts]
    simp [LabelScan.read, labels]

omit h hn in
/-- The key of the root is empty. -/
lemma nameKey_root (hroot : n.labels = []) : nameKey K n = [] := by
  unfold nameKey Name.toText
  rw [hroot]
  rfl

/-- The keys of other names are not. -/
lemma nameKey_ne_nil (hne : n.labels ≠ []) : nameKey K n ≠ [] := by
  intro hnil
  have htexts := labelTexts_nameKey h hn hne
  rw [hnil] at htexts
  change [[]] = _ at htexts
  exact (isLabelText_of_mem_keyTexts h hn [] (by rw [← htexts]; exact List.mem_singleton_self _)).1 rfl

omit h hn in
/-- A name whose key has a dot in it has labels. -/
lemma labels_ne_nil_of_nameKey {s t : Str} (hkey : nameKey K n = s ++ '.' :: t) : n.labels ≠ [] := by
  intro hroot
  rw [nameKey_root hroot] at hkey
  simp at hkey

omit hn in
/-- No label of a name is displayed as `@`. -/
lemma at_notMem_keyTexts : ['@'] ∉ keyTexts K n := by
  intro hmem
  obtain ⟨l, -, hl⟩ := List.mem_map.mp hmem
  unfold toAsciiLowercase at hl
  obtain ⟨c, hc, hlow⟩ := List.map_eq_singleton_iff.mp hl
  rw [(toLower_eq_iff (by decide)).mp hlow] at hc
  exact h.notAt hc

omit hn in
/-- There are no blanks in a key. -/
lemma trim_of_nameKey {s t : Str} (hkey : nameKey K n = s ++ t) : trim s = s := by
  refine trim_eq_self fun c hc => ?_
  have hmem : c ∈ nameKey K n := by
    rw [hkey]
    exact List.mem_append_left _ hc
  unfold nameKey toAsciiLowercase at hmem
  obtain ⟨d, hd, rfl⟩ := List.mem_map.mp hmem
  rw [isWhitespace_toLower]
  have hd := mem_of_mem_trimEndMatches hd
  unfold Name.toText at hd
  split at hd
  · rw [List.mem_singleton.mp hd]
    decide
  · obtain ⟨l, -, hd⟩ := List.mem_flatMap.mp hd
    rcases List.mem_append.mp hd with hd | hd
    · exact h.plain d hd
    · rw [List.mem_singleton.mp hd]
      decide

end Displayed

/-! ## Owners that are kept -/

section Kept

open LabelScan

variable (h : K.ReadsLabels read) {n m : Name} (hn : n.IsProper) {zoneName raw rel : Str}

include h hn

/-- What stands before the zone in a displayed owner is something, and not `@`. -/
lemma rel_of_nameKey (hkey : nameKey K n = rel ++ '.' :: zoneName) : rel ≠ [] ∧ rel ≠ ['@'] := by
  have htexts := labelTexts_nameKey h hn (labels_ne_nil_of_nameKey hkey)
  rw [hkey, List.append_assoc] at htexts
  constructor
  · rintro rfl
    change labelTexts ([] ++ '.' :: (zoneName ++ ['.'])) = _ at htexts
    rw [labelTexts_dot rfl] at htexts
    exact (isLabelText_of_mem_keyTexts h hn [] (by rw [← htexts]; exact List.mem_cons_self)).1 rfl
  · rintro rfl
    change labelTexts (['@'] ++ '.' :: (zoneName ++ ['.'])) = _ at htexts
    rw [labelTexts_dot rfl] at htexts
    exact at_notMem_keyTexts h (by rw [← htexts]; exact List.mem_cons_self)

/-- When a dot is trimmed before the zone, the dot was escaped, and a label is lost. -/
lemma not_sameName_of_trimmed (hkey : nameKey K n = rel ++ '.' :: zoneName)
    (hdot : trimEndMatches '.' rel ≠ rel) (hm : recordFqdnName K rel zoneName = .ok m) :
    ¬ SameName m n := by
  intro hsame
  have hclosed := isLabelText_of_mem_keyTexts h hn
  have htexts := labelTexts_nameKey h hn (labels_ne_nil_of_nameKey hkey)
  have htrim : trim rel = rel := trim_of_nameKey h hkey
  rw [recordFqdnName_eq_ok, htrim] at hm
  obtain ⟨k, hk⟩ := exists_trimmed '.' rel
  generalize trimEndMatches '.' rel = front at hk hdot hm
  obtain ⟨i, rfl⟩ : ∃ i, k = i + 1 := by
    refine Nat.exists_eq_succ_of_ne_zero ?_
    rintro rfl
    rw [List.replicate_zero, List.append_nil] at hk
    exact hdot hk.symm
  -- The dots before the zone are an escaped one and the one that ends the label.
  have hsplit : nameKey K n ++ ['.'] =
      front ++ (List.replicate (i + 1 + 1) '.' ++ (zoneName ++ ['.'])) := by
    rw [hkey, hk, List.replicate_succ' (n := i + 1)]
    simp
  have hescaped : (start.read front).escaped = true ∧ i = 0 := by
    have hempty : [] ∉ labelTexts (front ++ (List.replicate (i + 1 + 1) '.' ++ (zoneName ++ ['.']))) := by
      rw [← hsplit, htexts]
      exact fun hnil => (hclosed [] hnil).1 rfl
    rcases dots_cases hempty with ⟨-, hi⟩ | ⟨hescaped, hi⟩
    · omega
    · exact ⟨hescaped, by omega⟩
  obtain ⟨hescaped, rfl⟩ := hescaped
  have hfront : front ≠ [] ∧ front ≠ ['@'] := by
    constructor
    · rintro rfl
      cases hescaped
    · rintro rfl
      cases hescaped
  rw [if_neg (by simp [hfront])] at hm
  obtain ⟨y, more, hy, hread⟩ := labelTexts_escaped hescaped (t := zoneName ++ ['.']) (by simp)
  have hne : front ++ '.' :: zoneName ≠ [] := by simp
  have hbody := h.byLabel hne hm
  rw [List.append_assoc, List.cons_append, hread] at hbody
  have hlength := length_of_mapM hbody
  rw [hsplit] at htexts
  change labelTexts (front ++ '.' :: '.' :: (zoneName ++ ['.'])) = _ at htexts
  rw [labelTexts_escapedDot hescaped, hy] at htexts
  have hcount := congrArg List.length htexts
  unfold keyTexts at hcount
  rw [List.length_map, ← hsame.length_eq, hlength] at hcount
  simp at hcount

omit hn in
/-- A label that ends with an escaped dot is not read as itself when the zone goes on with it. -/
lemma not_sameName_of_last {m : Name} {front : List Str} {s y : Str} {k : Label}
    (hm : (front ++ [s ++ ['.'] ++ y]).mapM read = some m.labels) (hk : read y = some k)
    (hkeyTexts : keyTexts K n = front ++ [s ++ ['.']]) : ¬ SameName m n := by
  intro hsame
  have hroot : n.labels ≠ [] := by
    intro hroot
    unfold keyTexts at hkeyTexts
    rw [hroot] at hkeyTexts
    simp at hkeyTexts
  obtain ⟨init, l, hlabels⟩ := (List.eq_nil_or_concat' n.labels).resolve_left hroot
  have hlast : toAsciiLowercase (K.labelText l) = s ++ ['.'] := by
    unfold keyTexts at hkeyTexts
    rw [hlabels, List.map_append, List.map_singleton] at hkeyTexts
    exact List.singleton_inj.mp (List.append_inj' hkeyTexts rfl).2
  rw [← hlast, List.mapM_append] at hm
  simp only [List.mapM_cons, List.mapM_nil, Option.bind_eq_bind, Option.bind_eq_some_iff,
    Option.pure_def, Option.some.injEq] at hm
  obtain ⟨ls, -, last, ⟨grown, hgrown, rest, rfl, rfl⟩, hmlabels⟩ := hm
  refine h.grows hgrown hk ?_
  have hlower := congrArg Name.labels hsame
  unfold Name.toLowercase at hlower
  dsimp only at hlower
  rw [← hmlabels, hlabels, List.map_append, List.map_append, List.map_singleton,
    List.map_singleton] at hlower
  exact List.singleton_inj.mp (List.append_inj' hlower rfl).2

/-- A displayed owner that the zone is put behind is another name. -/
lemma not_sameName_of_whole (hzone : canonicalZoneName K raw = .ok zoneName)
    (hm : recordFqdnName K (nameKey K n) zoneName = .ok m) : ¬ SameName m n := by
  intro hsame
  obtain ⟨hne, -, apex, hapex⟩ := canonicalZoneName_spec hzone
  have hzoneTexts := h.byLabel hne hapex
  have hbehind : zoneName ++ ['.'] ≠ [] := by simp
  by_cases hroot : n.labels = []
  · -- The owner is the root, and the row is named as the apex.
    rw [nameKey_root hroot, recordFqdnName_eq_ok, if_pos (by decide)] at hm
    have hlength := length_of_mapM (h.byLabel hne hm)
    rw [hsame.length_eq, hroot] at hlength
    exact labelTexts_ne_nil hbehind (List.length_eq_zero_iff.mp hlength.symm)
  · have htexts := labelTexts_nameKey h hn hroot
    have hkey := nameKey_ne_nil h hn hroot
    have hat : nameKey K n ≠ ['@'] := by
      intro hat
      rw [hat] at htexts
      change [['@']] = _ at htexts
      exact at_notMem_keyTexts h (by rw [← htexts]; exact List.mem_singleton_self _)
    have htrim : trimEndMatches '.' (trim (nameKey K n)) = nameKey K n := by
      rw [trim_of_nameKey h (t := []) (List.append_nil _).symm]
      unfold nameKey
      rw [← trimEndMatches_toAsciiLowercase, trimEndMatches_idem]
    rw [recordFqdnName_plain htrim hkey hat] at hm
    have hbodyNe : nameKey K n ++ '.' :: zoneName ≠ [] := by simp
    have hbody := h.byLabel hbodyNe hm
    rw [List.append_assoc, List.cons_append] at hbody
    have hlength := length_of_mapM hbody
    have hcount : n.labels.length = (keyTexts K n).length := by
      unfold keyTexts
      rw [List.length_map]
    rw [hsame.length_eq, hcount] at hlength
    rcases nameKey_cases h hn hroot with ⟨hescaped, hkeyTexts⟩ | ⟨hescaped, hkeyTexts⟩
    · rw [labelTexts_dot hescaped, hkeyTexts] at hlength
      have hpos := List.length_pos_iff.mpr (labelTexts_ne_nil hbehind)
      simp only [List.length_append, List.length_cons, List.length_nil] at hlength
      omega
    · -- The last label of the owner ends with a dot, and the first one of the zone goes on with it.
      obtain ⟨y, more, hy, hread⟩ := labelTexts_escaped hescaped hbehind
      rw [hread, hkeyTexts] at hlength
      simp only [List.length_append, List.length_cons, List.length_nil] at hlength
      obtain rfl : more = [] := List.length_eq_zero_iff.mp (by omega)
      rw [hread] at hbody
      rw [hy] at hzoneTexts
      simp only [List.mapM_cons, Option.bind_eq_bind, Option.bind_eq_some_iff] at hzoneTexts
      obtain ⟨k, hk, -⟩ := hzoneTexts
      exact not_sameName_of_last h hbody hk hkeyTexts hsame

/-- The name of the row of a record is read as its owner exactly when the owner is kept. -/
lemma relativeOwner_iff (hzone : canonicalZoneName K raw = .ok zoneName) :
    (∃ m, recordFqdnName K (relativeOwner K zoneName n) zoneName = .ok m ∧ SameName m n) ↔
      OwnerKept K zoneName n := by
  have hrow : relativeOwner K zoneName n = if nameKey K n == zoneName then ['@']
      else (stripSuffix (nameKey K n) ('.' :: zoneName)).getD (nameKey K n) := rfl
  rw [hrow]
  unfold OwnerKept ReadsBack
  by_cases hapex : nameKey K n = zoneName
  · rw [hapex, beq_self_eq_true, if_pos rfl]
    simp only [recordFqdnName_at]
    exact ⟨fun hread => ⟨.inl rfl, hread⟩, fun hkept => hkept.2⟩
  · rw [if_neg (by simpa using hapex)]
    cases hstrip : stripSuffix (nameKey K n) ('.' :: zoneName) with
    | some rel =>
      have hkey := stripSuffix_eq_some.mp hstrip
      obtain ⟨hrel, hat⟩ := rel_of_nameKey h hn hkey
      rw [Option.getD_some]
      by_cases hdot : trimEndMatches '.' rel = rel
      · have htrim : trimEndMatches '.' (trim rel) = rel := by
          rw [trim_of_nameKey h hkey, hdot]
        simp only [recordFqdnName_plain htrim hrel hat]
        rw [hkey]
        exact ⟨fun hread => ⟨.inr ⟨rel, rfl, hrel, hdot⟩, hread⟩, fun hkept => hkept.2⟩
      · constructor
        · rintro ⟨m, hm, hsame⟩
          exact absurd hsame (not_sameName_of_trimmed h hn hkey hdot hm)
        · rintro ⟨hunder | ⟨rel', hkey', -, hdot'⟩, -⟩
          · exact absurd hunder hapex
          · have heq : rel' = rel := List.append_cancel_right (hkey'.symm.trans hkey)
            rw [heq] at hdot'
            exact absurd hdot' hdot
    | none =>
      rw [Option.getD_none]
      constructor
      · rintro ⟨m, hm, hsame⟩
        exact absurd hsame (not_sameName_of_whole h hn hzone hm)
      · rintro ⟨hunder | ⟨rel', hkey', -, -⟩, -⟩
        · exact absurd hunder hapex
        · rw [hkey', stripSuffix_append] at hstrip
          cases hstrip

end Kept

/-! ## Imports and transfers -/

/-- A row that is stored is stored under the owner that its name is read as. -/
lemma owner_of_storedRecord {z : Zone} {r : DnsRecord} {key : Str} {stored : StoredRecord}
    (hstored : storedRecord K z r = some (key, stored)) :
    ∃ owner, recordFqdnName K r.name z.name = .ok owner ∧ key = nameKey K owner := by
  unfold storedRecord at hstored
  split at hstored
  · cases hstored
  · split at hstored
    · cases hstored
    · split at hstored
      · cases hstored
      · split at hstored
        · cases hstored
        · rename_i owner howner
          cases hstored
          exact ⟨owner, howner, rfl⟩

/-- SOA records are not of a supported type. -/
lemma transferredRow_eq (zoneName : Str) (rec : Record) :
    transferredRow K zoneName rec = importedRow K zoneName rec := by
  unfold transferredRow
  split
  · rename_i d hdata
    unfold importedRow recordTuple
    rw [hdata, if_neg (by simp [RData.recordType]; decide)]
  · rfl

section Survival

variable {z : Zone} {raw : Str} {rec : Record}

/-- The owner of a record with a row survives when the name of the row is read as the owner. -/
lemma ownerSurvives_some {tuple : Db.RecordTuple} : OwnerSurvives K z rec (some tuple) ↔
    ∃ owner, recordFqdnName K tuple.1 z.name = .ok owner ∧ SameName owner rec.name := by
  constructor
  · intro hsurvives
    exact hsurvives.named tuple (Option.mem_some_self tuple)
  · intro hnamed
    refine ⟨fun hnone => (nomatch hnone), ?_, ?_⟩
    · intro t ht
      obtain rfl := Option.mem_some.mp ht
      exact hnamed
    · intro t ht key stored hstored
      obtain rfl := Option.mem_some.mp ht
      obtain ⟨owner, howner, hsame⟩ := hnamed
      obtain ⟨owner', howner', hkey⟩ := owner_of_storedRecord hstored
      obtain rfl := Except.ok.inj (howner.symm.trans howner')
      exact ⟨owner, hsame, hkey⟩

/-- The owner of a record survives exactly when its type is not supported or the owner is kept. -/
lemma ownerSurvives_iff (h : K.ReadsLabels read) (hzone : canonicalZoneName K raw = .ok z.name)
    (hproper : rec.name.IsProper) :
    OwnerSurvives K z rec (importedRow K z.name rec) ↔
      (isSupported rec.data.recordType = true → OwnerKept K z.name rec.name) := by
  have hfold := (canonicalZoneName_spec hzone).2.1
  unfold importedRow recordTuple
  rw [hfold]
  by_cases hsupported : isSupported rec.data.recordType = true
  · rw [if_pos hsupported, ownerSurvives_some, relativeOwner_iff h hproper hzone]
    exact ⟨fun hkept _ => hkept, fun hkept => hkept hsupported⟩
  · rw [if_neg hsupported]
    refine iff_of_true ⟨fun _ => .inl (by simpa using hsupported), ?_, ?_⟩ fun htrue =>
      absurd htrue hsupported
    · intro tuple htuple
      cases htuple
    · intro tuple htuple
      cases htuple

/-- Of all records of a zone file, and of all records of a transfer, the owners survive exactly when each
owner of a record of a supported type is displayed under the name of the zone and read as it is displayed. -/
theorem ownersSurvive_iff (h : K.ReadsLabels read) (z : Zone) {raw : Str}
    (hzone : canonicalZoneName K raw = .ok z.name) (records : List Record)
    (hproper : ∀ rec ∈ records, rec.name.IsProper) :
    (∀ text origin rows skipped, K.parseZonefile text origin = .ok records →
        Api.parseZonefile K text origin z.name = .ok (rows, skipped) →
        (OwnersSurvive K z records (importedRow K z.name) rows ↔
          ∀ rec ∈ records, isSupported rec.data.recordType = true → OwnerKept K z.name rec.name)) ∧
      (OwnersSurvive K z records (transferredRow K z.name) (transferTuples K z.name records) ↔
        ∀ rec ∈ records, isSupported rec.data.recordType = true → OwnerKept K z.name rec.name) := by
  have hall : (∀ rec ∈ records, OwnerSurvives K z rec (importedRow K z.name rec)) ↔
      ∀ rec ∈ records, isSupported rec.data.recordType = true → OwnerKept K z.name rec.name :=
    forall₂_congr fun rec hrec => ownerSurvives_iff h hzone (hproper rec hrec)
  constructor
  · intro text origin rows skipped hrecords hrows
    unfold Api.parseZonefile at hrows
    rw [hrecords] at hrows
    cases hrows
    constructor
    · rintro ⟨-, hsurvive⟩
      exact hall.mp hsurvive
    · intro hkept
      exact ⟨rfl, hall.mpr hkept⟩
  · have hrow : transferredRow K z.name = importedRow K z.name := funext (transferredRow_eq z.name)
    have hrows : transferTuples K z.name records = records.filterMap (transferredRow K z.name) := rfl
    constructor
    · rintro ⟨-, hsurvive⟩
      rw [hrow] at hsurvive
      exact hall.mp hsurvive
    · intro hkept
      refine ⟨hrows, ?_⟩
      rw [hrow]
      exact hall.mpr hkept

end Survival

/-! ## Labels that are escaped -/

/-- How a byte of a label is displayed: letters, digits, hyphens and underscores as they are, others as
three octal digits behind a backslash. -/
def escapedByte (b : UInt8) : Str :=
  if (Char.ofNat b.toNat).isAlphanum || b == 0x2d || b == 0x5f then [Char.ofNat b.toNat]
  else ['\\', (b.toNat / 64).digitChar, (b.toNat / 8 % 8).digitChar, (b.toNat % 8).digitChar]

/-- How a label is displayed. -/
def escapedText (l : Label) : Str :=
  l.flatMap escapedByte

/-- Crates that read names of plain labels, display others with escapes, and read `records` from a zone
file. -/
def escapingCrates (records : List Record) : Crates :=
  { plainCrates with labelText := escapedText, parseZonefile := fun _ _ => .ok records }

/-- A byte is displayed without blanks and `@`. -/
lemma plain_escapedByte (b : UInt8) : ∀ c ∈ escapedByte b, isWhitespace c = false ∧ c ≠ '@' := by
  have hall : ∀ b : UInt8, ((escapedByte b).all fun c => !isWhitespace c && c != '@') = true :=
    forall_byte (by decide +kernel)
  intro c hc
  simpa using List.all_eq_true.mp (hall b) c hc

/-- What a byte is displayed as is part of the label that is read. -/
lemma read_escapedByte (b : UInt8) (x : Str) :
    (⟨[], x, false⟩ : LabelScan).read (escapedByte b) = ⟨[], x ++ escapedByte b, false⟩ := by
  have hall : ∀ b : UInt8, ((Char.ofNat b.toNat).isAlphanum || b == 0x2d || b == 0x5f) = true →
      Char.ofNat b.toNat ≠ '.' ∧ Char.ofNat b.toNat ≠ '\\' :=
    forall_byte (by decide +kernel)
  have hdigits : ∀ n < 8, n.digitChar ≠ '.' ∧ n.digitChar ≠ '\\' := by
    decide
  unfold escapedByte
  split
  · rename_i hplain
    refine read_plain x fun c hc => ?_
    rw [List.mem_singleton.mp hc]
    exact hall b hplain
  · change ((⟨[], x ++ ['\\'], true⟩ : LabelScan).read
      ((b.toNat / 64).digitChar :: [(b.toNat / 8 % 8).digitChar, (b.toNat % 8).digitChar])) = _
    have hplain : ∀ c ∈ [(b.toNat / 8 % 8).digitChar, (b.toNat % 8).digitChar], c ≠ '.' ∧ c ≠ '\\' :=
      List.forall_mem_cons.mpr ⟨hdigits _ (Nat.mod_lt _ (by decide)),
        List.forall_mem_singleton.mpr (hdigits _ (Nat.mod_lt _ (by decide)))⟩
    rw [LabelScan.read_escaped rfl, read_plain _ hplain]
    simp

/-- What a byte is displayed as is not empty. -/
lemma escapedByte_ne_nil (b : UInt8) : escapedByte b ≠ [] := by
  unfold escapedByte
  split <;> exact List.cons_ne_nil _ _

/-- A label is displayed as the text of one label. -/
lemma isLabelText_escapedText {l : Label} (hne : l ≠ []) : IsLabelText (escapedText l) := by
  have hread : ∀ x : Str, (⟨[], x, false⟩ : LabelScan).read (escapedText l) =
      ⟨[], x ++ escapedText l, false⟩ := by
    clear hne
    induction l with
    | nil =>
      intro x
      rw [show escapedText [] = [] from rfl, List.append_nil]
      rfl
    | cons b l ih =>
      intro x
      rw [show escapedText (b :: l) = escapedByte b ++ escapedText l from List.flatMap_cons,
        LabelScan.read_append, read_escapedByte, ih, List.append_assoc]
  refine ⟨?_, hread []⟩
  obtain ⟨b, l, rfl⟩ := List.exists_cons_of_ne_nil hne
  rw [show escapedText (b :: l) = escapedByte b ++ escapedText l from List.flatMap_cons]
  exact List.append_ne_nil_of_left_ne_nil (escapedByte_ne_nil b) _

/-- A label is not displayed shorter than it is. -/
lemma length_le_escapedText (l : Label) : l.length ≤ (escapedText l).length := by
  induction l with
  | nil => exact Nat.le_refl 0
  | cons b l ih =>
    have hb := List.length_pos_iff.mpr (escapedByte_ne_nil b)
    rw [show escapedText (b :: l) = escapedByte b ++ escapedText l from List.flatMap_cons,
      List.length_append, List.length_cons]
    omega

/-- Plain labels are as long as their texts. -/
lemma length_of_plainLabel {s : Str} {l : Label} (h : plainLabel s = some l) : l.length = s.length := by
  unfold plainLabel at h
  split at h
  · cases h
    unfold toAsciiLowercase
    rw [List.length_map, List.length_map]
  · cases h

/-- Names of plain labels are read label by label. -/
lemma escaping_readsLabels (records : List Record) : (escapingCrates records).ReadsLabels plainLabel where
  byLabel := by
    intro body n _ hn
    have hname : readDotted plainLabel (body ++ ['.']) = .ok n := hn
    have hread := readDotted_concat.mp hname
    have hclosed : ∀ p ∈ split '.' body, IsLabelText p := by
      intro p hp
      obtain ⟨l, hl⟩ := exists_label_of_mem hread hp
      obtain ⟨hne, hplain⟩ := plain_of_plainLabel hl
      exact ⟨hne, read_plain [] hplain⟩
    have hbody : body ++ ['.'] = dotted (split '.' body) := by
      unfold dotted
      rw [flatMap_append_sep _ (split_ne_nil '.' body), join_split]
    unfold labelTexts
    rw [hbody, read_dotted hclosed]
    exact hread
  closed := isLabelText_escapedText
  plain := by
    intro l c hc
    obtain ⟨b, -, hb⟩ := List.mem_flatMap.mp hc
    exact (plain_escapedByte b c hb).1
  notAt := by
    intro l hat
    have hmem : '@' ∈ escapedText l := by
      rw [show escapedText l = ['@'] from hat]
      exact List.mem_singleton_self _
    obtain ⟨b, -, hb⟩ := List.mem_flatMap.mp hmem
    exact (plain_escapedByte b '@' hb).2 rfl
  grows := by
    intro l q m k hm hk hsame
    have hq : q ≠ [] := by
      rintro rfl
      cases hk
    have hlength := congrArg List.length hsame
    rw [List.length_map, List.length_map, length_of_plainLabel hm, List.length_append] at hlength
    have hlower : (toAsciiLowercase (escapedText l)).length = (escapedText l).length := by
      unfold toAsciiLowercase
      rw [List.length_map]
    have hshort := length_le_escapedText l
    have hpos := List.length_pos_iff.mpr hq
    change (toAsciiLowercase (escapedText l)).length + q.length = l.length at hlength
    omega

/-! ## Records inside and outside a zone -/

/-- Records of the zone `home.lan`, and a signature of another zone. -/
def keptRecords : List Record :=
  [⟨.ofPlain "home.lan", 300, .ns (.ofPlain "ns1.home.lan")⟩,
    ⟨.ofPlain "WWW.home.lan", 300, .a 0xc0a8010a⟩,
    ⟨.ofPlain "other.org", 300, .other .RRSIG []⟩]

/-- The owners of the records of the zone survive an import and a transfer. -/
theorem ownersSurvive_kept :
    OwnersSurvive (escapingCrates keptRecords) homeZone keptRecords
        (importedRow (escapingCrates keptRecords) homeZone.name)
        [("@", "NS", 300, "ns1.home.lan."), ("www", "A", 300, "192.168.1.10")] ∧
      OwnersSurvive (escapingCrates keptRecords) homeZone keptRecords
        (transferredRow (escapingCrates keptRecords) homeZone.name)
        (transferTuples (escapingCrates keptRecords) homeZone.name keptRecords) := by
  have hproper : ∀ rec ∈ keptRecords, rec.name.IsProper := by
    unfold Name.IsProper
    decide
  have hkept : ∀ rec ∈ keptRecords, isSupported rec.data.recordType = true →
      OwnerKept (escapingCrates keptRecords) homeZone.name rec.name := by
    intro rec hrec hsupported
    unfold keptRecords at hrec
    simp only [List.mem_cons, List.not_mem_nil, or_false] at hrec
    obtain rfl | rfl | rfl := hrec
    · exact ⟨.inl (by decide), .ofPlain "home.lan", by decide +kernel, by decide⟩
    · exact ⟨.inr ⟨"www", by decide, by decide, by decide⟩, .ofPlain "www.home.lan", by decide +kernel,
        by decide⟩
    · exact absurd hsupported (by decide)
  have hzone : canonicalZoneName (escapingCrates keptRecords) "home.lan".toList = .ok homeZone.name := by
    decide
  have hiff := ownersSurvive_iff (escaping_readsLabels keptRecords) homeZone hzone keptRecords hproper
  exact ⟨(hiff.1 [] (.ofPlain "home.lan") _ 1 rfl rfl).mpr hkept, hiff.2.mpr hkept⟩

/-- A host of another zone. -/
def strayHost : Record :=
  ⟨.ofPlain "www.other.org", 300, .a 0xc0a8010a⟩

/-- A record of another zone is not dropped: an import and a transfer write a row for it, which is served at
its owner with the zone behind it. -/
theorem not_ownersSurvive_strayHost :
    Api.parseZonefile (escapingCrates [strayHost]) [] (.ofPlain "home.lan") homeZone.name =
        .ok ([("www.other.org", "A", 300, "192.168.1.10")], 0) ∧
      (storedRecord (escapingCrates [strayHost]) homeZone
        (replicaRow 1 ("www.other.org", "A", 300, "192.168.1.10"))).map Prod.fst =
          some "www.other.org.home.lan".toList ∧
      ¬ OwnersSurvive (escapingCrates [strayHost]) homeZone [strayHost]
        (importedRow (escapingCrates [strayHost]) homeZone.name)
        [("www.other.org", "A", 300, "192.168.1.10")] ∧
      ¬ OwnersSurvive (escapingCrates [strayHost]) homeZone [strayHost]
        (transferredRow (escapingCrates [strayHost]) homeZone.name)
        (transferTuples (escapingCrates [strayHost]) homeZone.name [strayHost]) := by
  have hnamed : recordFqdnName (escapingCrates [strayHost]) "www.other.org" homeZone.name =
      .ok (.ofPlain "www.other.org.home.lan") := by
    rfl
  have hlost : ¬ OwnerSurvives (escapingCrates [strayHost]) homeZone strayHost
      (some ("www.other.org", "A", 300, "192.168.1.10")) := by
    rw [ownerSurvives_some, hnamed]
    rintro ⟨owner, howner, hsame⟩
    cases howner
    exact absurd hsame (by decide)
  refine ⟨rfl, by decide +kernel, ?_, ?_⟩
  · rintro ⟨-, hsurvive⟩
    exact hlost (hsurvive strayHost (List.mem_singleton_self _))
  · rintro ⟨-, hsurvive⟩
    exact hlost (hsurvive strayHost (List.mem_singleton_self _))

end Nomina
