import Nomina.Lib.Text

/-!
# Dotted text with escapes

A dotted name is read label by label: a dot ends a label, unless a backslash stands before it. `LabelScan`
is where such a reader stands, and `labelTexts` are the texts of the labels that it finds. A text of one
label is closed when the reader, after it, stands at the end of that label, behind no backslash; closed
texts with a dot behind each are read as they were put together, and what stands behind a text is read
from where the reader stands after the text.
-/

namespace Lib

/-- Where a reader of dotted text stands: the labels before, what it has of the label that it reads, and
whether a backslash escapes the next character. -/
structure LabelScan where
  done : List Str
  sofar : Str
  escaped : Bool
deriving DecidableEq

namespace LabelScan

/-- Nothing is read yet. -/
def start : LabelScan := ⟨[], [], false⟩

/-- One character. -/
def push (st : LabelScan) (c : Char) : LabelScan :=
  if st.escaped then ⟨st.done, st.sofar ++ [c], false⟩
  else if c == '.' then ⟨st.done ++ [st.sofar], [], false⟩
  else ⟨st.done, st.sofar ++ [c], c == '\\'⟩

/-- The characters of a text. -/
def read (st : LabelScan) (s : Str) : LabelScan :=
  s.foldl push st

/-- The labels when nothing more follows. -/
def labels (st : LabelScan) : List Str :=
  if st.sofar.isEmpty then st.done else st.done ++ [st.sofar]

/-- The same place in a text with more labels before it. -/
def behind (ls : List Str) (st : LabelScan) : LabelScan :=
  { st with done := ls ++ st.done }

variable {st : LabelScan} {ls : List Str} {s t : Str}

lemma read_append (st : LabelScan) (s t : Str) : st.read (s ++ t) = (st.read s).read t :=
  List.foldl_append

lemma push_behind (ls : List Str) (st : LabelScan) (c : Char) :
    (st.behind ls).push c = (st.push c).behind ls := by
  unfold behind push
  dsimp only
  split
  · rfl
  · split
    · rw [List.append_assoc]
    · rfl

/-- Labels before do not change how a text is read. -/
lemma read_behind (ls : List Str) (st : LabelScan) (s : Str) :
    (st.behind ls).read s = (st.read s).behind ls := by
  induction s generalizing st with
  | nil => rfl
  | cons c s ih =>
    change ((st.behind ls).push c).read s = ((st.push c).read s).behind ls
    rw [push_behind, ih]

lemma labels_behind (ls : List Str) (st : LabelScan) : (st.behind ls).labels = ls ++ st.labels := by
  unfold behind labels
  dsimp only
  split
  · rfl
  · rw [List.append_assoc]

/-- A dot that is not escaped ends a label. -/
lemma push_dot (h : st.escaped = false) : st.push '.' = start.behind (st.done ++ [st.sofar]) := by
  unfold push behind start
  rw [h, List.append_nil]
  rfl

/-- A character behind a backslash is part of the label. -/
lemma push_escaped (h : st.escaped = true) (c : Char) :
    st.push c = ⟨st.done, st.sofar ++ [c], false⟩ := by
  unfold push
  rw [h]
  rfl

/-- What follows a dot that is not escaped. -/
lemma read_dot (h : st.escaped = false) (s : Str) :
    st.read ('.' :: s) = (start.read s).behind (st.done ++ [st.sofar]) := by
  change (st.push '.').read s = _
  rw [push_dot h, read_behind]

/-- What follows a character behind a backslash. -/
lemma read_escaped (h : st.escaped = true) (c : Char) (s : Str) :
    st.read (c :: s) = (⟨st.done, st.sofar ++ [c], false⟩ : LabelScan).read s := by
  change (st.push c).read s = _
  rw [push_escaped h]

/-- Text before the label that is read becomes part of it, and changes no other label. -/
lemma labels_prepend (x p : Str) (e : Bool) (s : Str) (hne : x ≠ [] ∨ s ≠ []) :
    ∃ y more, ((⟨[], x, e⟩ : LabelScan).read s).labels = (x ++ y) :: more ∧
      ((⟨[], p ++ x, e⟩ : LabelScan).read s).labels = (p ++ x ++ y) :: more := by
  induction s generalizing x e with
  | nil =>
    have hx : x ≠ [] := by simpa using hne
    refine ⟨[], [], ?_, ?_⟩
    · simp [read, labels, hx]
    · simp [read, labels, hx]
  | cons c s ih =>
    by_cases hdot : e = false ∧ c = '.'
    · obtain ⟨rfl, rfl⟩ := hdot
      refine ⟨[], (start.read s).labels, ?_, ?_⟩
      · rw [read_dot rfl, labels_behind, List.append_nil]
        rfl
      · rw [read_dot rfl, labels_behind, List.append_nil]
        rfl
    · -- The character is part of the label.
      have hpush : ∀ z : Str, ∃ e', (⟨[], z, e⟩ : LabelScan).push c = ⟨[], z ++ [c], e'⟩ ∧
          e' = (!e && c == '\\') := by
        intro z
        unfold push
        cases e with
        | true => exact ⟨false, rfl, rfl⟩
        | false =>
          have hc : (c == '.') = false := by simpa using hdot
          exact ⟨c == '\\', by rw [hc]; rfl, by simp⟩
      obtain ⟨e₁, hx, rfl⟩ := hpush x
      obtain ⟨e₂, hpx, rfl⟩ := hpush (p ++ x)
      obtain ⟨y, more, hy, hpy⟩ := ih (x ++ [c]) (!e && c == '\\') (.inl (by simp))
      refine ⟨c :: y, more, ?_, ?_⟩
      · change (((⟨[], x, e⟩ : LabelScan).push c).read s).labels = _
        rw [hx, hy, List.append_assoc]
        rfl
      · change (((⟨[], p ++ x, e⟩ : LabelScan).push c).read s).labels = _
        rw [hpx, List.append_assoc, hpy]
        simp

end LabelScan

/-- The texts of the labels of a dotted text. -/
def labelTexts (s : Str) : List Str :=
  (LabelScan.start.read s).labels

/-- The text of one label: dots in it are escaped, and it does not end with a backslash that escapes what
follows. -/
def IsLabelText (s : Str) : Prop :=
  s ≠ [] ∧ LabelScan.start.read s = ⟨[], s, false⟩

/-- Texts with a dot behind each. -/
def dotted (parts : List Str) : Str :=
  parts.flatMap fun p => p ++ ['.']

section Texts

open LabelScan

variable {s t : Str} {parts : List Str}

/-- The labels behind a text, from where the reader stands after it. -/
lemma labelTexts_append (s t : Str) : labelTexts (s ++ t) =
    (start.read s).done ++
      ((⟨[], (start.read s).sofar, (start.read s).escaped⟩ : LabelScan).read t).labels := by
  unfold labelTexts
  rw [read_append, ← labels_behind, ← read_behind]
  unfold behind
  rw [List.append_nil]

/-- Text without dots and backslashes is part of the label. -/
lemma read_plain (x : Str) {s : Str} (hs : ∀ c ∈ s, c ≠ '.' ∧ c ≠ '\\') :
    (⟨[], x, false⟩ : LabelScan).read s = ⟨[], x ++ s, false⟩ := by
  induction s generalizing x with
  | nil => rw [List.append_nil]; rfl
  | cons c s ih =>
    obtain ⟨⟨hdot, hslash⟩, hrest⟩ := List.forall_mem_cons.mp hs
    have hpush : (⟨[], x, false⟩ : LabelScan).push c = ⟨[], x ++ [c], false⟩ := by
      simp [push, hdot, hslash]
    change ((⟨[], x, false⟩ : LabelScan).push c).read s = _
    rw [hpush, ih _ hrest, List.append_assoc]
    rfl

/-- Closed texts with dots are read as they are. -/
lemma read_dotted (h : ∀ p ∈ parts, IsLabelText p) : start.read (dotted parts) = ⟨parts, [], false⟩ := by
  induction parts with
  | nil => rfl
  | cons p parts ih =>
    obtain ⟨-, hp⟩ := h p List.mem_cons_self
    have hrest := ih fun q hq => h q (List.mem_cons_of_mem _ hq)
    change start.read ((p ++ ['.']) ++ dotted parts) = _
    rw [List.append_assoc, read_append, hp]
    change (⟨[], p, false⟩ : LabelScan).read ('.' :: dotted parts) = _
    rw [read_dot rfl, hrest]
    rfl

/-- A text with something in it has a label. -/
lemma labelTexts_ne_nil (h : s ≠ []) : labelTexts s ≠ [] := by
  obtain ⟨y, more, hlabels, -⟩ := labels_prepend [] [] false s (.inr h)
  unfold labelTexts start
  rw [hlabels]
  exact List.cons_ne_nil _ _

/-- A text that is followed by dots, when no label is empty: there is one dot, or there are two and the
first is escaped. -/
lemma dots_cases {j : ℕ} (h : [] ∉ labelTexts (s ++ (List.replicate (j + 1) '.' ++ t))) :
    ((start.read s).escaped = false ∧ j = 0 ∨ (start.read s).escaped = true ∧ j ≤ 1) := by
  cases hescaped : (start.read s).escaped with
  | false =>
    refine .inl ⟨rfl, ?_⟩
    by_contra hj
    obtain ⟨i, rfl⟩ := Nat.exists_eq_succ_of_ne_zero hj
    refine h ?_
    rw [labelTexts_append, hescaped]
    refine List.mem_append_right _ ?_
    rw [List.replicate_succ, List.replicate_succ, List.cons_append, List.cons_append, read_dot rfl,
      read_dot rfl, labels_behind, labels_behind]
    simp [start]
  | true =>
    refine .inr ⟨rfl, ?_⟩
    by_contra hj
    obtain ⟨i, rfl⟩ : ∃ i, j = i + 2 := ⟨j - 2, by omega⟩
    refine h ?_
    rw [labelTexts_append, hescaped]
    refine List.mem_append_right _ ?_
    rw [List.replicate_succ, List.replicate_succ, List.replicate_succ, List.cons_append,
      List.cons_append, List.cons_append, read_escaped rfl, read_dot rfl, read_dot rfl, labels_behind,
      labels_behind]
    simp [start]

/-- The labels of a text, a dot that ends a label and more text. -/
lemma labelTexts_dot (h : (start.read s).escaped = false) (t : Str) :
    labelTexts (s ++ '.' :: t) =
      (start.read s).done ++ (start.read s).sofar :: labelTexts t := by
  rw [labelTexts_append, h]
  rw [read_dot rfl, labels_behind]
  rfl

/-- The labels of a text, an escaped dot, a dot and more text. -/
lemma labelTexts_escapedDot (h : (start.read s).escaped = true) (t : Str) :
    labelTexts (s ++ '.' :: '.' :: t) =
      (start.read s).done ++ ((start.read s).sofar ++ ['.']) :: labelTexts t := by
  rw [labelTexts_append, h]
  rw [read_escaped rfl, read_dot rfl, labels_behind]
  rfl

/-- The labels of a text, an escaped dot and more text: the first label behind it goes on. -/
lemma labelTexts_escaped (h : (start.read s).escaped = true) (ht : t ≠ []) :
    ∃ y more, labelTexts t = y :: more ∧
      labelTexts (s ++ '.' :: t) = (start.read s).done ++ ((start.read s).sofar ++ ['.'] ++ y) :: more := by
  obtain ⟨y, more, hy, hgrown⟩ :=
    labels_prepend [] ((start.read s).sofar ++ ['.']) false t (.inr ht)
  refine ⟨y, more, hy, ?_⟩
  rw [labelTexts_append, h, read_escaped rfl]
  rw [List.append_nil] at hgrown
  rw [← hgrown]

/-! ### Folding -/

/-- A text is folded to where its reader is folded to. -/
lemma read_toAsciiLowercase (st : LabelScan) (s : Str) :
    (⟨st.done.map toAsciiLowercase, toAsciiLowercase st.sofar, st.escaped⟩ : LabelScan).read
        (toAsciiLowercase s) =
      ⟨(st.read s).done.map toAsciiLowercase, toAsciiLowercase (st.read s).sofar, (st.read s).escaped⟩ := by
  induction s generalizing st with
  | nil => rfl
  | cons c s ih =>
    have hdot : (c.toLower == '.') = (c == '.') := by
      rw [Bool.eq_iff_iff, beq_iff_eq, beq_iff_eq, toLower_eq_iff (by decide)]
    have hslash : (c.toLower == '\\') = (c == '\\') := by
      rw [Bool.eq_iff_iff, beq_iff_eq, beq_iff_eq, ← Char.toNat_inj, ← Char.toNat_inj, toNat_toLower]
      have hnat : '\\'.toNat = 92 := rfl
      split <;> omega
    have hpush : (⟨st.done.map toAsciiLowercase, toAsciiLowercase st.sofar, st.escaped⟩ : LabelScan).push
        c.toLower = ⟨(st.push c).done.map toAsciiLowercase, toAsciiLowercase (st.push c).sofar,
          (st.push c).escaped⟩ := by
      unfold push
      dsimp only
      rw [hdot, hslash]
      split
      · simp [toAsciiLowercase]
      · split <;> simp [toAsciiLowercase]
    rw [show toAsciiLowercase (c :: s) = c.toLower :: toAsciiLowercase s from rfl]
    change (push _ c.toLower).read (toAsciiLowercase s) = _
    rw [hpush, ih]
    rfl

/-- The text of one label is folded to that of one label. -/
lemma IsLabelText.toAsciiLowercase (h : IsLabelText s) : IsLabelText (toAsciiLowercase s) := by
  refine ⟨by simpa [Lib.toAsciiLowercase] using h.1, ?_⟩
  have hread := read_toAsciiLowercase start s
  rw [h.2] at hread
  exact hread

end Texts

end Lib
