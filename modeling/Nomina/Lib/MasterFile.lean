import Nomina.Lib.Text

/-!
# Master files

The text format of zone data of RFC 1035: entries of fields that blanks separate, with quoted parts,
escapes, comments and parentheses (`fields`, `scan`), and what the entries say (`readEntries`): the
origin that relative names are completed with, the TTL that holds until another one is stated, and
records. How names and record data are read is a parameter.

The last section is for texts that a program prints: a printed piece is scanned to its fields,
whatever stands behind it.
-/

namespace Lib

namespace MasterFile

/-! ## Fields -/

/-- A blank within a line. -/
def isBlank (c : Char) : Bool :=
  c == ' ' || c == '\t' || c == '\r'

/-- A character that ends a field and is part of none. -/
def isDelimiter (c : Char) : Bool :=
  c == '\n' || c == ';' || c == '(' || c == ')'

/-- Where the reader of fields stands: between two fields, in a field, in a quoted part of one, or
behind a backslash. The text of the field so far has its quotes and backslashes. -/
inductive Mode
  | gap
  | plain (sofar : Str)
  | quoted (sofar : Str)
  | escaped (inQuotes : Bool) (sofar : Str)
deriving DecidableEq

/-- One more character of a field, outside quotes. -/
def Mode.enter (sofar : Str) (c : Char) : Mode :=
  if c == '"' then .quoted (sofar ++ [c])
  else if c == '\\' then .escaped false (sofar ++ [c])
  else .plain (sofar ++ [c])

/-- The fields before the one that is read, and where the reader stands. -/
structure Fields where
  done : List Str
  mode : Mode
deriving DecidableEq

/-- One character of a line of fields; `none` for a delimiter. -/
def Fields.step (f : Fields) (c : Char) : Option Fields :=
  match f.mode with
  | .gap =>
    if isDelimiter c then none
    else if isBlank c then some f
    else some ⟨f.done, .enter [] c⟩
  | .plain sofar =>
    if isDelimiter c then none
    else if isBlank c then some ⟨f.done ++ [sofar], .gap⟩
    else some ⟨f.done, .enter sofar c⟩
  | .quoted sofar =>
    if c == '"' then some ⟨f.done, .plain (sofar ++ [c])⟩
    else if c == '\\' then some ⟨f.done, .escaped true (sofar ++ [c])⟩
    else some ⟨f.done, .quoted (sofar ++ [c])⟩
  | .escaped true sofar => some ⟨f.done, .quoted (sofar ++ [c])⟩
  | .escaped false sofar => some ⟨f.done, .plain (sofar ++ [c])⟩

/-- The fields when nothing more follows; `none` within quotes and behind a backslash. -/
def Fields.close (f : Fields) : Option (List Str) :=
  match f.mode with
  | .gap => some f.done
  | .plain sofar => some (f.done ++ [sofar])
  | _ => none

/-- No field yet. -/
def Fields.start : Fields := ⟨[], .gap⟩

/-- The fields of a text without delimiters outside quotes. -/
def fields (s : Str) : Option (List Str) :=
  (s.foldlM Fields.step .start).bind Fields.close

/-! ## Entries -/

/-- An entry: its fields, and whether a blank stands before them. -/
structure Entry where
  indented : Bool
  fields : List Str
deriving DecidableEq

/-- The entries read so far, the one that is read, the number of open parentheses, and whether the
reader is in a comment. -/
structure Scan where
  entries : List Entry
  indented : Option Bool
  line : Fields
  depth : ℕ
  comment : Bool
deriving DecidableEq

/-- The start of a line. -/
def Scan.start (entries : List Entry) : Scan :=
  ⟨entries, none, .start, 0, false⟩

/-- The end of a line: of the entry, unless a parenthesis is open. Lines without fields are no
entries. -/
def Scan.endLine (s : Scan) : Scan :=
  if s.depth ≠ 0 then { s with comment := false }
  else if s.line.done.isEmpty then .start s.entries
  else .start (s.entries ++ [⟨s.indented.getD false, s.line.done⟩])

/-- A delimiter. -/
def Scan.delimit (s : Scan) (c : Char) : Option Scan :=
  s.line.close.bind fun done =>
    let s := { s with line := ⟨done, .gap⟩ }
    if c == '\n' then some s.endLine
    else if c == ';' then some { s with comment := true }
    else if c == '(' then some { s with depth := s.depth + 1 }
    else if s.depth = 0 then none
    else some { s with depth := s.depth - 1 }

/-- One character of a file. -/
def Scan.step (s : Scan) (c : Char) : Option Scan :=
  let s := { s with indented := some (s.indented.getD (isBlank c)) }
  if s.comment then some (if c == '\n' then s.endLine else s)
  else match s.line.step c with
    | some line => some { s with line }
    | none => s.delimit c

/-- The entries of a file. -/
def scan (text : Str) : Option (List Entry) :=
  (text.foldlM Scan.step (.start [])).bind fun s =>
    if s.depth ≠ 0 then none
    else s.line.close.map fun done => { s with line := ⟨done, .gap⟩ }.endLine.entries

/-! ## What the entries say -/

/-- Whether a name ends with a dot that is not escaped. -/
def endsAbsolute : Str → Bool
  | [] => false
  | '\\' :: rest => match rest with
    | [] => false
    | _ :: rest => endsAbsolute rest
  | c :: rest => if rest.isEmpty then c == '.' else endsAbsolute rest

/-- A name completed with the origin: `@` is the origin, and names without a dot at their end are
relative to it. -/
def absolute (origin name : Str) : Str :=
  if name == ['@'] then origin
  else if endsAbsolute name then name
  else name ++ '.' :: (if origin == ['.'] then [] else origin)

/-- A decimal number of 32 bits. -/
def readNumber (f : Str) : Option ℕ :=
  if !f.isEmpty && f.all Char.isDigit && Nat.ofDigitChars 10 f 0 < 2 ^ 32 then
    some (Nat.ofDigitChars 10 f 0)
  else none

/-- The TTL and the class before the type of a record, each of which may be missing. -/
def header (ttl : Option ℕ) : List Str → Option ℕ × List Str
  | [] => (ttl, [])
  | f :: rest =>
    match readNumber f with
    | some n => header (some n) rest
    | none => if toAsciiUppercase f == ['I', 'N'] then header ttl rest else (ttl, f :: rest)

/-- How names and record data are read: a name from its absolute text, data from the origin, the type
and the fields. -/
structure Reading (ν δ : Type) where
  name : Str → Option ν
  data : (origin rtype : Str) → List Str → Option δ

/-- What holds until an entry says otherwise. -/
structure Context where
  origin : Str
  ttl : Option ℕ
  owner : Option Str
deriving DecidableEq

section Reading

variable {ν δ : Type} (R : Reading ν δ)

/-- A record: owner, TTL and data. The TTL is the one stated last. -/
def readRecord (ctx : Context) (owner : Str) (fs : List Str) : Option (Context × ν × ℕ × δ) :=
  match header ctx.ttl fs with
  | (some ttl, rtype :: f :: data) =>
    (R.name owner).bind fun name =>
      (R.data ctx.origin rtype (f :: data)).map fun data =>
        (⟨ctx.origin, some ttl, some owner⟩, name, ttl, data)
  | _ => none

/-- An entry: a directive or a record. Other directives than `$ORIGIN` and `$TTL` are not read. -/
def readEntry (ctx : Context) (e : Entry) : Option (Context × List (ν × ℕ × δ)) :=
  if e.indented then
    ctx.owner.bind fun owner => (readRecord R ctx owner e.fields).map fun r => (r.1, [r.2])
  else match e.fields with
    | [] => some (ctx, [])
    | f :: rest =>
      if f == "$ORIGIN".toList then
        match rest with
        | [origin] => some ({ ctx with origin := absolute ctx.origin origin }, [])
        | _ => none
      else if f == "$TTL".toList then
        match rest with
        | [ttl] => (readNumber ttl).map fun ttl => ({ ctx with ttl := some ttl }, [])
        | _ => none
      else if f.head? == some '$' then none
      else (readRecord R ctx (absolute ctx.origin f) rest).map fun r => (r.1, [r.2])

/-- The records of some entries. -/
def readEntries : Context → List Entry → Option (List (ν × ℕ × δ))
  | _, [] => some []
  | ctx, e :: es =>
    (readEntry R ctx e).bind fun p => (readEntries p.1 es).map fun records => p.2 ++ records

/-- The records of a file. -/
def readFile (origin text : Str) : Option (List (ν × ℕ × δ)) :=
  (scan text).bind (readEntries R ⟨origin, none, none⟩)

end Reading

/-! ## The fields of a text -/

/-- Fields that are already there stay before those that are read. -/
lemma foldlM_prepend (pre : List Str) (s : Str) (f : Fields) :
    s.foldlM Fields.step ⟨pre ++ f.done, f.mode⟩ =
      (s.foldlM Fields.step f).map fun g => ⟨pre ++ g.done, g.mode⟩ := by
  induction s generalizing f with
  | nil => rfl
  | cons c s ih =>
    have hstep : Fields.step ⟨pre ++ f.done, f.mode⟩ c =
        (f.step c).map fun g => ⟨pre ++ g.done, g.mode⟩ := by
      unfold Fields.step
      dsimp only
      split
      · split_ifs <;> rfl
      · split_ifs <;> simp
      · split_ifs <;> rfl
      · rfl
      · rfl
    rw [List.foldlM_cons, List.foldlM_cons, hstep]
    cases f.step c with
    | none => rfl
    | some g => exact ih g

/-- A text with fields is read to a place where they can be closed. -/
lemma fields_eq_some {s : Str} {fs : List Str} :
    fields s = some fs ↔ ∃ f, s.foldlM Fields.step .start = some f ∧ f.close = some fs := by
  unfold fields
  rw [Option.bind_eq_some_iff]

/-- Closing what stands behind other fields. -/
lemma close_prepend (pre : List Str) (f : Fields) :
    (⟨pre ++ f.done, f.mode⟩ : Fields).close = f.close.map fun fs => pre ++ fs := by
  unfold Fields.close
  dsimp only
  split
  · rfl
  · simp
  · rfl

/-- A blank closes the field before it. -/
lemma step_blank {f : Fields} {fs : List Str} (h : f.close = some fs) {c : Char}
    (hc : isBlank c = true) : f.step c = some ⟨fs, .gap⟩ := by
  have hdelimiter : isDelimiter c = false := by
    unfold isBlank at hc
    simp only [Bool.or_eq_true, beq_iff_eq] at hc
    rcases hc with (rfl | rfl) | rfl
    all_goals rfl
  obtain ⟨done, mode⟩ := f
  unfold Fields.close at h
  unfold Fields.step
  dsimp only at h ⊢
  split at h
  · cases h
    simp [hdelimiter, hc]
  · cases h
    simp [hdelimiter, hc]
  · cases h

/-- The fields of a text, a blank and more text. -/
lemma fields_append {s : Str} {fs : List Str} (h : fields s = some fs) {c : Char}
    (hc : isBlank c = true) (rest : Str) :
    fields (s ++ c :: rest) = (fields rest).map fun more => fs ++ more := by
  obtain ⟨f, hf, hclose⟩ := fields_eq_some.mp h
  have hgap : (⟨fs, .gap⟩ : Fields) = ⟨fs ++ Fields.start.done, Fields.start.mode⟩ := by
    simp [Fields.start]
  have hrun : (s ++ c :: rest).foldlM Fields.step .start =
      (rest.foldlM Fields.step .start).map fun g => ⟨fs ++ g.done, g.mode⟩ := by
    rw [List.foldlM_append, hf]
    change (f.step c).bind (fun g => rest.foldlM Fields.step g) = _
    rw [step_blank hclose hc, Option.bind_some, hgap, foldlM_prepend]
  unfold fields
  rw [hrun]
  cases rest.foldlM Fields.step .start with
  | none => rfl
  | some g => exact close_prepend fs g

/-! ### Single fields -/

/-- The text is one field. -/
def IsOne (s : Str) : Prop :=
  fields s = some [s]

instance (s : Str) : Decidable (IsOne s) :=
  inferInstanceAs (Decidable (fields s = some [s]))

/-- A character that is a field of its own, with nothing special about it. -/
def isPlain (c : Char) : Bool :=
  !isBlank c && !isDelimiter c && c != '"' && c != '\\'

/-- Plain characters are appended to the field. -/
lemma foldlM_plain {s : Str} (hs : ∀ c ∈ s, isPlain c = true) (done : List Str) (sofar : Str) :
    s.foldlM Fields.step ⟨done, .plain sofar⟩ = some ⟨done, .plain (sofar ++ s)⟩ := by
  induction s generalizing sofar with
  | nil =>
    rw [List.append_nil]
    rfl
  | cons c s ih =>
    have hc := hs c List.mem_cons_self
    simp only [isPlain, Bool.and_eq_true, Bool.not_eq_true', bne_iff_ne, ne_eq] at hc
    obtain ⟨⟨⟨hblank, hdelimiter⟩, hquote⟩, hescape⟩ := hc
    have hstep : Fields.step ⟨done, .plain sofar⟩ c = some ⟨done, .plain (sofar ++ [c])⟩ := by
      simp [Fields.step, Mode.enter, hblank, hdelimiter, hquote, hescape]
    rw [List.foldlM_cons, hstep]
    have htail := ih (fun d hd => hs d (List.mem_cons_of_mem _ hd)) (sofar ++ [c])
    rw [List.append_assoc] at htail
    exact htail

/-- A text of plain characters is one field. -/
lemma isOne_of_plain {s : Str} (hne : s ≠ []) (hs : ∀ c ∈ s, isPlain c = true) : IsOne s := by
  obtain ⟨c, s, rfl⟩ := List.exists_cons_of_ne_nil hne
  have hc := hs c List.mem_cons_self
  simp only [isPlain, Bool.and_eq_true, Bool.not_eq_true', bne_iff_ne, ne_eq] at hc
  obtain ⟨⟨⟨hblank, hdelimiter⟩, hquote⟩, hescape⟩ := hc
  have hstep : Fields.start.step c = some ⟨[], .plain [c]⟩ := by
    simp [Fields.start, Fields.step, Mode.enter, hblank, hdelimiter, hquote, hescape]
  refine fields_eq_some.mpr ⟨⟨[], .plain (c :: s)⟩, ?_, rfl⟩
  rw [List.foldlM_cons, hstep]
  exact foldlM_plain (fun d hd => hs d (List.mem_cons_of_mem _ hd)) [] [c]

/-- The text of the field that is read. -/
def Mode.sofar : Mode → Str
  | .gap => []
  | .plain sofar | .quoted sofar | .escaped _ sofar => sofar

lemma Mode.sofar_enter (w : Str) (c : Char) : (Mode.enter w c).sofar = w ++ [c] := by
  unfold Mode.enter
  split_ifs
  all_goals rfl

/-- The fields that were read are single fields, and reading the text of the last one again leads to
where the reader stands. -/
structure Fields.Sound (f : Fields) : Prop where
  done : ∀ w ∈ f.done, IsOne w
  mode : f.mode.sofar.foldlM Fields.step .start = some ⟨[], f.mode⟩

/-- One character keeps the fields sound. -/
lemma Fields.Sound.step {f g : Fields} {c : Char} (h : f.Sound) (hg : f.step c = some g) : g.Sound := by
  obtain ⟨done, mode⟩ := f
  have hone := h.done
  have hread := h.mode
  -- A character of the field itself, read behind the field so far.
  have hmore : ∀ mode', Fields.step ⟨[], mode⟩ c = some ⟨[], mode'⟩ →
      mode'.sofar = mode.sofar ++ [c] → Fields.Sound ⟨done, mode'⟩ := by
    intro mode' hstep hsofar
    refine ⟨hone, ?_⟩
    dsimp only
    rw [hsofar, List.foldlM_append, hread]
    change (Fields.step ⟨[], mode⟩ c).bind some = some ⟨[], mode'⟩
    rw [hstep, Option.bind_some]
  unfold Fields.step at hg hmore
  dsimp only at hg hmore hread
  split at hg
  · split_ifs at hg with hdelimiter hblank
    · cases hg
      exact h
    · cases hg
      exact hmore _ (by simp [hdelimiter, hblank]) (Mode.sofar_enter [] c)
  · rename_i sofar
    split_ifs at hg with hdelimiter hblank
    · cases hg
      refine ⟨?_, rfl⟩
      intro w hw
      rcases List.mem_append.mp hw with hw | hw
      · exact hone w hw
      · rw [List.mem_singleton.mp hw]
        exact fields_eq_some.mpr ⟨_, hread, rfl⟩
    · cases hg
      exact hmore _ (by simp [hdelimiter, hblank]) (Mode.sofar_enter sofar c)
  · split_ifs at hg with hquote hescape
    all_goals
      cases hg
      exact hmore _ (by simp [*]) rfl
  · cases hg
    exact hmore _ rfl rfl
  · cases hg
    exact hmore _ rfl rfl

/-- A text is read to single fields. -/
lemma isOne_of_mem_fields {s : Str} {fs : List Str} (h : fields s = some fs) :
    ∀ w ∈ fs, IsOne w := by
  have hrun : ∀ (s : Str) (f g : Fields), f.Sound → s.foldlM Fields.step f = some g → g.Sound := by
    intro s
    induction s with
    | nil =>
      intro f g hf hg
      cases hg
      exact hf
    | cons c s ih =>
      intro f g hf hg
      rw [List.foldlM_cons] at hg
      obtain ⟨f', hf', hg⟩ := Option.bind_eq_some_iff.mp hg
      exact ih f' g (hf.step hf') hg
  obtain ⟨⟨done, mode⟩, hf, hclose⟩ := fields_eq_some.mp h
  have hsound := hrun s _ _ ⟨by simp [Fields.start], rfl⟩ hf
  unfold Fields.close at hclose
  dsimp only at hclose
  split at hclose
  · cases hclose
    exact hsound.done
  · cases hclose
    intro w hw
    rcases List.mem_append.mp hw with hw | hw
    · exact hsound.done w hw
    · rw [List.mem_singleton.mp hw]
      exact fields_eq_some.mpr ⟨_, hsound.mode, rfl⟩
  · cases hclose

/-- Fields that are joined with blanks are read back. -/
lemma fields_join {fs : List Str} (h : ∀ w ∈ fs, IsOne w) : fields (join [' '] fs) = some fs := by
  induction fs with
  | nil => rfl
  | cons w fs ih =>
    have hw := h w List.mem_cons_self
    have hrest := ih fun v hv => h v (List.mem_cons_of_mem _ hv)
    cases fs with
    | nil =>
      have hjoin : join [' '] [w] = w := by simp [join]
      rw [hjoin]
      exact hw
    | cons v fs =>
      have hjoin : join [' '] (w :: v :: fs) = w ++ ' ' :: join [' '] (v :: fs) := by
        simp [join, List.intercalate_cons_cons]
      rw [hjoin, fields_append hw rfl, hrest]
      rfl

/-! ## Scanning what was printed -/

/-- Run the reader over a text. -/
def Scan.run (s : Scan) (text : Str) : Option Scan :=
  text.foldlM Scan.step s

/-- In an entry that does not start with a blank, behind the given fields. -/
def Scan.within (entries : List Entry) (depth : ℕ) (fs : List Str) : Scan :=
  ⟨entries, some false, ⟨fs, .gap⟩, depth, false⟩

lemma Scan.run_cons {s s' : Scan} {c : Char} (h : s.step c = some s') (rest : Str) :
    s.run (c :: rest) = s'.run rest := by
  unfold Scan.run
  rw [List.foldlM_cons, h]
  rfl

section Printed

variable {es : List Entry} {depth : ℕ} {fs more : List Str} {text rest : Str} {c : Char}

/-- A text without delimiters changes the fields only. -/
lemma run_append {f g : Fields} (h : text.foldlM Fields.step f = some g) :
    Scan.run ⟨es, some false, f, depth, false⟩ (text ++ rest) =
      Scan.run ⟨es, some false, g, depth, false⟩ rest := by
  induction text generalizing f with
  | nil =>
    cases h
    rfl
  | cons c text ih =>
    rw [List.foldlM_cons] at h
    obtain ⟨f', hf', hg⟩ := Option.bind_eq_some_iff.mp h
    have hstep : Scan.step ⟨es, some false, f, depth, false⟩ c =
        some ⟨es, some false, f', depth, false⟩ := by
      simp [Scan.step, hf']
    rw [List.cons_append, Scan.run_cons hstep, ih hg]

/-- A printed text is scanned to its fields. -/
lemma run_text (h : fields text = some more) (rest : Str) (es : List Entry) (depth : ℕ)
    (fs : List Str) : ∃ f : Fields, f.close = some (fs ++ more) ∧
      (Scan.within es depth fs).run (text ++ rest) =
        Scan.run ⟨es, some false, f, depth, false⟩ rest := by
  obtain ⟨f, hf, hclose⟩ := fields_eq_some.mp h
  refine ⟨⟨fs ++ f.done, f.mode⟩, ?_, ?_⟩
  · rw [close_prepend, hclose]
    rfl
  · refine run_append ?_
    have hgap : (⟨fs, .gap⟩ : Fields) = ⟨fs ++ Fields.start.done, Fields.start.mode⟩ := by
      simp [Fields.start]
    rw [hgap, foldlM_prepend, hf]
    rfl

/-- A text with a blank behind it. -/
lemma run_field (h : fields text = some more) (hc : isBlank c = true) :
    (Scan.within es depth fs).run (text ++ c :: rest) =
      (Scan.within es depth (fs ++ more)).run rest := by
  obtain ⟨f, hclose, hrun⟩ := run_text h (c :: rest) es depth fs
  rw [hrun]
  refine Scan.run_cons ?_ rest
  simp [Scan.step, step_blank hclose hc, Scan.within]

/-- A delimiter behind fields that can be closed. -/
lemma step_delimiter {f : Fields} (h : f.close = some fs) (hc : isDelimiter c = true) :
    Scan.step ⟨es, some false, f, depth, false⟩ c = (Scan.within es depth fs).delimit c := by
  have hnone : f.step c = none := by
    unfold Fields.close at h
    unfold Fields.step
    split at h
    · rename_i hmode
      rw [hmode]
      simp [hc]
    · rename_i hmode
      rw [hmode]
      simp [hc]
    · cases h
  unfold Scan.step
  dsimp only
  rw [hnone]
  simp only [Bool.false_eq_true, if_false]
  unfold Scan.delimit
  rw [h]
  rfl

/-- The last text of an entry. -/
lemma run_lastField (h : fields text = some more) (hne : fs ++ more ≠ []) :
    (Scan.within es 0 fs).run (text ++ '\n' :: rest) =
      (Scan.start (es ++ [⟨false, fs ++ more⟩])).run rest := by
  obtain ⟨f, hclose, hrun⟩ := run_text h ('\n' :: rest) es 0 fs
  rw [hrun]
  refine Scan.run_cons ?_ rest
  rw [step_delimiter hclose rfl]
  have hempty : (fs ++ more).isEmpty = false := by simpa using hne
  change some (Scan.endLine ⟨es, some false, ⟨fs ++ more, .gap⟩, 0, false⟩) = _
  unfold Scan.endLine
  dsimp only
  rw [hempty]
  rfl

/-- An opening parenthesis. -/
lemma run_open : (Scan.within es depth fs).run ('(' :: rest) =
    (Scan.within es (depth + 1) fs).run rest :=
  Scan.run_cons (step_delimiter rfl rfl) rest

/-- A closing parenthesis. -/
lemma run_close : (Scan.within es (depth + 1) fs).run (')' :: rest) =
    (Scan.within es depth fs).run rest :=
  Scan.run_cons (step_delimiter rfl rfl) rest

/-- The end of a line within parentheses. -/
lemma run_newline : (Scan.within es (depth + 1) fs).run ('\n' :: rest) =
    (Scan.within es (depth + 1) fs).run rest :=
  Scan.run_cons (step_delimiter rfl rfl) rest

/-- A comment within parentheses. -/
lemma run_comment (h : '\n' ∉ text) :
    (Scan.within es (depth + 1) fs).run (';' :: text ++ '\n' :: rest) =
      (Scan.within es (depth + 1) fs).run rest := by
  have hbody : ∀ body : Str, '\n' ∉ body →
      Scan.run { Scan.within es (depth + 1) fs with comment := true } (body ++ '\n' :: rest) =
        (Scan.within es (depth + 1) fs).run rest := by
    intro body hbody
    induction body with
    | nil => exact Scan.run_cons rfl rest
    | cons c body ih =>
      have hc : (c == '\n') = false := by
        rw [beq_eq_false_iff_ne]
        rintro rfl
        exact hbody List.mem_cons_self
      have hstep : Scan.step { Scan.within es (depth + 1) fs with comment := true } c =
          some { Scan.within es (depth + 1) fs with comment := true } := by
        simp [Scan.step, Scan.within, hc]
      rw [List.cons_append, Scan.run_cons hstep]
      exact ih fun hmem => hbody (List.mem_cons_of_mem _ hmem)
  rw [List.cons_append, Scan.run_cons (step_delimiter (f := ⟨fs, .gap⟩) rfl rfl)]
  exact hbody text h

/-- The number of characters that were read into fields. -/
def Fields.size (f : Fields) : ℕ :=
  (f.done.map List.length).sum + f.mode.sofar.length

/-- A character adds at most one character to the fields. -/
lemma Fields.size_step {f g : Fields} (h : f.step c = some g) : g.size ≤ f.size + 1 := by
  obtain ⟨done, mode⟩ := f
  unfold Fields.step at h
  dsimp only at h
  unfold Fields.size
  split at h
  · split_ifs at h
    · cases h
      exact Nat.le_succ _
    · cases h
      rw [Mode.sofar_enter]
      exact Nat.le_refl _
  · split_ifs at h
    · cases h
      simp [Mode.sofar]
    · cases h
      rw [Mode.sofar_enter, List.length_append]
      exact Nat.le_refl _
  · split_ifs at h
    all_goals
      cases h
      simp only [Mode.sofar, List.length_append, List.length_singleton]
      omega
  all_goals
    cases h
    simp only [Mode.sofar, List.length_append, List.length_singleton]
    omega

/-- The fields of a text are no longer than the text. -/
lemma length_fields {fs : List Str} (h : fields text = some fs) :
    (fs.map List.length).sum ≤ text.length := by
  have hrun : ∀ (s : Str) (f g : Fields), s.foldlM Fields.step f = some g →
      g.size ≤ f.size + s.length := by
    intro s
    induction s with
    | nil =>
      intro f g hg
      cases hg
      exact Nat.le_refl _
    | cons c s ih =>
      intro f g hg
      rw [List.foldlM_cons] at hg
      obtain ⟨f', hf', hg⟩ := Option.bind_eq_some_iff.mp hg
      have hfirst := Fields.size_step hf'
      have hrest := ih f' g hg
      rw [List.length_cons]
      omega
  obtain ⟨⟨done, mode⟩, hf, hclose⟩ := fields_eq_some.mp h
  have hlength := hrun text _ _ hf
  unfold Fields.close at hclose
  unfold Fields.size at hlength
  dsimp only at hclose hlength
  split at hclose
  · cases hclose
    simpa [Fields.start, Mode.sofar] using hlength
  · cases hclose
    simpa [Fields.start, Mode.sofar] using hlength
  · cases hclose

/-- A single field starts with no blank. -/
lemma IsOne.exists_cons (h : IsOne text) : ∃ c rest, text = c :: rest ∧ isBlank c = false := by
  cases text with
  | nil => cases h
  | cons c rest =>
    refine ⟨c, rest, rfl, ?_⟩
    by_contra hblank
    rw [Bool.not_eq_false] at hblank
    have hdrop : fields (c :: rest) = fields rest := by
      have happend := fields_append (show fields [] = some [] from rfl) hblank rest
      simpa using happend
    have hlength := length_fields (hdrop.symm.trans h)
    simp only [List.map_cons, List.map_nil, List.sum_singleton, List.length_cons] at hlength
    omega

/-- The first field of an entry. -/
lemma run_firstField (h : IsOne text) (hc : isBlank c = true) :
    (Scan.start es).run (text ++ c :: rest) = (Scan.within es 0 [text]).run rest := by
  obtain ⟨d, text, rfl, hd⟩ := h.exists_cons
  have hstart : (Scan.start es).run (d :: text ++ c :: rest) =
      (Scan.within es 0 []).run (d :: text ++ c :: rest) := by
    unfold Scan.run
    rw [List.cons_append, List.foldlM_cons, List.foldlM_cons]
    have hstep : (Scan.start es).step d = (Scan.within es 0 []).step d := by
      simp [Scan.step, Scan.start, Scan.within, Fields.start, hd]
    rw [hstep]
  rw [hstart, run_field h hc]
  rfl

/-- A text that is scanned to the start of a line. -/
lemma scan_of_run (h : (Scan.start []).run text = some (.start es)) : scan text = some es := by
  unfold scan
  rw [show text.foldlM Scan.step (.start []) = some (.start es) from h]
  rfl

end Printed

/-- A name that ends absolutely ends with a dot. -/
lemma endsWith_of_endsAbsolute {s : Str} (h : endsAbsolute s = true) : endsWith s ['.'] = true := by
  rw [endsWith_iff]
  fun_induction endsAbsolute s with
  | case1 => cases h
  | case2 => cases h
  | case3 c rest ih =>
    obtain ⟨pre, hpre⟩ := ih h
    exact ⟨'\\' :: c :: pre, by rw [hpre]; rfl⟩
  | case4 c rest _ hempty =>
    rw [List.isEmpty_iff.mp hempty]
    exact ⟨[], by simpa using h⟩
  | case5 c rest _ hne ih =>
    obtain ⟨pre, hpre⟩ := ih h
    exact ⟨c :: pre, by rw [hpre]; rfl⟩

/-- A number of 32 bits that is printed is read back. -/
lemma readNumber_toDigits {n : ℕ} (h : n < 2 ^ 32) : readNumber (Nat.toDigits 10 n) = some n := by
  have hdigits : (Nat.toDigits 10 n).all Char.isDigit = true :=
    List.all_eq_true.mpr fun c hc => Nat.isDigit_of_mem_toDigits (by decide) (by decide) hc
  have hne : (Nat.toDigits 10 n).isEmpty = false := by simp
  unfold readNumber
  rw [hdigits, hne, Nat.ofDigitChars_ten_toDigits, decide_eq_true h]
  rfl

end MasterFile

end Lib
