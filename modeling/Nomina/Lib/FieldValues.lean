import Nomina.Lib.MasterFile

/-!
# Values of fields

What the fields of a master file stand for: quotes that are not escaped are no part of the value, and a
backslash stands before a character that is taken as it is, or before the three digits of its code. A text
that is spelled without unescaped quotes and without a backslash at its end has the same value inside and
outside quotes.
-/

namespace Lib

namespace MasterFile

/-! ## Values -/

/-- Whether the text starts with three digits. -/
def startsCode (s : Str) : Bool :=
  decide (3 ≤ s.length) && (s.take 3).all Char.isDigit

/-- The value of a text behind its first characters. -/
def valueFrom : ℕ → Str → Str
  | _, [] => []
  | k + 1, _ :: s => valueFrom k s
  | 0, c :: s =>
    if c == '"' then valueFrom 0 s
    else if c == '\\' then
      if startsCode s then Char.ofNat (Nat.ofDigitChars 10 (s.take 3) 0) :: valueFrom 3 s
      else s.take 1 ++ valueFrom 1 s
    else c :: valueFrom 0 s

/-- The value of a field. -/
def fieldValue (s : Str) : Str :=
  valueFrom 0 s

example : fieldValue "\"a\\\"b \\066\\12\"".toList = "a\"b B12".toList := by decide

lemma valueFrom_eq (k : ℕ) (s : Str) : valueFrom k s = fieldValue (s.drop k) := by
  induction k generalizing s with
  | zero => rfl
  | succ k ih =>
    cases s with
    | nil => rfl
    | cons c s => exact ih s

@[simp] lemma fieldValue_nil : fieldValue [] = [] :=
  rfl

/-- A quote is no part of the value. -/
@[simp] lemma fieldValue_quote (s : Str) : fieldValue ('"' :: s) = fieldValue s :=
  rfl

/-- A character that is neither a quote nor a backslash stands for itself. -/
lemma fieldValue_cons {c : Char} (hquote : c ≠ '"') (hescape : c ≠ '\\') (s : Str) :
    fieldValue (c :: s) = c :: fieldValue s := by
  unfold fieldValue
  rw [valueFrom, if_neg (by simpa using hquote), if_neg (by simpa using hescape)]

/-- A backslash before a code. -/
lemma fieldValue_code {s : Str} (h : startsCode s = true) :
    fieldValue ('\\' :: s) = Char.ofNat (Nat.ofDigitChars 10 (s.take 3) 0) :: fieldValue (s.drop 3) := by
  rw [← valueFrom_eq]
  unfold fieldValue
  rw [valueFrom, if_neg (by decide), if_pos (by decide), if_pos h]

/-- A backslash before another character. -/
lemma fieldValue_escape {c : Char} {s : Str} (h : startsCode (c :: s) = false) :
    fieldValue ('\\' :: c :: s) = c :: fieldValue s := by
  unfold fieldValue
  rw [valueFrom, if_neg (by decide), if_pos (by decide), if_neg (by simp [h])]
  rfl

/-- A code starts with a digit. -/
lemma startsCode_eq_false {c : Char} (hc : c.isDigit = false) (s : Str) : startsCode (c :: s) = false := by
  unfold startsCode
  rw [List.take_succ_cons, List.all_cons, hc, Bool.false_and, Bool.and_false]

/-- What is no digit does not complete a code. -/
lemma startsCode_append {t : Str} (ht : ∀ c ∈ t.head?, c.isDigit = false) (s : Str) :
    startsCode (s ++ t) = startsCode s := by
  by_cases hlength : 3 ≤ s.length
  · have hlong : 3 ≤ (s ++ t).length := by
      rw [List.length_append]
      omega
    unfold startsCode
    rw [List.take_append_of_le_length hlength, decide_eq_true hlength, decide_eq_true hlong]
  · have hshort : startsCode s = false := by
      unfold startsCode
      rw [decide_eq_false hlength, Bool.false_and]
    rw [hshort, Bool.eq_false_iff]
    intro hcode
    unfold startsCode at hcode
    rw [Bool.and_eq_true, decide_eq_true_eq, List.length_append] at hcode
    obtain ⟨hlong, hdigits⟩ := hcode
    cases t with
    | nil => exact hlength (by simpa using hlong)
    | cons c t =>
      have hc : c ∈ (s ++ c :: t).take 3 := by
        rw [List.take_append]
        refine List.mem_append_right _ ?_
        obtain ⟨k, hk⟩ := Nat.exists_eq_add_of_lt (not_le.mp hlength)
        have hpos : 3 - s.length = k + 1 := by omega
        rw [hpos, List.take_succ_cons]
        exact List.mem_cons_self
      have hdigit := List.all_eq_true.mp hdigits c hc
      rw [ht c (by simp)] at hdigit
      cases hdigit

/-! ## Spelled texts -/

/-- No backslash is at the end, the characters behind a backslash are of the second kind, and the others
are of the first. -/
def spelled (plain escaped : Char → Bool) : Str → Bool
  | [] => true
  | '\\' :: s =>
    match s with
    | [] => false
    | c :: s => escaped c && spelled plain escaped s
  | c :: s => plain c && spelled plain escaped s

section

variable {plain escaped : Char → Bool}

lemma spelled_cons {c : Char} (hc : c ≠ '\\') (s : Str) :
    spelled plain escaped (c :: s) = (plain c && spelled plain escaped s) := by
  rw [spelled]
  exact hc

lemma spelled_escape (c : Char) (s : Str) :
    spelled plain escaped ('\\' :: c :: s) = (escaped c && spelled plain escaped s) :=
  rfl

/-- Behind a code the text is spelled as well. -/
lemma spelled_drop_code {s : Str} (h : spelled plain escaped ('\\' :: s) = true) (hcode : startsCode s = true) :
    spelled plain escaped (s.drop 3) = true := by
  unfold startsCode at hcode
  rw [Bool.and_eq_true, decide_eq_true_eq] at hcode
  obtain ⟨hlength, hdigits⟩ := hcode
  match s, hlength with
  | a :: b :: c :: s, _ =>
    have hne : ∀ d : Char, d.isDigit = true → d ≠ '\\' := by
      rintro d hd rfl
      cases hd
    simp only [List.take_succ_cons, List.take_zero, List.all_cons, List.all_nil, Bool.and_eq_true] at hdigits
    rw [spelled_escape, spelled_cons (hne b hdigits.2.1), spelled_cons (hne c hdigits.2.2.1)] at h
    simp only [Bool.and_eq_true] at h
    exact h.2.2.2

/-- A text that is spelled in one way is spelled in a more liberal one. -/
lemma spelled_mono {plain' escaped' : Char → Bool} {s : Str} (h : spelled plain escaped s = true)
    (hplain : ∀ c, plain c = true → plain' c = true) (hescaped : ∀ c, escaped c = true → escaped' c = true) :
    spelled plain' escaped' s = true := by
  fun_induction spelled plain escaped s with
  | case1 => rfl
  | case2 => cases h
  | case3 c s ih =>
    rw [Bool.and_eq_true] at h
    rw [spelled_escape, hescaped c h.1, ih h.2]
    rfl
  | case4 c s hescape ih =>
    rw [Bool.and_eq_true] at h
    rw [spelled_cons hescape, hplain c h.1, ih h.2]
    rfl

/-- Behind a spelled text. -/
lemma spelled_append {s : Str} (h : spelled plain escaped s = true) (t : Str) :
    spelled plain escaped (s ++ t) = spelled plain escaped t := by
  fun_induction spelled plain escaped s with
  | case1 => rfl
  | case2 => cases h
  | case3 c s ih =>
    rw [Bool.and_eq_true] at h
    rw [List.cons_append, List.cons_append, spelled_escape, h.1, ih h.2, Bool.true_and]
  | case4 c s hescape ih =>
    rw [Bool.and_eq_true] at h
    rw [List.cons_append, spelled_cons hescape, h.1, ih h.2, Bool.true_and]

/-- Behind characters that are no backslashes. -/
lemma spelled_of_append {s t : Str} (hs : ∀ c ∈ s, c ≠ '\\') (h : spelled plain escaped (s ++ t) = true) :
    spelled plain escaped t = true := by
  induction s with
  | nil => exact h
  | cons c s ih =>
    rw [List.cons_append, spelled_cons (hs c List.mem_cons_self), Bool.and_eq_true] at h
    exact ih (fun d hd => hs d (List.mem_cons_of_mem c hd)) h.2

/-- The first part of a spelled text is spelled, or its last backslash is behind a spelled text. -/
lemma spelled_or_dangling {s t : Str} (h : spelled plain escaped (s ++ t) = true) :
    spelled plain escaped s = true ∨ ∃ x, s = x ++ ['\\'] ∧ spelled plain escaped x = true := by
  fun_induction spelled plain escaped s with
  | case1 => exact .inl rfl
  | case2 => exact .inr ⟨[], rfl, rfl⟩
  | case3 c s ih =>
    rw [List.cons_append, List.cons_append, spelled_escape, Bool.and_eq_true] at h
    rcases ih h.2 with hs | ⟨x, rfl, hx⟩
    · exact .inl (by rw [h.1, hs]; rfl)
    · exact .inr ⟨'\\' :: c :: x, rfl, by rw [spelled_escape, h.1, hx]; rfl⟩
  | case4 c s hescape ih =>
    rw [List.cons_append, spelled_cons hescape, Bool.and_eq_true] at h
    rcases ih h.2 with hs | ⟨x, rfl, hx⟩
    · exact .inl (by rw [h.1, hs]; rfl)
    · exact .inr ⟨c :: x, rfl, by rw [spelled_cons hescape, h.1, hx]; rfl⟩

/-- The value of a spelled text and of what stands behind it, where no digit follows. -/
lemma fieldValue_append {s t : Str} (h : spelled plain escaped s = true)
    (ht : ∀ c ∈ t.head?, c.isDigit = false) : fieldValue (s ++ t) = fieldValue s ++ fieldValue t := by
  induction hn : s.length using Nat.strong_induction_on generalizing s with
  | _ n ih =>
    match s with
    | [] => rfl
    | c :: s =>
      rw [List.length_cons] at hn
      by_cases hescape : c = '\\'
      · subst hescape
        match s with
        | [] => cases h
        | a :: s =>
          by_cases hcode : startsCode (a :: s) = true
          · have hlength : 3 ≤ (a :: s).length := by
              unfold startsCode at hcode
              rw [Bool.and_eq_true, decide_eq_true_eq] at hcode
              exact hcode.1
            have hmore : startsCode (a :: s ++ t) = true := by rwa [startsCode_append ht]
            have hrest := ih _ (by rw [List.length_drop]; omega) (spelled_drop_code h hcode) rfl
            rw [List.cons_append, fieldValue_code hmore, fieldValue_code hcode,
              List.take_append_of_le_length hlength, List.drop_append_of_le_length hlength, hrest]
            rfl
          · rw [Bool.not_eq_true] at hcode
            have hmore : startsCode (a :: (s ++ t)) = false := by
              rw [← List.cons_append, startsCode_append ht, hcode]
            rw [spelled_escape, Bool.and_eq_true] at h
            have hrest := ih s.length (by rw [List.length_cons] at hn; omega) h.2 rfl
            rw [List.cons_append, List.cons_append, fieldValue_escape hmore, fieldValue_escape hcode, hrest]
            rfl
      · rw [spelled_cons hescape, Bool.and_eq_true] at h
        have hrest := ih s.length (by omega) h.2 rfl
        by_cases hquote : c = '"'
        · subst hquote
          exact hrest
        · rw [List.cons_append, fieldValue_cons hquote hescape, fieldValue_cons hquote hescape, hrest]
          rfl

/-- Characters that are neither quotes nor backslashes stand for themselves. -/
lemma fieldValue_plain {s : Str} (h : ∀ c ∈ s, c ≠ '"' ∧ c ≠ '\\') (t : Str) :
    fieldValue (s ++ t) = s ++ fieldValue t := by
  induction s with
  | nil => rfl
  | cons c s ih =>
    obtain ⟨hquote, hescape⟩ := h c List.mem_cons_self
    rw [List.cons_append, fieldValue_cons hquote hescape, ih fun d hd => h d (List.mem_cons_of_mem c hd)]
    rfl

/-- The quotes around a spelled text are no part of its value. -/
lemma fieldValue_quoted {s : Str} (h : spelled plain escaped s = true) :
    fieldValue ('"' :: s ++ ['"']) = fieldValue s := by
  have hdigit : ∀ c ∈ ['"'].head?, c.isDigit = false := by
    rintro c ⟨⟩
    rfl
  rw [List.cons_append, fieldValue_quote, fieldValue_append h hdigit]
  exact List.append_nil _

/-! ## Reading -/

/-- A spelled text is read in a mode that goes on behind its characters and behind its escapes. -/
lemma foldlM_spelled {mode : Str → Mode} {done : List Str} {s : Str} (h : spelled plain escaped s = true)
    (hplain : ∀ c, plain c = true → c ≠ '\\' → ∀ sofar,
      [c].foldlM Fields.step ⟨done, mode sofar⟩ = some ⟨done, mode (sofar ++ [c])⟩)
    (hpair : ∀ c sofar,
      ['\\', c].foldlM Fields.step ⟨done, mode sofar⟩ = some ⟨done, mode (sofar ++ ['\\', c])⟩)
    (sofar : Str) : s.foldlM Fields.step ⟨done, mode sofar⟩ = some ⟨done, mode (sofar ++ s)⟩ := by
  fun_induction spelled plain escaped s generalizing sofar with
  | case1 =>
    rw [List.append_nil]
    rfl
  | case2 => cases h
  | case3 c s ih =>
    rw [Bool.and_eq_true] at h
    have htail := ih h.2 (sofar ++ ['\\', c])
    rw [List.append_assoc] at htail
    change (['\\', c] ++ s).foldlM Fields.step _ = _
    rw [List.foldlM_append, hpair]
    exact htail
  | case4 c s hescape ih =>
    rw [Bool.and_eq_true] at h
    have htail := ih h.2 (sofar ++ [c])
    rw [List.append_assoc] at htail
    rw [← List.singleton_append, List.foldlM_append, hplain c h.1 hescape]
    exact htail

/-- A text that is spelled without quotes is read within quotes. -/
lemma foldlM_spelled_quoted {s : Str} (h : spelled plain escaped s = true)
    (hplain : ∀ c, plain c = true → c ≠ '"') (done : List Str) (sofar : Str) :
    s.foldlM Fields.step ⟨done, .quoted sofar⟩ = some ⟨done, .quoted (sofar ++ s)⟩ := by
  refine foldlM_spelled h (fun c hc hescape sofar => ?_) (fun c sofar => ?_) sofar
  · simp [Fields.step, hplain c hc, hescape]
  · simp [Fields.step]

/-- A text that is spelled without quotes, blanks and delimiters is read in a field. -/
lemma foldlM_spelled_plain {s : Str} (h : spelled plain escaped s = true)
    (hplain : ∀ c, plain c = true → c ≠ '\\' → isPlain c = true) (done : List Str) (sofar : Str) :
    s.foldlM Fields.step ⟨done, .plain sofar⟩ = some ⟨done, .plain (sofar ++ s)⟩ := by
  refine foldlM_spelled h (fun c hc hescape sofar => ?_) (fun c sofar => ?_) sofar
  · exact foldlM_plain (fun d hd => List.mem_singleton.mp hd ▸ hplain c hc hescape) done sofar
  · simp [Fields.step, Mode.enter, isDelimiter, isBlank]

/-- A spelled text in quotes is one field. -/
lemma isOne_quoted {s : Str} (h : spelled plain escaped s = true) (hplain : ∀ c, plain c = true → c ≠ '"') :
    IsOne ('"' :: s ++ ['"']) := by
  refine fields_eq_some.mpr ⟨⟨[], .plain ('"' :: s ++ ['"'])⟩, ?_, rfl⟩
  change (s ++ ['"']).foldlM Fields.step ⟨[], .quoted ['"']⟩ = _
  rw [List.foldlM_append, foldlM_spelled_quoted h hplain]
  rfl

/-- A spelled text without quotes, blanks and delimiters is one field. -/
lemma isOne_spelled {s : Str} (hne : s ≠ []) (h : spelled plain escaped s = true)
    (hplain : ∀ c, plain c = true → c ≠ '\\' → isPlain c = true) : IsOne s := by
  obtain ⟨c, s, rfl⟩ := List.exists_cons_of_ne_nil hne
  have hread := foldlM_spelled_plain h hplain [] []
  refine fields_eq_some.mpr ⟨⟨[], .plain (c :: s)⟩, ?_, rfl⟩
  have hfirst : Fields.start.step c = Fields.step ⟨[], .plain []⟩ c := by
    by_cases hescape : c = '\\'
    · subst hescape
      rfl
    · rw [spelled_cons hescape, Bool.and_eq_true] at h
      have hc := hplain c h.1 hescape
      simp only [isPlain, Bool.and_eq_true, Bool.not_eq_true'] at hc
      simp [Fields.start, Fields.step, hc.1.1.1, hc.1.1.2]
  rw [List.foldlM_cons] at hread ⊢
  rw [hfirst]
  exact hread

/-! ### Fields in a line -/

/-- The fields that were read stay. -/
lemma done_of_close {s : Str} {f g : Fields} {fs : List Str} (hg : s.foldlM Fields.step f = some g)
    (hclose : g.close = some fs) : ∃ rest, fs = f.done ++ rest := by
  have hstart : f = ⟨f.done ++ (⟨[], f.mode⟩ : Fields).done, f.mode⟩ := by
    rw [List.append_nil]
  rw [hstart, foldlM_prepend, Option.map_eq_some_iff] at hg
  obtain ⟨g', -, rfl⟩ := hg
  rw [close_prepend, Option.map_eq_some_iff] at hclose
  obtain ⟨rest, -, rfl⟩ := hclose
  exact ⟨rest, rfl⟩

/-- A character of a field that is begun ends the field, or goes on with it. -/
lemma step_of_begun {f g : Fields} {c : Char} (hf : f.mode ≠ .gap) (hg : f.step c = some g) :
    g = ⟨f.done ++ [f.mode.sofar], .gap⟩ ∨
      g.done = f.done ∧ g.mode ≠ .gap ∧ g.mode.sofar = f.mode.sofar ++ [c] := by
  have henter : ∀ sofar, Mode.enter sofar c ≠ .gap := by
    intro sofar
    unfold Mode.enter
    split_ifs <;> simp
  obtain ⟨done, mode⟩ := f
  unfold Fields.step at hg
  dsimp only at hg hf ⊢
  split at hg
  · exact absurd rfl hf
  · split_ifs at hg
    · cases hg
      exact .inl rfl
    · cases hg
      exact .inr ⟨rfl, henter _, Mode.sofar_enter _ c⟩
  · split_ifs at hg
    all_goals
      cases hg
      exact .inr ⟨rfl, by simp, rfl⟩
  all_goals
    cases hg
    exact .inr ⟨rfl, by simp, rfl⟩

/-- A field that is begun goes on: the field that is read starts with it. -/
lemma close_of_begun {s : Str} {f g : Fields} {fs : List Str} (hf : f.mode ≠ .gap)
    (hg : s.foldlM Fields.step f = some g) (hclose : g.close = some fs) :
    ∃ more rest, fs = f.done ++ (f.mode.sofar ++ more) :: rest := by
  induction s generalizing f with
  | nil =>
    obtain ⟨done, mode⟩ := f
    cases hg
    cases mode with
    | gap => exact absurd rfl hf
    | plain sofar =>
      cases hclose
      exact ⟨[], [], by rw [List.append_nil]; rfl⟩
    | quoted sofar => cases hclose
    | escaped inQuotes sofar => cases hclose
  | cons c s ih =>
    rw [List.foldlM_cons] at hg
    obtain ⟨f', hf', hg⟩ := Option.bind_eq_some_iff.mp hg
    rcases step_of_begun hf hf' with rfl | ⟨hdone, hmode, hsofar⟩
    · obtain ⟨rest, rfl⟩ := done_of_close hg hclose
      exact ⟨[], rest, by simp⟩
    · obtain ⟨more, rest, rfl⟩ := ih hmode hg
      exact ⟨c :: more, rest, by rw [hdone, hsofar, List.append_assoc]; rfl⟩

/-- Fields behind a field. -/
lemma fields_join_cons {w : Str} (hw : IsOne w) (ws : List Str) :
    fields (join [' '] (w :: ws)) = (fields (join [' '] ws)).map fun more => w :: more := by
  cases ws with
  | nil =>
    have hjoin : join [' '] [w] = w := by simp [join]
    rw [hjoin]
    exact hw
  | cons v ws =>
    have hjoin : join [' '] (w :: v :: ws) = w ++ ' ' :: join [' '] (v :: ws) := by
      simp [join, List.intercalate_cons_cons]
    rw [hjoin, fields_append hw rfl]
    rfl

/-- A quoted text whose last quote is escaped goes on with what follows. -/
lemma fields_join_open {x : Str} (h : spelled plain escaped x = true) (hplain : ∀ c, plain c = true → c ≠ '"')
    {ws fs : List Str} (hfields : fields (join [' '] (('"' :: x ++ ['\\', '"']) :: ws)) = some fs) :
    ∃ more rest, fs = ('"' :: x ++ ['\\', '"'] ++ ' ' :: more) :: rest := by
  have hread : ('"' :: x ++ ['\\', '"']).foldlM Fields.step .start =
      some ⟨[], .quoted ('"' :: x ++ ['\\', '"'])⟩ := by
    change (x ++ ['\\', '"']).foldlM Fields.step ⟨[], .quoted ['"']⟩ = _
    rw [List.foldlM_append, foldlM_spelled_quoted h hplain]
    simp [Fields.step]
  obtain ⟨g, hg, hclose⟩ := fields_eq_some.mp hfields
  cases ws with
  | nil =>
    have hjoin : join [' '] ['"' :: x ++ ['\\', '"']] = '"' :: x ++ ['\\', '"'] := by simp [join]
    rw [hjoin, hread] at hg
    cases hg
    cases hclose
  | cons w ws =>
    have hjoin : join [' '] (('"' :: x ++ ['\\', '"']) :: w :: ws) =
        ('"' :: x ++ ['\\', '"']) ++ ([' '] ++ join [' '] (w :: ws)) := by
      simp [join, List.intercalate_cons_cons]
    have hblank : [' '].foldlM Fields.step ⟨[], .quoted ('"' :: x ++ ['\\', '"'])⟩ =
        some ⟨[], .quoted ('"' :: x ++ ['\\', '"'] ++ [' '])⟩ := rfl
    rw [hjoin, List.foldlM_append, hread, Option.bind_eq_bind, Option.bind_some, List.foldlM_append, hblank] at hg
    obtain ⟨more, rest, rfl⟩ := close_of_begun (by simp) hg hclose
    exact ⟨more, rest, by simp [Mode.sofar]⟩

/-- The value of a quoted text whose last quote is escaped, and of what follows. -/
lemma fieldValue_open {x : Str} (h : spelled plain escaped x = true) (more : Str) :
    fieldValue ('"' :: x ++ ['\\', '"'] ++ ' ' :: more) = fieldValue x ++ '"' :: ' ' :: fieldValue more := by
  have hquote : fieldValue ('\\' :: '"' :: ' ' :: more) = '"' :: ' ' :: fieldValue more := by
    rw [fieldValue_escape (startsCode_eq_false (by decide) _), fieldValue_cons (by decide) (by decide)]
  rw [List.append_assoc, List.cons_append, fieldValue_quote,
    fieldValue_append h fun c hc => by cases hc; rfl]
  exact congrArg (fieldValue x ++ ·) hquote

/-- The fields stand one after the other in the text, with blanks between them. -/
inductive Spaced : Str → List Str → Prop
  | blank {s : Str} (hs : ∀ c ∈ s, isBlank c = true) : Spaced s []
  | cons {pre w rest : Str} {ws : List Str} (hpre : ∀ c ∈ pre, isBlank c = true) (hw : IsOne w)
      (hrest : ∀ c ∈ rest.head?, isBlank c = true) (hws : Spaced rest ws) : Spaced (pre ++ w ++ rest) (w :: ws)

/-- Blanks before the fields do not matter. -/
lemma fields_blanks {pre : Str} (h : ∀ c ∈ pre, isBlank c = true) (s : Str) : fields (pre ++ s) = fields s := by
  induction pre with
  | nil => rfl
  | cons c pre ih =>
    have happend := fields_append (show fields [] = some [] from rfl) (h c List.mem_cons_self) (pre ++ s)
    rw [ih fun d hd => h d (List.mem_cons_of_mem c hd)] at happend
    simpa using happend

/-- Fields with blanks between them are read. -/
lemma Spaced.fields_eq {s : Str} {ws : List Str} (h : Spaced s ws) : fields s = some ws := by
  induction h with
  | @blank s hs =>
    have hblanks := fields_blanks hs []
    rwa [List.append_nil] at hblanks
  | @cons pre w rest ws hpre hw hrest _ ih =>
    rw [List.append_assoc, fields_blanks hpre]
    cases rest with
    | nil =>
      cases ih
      rw [List.append_nil]
      exact hw
    | cons c rest =>
      have hc := hrest c rfl
      have hone : ∀ d ∈ [c], isBlank d = true := by simpa using hc
      have hskip := fields_blanks hone rest
      rw [List.singleton_append, ih] at hskip
      rw [fields_append hw hc, ← hskip]
      rfl

end

end MasterFile

end Lib
