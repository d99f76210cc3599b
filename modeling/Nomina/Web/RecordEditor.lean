import Nomina.Lib.FieldValues

/-!
# The record editor

The editor of a record in `web/views/zone-detail.js` splits the data of the record into the fields of its
type, shows them in a form, and puts together what the form holds when it is saved. Nothing is to change
when nothing is edited. The data is split with a pattern that knows quotes but no escapes, the inputs drop
line ends, and the values of quoted fields are trimmed, so it is not so for all data; the main result says
for which data it is.
-/

namespace Nomina

namespace RecordEditor

open Lib Lib.MasterFile

/-! ## Strings -/

/-- `\s` of a regular expression: white space and line ends. -/
def isSpace (c : Char) : Bool :=
  let n := c.toNat
  (0x9 ≤ n && n ≤ 0xd) || n == 0x20 || n == 0xa0 || n == 0x1680 || (0x2000 ≤ n && n ≤ 0x200a) ||
    n == 0x2028 || n == 0x2029 || n == 0x202f || n == 0x205f || n == 0x3000 || n == 0xfeff

/-- `String.prototype.trim`. -/
def trimSpace (s : Str) : Str :=
  (s.dropWhile isSpace).rdropWhile isSpace

/-- `replace(/^"|"$/g, "")`. -/
def stripQuotes (s : Str) : Str :=
  let s := if s.head? == some '"' then s.tail else s
  if s.getLast? == some '"' then s.dropLast else s

/-- Where the search for `"[^"]*"|\S+` stands: between two matches, or in a match of one of the parts. -/
inductive Search
  | between
  | quoted (sofar : Str)
  | run (sofar : Str)

/-- The matches in the rest of a string. A quote opens a quoted match when there is another one. -/
def matchesFrom : Search → Str → List Str
  | .between, [] => []
  | .quoted sofar, [] => [sofar]
  | .run sofar, [] => [sofar]
  | .between, c :: s =>
    if c == '"' && s.contains '"' then matchesFrom (.quoted [c]) s
    else if isSpace c then matchesFrom .between s
    else matchesFrom (.run [c]) s
  | .quoted sofar, c :: s =>
    if c == '"' then (sofar ++ [c]) :: matchesFrom .between s else matchesFrom (.quoted (sofar ++ [c])) s
  | .run sofar, c :: s =>
    if isSpace c then sofar :: matchesFrom .between s else matchesFrom (.run (sofar ++ [c])) s

/-- `tokenizeData`. -/
def tokenizeData (s : Str) : List Str :=
  matchesFrom .between s

/-! ## Fields -/

/-- The kind of a field: a text, a number, a choice between options, a text in quotes, or all that is left.
The marks `type`, `quote` and `rest` of the schemas never go together. -/
inductive FieldKind
  | text
  | number
  | select (first : Str) (others : List Str)
  | quote
  | rest
deriving DecidableEq

/-- A field of a schema. -/
structure Field where
  key : Str
  kind : FieldKind
deriving DecidableEq

/-- `FIELD_SCHEMAS`. -/
def fieldSchemas : List (Str × List Field) :=
  [("A", [⟨"address", .text⟩]),
   ("AAAA", [⟨"address", .text⟩]),
   ("ANAME", [⟨"target", .text⟩]),
   ("CNAME", [⟨"target", .text⟩]),
   ("NS", [⟨"target", .text⟩]),
   ("PTR", [⟨"target", .text⟩]),
   ("MX", [⟨"preference", .number⟩, ⟨"exchange", .text⟩]),
   ("SRV", [⟨"priority", .number⟩, ⟨"weight", .number⟩, ⟨"port", .number⟩, ⟨"target", .text⟩]),
   ("CAA", [⟨"flags", .number⟩, ⟨"tag", .select "issue" ["issuewild".toList, "iodef".toList]⟩, ⟨"value", .quote⟩]),
   ("TXT", [⟨"text", .rest⟩]),
   ("HINFO", [⟨"cpu", .quote⟩, ⟨"os", .quote⟩]),
   ("SSHFP", [⟨"algorithm", .number⟩, ⟨"fptype", .number⟩, ⟨"fingerprint", .rest⟩]),
   ("TLSA", [⟨"usage", .number⟩, ⟨"selector", .number⟩, ⟨"matching", .number⟩, ⟨"cert", .rest⟩]),
   ("SMIMEA", [⟨"usage", .number⟩, ⟨"selector", .number⟩, ⟨"matching", .number⟩, ⟨"cert", .rest⟩]),
   ("CERT", [⟨"cert_type", .number⟩, ⟨"key_tag", .number⟩, ⟨"algorithm", .number⟩, ⟨"certificate", .rest⟩]),
   ("CSYNC", [⟨"soa_serial", .number⟩, ⟨"flags", .number⟩, ⟨"types", .rest⟩]),
   ("NAPTR", [⟨"order", .number⟩, ⟨"preference", .number⟩, ⟨"flags", .quote⟩, ⟨"service", .quote⟩,
     ⟨"regexp", .quote⟩, ⟨"replacement", .text⟩]),
   ("SVCB", [⟨"priority", .number⟩, ⟨"target", .text⟩, ⟨"params", .rest⟩]),
   ("HTTPS", [⟨"priority", .number⟩, ⟨"target", .text⟩, ⟨"params", .rest⟩]),
   ("OPENPGPKEY", [⟨"key", .rest⟩])]

/-- The fields of a type. -/
def schemaOf (type : Str) : List Field :=
  (fieldSchemas.lookup type).getD [⟨"data", .rest⟩]

/-- What is shown of a match in a field for one. -/
def cell (kind : FieldKind) (tok : Str) : Str :=
  match kind with
  | .quote => stripQuotes tok
  | _ => tok

/-- The values of the fields, in their order, for the matches in the data. -/
def splitTokens : List Field → List Str → List Str
  | [], _ => []
  | f :: fs, toks =>
    if f.kind = .rest then join [' '] toks :: splitTokens fs []
    else cell f.kind (toks.head?.getD []) :: splitTokens fs toks.tail

/-- `splitData`. -/
def splitData (type data : Str) : List Str :=
  splitTokens (schemaOf type) (tokenizeData data)

/-- What a field adds to the data. -/
def assembled (kind : FieldKind) (value : Str) : Str :=
  let raw := trimSpace value
  match kind with
  | .quote => '"' :: stripQuotes raw ++ ['"']
  | _ => raw

/-- `assembleData`, for the values of the inputs in the order of the fields. -/
def assembleData (type : Str) (inputs : List Str) : Str :=
  trimSpace (join [' '] (List.zipWith (fun f value => assembled f.kind value) (schemaOf type) inputs))

/-! ## The form -/

/-- Digits at the start of a text, at least one, and what follows. -/
def readDigits (s : Str) : Option Str :=
  if (s.takeWhile Char.isDigit).isEmpty then none else some (s.dropWhile Char.isDigit)

/-- The exponent of a number, if there is one, up to the end. -/
def isExponent : Str → Bool
  | [] => true
  | e :: s =>
    (e == 'e' || e == 'E') &&
      readDigits (if s.head? == some '-' || s.head? == some '+' then s.tail else s) == some []

/-- A valid floating-point number of HTML: a sign, digits with a fraction or one of them, and an exponent. -/
def isNumber (s : Str) : Bool :=
  let s := if s.head? == some '-' then s.tail else s
  match readDigits s, s with
  | some ('.' :: rest), _ => (readDigits rest).any isExponent
  | some rest, _ => isExponent rest
  | none, '.' :: rest => (readDigits rest).any isExponent
  | none, _ => false

/-- A character that an input for texts keeps: no line end. -/
def isKept (c : Char) : Bool :=
  c != '\n' && c != '\r'

/-- What an input holds that is set to a value: a choice shows its first option when it has no such one, an
input for numbers stays empty when the value is none, and an input for texts drops line ends. -/
def shown (kind : FieldKind) (value : Str) : Str :=
  match kind with
  | .select first others => if (first :: others).contains value then value else first
  | .number => if isNumber value then value else []
  | _ => value.filter isKept

/-- What is sent when the editor of a record is opened and saved: nothing when a field is empty. -/
def saveUnedited (type data : Str) : Option Str :=
  let inputs := List.zipWith (fun f value => shown f.kind value) (schemaOf type) (splitData type data)
  if inputs.any fun value => (trimSpace value).isEmpty then none else some (assembleData type inputs)

/-! ## Tokens -/

/-- A character of a word that is no escape: no quote, no blank and no delimiter. -/
def isWordChar (c : Char) : Bool :=
  c != '"' && !isBlank c && !isDelimiter c

/-- A character within quotes that is no escape. -/
def isQuotedChar (c : Char) : Bool :=
  c != '"'

/-- A token of RFC 1035: a word, or a string in quotes. -/
inductive Token
  | word (text : Str) (hne : text ≠ []) (h : spelled isWordChar (fun _ => true) text = true)
  | quoted (content : Str) (h : spelled isQuotedChar (fun _ => true) content = true)

/-- The text of a token. -/
def Token.text : Token → Str
  | .word text _ _ => text
  | .quoted content _ => '"' :: content ++ ['"']

/-- The value of a token. -/
def Token.value : Token → Str
  | .word text _ _ => fieldValue text
  | .quoted content _ => fieldValue content

/-- The values that a text is read as. -/
def readValues (s : Str) : Option (List Str) :=
  (fields s).map (List.map fieldValue)

/-- The token is shown in the field, which is not empty then. -/
def FieldKind.Holds (kind : FieldKind) (t : Token) : Prop :=
  match kind, t with
  | .number, t => isNumber t.text = true
  | .quote, .quoted content _ => trimSpace content ≠ []
  | _, _ => True

/-- The tokens fill all fields: there is one for each, and at least one for the rest. -/
inductive Fills : List Field → List Token → Prop
  | nil : Fills [] []
  | cons {f : Field} {fs : List Field} {t : Token} {ts : List Token} (hkind : f.kind ≠ .rest)
      (hholds : f.kind.Holds t) (hrest : Fills fs ts) : Fills (f :: fs) (t :: ts)
  | rest {f : Field} {t : Token} {ts : List Token} (hkind : f.kind = .rest) : Fills [f] (t :: ts)

/-- Saving without edits sends what the data was split into, and it is read as the same values. -/
def KeepsMeaning (type data : Str) : Prop :=
  saveUnedited type data = some (assembleData type (splitData type data)) ∧
    readValues (assembleData type (splitData type data)) = readValues data

/-- The token is more than one match: white space is in a word, where it is escaped or no blank between
tokens, or an escaped quote is in a quoted token. -/
def Token.Cut : Token → Prop
  | .word text _ _ => ∃ c ∈ text, isSpace c = true
  | .quoted content _ => '"' ∈ content

/-- No line end is in the token. -/
def Token.OneLine (t : Token) : Prop :=
  ∀ c ∈ t.text, isKept c = true

/-- The field keeps the token: a choice has it as an option, and in a quoted field it has no blanks at its
ends when it is quoted, and no quote at its end when it is a word. -/
def FieldKind.Keeps (kind : FieldKind) (t : Token) : Prop :=
  match kind, t with
  | .select first others, t => t.text ∈ first :: others
  | .quote, .quoted content _ => trimSpace content = content
  | .quote, .word w _ _ => w.getLast? ≠ some '"'
  | _, _ => True

/-- The fields keep their tokens, which have no line ends. -/
structure FieldsKeep (schema : List Field) (ts : List Token) : Prop where
  oneLine : ∀ t ∈ ts, t.OneLine
  keeps : ∀ p ∈ schema.zip ts, p.1.kind.Keeps p.2

/-! ## The search -/

lemma isSpace_of_isBlank {c : Char} (h : isBlank c = true) : isSpace c = true := by
  simp only [isBlank, Bool.or_eq_true, beq_iff_eq] at h
  rcases h with (rfl | rfl) | rfl
  all_goals decide

/-- What is no blank is no line end. -/
lemma isKept_of_notSpace {c : Char} (h : isSpace c = false) : isKept c = true := by
  unfold isKept
  rw [Bool.and_eq_true, bne_iff_ne, bne_iff_ne]
  constructor
  · rintro rfl
    cases h
  · rintro rfl
    cases h

/-- A blank is neither a quote, nor a backslash, nor a digit. -/
lemma of_isSpace {c : Char} (h : isSpace c = true) : c ≠ '"' ∧ c ≠ '\\' ∧ c.isDigit = false := by
  refine ⟨?_, ?_, ?_⟩
  · rintro rfl
    cases h
  · rintro rfl
    cases h
  · rw [Bool.eq_false_iff]
    intro hdigit
    simp only [Char.isDigit, Bool.and_eq_true, decide_eq_true_eq, ge_iff_le, UInt32.le_iff_toNat_le] at hdigit
    have hlow : 48 ≤ c.toNat := hdigit.1
    have hhigh : c.toNat ≤ 57 := hdigit.2
    simp only [isSpace, Bool.or_eq_true, Bool.and_eq_true, decide_eq_true_eq, beq_iff_eq] at h
    omega

/-- Blanks are passed over. -/
lemma matchesFrom_space {c : Char} (h : isSpace c = true) (s : Str) :
    matchesFrom .between (c :: s) = matchesFrom .between s := by
  rw [matchesFrom, if_neg (by simp [(of_isSpace h).1]), if_pos h]

lemma matchesFrom_spaces {pre : Str} (h : ∀ c ∈ pre, isSpace c = true) (s : Str) :
    matchesFrom .between (pre ++ s) = matchesFrom .between s := by
  induction pre with
  | nil => rfl
  | cons c pre ih =>
    rw [List.cons_append, matchesFrom_space (h c List.mem_cons_self)]
    exact ih fun d hd => h d (List.mem_cons_of_mem c hd)

/-- A run ends before a blank. -/
lemma matchesFrom_run {s rest : Str} (hs : ∀ c ∈ s, isSpace c = false)
    (hrest : ∀ c ∈ rest.head?, isSpace c = true) (sofar : Str) :
    matchesFrom (.run sofar) (s ++ rest) = (sofar ++ s) :: matchesFrom .between rest := by
  induction s generalizing sofar with
  | nil =>
    rw [List.append_nil]
    cases rest with
    | nil => rfl
    | cons c rest =>
      have hc := hrest c rfl
      rw [matchesFrom_space hc, List.nil_append, matchesFrom, if_pos hc]
  | cons c s ih =>
    have hc := hs c List.mem_cons_self
    rw [List.cons_append, matchesFrom, if_neg (by simp [hc]), ih fun d hd => hs d (List.mem_cons_of_mem c hd),
      List.append_assoc]
    rfl

/-- A quoted match ends with the next quote. -/
lemma matchesFrom_quoted {s : Str} (hs : '"' ∉ s) (rest sofar : Str) :
    matchesFrom (.quoted sofar) (s ++ '"' :: rest) = (sofar ++ s ++ ['"']) :: matchesFrom .between rest := by
  induction s generalizing sofar with
  | nil =>
    rw [List.append_nil, List.nil_append, matchesFrom, if_pos (by decide)]
  | cons c s ih =>
    have hc : c ≠ '"' := fun h => hs (h ▸ List.mem_cons_self)
    rw [List.cons_append, matchesFrom, if_neg (by simpa using hc), ih fun hd => hs (List.mem_cons_of_mem c hd)]
    simp

/-! ## Trimming -/

/-- A text that is not empty and has no blanks at its ends. -/
structure Trimmed (s : Str) : Prop where
  ne_nil : s ≠ []
  head : ∀ c ∈ s.head?, isSpace c = false
  last : ∀ c ∈ s.getLast?, isSpace c = false

lemma Trimmed.trimSpace_eq {s : Str} (h : Trimmed s) : trimSpace s = s := by
  have hfront : s.dropWhile isSpace = s := by
    cases s with
    | nil => rfl
    | cons c s => rw [List.dropWhile_cons_of_neg (by simp [h.head c rfl])]
  unfold trimSpace
  rw [hfront, List.rdropWhile_eq_self_iff]
  intro hs
  simp [h.last _ (List.getLast?_eq_some_getLast hs)]

lemma trimmed_trimSpace {s : Str} (h : trimSpace s ≠ []) : Trimmed (trimSpace s) :=
  ⟨h, fun _ hc => head?_trimmed hc, fun _ hc => getLast?_rdropWhile hc⟩

/-- The blanks at the ends of a text. -/
lemma exists_trimmed_ends (s : Str) : ∃ lead trail, s = lead ++ trimSpace s ++ trail ∧
    (∀ c ∈ lead, isSpace c = true) ∧ ∀ c ∈ trail, isSpace c = true := by
  refine ⟨s.takeWhile isSpace, (s.dropWhile isSpace).rtakeWhile isSpace, ?_, fun c hc => ?_, fun c hc => ?_⟩
  · unfold trimSpace
    rw [List.append_assoc, List.rdropWhile_append_rtakeWhile, List.takeWhile_append_dropWhile]
  · exact List.mem_takeWhile_imp hc
  · exact List.mem_rtakeWhile_imp hc

lemma trimmed_of_noSpace {s : Str} (hne : s ≠ []) (h : ∀ c ∈ s, isSpace c = false) : Trimmed s :=
  ⟨hne, fun c hc => h c (List.mem_of_mem_head? hc), fun c hc => h c (List.mem_of_mem_getLast? hc)⟩

lemma trimmed_quoted (s : Str) : Trimmed ('"' :: s ++ ['"']) := by
  refine ⟨by simp, fun c hc => ?_, fun c hc => ?_⟩
  · cases hc
    rfl
  · rw [List.getLast?_concat] at hc
    cases hc
    rfl

/-- Texts without blanks at their ends are joined to one. -/
lemma trimmed_join {ps : List Str} (hne : ps ≠ []) (h : ∀ p ∈ ps, Trimmed p) : Trimmed (join [' '] ps) := by
  induction ps with
  | nil => exact absurd rfl hne
  | cons p ps ih =>
    have hp := h p List.mem_cons_self
    by_cases hnil : ps = []
    · subst hnil
      simpa [join] using hp
    · have hjoin : join [' '] (p :: ps) = p ++ [' '] ++ join [' '] ps := List.intercalate_cons_of_ne_nil hnil
      have hrest := ih hnil fun q hq => h q (List.mem_cons_of_mem p hq)
      obtain ⟨c, p, rfl⟩ := List.exists_cons_of_ne_nil hp.ne_nil
      rw [hjoin]
      refine ⟨by simp, fun d hd => ?_, fun d hd => ?_⟩
      · cases hd
        exact hp.head c rfl
      · rw [List.getLast?_append_of_ne_nil _ hrest.ne_nil] at hd
        exact hrest.last d hd

/-- What holds of the characters of all parts holds of those that are joined. -/
lemma forall_mem_join {P : Char → Prop} {ps : List Str} (h : ∀ p ∈ ps, ∀ c ∈ p, P c) (hblank : P ' ') :
    ∀ c ∈ join [' '] ps, P c := by
  induction ps with
  | nil => exact fun c hc => absurd hc List.not_mem_nil
  | cons p ps ih =>
    have hrest := ih fun q hq => h q (List.mem_cons_of_mem p hq)
    intro c hc
    by_cases hnil : ps = []
    · subst hnil
      exact h p List.mem_cons_self c (by simpa [join] using hc)
    · have hjoin : join [' '] (p :: ps) = p ++ [' '] ++ join [' '] ps := List.intercalate_cons_of_ne_nil hnil
      rw [hjoin, List.mem_append, List.mem_append, List.mem_singleton] at hc
      rcases hc with (hc | rfl) | hc
      · exact h p List.mem_cons_self c hc
      · exact hblank
      · exact hrest c hc

/-- The characters of a part are among those that are joined. -/
lemma mem_join {ps : List Str} {p : Str} (hp : p ∈ ps) {c : Char} (hc : c ∈ p) : c ∈ join [' '] ps := by
  induction ps with
  | nil => cases hp
  | cons q ps ih =>
    by_cases hnil : ps = []
    · subst hnil
      rw [List.mem_singleton] at hp
      simpa [join, hp] using hc
    · have hjoin : join [' '] (q :: ps) = q ++ [' '] ++ join [' '] ps := List.intercalate_cons_of_ne_nil hnil
      rw [hjoin, List.mem_append]
      rcases List.mem_cons.mp hp with rfl | hp
      · exact .inl (List.mem_append_left _ hc)
      · exact .inr (ih hp)

/-- Joined texts start with the first one. -/
lemma exists_join_cons (ps : List Str) : ∃ x, ∀ p, join [' '] (p :: ps) = p ++ x := by
  cases ps with
  | nil => exact ⟨[], fun p => by simp [join]⟩
  | cons q ps => exact ⟨' ' :: join [' '] (q :: ps), fun p => by simp [join, List.intercalate_cons_cons]⟩

/-- Without line ends, a text still has no blanks at its ends. -/
lemma Trimmed.filter {s : Str} (h : Trimmed s) : Trimmed (s.filter isKept) := by
  obtain ⟨c, u, rfl⟩ := List.exists_cons_of_ne_nil h.ne_nil
  have hhead := h.head c rfl
  have hlast := h.last _ (List.getLast?_eq_some_getLast h.ne_nil)
  refine ⟨?_, ?_, ?_⟩
  · rw [List.filter_cons_of_pos (isKept_of_notSpace hhead)]
    exact List.cons_ne_nil _ _
  · rw [List.filter_cons_of_pos (isKept_of_notSpace hhead)]
    intro d hd
    cases hd
    exact hhead
  · rw [← List.dropLast_append_getLast h.ne_nil, List.filter_append,
      List.filter_cons_of_pos (isKept_of_notSpace hlast), List.filter_nil, List.getLast?_concat]
    intro d hd
    cases hd
    exact hlast

/-- Where a text without its line ends starts as the text does, and its last character is none, it has none. -/
lemma forall_isKept {s x y : Str} (hlast : ∀ c ∈ s.getLast?, isKept c = true)
    (h : s.filter isKept ++ x = s ++ y) : ∀ c ∈ s, isKept c = true := by
  induction s with
  | nil => exact fun c hc => absurd hc List.not_mem_nil
  | cons a s ih =>
    have hrest : ∀ c ∈ s.getLast?, isKept c = true := by
      intro c hc
      refine hlast c ?_
      rwa [List.getLast?_cons_of_ne_nil (List.ne_nil_of_mem (List.mem_of_mem_getLast? hc))]
    by_cases ha : isKept a = true
    · rw [List.filter_cons_of_pos ha] at h
      exact List.forall_mem_cons.mpr ⟨ha, ih hrest (List.cons.inj h).2⟩
    · -- What is next to a line end that is dropped is no line end.
      have hne : s ≠ [] := by
        rintro rfl
        exact ha (hlast a rfl)
      have hmem : s.getLast hne ∈ s.filter isKept :=
        List.mem_filter.mpr ⟨List.getLast_mem hne, hrest _ (List.getLast?_eq_some_getLast hne)⟩
      obtain ⟨b, u, hb⟩ := List.exists_cons_of_ne_nil (List.ne_nil_of_mem hmem)
      rw [List.filter_cons_of_neg ha, hb] at h
      have hkept : b ∈ s.filter isKept := hb ▸ List.mem_cons_self
      exact absurd ((List.cons.inj h).1 ▸ (List.mem_filter.mp hkept).2) ha

/-! ## The text of a token -/

namespace Token

variable {w : Str} {hne : w ≠ []} {h : spelled isWordChar (fun _ => true) w = true}

/-- A word that is not cut has no blank in it. -/
lemma noSpace_of_word (huncut : ¬(word w hne h).Cut) : ∀ c ∈ w, isSpace c = false :=
  fun c hc => Bool.eq_false_iff.mpr fun hspace => huncut ⟨c, hc, hspace⟩

/-- A word that is not cut has no line end in it. -/
lemma oneLine_of_word (huncut : ¬(word w hne h).Cut) : (word w hne h).OneLine :=
  fun c hc => isKept_of_notSpace (noSpace_of_word huncut c hc)

/-- A token in quotes has no line end when there is none between the quotes. -/
lemma oneLine_quoted {content : Str} (hcontent : ∀ c ∈ content, isKept c = true)
    (h : spelled isQuotedChar (fun _ => true) content = true) : (quoted content h).OneLine := by
  intro c hc
  rcases List.mem_append.mp hc with hc | hc
  · rcases List.mem_cons.mp hc with rfl | hc
    · rfl
    · exact hcontent c hc
  · rw [List.mem_singleton.mp hc]
    rfl

/-- A word is spelled within quotes as well. -/
lemma quoted_of_word (h : spelled isWordChar (fun _ => true) w = true) :
    spelled isQuotedChar (fun _ => true) w = true := by
  refine spelled_mono h (fun c hc => ?_) fun _ _ => rfl
  simp only [isWordChar, Bool.and_eq_true] at hc
  exact hc.1.1

lemma trimmed {t : Token} (huncut : ¬t.Cut) : Trimmed t.text := by
  cases t with
  | word w hne h => exact trimmed_of_noSpace hne (noSpace_of_word huncut)
  | quoted content h => exact trimmed_quoted content

lemma isOne (t : Token) : IsOne t.text := by
  cases t with
  | word w hne h =>
    refine isOne_spelled hne h fun c hc hescape => ?_
    simp only [isWordChar, Bool.and_eq_true, Bool.not_eq_true', bne_iff_ne] at hc
    simp [isPlain, hc.1.2, hc.2, hc.1.1, hescape]
  | quoted content h =>
    refine isOne_quoted h fun c hc => ?_
    simpa [isQuotedChar] using hc

lemma fieldValue_text (t : Token) : fieldValue t.text = t.value := by
  cases t with
  | word w hne h => rfl
  | quoted content h => exact fieldValue_quoted h

/-- A token that is not cut is one match. -/
lemma matchesFrom_text {t : Token} (h : ¬t.Cut) {rest : Str} (hrest : ∀ c ∈ rest.head?, isSpace c = true) :
    matchesFrom .between (t.text ++ rest) = t.text :: matchesFrom .between rest := by
  cases t with
  | word w hne hw =>
    have hspace := noSpace_of_word h
    obtain ⟨c, w, rfl⟩ := List.exists_cons_of_ne_nil hne
    have hquote : c ≠ '"' := by
      rintro rfl
      rw [spelled_cons (by decide)] at hw
      cases hw
    change matchesFrom .between (c :: (w ++ rest)) = _
    rw [matchesFrom, if_neg (by simp [hquote]), if_neg (by simp [hspace c List.mem_cons_self]),
      matchesFrom_run (fun d hd => hspace d (List.mem_cons_of_mem c hd)) hrest]
    rfl
  | quoted content hcontent =>
    change matchesFrom .between ('"' :: (content ++ ['"']) ++ rest) = _
    rw [List.cons_append, matchesFrom, if_pos (by simp), List.append_assoc]
    exact matchesFrom_quoted h rest ['"']

end Token

/-- The matches in data without cut tokens are the tokens. -/
lemma tokenizeData_spaced {data : Str} {ts : List Token} (h : Spaced data (ts.map Token.text))
    (huncut : ∀ t ∈ ts, ¬t.Cut) : tokenizeData data = ts.map Token.text := by
  unfold tokenizeData
  generalize htexts : ts.map Token.text = texts at h ⊢
  induction h generalizing ts with
  | blank hs =>
    have hblanks := matchesFrom_spaces (fun c hc => isSpace_of_isBlank (hs c hc)) []
    rw [List.append_nil] at hblanks
    exact hblanks
  | @cons pre w rest ws hpre hw hrest _ ih =>
    obtain ⟨t, ts, rfl, rfl, hws⟩ := List.map_eq_cons_iff.mp htexts
    rw [List.append_assoc, matchesFrom_spaces fun c hc => isSpace_of_isBlank (hpre c hc),
      Token.matchesFrom_text (huncut t List.mem_cons_self) fun c hc => isSpace_of_isBlank (hrest c hc),
      ih (fun u hu => huncut u (List.mem_cons_of_mem t hu)) hws]

/-! ## One field -/

/-- The quotes around a text are stripped. -/
lemma stripQuotes_quoted (s : Str) : stripQuotes ('"' :: s ++ ['"']) = s := by
  have hlast : (s ++ ['"']).getLast? = some '"' := List.getLast?_concat
  unfold stripQuotes
  rw [List.cons_append, List.head?_cons, List.tail_cons]
  simp only [beq_self_eq_true, if_true, hlast, List.dropLast_concat]

/-- A text without quotes at its ends stays as it is. -/
lemma stripQuotes_eq_self {s : Str} (hhead : s.head? ≠ some '"') (hlast : s.getLast? ≠ some '"') :
    stripQuotes s = s := by
  unfold stripQuotes
  simp only [beq_eq_false_iff_ne.mpr hhead, beq_eq_false_iff_ne.mpr hlast, Bool.false_eq_true, if_false]

lemma stripQuotes_of_notMem {s : Str} (h : '"' ∉ s) : stripQuotes s = s :=
  stripQuotes_eq_self (fun hhead => h (List.mem_of_mem_head? hhead))
    fun hlast => h (List.mem_of_mem_getLast? hlast)

/-- A word does not start with a quote. -/
lemma Token.head_of_word {w : Str} (h : spelled isWordChar (fun _ => true) w = true) : w.head? ≠ some '"' := by
  intro hhead
  obtain ⟨w, rfl⟩ := List.head?_eq_some_iff.mp hhead
  rw [spelled_cons (by decide)] at h
  cases h

/-- What a token is sent as: in a quoted field, a word is put into quotes. -/
def Token.sentAs (kind : FieldKind) (t : Token) : Token :=
  match kind, t with
  | .quote, .word w _ h => .quoted w (Token.quoted_of_word h)
  | _, t => t

@[simp] lemma Token.value_sentAs (kind : FieldKind) (t : Token) : (t.sentAs kind).value = t.value := by
  unfold Token.sentAs
  split <;> rfl

/-- A field that keeps its token shows it and sends it. -/
structure Shows (kind : FieldKind) (t : Token) : Prop where
  shown : shown kind (cell kind t.text) = cell kind t.text
  sent : assembled kind (cell kind t.text) = (t.sentAs kind).text

/-- A field that is not quoted shows the text of a token. -/
lemma shows_of_text {kind : FieldKind} {t : Token} (huncut : ¬t.Cut) (hcell : cell kind t.text = t.text)
    (hshown : RecordEditor.shown kind t.text = t.text) (hsent : assembled kind t.text = trimSpace t.text)
    (has : t.sentAs kind = t) : Shows kind t := by
  constructor
  · rw [hcell, hshown]
  · rw [hcell, hsent, has, (Token.trimmed huncut).trimSpace_eq]

/-- A quoted field shows what is in quotes, or a word. -/
lemma shows_of_quote {t : Token} {content : Str} (hcell : stripQuotes t.text = content)
    (hshown : ∀ c ∈ content, isKept c = true) (htrimmed : Trimmed content)
    (hquotes : stripQuotes content = content) (has : (t.sentAs .quote).text = '"' :: content ++ ['"']) :
    Shows .quote t := by
  constructor
  · change (stripQuotes t.text).filter _ = stripQuotes t.text
    rw [hcell, List.filter_eq_self.mpr hshown]
  · change '"' :: stripQuotes (trimSpace (stripQuotes t.text)) ++ ['"'] = _
    rw [hcell, htrimmed.trimSpace_eq, hquotes, has]

/-- A field shows and sends the token that it keeps. -/
lemma shows_of_keeps {kind : FieldKind} {t : Token} (hkind : kind ≠ .rest) (hholds : kind.Holds t)
    (huncut : ¬t.Cut) (honeLine : t.OneLine) (hkeeps : kind.Keeps t) : Shows kind t := by
  cases kind with
  | rest => exact absurd rfl hkind
  | text => exact shows_of_text huncut rfl (List.filter_eq_self.mpr honeLine) rfl rfl
  | number => exact shows_of_text huncut rfl (if_pos hholds) rfl rfl
  | select first others =>
    exact shows_of_text huncut rfl (if_pos (List.contains_iff_mem.mpr hkeeps)) rfl rfl
  | quote =>
    cases t with
    | word w hne h =>
      have hstrip := stripQuotes_eq_self (Token.head_of_word h) hkeeps
      exact shows_of_quote hstrip honeLine (Token.trimmed huncut) hstrip rfl
    | quoted content h =>
      have hcontent : ∀ c ∈ content, isKept c = true := fun c hc =>
        honeLine c (List.mem_append_left _ (List.mem_cons_of_mem _ hc))
      have htrim : trimSpace content = content := hkeeps
      have htrimmed : Trimmed content := htrim ▸ trimmed_trimSpace hholds
      exact shows_of_quote (stripQuotes_quoted content) hcontent htrimmed (stripQuotes_of_notMem huncut) rfl

/-! ## All fields -/

/-- What the fields add to the data, for the values in their inputs. -/
def parts (schema : List Field) (inputs : List Str) : List Str :=
  List.zipWith (fun f value => assembled f.kind value) schema inputs

/-- What the inputs hold that are set to the values. -/
def inputsOf (schema : List Field) (values : List Str) : List Str :=
  List.zipWith (fun f value => shown f.kind value) schema values

/-- The values that the fields are set to for tokens that are not cut. -/
def seeded (schema : List Field) (ts : List Token) : List Str :=
  splitTokens schema (ts.map Token.text)

lemma seeded_cons {f : Field} (hkind : f.kind ≠ .rest) (fs : List Field) (t : Token) (ts : List Token) :
    seeded (f :: fs) (t :: ts) = cell f.kind t.text :: seeded fs ts := by
  unfold seeded
  rw [splitTokens, if_neg hkind]
  rfl

lemma seeded_rest {f : Field} (hkind : f.kind = .rest) (ts : List Token) :
    seeded [f] ts = [join [' '] (ts.map Token.text)] := by
  unfold seeded
  rw [splitTokens, if_pos hkind]
  rfl

/-- A field that keeps its token adds it to the data. -/
lemma parts_seeded_cons {f : Field} (hkind : f.kind ≠ .rest) {t : Token} (h : Shows f.kind t)
    (fs : List Field) (ts : List Token) :
    parts (f :: fs) (seeded (f :: fs) (t :: ts)) = (t.sentAs f.kind).text :: parts fs (seeded fs ts) := by
  unfold parts
  rw [seeded_cons hkind, List.zipWith_cons_cons, h.sent]

/-- What fields that are not empty add has no blanks at its ends. -/
lemma trimmed_parts {schema : List Field} {inputs : List Str} (h : ∀ value ∈ inputs, trimSpace value ≠ []) :
    ∀ p ∈ parts schema inputs, Trimmed p := by
  intro p hp
  unfold parts at hp
  rw [← List.map_uncurry_zip_eq_zipWith] at hp
  obtain ⟨⟨f, value⟩, hmem, rfl⟩ := List.mem_map.mp hp
  have hvalue := trimmed_trimSpace (h value (List.of_mem_zip hmem).2)
  change Trimmed (assembled f.kind value)
  unfold assembled
  dsimp only
  split
  · exact trimmed_quoted _
  · exact hvalue

/-- Tokens that are joined have no blanks at their ends. -/
lemma trimmed_texts {t : Token} {ts : List Token} (huncut : ∀ u ∈ t :: ts, ¬u.Cut) :
    Trimmed (join [' '] ((t :: ts).map Token.text)) := by
  refine trimmed_join (by simp) fun p hp => ?_
  obtain ⟨u, hu, rfl⟩ := List.mem_map.mp hp
  exact Token.trimmed (huncut u hu)

/-- A field that holds a token is not empty. -/
lemma filled_cell {kind : FieldKind} {t : Token} (hholds : kind.Holds t) (huncut : ¬t.Cut) :
    trimSpace (cell kind t.text) ≠ [] := by
  have htext : trimSpace t.text ≠ [] := by
    rw [(Token.trimmed huncut).trimSpace_eq]
    exact (Token.trimmed huncut).ne_nil
  cases kind with
  | text => exact htext
  | number => exact htext
  | select first others => exact htext
  | rest => exact htext
  | quote =>
    cases t with
    | quoted content h =>
      change trimSpace (stripQuotes ('"' :: content ++ ['"'])) ≠ []
      rw [stripQuotes_quoted]
      exact hholds
    | word w hne h =>
      have hhead := Token.head_of_word h
      have hspace := Token.noSpace_of_word huncut
      have hstrip : stripQuotes w = if w.getLast? == some '"' then w.dropLast else w := by
        unfold stripQuotes
        simp only [beq_eq_false_iff_ne.mpr hhead, Bool.false_eq_true, if_false]
      change trimSpace (stripQuotes w) ≠ []
      rw [hstrip]
      split
      · rename_i hlast
        obtain ⟨u, rfl⟩ := List.getLast?_eq_some_iff.mp (beq_iff_eq.mp hlast)
        have hu : u ≠ [] := by
          rintro rfl
          exact hhead rfl
        rw [List.dropLast_concat,
          (trimmed_of_noSpace hu fun c hc => hspace c (List.mem_append_left _ hc)).trimSpace_eq]
        exact hu
      · exact htext

/-- The fields that the tokens fill are not empty. -/
lemma filled_of_fills {schema : List Field} {ts : List Token} (hfills : Fills schema ts)
    (huncut : ∀ t ∈ ts, ¬t.Cut) : ∀ value ∈ seeded schema ts, trimSpace value ≠ [] := by
  induction hfills with
  | nil => exact fun value hvalue => absurd hvalue List.not_mem_nil
  | @rest f t ts hkind =>
    rw [seeded_rest hkind]
    intro value hvalue
    rw [List.mem_singleton.mp hvalue, (trimmed_texts huncut).trimSpace_eq]
    exact (trimmed_texts huncut).ne_nil
  | cons hkind hholds _ ih =>
    obtain ⟨hfirst, hrest⟩ := List.forall_mem_cons.mp huncut
    rw [seeded_cons hkind]
    exact List.forall_mem_cons.mpr ⟨filled_cell hholds hfirst, ih hrest⟩

/-- The fields show their tokens, and what they send is read as the values of the tokens. -/
structure AllShow (schema : List Field) (ts : List Token) : Prop where
  shown : inputsOf schema (seeded schema ts) = seeded schema ts
  read : readValues (join [' '] (parts schema (seeded schema ts))) = some (ts.map Token.value)

/-- The fields of a text that starts with a token. -/
lemma readValues_join_cons (t : Token) (ps : List Str) :
    readValues (join [' '] (t.text :: ps)) = (readValues (join [' '] ps)).map fun vs => t.value :: vs := by
  unfold readValues
  rw [fields_join_cons t.isOne, Option.map_map, Option.map_map]
  refine congrArg (fun g => Option.map g _) (funext fun more => ?_)
  simp only [Function.comp_apply, List.map_cons, t.fieldValue_text]

/-- Tokens that are joined are read as their values. -/
lemma readValues_join (ts : List Token) :
    readValues (join [' '] (ts.map Token.text)) = some (ts.map Token.value) := by
  induction ts with
  | nil => rfl
  | cons t ts ih =>
    rw [List.map_cons, readValues_join_cons, ih]
    rfl

/-- The rest of the tokens is shown and sent. -/
lemma allShow_rest {f : Field} (hkind : f.kind = .rest) {t : Token} {ts : List Token}
    (huncut : ∀ u ∈ t :: ts, ¬u.Cut) (honeLine : ∀ u ∈ t :: ts, u.OneLine) : AllShow [f] (t :: ts) := by
  have htrimmed := trimmed_texts huncut
  have hlines : ∀ c ∈ join [' '] ((t :: ts).map Token.text), isKept c = true := by
    refine forall_mem_join (fun p hp => ?_) rfl
    obtain ⟨u, hu, rfl⟩ := List.mem_map.mp hp
    exact honeLine u hu
  have hparts : parts [f] [join [' '] ((t :: ts).map Token.text)] = [join [' '] ((t :: ts).map Token.text)] := by
    unfold parts
    rw [List.zipWith_cons_cons, List.zipWith_nil_left, hkind]
    exact congrArg (· :: []) htrimmed.trimSpace_eq
  constructor
  · rw [seeded_rest hkind]
    unfold inputsOf
    rw [List.zipWith_cons_cons, List.zipWith_nil_left, hkind]
    exact congrArg (· :: []) (List.filter_eq_self.mpr hlines)
  · rw [seeded_rest hkind, hparts]
    have hjoin : join [' '] [join [' '] ((t :: ts).map Token.text)] = join [' '] ((t :: ts).map Token.text) := by
      simp [join]
    rw [hjoin, readValues_join]

/-- Where the fields keep their tokens, they all show them. -/
lemma allShow_of_keep {schema : List Field} {ts : List Token} (hfills : Fills schema ts)
    (huncut : ∀ t ∈ ts, ¬t.Cut) (hkeep : FieldsKeep schema ts) : AllShow schema ts := by
  induction hfills with
  | nil => exact ⟨rfl, rfl⟩
  | rest hkind => exact allShow_rest hkind huncut hkeep.oneLine
  | @cons f fs t ts hkind hholds _ ih =>
    have hrest := ih (fun u hu => huncut u (List.mem_cons_of_mem t hu))
      ⟨fun u hu => hkeep.oneLine u (List.mem_cons_of_mem t hu),
        fun p hp => hkeep.keeps p (List.mem_cons_of_mem _ hp)⟩
    have hfirst := shows_of_keeps hkind hholds (huncut t List.mem_cons_self)
      (hkeep.oneLine t List.mem_cons_self) (hkeep.keeps (f, t) List.mem_cons_self)
    constructor
    · unfold inputsOf
      rw [seeded_cons hkind, List.zipWith_cons_cons, hfirst.shown]
      exact congrArg (_ :: ·) hrest.shown
    · rw [parts_seeded_cons hkind hfirst, readValues_join_cons, hrest.read, Token.value_sentAs]
      rfl

/-- The data of tokens that are not cut is read as their values. -/
lemma readValues_spaced {data : Str} {ts : List Token} (hdata : Spaced data (ts.map Token.text)) :
    readValues data = some (ts.map Token.value) := by
  unfold readValues
  rw [hdata.fields_eq, Option.map_some, List.map_map]
  exact congrArg some (List.map_congr_left fun t _ => t.fieldValue_text)

/-- Joined parts without blanks at their ends are not trimmed. -/
lemma trimSpace_join {ps : List Str} (h : ∀ p ∈ ps, Trimmed p) :
    trimSpace (join [' '] ps) = join [' '] ps := by
  by_cases hnil : ps = []
  · subst hnil
    rfl
  · exact (trimmed_join hnil h).trimSpace_eq

/-- The data of fields that are not empty is what they add, with blanks between. -/
lemma assembleData_filled (type : Str) {inputs : List Str} (h : ∀ value ∈ inputs, trimSpace value ≠ []) :
    assembleData type inputs = join [' '] (parts (schemaOf type) inputs) :=
  trimSpace_join (trimmed_parts h)

section

variable {type data : Str} {ts : List Token}

/-- What is sent for data whose tokens are not cut. -/
lemma splitData_spaced (hdata : Spaced data (ts.map Token.text)) (huncut : ∀ t ∈ ts, ¬t.Cut) :
    splitData type data = seeded (schemaOf type) ts := by
  unfold splitData seeded
  rw [tokenizeData_spaced hdata huncut]

/-- Data is kept where no token is cut and the fields keep them. -/
lemma keepsMeaning_of_keep (hdata : Spaced data (ts.map Token.text)) (hfills : Fills (schemaOf type) ts)
    (huncut : ∀ t ∈ ts, ¬t.Cut) (hkeep : FieldsKeep (schemaOf type) ts) : KeepsMeaning type data := by
  have hshow := allShow_of_keep hfills huncut hkeep
  have hsplit : splitData type data = seeded (schemaOf type) ts := splitData_spaced hdata huncut
  constructor
  · have hfilled : ((seeded (schemaOf type) ts).any fun value => (trimSpace value).isEmpty) = false := by
      rw [List.any_eq_false]
      intro value hvalue
      rw [List.isEmpty_iff]
      exact filled_of_fills hfills huncut value hvalue
    have hinputs : List.zipWith (fun f value => shown f.kind value) (schemaOf type) (seeded (schemaOf type) ts) =
        seeded (schemaOf type) ts := hshow.shown
    unfold saveUnedited
    dsimp only
    rw [hsplit, hinputs, hfilled]
    rfl
  · rw [hsplit, assembleData_filled type (filled_of_fills hfills huncut), hshow.read, readValues_spaced hdata]

end

/-! ## Fields that do not keep their token -/

/-- Blanks before a text are not made up for by a quote behind it. -/
lemma blanks_ne_quote {lead value tail more : Str} {b : Char} (hlead : ∀ c ∈ lead, isSpace c = true)
    (hb : isSpace b = true) : lead ++ value ++ b :: tail ≠ value ++ '"' :: more := by
  induction value generalizing lead with
  | nil =>
    intro h
    cases lead with
    | nil =>
      rw [(List.cons.inj h).1] at hb
      cases hb
    | cons c lead =>
      have hc := hlead c List.mem_cons_self
      rw [(List.cons.inj h).1] at hc
      cases hc
  | cons c value ih =>
    intro h
    cases lead with
    | nil =>
      have hsame := List.append_cancel_left (show c :: value ++ b :: tail = c :: value ++ '"' :: more from h)
      rw [(List.cons.inj hsame).1] at hb
      cases hb
    | cons d lead =>
      obtain ⟨rfl, htail⟩ := List.cons.inj h
      have hlead' : ∀ e ∈ lead ++ [d], isSpace e = true := by
        intro e he
        rcases List.mem_append.mp he with he | he
        · exact hlead e (List.mem_cons_of_mem d he)
        · rw [List.mem_singleton.mp he]
          exact hlead d List.mem_cons_self
      exact ih hlead' (Eq.trans (by simp) htail)

/-- A quoted text whose last quote is escaped is read as a value that goes on with a blank. -/
lemma readValues_open {x : Str} (h : spelled isQuotedChar (fun _ => true) x = true)
    {ps vs : List Str} {v : Str}
    (hread : readValues (join [' '] (('"' :: (x ++ ['\\']) ++ ['"']) :: ps)) = some (v :: vs)) :
    ∃ more, v = fieldValue x ++ '"' :: ' ' :: more := by
  have hplain : ∀ c, isQuotedChar c = true → c ≠ '"' := by
    rintro c hc rfl
    cases hc
  obtain ⟨fs, hfs, hvalues⟩ := Option.map_eq_some_iff.mp hread
  rw [List.cons_append, List.append_assoc] at hfs
  obtain ⟨more, rest, rfl⟩ := fields_join_open h hplain hfs
  refine ⟨fieldValue more, ?_⟩
  rw [← fieldValue_open h]
  exact (List.cons.inj hvalues).1.symm

/-- A quoted text that is sent with the blanks at its ends trimmed is read as another value, if there are
any. -/
lemma trimSpace_eq_of_read {content : Str} (h : spelled isQuotedChar (fun _ => true) content = true) {ps vs : List Str}
    (hread : readValues (join [' '] (('"' :: trimSpace content ++ ['"']) :: ps)) =
      some (fieldValue content :: vs)) : trimSpace content = content := by
  obtain ⟨lead, trail, hcontent, hlead, htrail⟩ := exists_trimmed_ends content
  generalize trimSpace content = middle at hcontent hread ⊢
  subst hcontent
  have hblanks : ∀ s : Str, (∀ c ∈ s, isSpace c = true) → ∀ t, fieldValue (s ++ t) = s ++ fieldValue t :=
    fun s hs t => fieldValue_plain (fun c hc => ⟨(of_isSpace (hs c hc)).1, (of_isSpace (hs c hc)).2.1⟩) t
  have htail : fieldValue trail = trail := by
    have hvalue := hblanks trail htrail []
    rwa [List.append_nil, fieldValue_nil, List.append_nil] at hvalue
  have hbehind : spelled isQuotedChar (fun _ => true) (middle ++ trail) = true := by
    rw [List.append_assoc] at h
    exact spelled_of_append (fun c hc => (of_isSpace (hlead c hc)).2.1) h
  rw [List.append_assoc, hblanks lead hlead] at hread
  rcases spelled_or_dangling hbehind with hmiddle | ⟨x, rfl, hx⟩
  · have hdigit : ∀ c ∈ trail.head?, c.isDigit = false := fun c hc =>
      (of_isSpace (htrail c (List.mem_of_mem_head? hc))).2.2
    have hfirst := readValues_join_cons (.quoted middle hmiddle) ps
    rw [fieldValue_append hmiddle hdigit, htail] at hread
    rw [Token.text, hread, eq_comm, Option.map_eq_some_iff] at hfirst
    obtain ⟨rest, -, hvalues⟩ := hfirst
    have hlength := congrArg List.length (List.cons.inj hvalues).1
    rw [Token.value, List.length_append, List.length_append] at hlength
    have hnoLead : lead = [] := List.eq_nil_of_length_eq_zero (by omega)
    have hnoTrail : trail = [] := List.eq_nil_of_length_eq_zero (by omega)
    rw [hnoLead, hnoTrail, List.nil_append, List.append_nil]
  · cases trail with
    | nil =>
      rw [List.append_nil, spelled_append hx] at hbehind
      cases hbehind
    | cons b trail =>
      have hb := htrail b List.mem_cons_self
      have hescape : fieldValue ('\\' :: b :: trail) = b :: trail := by
        rw [fieldValue_escape (startsCode_eq_false (of_isSpace hb).2.2 trail),
          ← fieldValue_cons (of_isSpace hb).1 (of_isSpace hb).2.1, htail]
      obtain ⟨more, hvalue⟩ := readValues_open hx hread
      rw [List.append_assoc, List.singleton_append, fieldValue_append hx (fun c hc => by cases hc; rfl), hescape,
        ← List.append_assoc] at hvalue
      exact absurd hvalue (blanks_ne_quote hlead hb)

/-- A word with a quote at its end is sent without it, and read as another value. -/
lemma last_of_read {w : Str} {hne : w ≠ []} {h : spelled isWordChar (fun _ => true) w = true}
    (huncut : ¬(Token.word w hne h).Cut) {ps vs : List Str}
    (hread : readValues (join [' '] (assembled .quote (cell .quote w) :: ps)) = some (fieldValue w :: vs)) :
    w.getLast? ≠ some '"' := by
  intro hlast
  obtain ⟨u, rfl⟩ := List.getLast?_eq_some_iff.mp hlast
  have hhead := Token.head_of_word h
  rcases spelled_or_dangling h with hu | ⟨x, rfl, hx⟩
  · rw [spelled_append hu, spelled_cons (by decide)] at h
    cases h
  · have hstrip : stripQuotes (x ++ ['\\'] ++ ['"']) = x ++ ['\\'] := by
      unfold stripQuotes
      simp only [beq_eq_false_iff_ne.mpr hhead, Bool.false_eq_true, if_false, List.getLast?_concat,
        beq_self_eq_true, if_true, List.dropLast_concat]
    have htrim : trimSpace (x ++ ['\\']) = x ++ ['\\'] :=
      (trimmed_of_noSpace (by simp) fun c hc =>
        Token.noSpace_of_word huncut c (List.mem_append_left _ hc)).trimSpace_eq
    have hstay : stripQuotes (x ++ ['\\']) = x ++ ['\\'] := by
      refine stripQuotes_eq_self ?_ (by simp)
      rwa [List.head?_append_of_ne_nil _ (by simp)] at hhead
    have hsent : assembled .quote (cell .quote (x ++ ['\\'] ++ ['"'])) = '"' :: (x ++ ['\\']) ++ ['"'] := by
      change '"' :: stripQuotes (trimSpace (stripQuotes _)) ++ ['"'] = _
      rw [hstrip, htrim, hstay]
    rw [hsent] at hread
    obtain ⟨more, hvalue⟩ := readValues_open (Token.quoted_of_word hx) hread
    have hescape : fieldValue ('\\' :: ['"']) = ['"'] := rfl
    rw [List.append_assoc, List.singleton_append, fieldValue_append hx (fun c hc => by cases hc; rfl), hescape]
      at hvalue
    cases List.append_cancel_left hvalue

/-- A quoted field that sends a token which is read as its value keeps it. -/
lemma keeps_quote {t : Token} (huncut : ¬t.Cut) {ps vs : List Str}
    (hread : readValues (join [' '] (assembled .quote (cell .quote t.text) :: ps)) = some (t.value :: vs)) :
    FieldKind.quote.Keeps t := by
  cases t with
  | word w hne h => exact last_of_read huncut hread
  | quoted content h =>
    have hmem : '"' ∉ trimSpace content := fun hc =>
      huncut ((List.dropWhile_suffix _).subset ((List.rdropWhile_prefix _ _).subset hc))
    have hsent : assembled .quote (cell .quote ('"' :: content ++ ['"'])) =
        '"' :: trimSpace content ++ ['"'] := by
      change '"' :: stripQuotes (trimSpace (stripQuotes _)) ++ ['"'] = _
      rw [stripQuotes_quoted, stripQuotes_of_notMem hmem]
    have hsame : readValues (join [' '] (('"' :: trimSpace content ++ ['"']) :: ps)) =
        some (fieldValue content :: vs) := by
      rw [← hsent]
      exact hread
    exact trimSpace_eq_of_read h hsame

/-- The options of a choice are words without white space. -/
def FieldKind.Offers (kind : FieldKind) : Prop :=
  match kind with
  | .select first others => ∀ option ∈ first :: others, option ≠ [] ∧
      spelled isWordChar (fun _ => true) option = true ∧ (option.all fun c => !isSpace c) = true
  | _ => True

instance (kind : FieldKind) : Decidable kind.Offers :=
  match kind with
  | .select first others => inferInstanceAs (Decidable (∀ option ∈ first :: others, _ ∧ _ ∧ _))
  | .text => inferInstanceAs (Decidable True)
  | .number => inferInstanceAs (Decidable True)
  | .quote => inferInstanceAs (Decidable True)
  | .rest => inferInstanceAs (Decidable True)

/-- A choice that sends a token as it is has it as an option. -/
lemma keeps_select {first : Str} {others : List Str} (hoffers : ∃ u : Token, ¬u.Cut ∧ u.text = first)
    {t : Token} {ps ps' vs : List Str} (hread : readValues (join [' '] (t.text :: ps)) = some vs)
    (hsame : join [' '] (assembled (.select first others) (shown (.select first others) t.text) :: ps') =
      join [' '] (t.text :: ps)) : t.text ∈ first :: others := by
  by_contra hmem
  obtain ⟨u, huncut, rfl⟩ := hoffers
  have hshown : shown (.select u.text others) t.text = u.text :=
    if_neg fun hcontains => hmem (List.contains_iff_mem.mp hcontains)
  have hsent : assembled (.select u.text others) u.text = u.text :=
    (Token.trimmed huncut).trimSpace_eq
  rw [hshown, hsent] at hsame
  obtain ⟨fs, hfs, -⟩ := Option.map_eq_some_iff.mp hread
  have hother := hfs
  rw [← hsame, fields_join_cons u.isOne, Option.map_eq_some_iff] at hother
  rw [fields_join_cons t.isOne, Option.map_eq_some_iff] at hfs
  obtain ⟨rest, -, rfl⟩ := hfs
  obtain ⟨rest', -, hsameFields⟩ := hother
  exact hmem ((List.cons.inj hsameFields).1 ▸ List.mem_cons_self)

/-- A field that sends a token as it is, so that it is read as its value, keeps it. -/
lemma keeps_of_sent {kind : FieldKind} (hoffers : kind.Offers) {t : Token} (huncut : ¬t.Cut)
    {ps ps' vs : List Str}
    (hread : readValues (join [' '] (assembled kind (cell kind t.text) :: ps)) = some (t.value :: vs))
    (hsame : join [' '] (assembled kind (shown kind (cell kind t.text)) :: ps') =
      join [' '] (assembled kind (cell kind t.text) :: ps)) : kind.Keeps t := by
  cases kind with
  | text => trivial
  | number => trivial
  | rest => trivial
  | quote => exact keeps_quote huncut hread
  | select first others =>
    have hsent : assembled (.select first others) (cell (.select first others) t.text) = t.text :=
      (Token.trimmed huncut).trimSpace_eq
    rw [hsent] at hread hsame
    obtain ⟨hne, hspelled, hall⟩ := hoffers first List.mem_cons_self
    have huncutFirst : ¬(Token.word first hne hspelled).Cut := by
      rintro ⟨c, hc, hspace⟩
      have hnone := List.all_eq_true.mp hall c hc
      rw [hspace] at hnone
      cases hnone
    exact keeps_select ⟨.word first hne hspelled, huncutFirst, rfl⟩ hread hsame

/-- What a quoted field adds for a text without quotes. -/
lemma assembled_quote {s : Str} (htrimmed : Trimmed s) (hmem : '"' ∉ s) :
    assembled .quote s = '"' :: s ++ ['"'] := by
  change '"' :: stripQuotes (trimSpace s) ++ ['"'] = _
  rw [htrimmed.trimSpace_eq, stripQuotes_of_notMem hmem]

/-- A token that a field keeps and sends as it is has no line end. -/
lemma oneLine_of_sent {kind : FieldKind} (hkind : kind ≠ .rest) (hoffers : kind.Offers) {t : Token}
    (hholds : kind.Holds t) (huncut : ¬t.Cut) (hkeeps : kind.Keeps t) {ps ps' : List Str}
    (hsame : join [' '] (assembled kind (shown kind (cell kind t.text)) :: ps') =
      join [' '] (assembled kind (cell kind t.text) :: ps)) : t.OneLine := by
  obtain ⟨x, hx⟩ := exists_join_cons ps'
  obtain ⟨y, hy⟩ := exists_join_cons ps
  rw [hx, hy] at hsame
  cases kind with
  | rest => exact absurd rfl hkind
  | select first others =>
    have hall := List.all_eq_true.mp (hoffers t.text hkeeps).2.2
    exact fun c hc => isKept_of_notSpace (by simpa using hall c hc)
  | number =>
    cases t with
    | word w hne h => exact Token.oneLine_of_word huncut
    | quoted content h => cases hholds
  | text =>
    change trimSpace (t.text.filter isKept) ++ x = trimSpace t.text ++ y at hsame
    have htrimmed := Token.trimmed huncut
    rw [htrimmed.filter.trimSpace_eq, htrimmed.trimSpace_eq] at hsame
    exact forall_isKept (fun c hc => isKept_of_notSpace (htrimmed.last c hc)) hsame
  | quote =>
    cases t with
    | word w hne h => exact Token.oneLine_of_word huncut
    | quoted content h =>
      have htrim : trimSpace content = content := hkeeps
      have htrimmed : Trimmed content := htrim ▸ trimmed_trimSpace hholds
      have hcell : cell .quote ('"' :: content ++ ['"']) = content := stripQuotes_quoted content
      change assembled .quote ((cell .quote ('"' :: content ++ ['"'])).filter isKept) ++ x =
        assembled .quote (cell .quote ('"' :: content ++ ['"'])) ++ y at hsame
      rw [hcell, assembled_quote htrimmed huncut,
        assembled_quote htrimmed.filter fun hmem => huncut (List.mem_of_mem_filter hmem),
        List.append_assoc, List.append_assoc] at hsame
      exact Token.oneLine_quoted (forall_isKept (fun c hc => isKept_of_notSpace (htrimmed.last c hc))
        (List.cons.inj hsame).2) h

/-- The rest of the tokens has no line end where it is sent as it is. -/
lemma oneLine_of_rest {f : Field} (hkind : f.kind = .rest) {t : Token} {ts : List Token}
    (huncut : ∀ u ∈ t :: ts, ¬u.Cut)
    (hsame : join [' '] (parts [f] (inputsOf [f] (seeded [f] (t :: ts)))) =
      join [' '] (parts [f] (seeded [f] (t :: ts)))) : ∀ u ∈ t :: ts, u.OneLine := by
  have htrimmed := trimmed_texts huncut
  have hsent : ∀ value, join [' '] (parts [f] [value]) = trimSpace value := by
    intro value
    unfold parts
    rw [List.zipWith_cons_cons, List.zipWith_nil_left, hkind]
    simp [join, assembled]
  have hshown : ∀ value, inputsOf [f] [value] = [value.filter isKept] := by
    intro value
    unfold inputsOf
    rw [List.zipWith_cons_cons, List.zipWith_nil_left, hkind]
    rfl
  rw [seeded_rest hkind, hshown, hsent, hsent, htrimmed.filter.trimSpace_eq, htrimmed.trimSpace_eq,
    List.filter_eq_self] at hsame
  exact fun u hu c hc => hsame c (mem_join (List.mem_map_of_mem hu) hc)

/-- Joined texts with the same first one. -/
lemma join_cons_cancel {p : Str} {ps qs : List Str} (hlength : ps.length = qs.length)
    (h : join [' '] (p :: ps) = join [' '] (p :: qs)) : join [' '] ps = join [' '] qs := by
  cases ps with
  | nil =>
    cases qs with
    | nil => rfl
    | cons q qs => cases hlength
  | cons a ps =>
    cases qs with
    | nil => cases hlength
    | cons q qs =>
      simp only [join, List.intercalate_cons_cons] at h ⊢
      simpa using h

/-- Where what is sent is what the data was split into, and is read as the values of the tokens, the fields
keep their tokens. -/
lemma fieldsKeep_of_sent {schema : List Field} {ts : List Token} (hfills : Fills schema ts)
    (hoffers : ∀ f ∈ schema, f.kind.Offers) (huncut : ∀ t ∈ ts, ¬t.Cut)
    (hread : readValues (join [' '] (parts schema (seeded schema ts))) = some (ts.map Token.value))
    (hsame : join [' '] (parts schema (inputsOf schema (seeded schema ts))) =
      join [' '] (parts schema (seeded schema ts))) : FieldsKeep schema ts := by
  induction hfills with
  | nil => exact ⟨fun t ht => absurd ht List.not_mem_nil, fun p hp => absurd hp List.not_mem_nil⟩
  | @rest f t ts hkind =>
    refine ⟨oneLine_of_rest hkind huncut hsame, fun p hp => ?_⟩
    rw [List.zip_cons_cons, List.zip_nil_left, List.mem_singleton] at hp
    rw [hp, hkind]
    trivial
  | @cons f fs t ts hkind hholds _ ih =>
    have hseeded := seeded_cons hkind fs t ts
    have hoffersFirst := hoffers f List.mem_cons_self
    have huncutFirst := huncut t List.mem_cons_self
    obtain ⟨hkeeps, honeLine⟩ : f.kind.Keeps t ∧ t.OneLine := by
      rw [hseeded] at hread hsame
      have hkeeps := keeps_of_sent hoffersFirst huncutFirst hread hsame
      exact ⟨hkeeps, oneLine_of_sent hkind hoffersFirst hholds huncutFirst hkeeps hsame⟩
    have hfirst := shows_of_keeps hkind hholds huncutFirst honeLine hkeeps
    have hinputs : parts (f :: fs) (inputsOf (f :: fs) (seeded (f :: fs) (t :: ts))) =
        (t.sentAs f.kind).text :: parts fs (inputsOf fs (seeded fs ts)) := by
      unfold parts inputsOf
      rw [hseeded, List.zipWith_cons_cons, List.zipWith_cons_cons, hfirst.shown, hfirst.sent]
    rw [parts_seeded_cons hkind hfirst] at hread hsame
    rw [hinputs] at hsame
    have hrest := ih (fun g hg => hoffers g (List.mem_cons_of_mem f hg))
      (fun u hu => huncut u (List.mem_cons_of_mem t hu)) ?_ (join_cons_cancel ?_ hsame)
    · refine ⟨List.forall_mem_cons.mpr ⟨honeLine, hrest.oneLine⟩, fun p hp => ?_⟩
      rw [List.zip_cons_cons] at hp
      rcases List.mem_cons.mp hp with rfl | hp
      · exact hkeeps
      · exact hrest.keeps p hp
    · rw [readValues_join_cons, Token.value_sentAs, List.map_cons, Option.map_eq_some_iff] at hread
      obtain ⟨vs, hvs, hvalues⟩ := hread
      rw [hvs, (List.cons.inj hvalues).2]
    · simp [parts, inputsOf]

/-- The choices of all types offer words. -/
lemma offers_schemaOf (type : Str) : ∀ f ∈ schemaOf type, f.kind.Offers := by
  have hall : ∀ p ∈ fieldSchemas, ∀ f ∈ p.2, f.kind.Offers := by decide
  unfold schemaOf
  cases hlookup : fieldSchemas.lookup type with
  | none =>
    intro f hf
    rw [Option.getD_none, List.mem_singleton] at hf
    rw [hf]
    trivial
  | some schema =>
    obtain ⟨before, behind, hsplit, -⟩ := List.lookup_eq_some_iff.mp hlookup
    exact hall (type, schema) (by rw [hsplit]; exact List.mem_append_right _ List.mem_cons_self)

section

variable {type data : Str} {ts : List Token}

/-- Where data without cut tokens is kept, the fields keep their tokens. -/
lemma fieldsKeep_of_keepsMeaning (hdata : Spaced data (ts.map Token.text)) (hfills : Fills (schemaOf type) ts)
    (huncut : ∀ t ∈ ts, ¬t.Cut) (h : KeepsMeaning type data) : FieldsKeep (schemaOf type) ts := by
  obtain ⟨hsave, hread⟩ := h
  have hsplit : splitData type data = seeded (schemaOf type) ts := splitData_spaced hdata huncut
  rw [hsplit] at hsave hread
  have hsent := assembleData_filled type (filled_of_fills hfills huncut)
  unfold saveUnedited at hsave
  dsimp only at hsave
  rw [hsplit] at hsave
  split at hsave
  · cases hsave
  · rename_i hfilled
    have hinputs : ∀ value ∈ inputsOf (schemaOf type) (seeded (schemaOf type) ts), trimSpace value ≠ [] := by
      intro value hvalue hempty
      exact hfilled (List.any_eq_true.mpr ⟨value, hvalue, by rw [hempty]; rfl⟩)
    have hshown := assembleData_filled type hinputs
    refine fieldsKeep_of_sent hfills (offers_schemaOf type) huncut ?_ ?_
    · rw [← hsent, hread, readValues_spaced hdata]
    · rw [← hsent, ← hshown]
      exact Option.some.inj hsave

end

/-- For every type and every data whose tokens fill its fields: where each token is one match and has no line
end, each choice has its token as an option, and in quoted fields the quoted tokens have no blanks at their ends
and the words no quote at their end, saving without edits keeps what the record means. It does so nowhere else,
except perhaps where a token is cut into several matches. -/
theorem keepsMeaning_spec (type data : Str) (ts : List Token) (hdata : Spaced data (ts.map Token.text))
    (hfills : Fills (schemaOf type) ts) :
    ((∀ t ∈ ts, ¬t.Cut) ∧ FieldsKeep (schemaOf type) ts → KeepsMeaning type data) ∧
      (KeepsMeaning type data → FieldsKeep (schemaOf type) ts ∨ ∃ t ∈ ts, t.Cut) := by
  refine ⟨fun h => keepsMeaning_of_keep hdata hfills h.1 h.2, fun h => ?_⟩
  by_cases hcut : ∃ t ∈ ts, t.Cut
  · exact .inr hcut
  · exact .inl (fieldsKeep_of_keepsMeaning hdata hfills (fun t ht hc => hcut ⟨t, ht, hc⟩) h)

/-! ## An escaped quote, and a tag -/

/-- The token `"a\"b"`. -/
def quoteInside : Token :=
  .quoted ['a', '\\', '"', 'b'] rfl

/-- The tokens of `0 issue "ca.example; policy=ev"`. -/
def issueTokens : List Token :=
  [.word ['0'] (List.cons_ne_nil _ _) rfl, .word "issue".toList (List.cons_ne_nil _ _) rfl,
    .quoted "ca.example; policy=ev".toList rfl]

/-- A text with an escaped quote is cut, and gets a blank behind the quote. A tag that is no option becomes
the first option. -/
theorem unedited_changes :
    Spaced "\"a\\\"b\"" ([quoteInside].map Token.text) ∧ Fills (schemaOf "TXT") [quoteInside] ∧
      saveUnedited "TXT" "\"a\\\"b\"" = some "\"a\\\" b\"".toList ∧ ¬KeepsMeaning "TXT" "\"a\\\"b\"" ∧
      saveUnedited "CAA" "0 issuemail \"ca.example\"" = some "0 issue \"ca.example\"".toList := by
  have hdata : Spaced ([] ++ quoteInside.text ++ []) [quoteInside.text] :=
    .cons (by simp) quoteInside.isOne (by simp) (.blank (by simp))
  refine ⟨hdata, .rest rfl, by decide, fun h => ?_, by decide⟩
  exact absurd h.2 (by decide)

/-- The record `0 issue "ca.example; policy=ev"` is sent as it is. -/
theorem keepsMeaning_issue : KeepsMeaning "CAA" "0 issue \"ca.example; policy=ev\"" := by
  have hblank : ∀ c ∈ [' '], isBlank c = true := by simp [isBlank]
  have hdata : Spaced ([] ++ ['0'] ++ ([' '] ++ "issue".toList ++
      ([' '] ++ "\"ca.example; policy=ev\"".toList ++ []))) (issueTokens.map Token.text) :=
    .cons (by simp) (by decide) (by simp [isBlank])
      (.cons hblank (by decide) (by simp [isBlank]) (.cons hblank (by decide) (by simp) (.blank (by simp))))
  have hfilled : trimSpace "ca.example; policy=ev".toList ≠ [] := by decide
  have hfills : Fills (schemaOf "CAA") issueTokens :=
    .cons (by decide) rfl (.cons (by decide) trivial (.cons (by decide) hfilled .nil))
  have hzero : ¬∃ c ∈ ['0'], isSpace c = true := by simp [isSpace]
  have hissue : ¬∃ c ∈ "issue".toList, isSpace c = true := by simp [isSpace]
  have huncut : ∀ t ∈ issueTokens, ¬t.Cut := by
    simp only [issueTokens, List.mem_cons, List.not_mem_nil, or_false, forall_eq_or_imp, forall_eq]
    exact ⟨hzero, hissue, show '"' ∉ "ca.example; policy=ev".toList by decide⟩
  have hkeep : FieldsKeep (schemaOf "CAA") issueTokens := by
    have htag : "issue".toList ∈ ["issue".toList, "issuewild".toList, "iodef".toList] := List.mem_cons_self
    have htrim : trimSpace "ca.example; policy=ev".toList = "ca.example; policy=ev".toList := by decide
    have hkept : ∀ c ∈ "ca.example; policy=ev".toList, isKept c = true :=
      List.all_eq_true.mp (show "ca.example; policy=ev".toList.all isKept = true from rfl)
    constructor
    · simp only [issueTokens, List.mem_cons, List.not_mem_nil, or_false, forall_eq_or_imp, forall_eq]
      exact ⟨Token.oneLine_of_word hzero, Token.oneLine_of_word hissue, Token.oneLine_quoted hkept rfl⟩
    · rintro p (_ | ⟨_, _ | ⟨_, _ | ⟨_, ⟨⟩⟩⟩⟩)
      exacts [trivial, htag, htrim]
  exact (keepsMeaning_spec "CAA" _ issueTokens hdata hfills).1 ⟨huncut, hkeep⟩

end RecordEditor

end Nomina
