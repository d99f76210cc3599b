import Mathlib.Data.List.Destutter
import Nomina.Dns.FilterRules
import Nomina.Dns.NameCase
import Nomina.Dns.Printing
import Nomina.Dns.Service

/-!
# Entries of blocklists

`parse_blocklist` reads a list into entries, the filter has the entries of the enabled lists, and a query
is blocked when the text of its name is one of them. The parser admits wildcards and punycode, but the
text of a queried name has neither: hickory shows punycode in Unicode, and nothing looks below a wildcard.
The main result says exactly when an entry blocks every name that it denotes.
-/

namespace Nomina

open Lib EStateM

/-! ## Parsing -/

/-- `BlocklistFormat`. -/
inductive BlocklistFormat
  | Hosts | Domains
deriving DecidableEq

/-- `str::lines`: a line ends with a newline, before which one carriage return is dropped; behind the
last newline there is a line when there is some text. -/
def lines (s : Str) : List Str :=
  let parts := split '\n' s
  parts.dropLast.map (fun l => (stripSuffix l ['\r']).getD l) ++
    parts.getLast?.toList.filter fun l => !l.isEmpty

/-- The text of a line that is a domain, by the format of the list. -/
def lineCandidate (format : BlocklistFormat) (line : Str) : Str :=
  let parts := splitWhitespace line
  match format with
  | .Hosts => (parts[1]?).getD (parts.head?.getD [])
  | .Domains => parts.head?.getD []

/-- The domain of a line, if it has one. -/
def lineDomain (format : BlocklistFormat) (raw : Str) : Option Str :=
  let line := trim raw
  if line.isEmpty || line.head? == some '#' || line.head? == some '!' then none
  else
    let line := trim ((split '#' line).head?.getD [])
    if line.isEmpty then none
    else
      let domain := toAsciiLowercase (trimEndMatches '.' (trim (lineCandidate format line)))
      if domain.isEmpty || domain == "localhost".toList || domain == "localhost.localdomain".toList ||
          domain == "broadcasthost".toList || !domain.contains '.' then none
      else if domain.all fun c => c.isAlphanum || c == '.' || c == '-' || c == '_' || c == '*' then
        some domain
      else none

/-- `parse_blocklist`. -/
def parseBlocklist (text : Str) (format : BlocklistFormat) : List Str :=
  (((lines text).filterMap (lineDomain format)).insertionSort (· ≤ ·)).destutter (· ≠ ·)

/-- Entries are in lowercase and have no dot at their end. -/
lemma folded_of_mem_parseBlocklist {text e : Str} {format : BlocklistFormat}
    (h : e ∈ parseBlocklist text format) : toAsciiLowercase e = e ∧ trimEndMatches '.' e = e := by
  have hmem : e ∈ (lines text).filterMap (lineDomain format) :=
    (List.perm_insertionSort _ _).mem_iff.mp ((List.destutter_sublist _ _).subset h)
  obtain ⟨raw, -, hdomain⟩ := List.mem_filterMap.mp hmem
  unfold lineDomain at hdomain
  dsimp only at hdomain
  split at hdomain
  · cases hdomain
  · split at hdomain
    · cases hdomain
    · split at hdomain
      · cases hdomain
      · split at hdomain
        · cases hdomain
          refine ⟨toAsciiLowercase_idem _, ?_⟩
          rw [trimEndMatches_toAsciiLowercase, trimEndMatches_idem]
        · cases hdomain

/-! ## What an entry denotes -/

/-- A name as it can stand in a query: its labels have one to 63 bytes, and all fit into 255. -/
def OnWire (n : Name) : Prop :=
  (∀ l ∈ n.labels, l ≠ [] ∧ l.length ≤ 63) ∧ (n.labels.map fun l => l.length + 1).sum < 255

instance (n : Name) : Decidable (OnWire n) :=
  inferInstanceAs (Decidable (_ ∧ _))

/-- The names that an entry denotes, ignoring ASCII case: those below `d` for an entry `*.d`, and else
the name with the labels of the entry. -/
def EntryDenotes (e : Str) (n : Name) : Prop :=
  OnWire n ∧ match stripPrefix e "*.".toList with
    | some d => ∃ front, front ≠ [] ∧ n.toLowercase.labels = front ++ (Name.ofPlain d).labels
    | none => n.toLowercase = .ofPlain e

/-! ## Blocking -/

variable (X : QueryCrates) (C : Config) (E : Env) (t : FilterTables)

/-- No local zone is above the name, and no rewrite and no allow rule covers it. -/
structure Exposed (n : Name) : Prop where
  zone : C.store.zoneFor n = none
  rewrite : ¬t.Rewritten X.toCrates (nameKey X.toCrates n)
  allow : ¬t.Ruled (nameKey X.toCrates n) .Allow

/-- Queries for the name are answered as blocked. -/
def AnsweredBlocked (n : Name) : Prop :=
  ∀ qtype recursionAvailable s, ∃ out s',
    resolveExternal X C E n qtype recursionAvailable s = .ok (out, .Blocked) s'

/-- The entry blocks every name that it denotes, where the filter gets to it. -/
def EntryEffective (e : Str) : Prop :=
  ∀ n, EntryDenotes e n → Exposed X C t n → AnsweredBlocked X C E n

/-- Another entry of an enabled list is the text of the name, or a deny rule covers it. -/
def BlockedOtherwise (e : Str) (n : Name) : Prop :=
  t.Ruled (nameKey X.toCrates n) .Deny ∨
    ∃ b ∈ t.blocklists, b.enabled = true ∧ ∃ e' ∈ t.entries, e'.blocklistId = b.id ∧ e'.domain ≠ e ∧
      toAsciiLowercase e'.domain = nameKey X.toCrates n

variable {X C E t}

/-- The filter of the tables, with blocking enabled. -/
def FiltersBy (X : QueryCrates) (order : IterationOrder (ℕ × List Str)) (C : Config) (t : FilterTables) :
    Prop :=
  C.filter = .buildFrom X.toCrates order t true

/-- A name that the filter gets to is answered as blocked exactly when an enabled list contains its text
or a deny rule covers it. -/
lemma answeredBlocked_iff {order : IterationOrder (ℕ × List Str)} (hfilter : FiltersBy X order C t)
    {n : Name} (hn : Exposed X C t n) :
    AnsweredBlocked X C E n ↔ (∃ id, t.ListedBy (nameKey X.toCrates n) id) ∨
      t.Ruled (nameKey X.toCrates n) .Deny := by
  rcases decide_of_not_allowed order true hn.rewrite hn.allow with
    ⟨-, hblock, hdecide⟩ | ⟨hpass, hdecide⟩
  · refine iff_of_true (fun qtype recursionAvailable s => ?_) hblock
    rw [← hfilter] at hdecide
    obtain ⟨hits, hrun⟩ := resolveExternal_block (E := E) hdecide qtype recursionAvailable s
    exact ⟨_, _, hrun⟩
  · refine iff_of_false (fun hblocked => ?_) fun hblock => hpass ⟨rfl, hblock⟩
    rw [← hfilter] at hdecide
    obtain ⟨out, s', hrun⟩ := hblocked .A false (.initial 1 0 0)
    have hblock := yields_resolveExternal (E := E) n .A false _ _ (of_run hrun).1 rfl
    rw [hdecide] at hblock
    cases hblock

variable (X) in
/-- The entry is no wildcard, and hickory shows labels that differ from those of the entry in case at most
as these are written, but for case. -/
def ShownAsWritten (e : Str) : Prop :=
  stripPrefix e "*.".toList = none ∧ ∀ part ∈ split '.' e, ∀ l : Label,
    l.map lowerByte = (part.map fun c => UInt8.ofNat c.toNat) → toAsciiLowercase (X.labelText l) = part

/-- The text of labels that are shown as written. -/
lemma text_of_shown {labels : List Label} {parts : List Str}
    (h : labels.map (List.map lowerByte) = parts.map fun part => part.map fun c => UInt8.ofNat c.toNat)
    (hshown : ∀ part ∈ parts, ∀ l : Label, l.map lowerByte = (part.map fun c => UInt8.ofNat c.toNat) →
      toAsciiLowercase (X.labelText l) = part) :
    toAsciiLowercase (labels.flatMap fun l => X.labelText l ++ ['.']) =
      parts.flatMap fun part => part ++ ['.'] := by
  induction parts generalizing labels with
  | nil =>
    rw [List.map_nil, List.map_eq_nil_iff] at h
    rw [h]
    rfl
  | cons part parts ih =>
    obtain ⟨l, labels, rfl, hl, hlabels⟩ := List.map_eq_cons_iff.mp h
    have hrest := ih hlabels fun p hp => hshown p (List.mem_cons_of_mem part hp)
    have hfirst := hshown part List.mem_cons_self l hl
    unfold toAsciiLowercase at hrest hfirst ⊢
    rw [List.flatMap_cons, List.flatMap_cons, List.map_append, List.map_append, hrest, hfirst]
    rfl

/-- A name that the entry denotes is shown as the entry is written. -/
lemma nameKey_of_shown {text e : Str} {format : BlocklistFormat} (he : e ∈ parseBlocklist text format)
    (h : ShownAsWritten X e) {n : Name} (hn : EntryDenotes e n) : nameKey X.toCrates n = e := by
  obtain ⟨hwildcard, hshown⟩ := h
  obtain ⟨-, hlabels⟩ := hn
  rw [hwildcard] at hlabels
  have hsame := congrArg Name.labels hlabels
  have hne : n.labels ≠ [] := by
    intro hnil
    rw [Name.toLowercase, hnil] at hsame
    have hsplit : split '.' e = [] := List.map_eq_nil_iff.mp hsame.symm
    exact split_ne_nil '.' e hsplit
  have htext : n.toText X.toCrates = n.labels.flatMap fun l => X.labelText l ++ ['.'] := by
    unfold Name.toText
    rw [if_neg (by simpa using hne)]
  have hparts : ((split '.' e).flatMap fun part => part ++ ['.']) = e ++ ['.'] := by
    rw [flatMap_append_sep ['.'] (split_ne_nil '.' e), join_split]
  have hdot : trimEndMatches '.' (e ++ ['.']) = trimEndMatches '.' e :=
    List.rdropWhile_concat_pos _ _ _ (by simp)
  unfold nameKey
  rw [← trimEndMatches_toAsciiLowercase, htext, text_of_shown hsame hshown, hparts, hdot,
    (folded_of_mem_parseBlocklist he).2]

/-- An entry of an enabled list blocks every name that it denotes, where the filter gets to it, exactly when
hickory shows each such name as the entry is written, or the name is blocked otherwise. -/
theorem entryEffective_iff (X : QueryCrates) (C : Config) (E : Env) (t : FilterTables)
    (order : IterationOrder (ℕ × List Str)) (hfilter : FiltersBy X order C t) {text e : Str}
    {format : BlocklistFormat} (he : e ∈ parseBlocklist text format)
    (hstored : ∃ b ∈ t.blocklists, b.enabled = true ∧ ⟨b.id, e⟩ ∈ t.entries) :
    EntryEffective X C E t e ↔ ∀ n, EntryDenotes e n → Exposed X C t n →
      nameKey X.toCrates n = e ∨ BlockedOtherwise X t e n := by
  have hlower := (folded_of_mem_parseBlocklist he).1
  obtain ⟨b, hb, henabled, hentry⟩ := hstored
  refine forall_congr' fun n => forall_congr' fun _ => forall_congr' fun hn => ?_
  rw [answeredBlocked_iff hfilter hn]
  constructor
  · rintro (⟨id, ⟨b', hb', rfl, henabled'⟩, e', he', hid, hkey⟩ | hdeny)
    · by_cases hsame : e'.domain = e
      · rw [hsame, hlower] at hkey
        exact .inl hkey.symm
      · exact .inr (.inr ⟨b', hb', henabled', e', he', hid, hsame, hkey⟩)
    · exact .inr (.inl hdeny)
  · rintro (hkey | hdeny | ⟨b', hb', henabled', e', he', hid, -, hkey⟩)
    · exact .inl ⟨b.id, ⟨b, hb, rfl, henabled⟩, ⟨b.id, e⟩, hentry, rfl, hlower.trans hkey.symm⟩
    · exact .inr hdeny
    · exact .inl ⟨b'.id, ⟨b', hb', rfl, henabled'⟩, e', he', hid, hkey⟩

/-! ## A wildcard and a punycode name -/

/-- An enabled list with one entry. -/
def listedTables (e : Str) : FilterTables :=
  ⟨[⟨1, true⟩], [⟨1, e⟩], [], [], []⟩

/-- A server without zones that filters by the list. -/
def listedConfig (X : QueryCrates) (e : Str) : Config :=
  { smallConfig with filter := .buildFrom X.toCrates .plain (listedTables e) true }

lemma exposed_listed (X : QueryCrates) (e : Str) (n : Name) :
    Exposed X (listedConfig X e) (listedTables e) n where
  zone := rfl
  rewrite := by
    rintro ⟨r, hr, -⟩
    cases hr
  allow := by
    rintro ⟨r, hr, -⟩
    cases hr

/-- Query crates that show the label of `bücher` in Unicode. -/
def idnQueryCrates : QueryCrates :=
  { plainQueryCrates with toCrates := idnCrates }

/-- A name below `ads.example`. -/
def belowAds : Name :=
  .ofPlain "x.ads.example"

/-- The name `bücher.example` as it stands on the wire. -/
def bucherName : Name :=
  .ofPlain "xn--bcher-kva.example"

lemma denotes_belowAds : EntryDenotes "*.ads.example" belowAds := by
  unfold EntryDenotes
  exact ⟨by decide, (Name.ofPlain "x").labels, by decide, by decide⟩

lemma denotes_bucherName : EntryDenotes "xn--bcher-kva.example" bucherName :=
  ⟨by decide, show bucherName.toLowercase = .ofPlain "xn--bcher-kva.example" by decide⟩

/-- An entry `*.ads.example` does not block `x.ads.example`, and an entry with the wire form of
`bücher.example` does not block that name. -/
theorem entries_without_effect :
    "*.ads.example".toList ∈ parseBlocklist "*.ads.example\n" .Domains ∧
      ¬EntryEffective plainQueryCrates (listedConfig plainQueryCrates "*.ads.example") (smallEnv 0)
        (listedTables "*.ads.example") "*.ads.example" ∧
      "xn--bcher-kva.example".toList ∈ parseBlocklist "0.0.0.0 xn--bcher-kva.example\n" .Hosts ∧
      ¬EntryEffective idnQueryCrates (listedConfig idnQueryCrates "xn--bcher-kva.example") (smallEnv 0)
        (listedTables "xn--bcher-kva.example") "xn--bcher-kva.example" := by
  refine ⟨by decide +kernel, fun h => ?_, by decide +kernel, fun h => ?_⟩
  · obtain ⟨out, s', hrun⟩ := h belowAds denotes_belowAds (exposed_listed _ _ _) .A false (.initial 1 0 0)
    have hblock := yields_resolveExternal (E := smallEnv 0) belowAds .A false _ _ (of_run hrun).1 rfl
    revert hblock
    decide +kernel
  · obtain ⟨out, s', hrun⟩ := h bucherName denotes_bucherName (exposed_listed _ _ _) .A false
      (.initial 1 0 0)
    have hblock := yields_resolveExternal (E := smallEnv 0) bucherName .A false _ _ (of_run hrun).1 rfl
    revert hblock
    decide +kernel

/-- The plain crates show the names that the entry `ads.example` denotes as it is written. -/
lemma shownAsWritten_ads : ShownAsWritten plainQueryCrates "ads.example" := by
  refine ⟨by decide, fun part hpart l hl => ?_⟩
  change toAsciiLowercase (plainLabelText l) = part
  rw [toAsciiLowercase_plainLabelText, hl]
  have hsplit : split '.' "ads.example" = ["ads", "example"] := by decide
  rw [hsplit] at hpart
  obtain rfl | rfl : part = "ads" ∨ part = "example" := by simpa using hpart
  · decide
  · decide

/-- The entry `ads.example` blocks each name that it denotes. -/
theorem entryEffective_ads :
    "ads.example".toList ∈ parseBlocklist "ads.example # advertisements\n" .Domains ∧
      EntryEffective plainQueryCrates (listedConfig plainQueryCrates "ads.example") (smallEnv 0)
        (listedTables "ads.example") "ads.example" := by
  have hentry : "ads.example".toList ∈ parseBlocklist "ads.example # advertisements\n" .Domains := by
    decide +kernel
  refine ⟨hentry, (entryEffective_iff plainQueryCrates (listedConfig plainQueryCrates "ads.example")
    (smallEnv 0) (listedTables "ads.example") .plain rfl hentry
    ⟨⟨1, true⟩, by decide, rfl, by decide⟩).mpr fun n hn _ => ?_⟩
  exact .inl (nameKey_of_shown hentry shownAsWritten_ads hn)

end Nomina
