import Nomina.Coherence
import Nomina.Dns.Answers
import Nomina.Dns.Denial
import Nomina.Dns.Printing

/-!
# The names of the served SOA

The SOA record of a zone is answered at its apex and stands in the authority section of what is denied.
Its contact and its numbers are the configured ones. Its primary server is built with the helper for
names relative to a zone, with no zone behind it: the text gets a second dot, which no name has, and the
apex of the zone is taken in its place.

The result says when the served record is the configured one. It rests on the crate refusing names
with an empty label.
-/

namespace Nomina

open Lib

/-! ## Texts of names -/

/-- The text of a name with a dot at its end. -/
def absoluteText (s : Str) : Str :=
  if endsWith s ['.'] then s else s ++ ['.']

/-- Whether one of the labels of a text that end in a dot is empty, where `start` tells whether one
begins here. A backslash escapes the character behind it. -/
def emptyLabelFrom : Bool → Str → Bool
  | _, [] => false
  | start, '.' :: rest => start || emptyLabelFrom true rest
  | _, '\\' :: _ :: rest => emptyLabelFrom false rest
  | _, _ :: rest => emptyLabelFrom false rest

/-- Whether the text of a name has an empty label. A dot alone is the root. -/
def hasEmptyLabel (s : Str) : Bool :=
  s ≠ ['.'] && emptyLabelFrom true s

/-- Text without dots and backslashes only continues a label. -/
lemma emptyLabelFrom_append {part : Str} (hne : part ≠ [])
    (hplain : ∀ c ∈ part, c ≠ '.' ∧ c ≠ '\\') (start : Bool) (rest : Str) :
    emptyLabelFrom start (part ++ rest) = emptyLabelFrom false rest := by
  induction part generalizing start with
  | nil => exact absurd rfl hne
  | cons c part ih =>
    obtain ⟨⟨hdot, hslash⟩, hpart⟩ := List.forall_mem_cons.mp hplain
    have hstep : emptyLabelFrom start (c :: (part ++ rest)) = emptyLabelFrom false (part ++ rest) := by
      rw [emptyLabelFrom]
      · exact fun h => absurd h hdot
      · exact fun _ _ h _ => absurd h hslash
    rw [List.cons_append, hstep]
    by_cases hnil : part = []
    · rw [hnil]
      rfl
    · exact ih hnil hpart false

/-- Joined labels without dots and backslashes, none of them empty, have no empty label. -/
lemma emptyLabelFrom_join {parts : List Str} (hne : parts ≠ [])
    (hplain : ∀ part ∈ parts, part ≠ [] ∧ ∀ c ∈ part, c ≠ '.' ∧ c ≠ '\\') (start : Bool) :
    emptyLabelFrom start (join ['.'] parts ++ ['.']) = false := by
  induction parts generalizing start with
  | nil => exact absurd rfl hne
  | cons part parts ih =>
    obtain ⟨⟨hpart, hchars⟩, hparts⟩ := List.forall_mem_cons.mp hplain
    by_cases hnil : parts = []
    · subst hnil
      have hjoin : join ['.'] [part] = part := by simp [join]
      rw [hjoin, emptyLabelFrom_append hpart hchars]
      rfl
    · have hjoin : join ['.'] (part :: parts) = part ++ '.' :: join ['.'] parts := by
        unfold join
        rw [List.intercalate_cons_of_ne_nil hnil]
        simp
      rw [hjoin, List.append_assoc, emptyLabelFrom_append hpart hchars]
      exact ih hnil hparts true

/-- Every part that a name is read from is read as a label. -/
lemma exists_label_of_mem {read : Str → Option Label} {parts : List Str} {labels : List Label}
    (h : parts.mapM read = some labels) {part : Str} (hpart : part ∈ parts) :
    ∃ l, read part = some l := by
  induction parts generalizing labels with
  | nil => cases hpart
  | cons p parts ih =>
    rw [List.mapM_cons] at h
    simp only [Option.bind_eq_bind, Option.bind_eq_some_iff] at h
    obtain ⟨l, hl, labels', hlabels', -⟩ := h
    rcases List.mem_cons.mp hpart with rfl | hpart
    · exact ⟨l, hl⟩
    · exact ih hlabels' hpart

/-- The parts of plain names are not empty, and have no dots and backslashes. -/
lemma plain_of_plainLabel {part : Str} {l : Label} (h : plainLabel part = some l) :
    part ≠ [] ∧ ∀ c ∈ part, c ≠ '.' ∧ c ≠ '\\' := by
  obtain ⟨hchars, hne, -, -⟩ := plainLabel_eq_some h
  refine ⟨fun hnil => hne (by rw [hnil]; rfl), fun c hc => ?_⟩
  have hlower : IsPlainChar c.toLower := hchars _ (List.mem_map_of_mem hc)
  constructor
  · rintro rfl
    exact hlower.plain.2.1 (by decide)
  · rintro rfl
    have hnat := isPlainChar_iff.mp hlower
    revert hnat
    decide

/-- Plain names have no empty label. -/
lemma plainName_of_hasEmptyLabel {s : Str} (h : hasEmptyLabel s = true) :
    ∃ e, plainName s = .error e := by
  cases hname : plainName s with
  | error e => exact ⟨e, rfl⟩
  | ok n =>
    have hread : readDotted plainLabel s = .ok n := hname
    obtain ⟨body, rfl, hbody⟩ := readDotted_eq_ok.mp hread
    have hplain : ∀ part ∈ split '.' body, part ≠ [] ∧ ∀ c ∈ part, c ≠ '.' ∧ c ≠ '\\' := by
      intro part hpart
      obtain ⟨l, hl⟩ := exists_label_of_mem hbody hpart
      exact plain_of_plainLabel hl
    have hempty := emptyLabelFrom_join (split_ne_nil '.' body) hplain true
    rw [join_split] at hempty
    unfold hasEmptyLabel at h
    rw [hempty, Bool.and_false] at h
    cases h

/-! ## The configured SOA -/

variable {K : Crates}

variable (K) in
/-- The name that an administrator's address denotes: of an e-mail address the local part with its dots
escaped before the domain, and else the address read as a name. -/
inductive AdminDenotes : Str → Name → Prop
  | email {loc domain : Str} {m : Name} (hloc : '@' ∉ loc)
      (hm : K.fromUtf8 (absoluteText (replaceChar '.' "\\." loc ++ '.' :: domain)) = .ok m) :
      AdminDenotes (loc ++ '@' :: domain) m
  | zoneFile {s : Str} {m : Name} (hs : '@' ∉ s) (hm : K.fromUtf8 (absoluteText s) = .ok m) :
      AdminDenotes s m

variable (K) in
/-- The names that the configured texts denote: the primary server and the contact. -/
structure Soa.Denotes (soa : Soa) (n m : Name) : Prop where
  primary : K.fromUtf8 (absoluteText (trim soa.primaryNs)) = .ok n
  admin : AdminDenotes K (trim soa.adminEmail) m

/-- The contact of the SOA is the one that the address denotes. -/
lemma soaRname_of_adminDenotes {email : Str} {m : Name} (h : AdminDenotes K (trim email) m) :
    soaRname K email = .ok m := by
  unfold soaRname
  generalize trim email = s at h ⊢
  cases h with
  | email hloc hm =>
    rename_i loc domain
    dsimp only
    rw [splitOnce_append hloc]
    unfold absoluteText at hm
    dsimp only
    rw [hm]
  | zoneFile hs hm =>
    have hsplit : splitOnce '@' s = none := by
      unfold splitOnce
      rw [if_neg (by simpa using hs)]
    dsimp only
    rw [hsplit]
    unfold absoluteText at hm
    dsimp only
    rw [hm]

/-- The text that the primary server is read from: a dot alone where nothing is left of the configured
name, and else that name with two dots. -/
def primaryText (primaryNs : Str) : Str :=
  let rec' := trimEndMatches '.' (trim (trimEndMatches '.' primaryNs))
  if rec'.isEmpty || rec' == ['@'] then ['.'] else rec' ++ ['.', '.']

/-- What the crate documents of `from_utf8`: names with an empty label are refused. -/
def RefusesEmptyLabels (K : Crates) : Prop :=
  ∀ s, hasEmptyLabel s = true → ∃ e, K.fromUtf8 s = .error e

/-- The condition on the primary server `n`: it is the apex of the zone or, where the text with the two
dots has no empty label, what that text is read as. -/
def PrimaryKept (K : Crates) (z : Zone) (apex n : Name) : Prop :=
  if hasEmptyLabel (primaryText z.soa.primaryNs) then n = apex
  else n = readOr apex (K.fromUtf8 (primaryText z.soa.primaryNs))

instance (K : Crates) (z : Zone) (apex n : Name) : Decidable (PrimaryKept K z apex n) := by
  unfold PrimaryKept
  infer_instance

/-- The primary server of the SOA of a zone. -/
lemma mname_eq_iff (hrefuses : RefusesEmptyLabels K) (z : Zone) (apex n : Name) :
    (zoneSoa K z apex).mname = n ↔ PrimaryKept K z apex n := by
  have hmname : (zoneSoa K z apex).mname =
      readOr apex (K.fromUtf8 (primaryText z.soa.primaryNs)) := by
    have hbuilt : (zoneSoa K z apex).mname =
        readOr apex (recordFqdnName K (trimEndMatches '.' z.soa.primaryNs) []) := rfl
    rw [hbuilt, recordFqdnName_nil rfl]
    rfl
  unfold PrimaryKept
  rw [hmname]
  split
  · rename_i hempty
    obtain ⟨e, he⟩ := hrefuses _ hempty
    rw [he]
    exact eq_comm
  · exact eq_comm

/-- The SOA record that is configured for a zone, with the names that its texts denote. -/
def configuredSoa (z : Zone) (apex n m : Name) : Record :=
  ⟨apex, max z.soa.minimum 1,
    .soa ⟨n, m, z.serial, z.soa.refresh, z.soa.retry, z.soa.expire, z.soa.minimum⟩⟩

/-- The store serves the configured SOA of a zone: it is the answer at the apex, and the authority
section of what is denied to a client. -/
structure ServesSoa (K : Crates) (t : Tables) (z : Zone) (apex n m : Name) : Prop where
  answered : ∀ qname, ServesName K t qname z apex → nameKey K qname = nameKey K apex →
    ∀ client geo, (buildFrom K t).lookup K qname .SOA client geo =
      .ok [configuredSoa (Db.readZone z) apex n m]
        (((buildFrom K t).viewFor client geo).map Prod.snd)
  denied : ∀ qname, ServesName K t qname z apex → ∀ qtype client geo,
    ((buildFrom K t).lookup K qname qtype client geo).outcome ≠ .Authoritative →
      ((buildFrom K t).lookup K qname qtype client geo).authority =
        [configuredSoa (Db.readZone z) apex n m]

/-- The served SOA record is the one that is configured, with the two names as they are built. -/
lemma soaRecord_storedZone (z : Zone) (apex : Name) (key : Option DnssecKey) (rows : List DnsRecord) :
    (storedZone K z apex key rows).soaRecord =
      configuredSoa z apex (zoneSoa K z apex).mname (zoneSoa K z apex).rname :=
  rfl

/-- The store serves the SOA of a zone that denotes valid names exactly when the primary server is
kept. -/
theorem servesSoa_iff (K : Crates) (hrefuses : RefusesEmptyLabels K) (t : Tables) (z : Zone)
    (apex n m : Name) (hserves : ServesName K t apex z apex)
    (hdenotes : z.soa.Denotes K n m) :
    ServesSoa K t z apex n m ↔ PrimaryKept K z apex n := by
  have hrname : (zoneSoa K (Db.readZone z) apex).rname = m := by
    have hread := soaRname_of_adminDenotes hdenotes.admin
    unfold zoneSoa Db.readZone
    dsimp only
    rw [hread]
  have hmname := mname_eq_iff hrefuses (Db.readZone z) apex n
  have hkept : PrimaryKept K (Db.readZone z) apex n ↔ PrimaryKept K z apex n := Iff.rfl
  rw [← hkept, ← hmname]
  constructor
  · intro h
    have hsoa := h.answered apex hserves rfl (.v4 0) {}
    have hzone := hserves.zoneFor
    generalize hstored : storedZone K (Db.readZone z) apex (t.dnssecKey? z.id)
      (Db.sortRecords (t.zoneRecords z.id)) = zone at hzone
    have hapex : zone.apex = apex := by rw [← hstored]; rfl
    rw [lookup_of_zoneFor hzone, lookupIn_soa ⟨rfl, by rw [hapex]⟩, ← hstored,
      soaRecord_storedZone] at hsoa
    have hrecord := List.singleton_inj.mp (congrArg LookupResult.answers hsoa)
    exact (SOA.mk.inj (RData.soa.inj (Record.mk.inj hrecord).2.2)).1
  · intro hname
    have hrecord : ∀ key rows, (storedZone K (Db.readZone z) apex key rows).soaRecord =
        configuredSoa (Db.readZone z) apex n m := by
      intro key rows
      rw [soaRecord_storedZone, hname, hrname]
    constructor
    · intro qname hqname hkey client geo
      rw [lookup_of_zoneFor hqname.zoneFor, lookupIn_soa ⟨rfl, hkey⟩, hrecord]
    · intro qname hqname qtype client geo hdenied
      rw [lookup_of_zoneFor hqname.zoneFor] at hdenied ⊢
      rw [(lookupIn_denied hdenied).1, hrecord]

/-- The zone `home.lan` serves its apex. -/
lemma servesName_home :
    ServesName plainCrates (homeTables 1 []) (.ofPlain "home.lan") homeZone (.ofPlain "home.lan") := by
  refine ⟨by decide, by decide +kernel, by decide, ?_⟩
  intro w hw apex hapex hcovers
  rw [List.mem_singleton.mp hw] at hapex
  obtain rfl : Name.ofPlain "home.lan" = apex := Option.some.inj (by rw [← hapex]; decide +kernel)
  exact .inr ⟨rfl, .inl (List.mem_singleton.mp hw)⟩

/-- The names its SOA fields denote. -/
lemma denotes_home : homeZone.soa.Denotes plainCrates (.ofPlain "ns1.home.lan")
    (.ofPlain "hostmaster.home.lan") :=
  ⟨by decide +kernel, .zoneFile (by decide) (by decide +kernel)⟩

/-- The zone `home.lan` is served with itself as its primary server, and not with `ns1.home.lan`. -/
theorem servesSoa_home :
    RefusesEmptyLabels plainCrates ∧
    ServesName plainCrates (homeTables 1 []) (.ofPlain "home.lan") homeZone (.ofPlain "home.lan") ∧
    homeZone.soa.Denotes plainCrates (.ofPlain "ns1.home.lan") (.ofPlain "hostmaster.home.lan") ∧
    ¬ServesSoa plainCrates (homeTables 1 []) homeZone (.ofPlain "home.lan") (.ofPlain "ns1.home.lan")
      (.ofPlain "hostmaster.home.lan") := by
  refine ⟨fun _ => plainName_of_hasEmptyLabel, servesName_home, denotes_home, fun h => ?_⟩
  have hsoa := h.answered _ servesName_home rfl (.v4 0) {}
  revert hsoa
  decide +kernel

/-- What decides it for `home.lan`. -/
theorem servesSoa_home_iff :
    ServesSoa plainCrates (homeTables 1 []) homeZone (.ofPlain "home.lan") (.ofPlain "ns1.home.lan")
        (.ofPlain "hostmaster.home.lan") ↔
      PrimaryKept plainCrates homeZone (.ofPlain "home.lan") (.ofPlain "ns1.home.lan") :=
  servesSoa_iff plainCrates (fun _ => plainName_of_hasEmptyLabel) (homeTables 1 []) homeZone _ _ _
    servesName_home denotes_home

end Nomina
