import Nomina.Lib.Assoc
import Nomina.Lib.Utf8

/-!
# Cookies

The cookies of the management API: the `Set-Cookie` texts that `web/auth.rs` builds, the `Cookie` fields
that `parse_cookies` reads, and between the two a client that keeps cookies by name and sends them back in
one field.

The main result follows a client through a login and a logout. Whatever other cookies it has, the server
reads back the session token and the CSRF token it gave out, and after the logout it reads neither.
-/

namespace Nomina

open Lib

/-! ## What the server sets -/

/-- Session lifetime, in seconds. -/
def sessionTtlSecs : ℕ := 7 * 24 * 3600

/-- The name of the session cookie. -/
def sessionCookieName : Str := "nomina_session"

/-- The name of the CSRF cookie, which scripts may read. -/
def csrfCookieName : Str := "nomina_csrf"

/-- `cookie`: the value of a `Set-Cookie` header. -/
def cookie (name value : Str) (secure httpOnly : Bool) (maxAge : ℕ) : Str :=
  name ++ '=' :: value ++ "; Path=/; SameSite=Strict; Max-Age=".toList ++ Nat.toDigits 10 maxAge ++
    (if httpOnly then "; HttpOnly".toList else []) ++ if secure then "; Secure".toList else []

/-- `session_cookie`. -/
def sessionCookie (token : Str) (secure : Bool) (maxAge : ℕ) : Str :=
  cookie sessionCookieName token secure true maxAge

/-- `csrf_cookie`. -/
def csrfCookie (token : Str) (secure : Bool) (maxAge : ℕ) : Str :=
  cookie csrfCookieName token secure false maxAge

/-- `session_cookies`: what a login and the setup set. -/
def sessionCookies (secure : Bool) (token csrf : Str) : List Str :=
  [sessionCookie token secure sessionTtlSecs, csrfCookie csrf secure sessionTtlSecs]

/-- What `logout` sets. -/
def clearedCookies (secure : Bool) : List Str :=
  [sessionCookie [] secure 0, csrfCookie [] secure 0]

/-! ## What the server reads -/

/-- The value of a header field: its bytes. -/
abbrev HeaderValue := Bytes

/-- A byte of a header value that is text: visible ASCII, a blank or a tab. -/
def isTextByte (b : UInt8) : Bool :=
  (32 ≤ b && b < 127) || b == 9

/-- `HeaderValue::to_str`: there is no text when any byte is none of text. -/
def HeaderValue.toStr (v : HeaderValue) : Option Str :=
  if v.all isTextByte then some (v.map fun b => Char.ofNat b.toNat) else none

/-- `headers.get(name).and_then(|v| v.to_str().ok())`: the text of the first of the fields of a name. -/
def firstText (fields : List HeaderValue) : Option Str :=
  fields.head?.bind HeaderValue.toStr

/-- The pairs of a `Cookie` field, in their order. -/
def cookiePairs (raw : Str) : List (Str × Str) :=
  (split ';' raw).filterMap fun pair => (splitOnce '=' (trim pair)).map fun kv => (trim kv.1, trim kv.2)

/-- The map that pairs are inserted in, one after the other. -/
def insertPairs (pairs : List (Str × Str)) : Map Str Str :=
  pairs.foldl (fun m kv => m.insert kv.1 kv.2) ∅

/-- `parse_cookies`, of the `Cookie` fields of a request. -/
def parseCookies (fields : List HeaderValue) : Map Str Str :=
  insertPairs (((firstText fields).map cookiePairs).getD [])

/-! ## The client -/

/-- The cookies of a client. -/
abbrev Jar := List (Str × Str)

namespace Jar

/-- A client reads a `Set-Cookie` header: the first part is the pair, the others are attributes. The pair
replaces the one of its name, and a cookie of age 0 is gone. -/
def receive (jar : Jar) (setCookie : Str) : Jar :=
  let parts := (split ';' setCookie).map trim
  match (parts.head?.bind (splitOnce '=')) with
  | some kv =>
    let others := jar.filter (·.1 != kv.1)
    if parts.tail.contains "Max-Age=0".toList then others else others ++ [kv]
  | none => jar

/-- The `Cookie` field that a client sends, if it has cookies. -/
def fields (jar : Jar) : List HeaderValue :=
  if jar.isEmpty then [] else [asBytes (join "; ".toList (jar.map fun kv => kv.1 ++ '=' :: kv.2))]

/-- The value of a cookie. -/
def value (jar : Jar) (name : Str) : Option Str :=
  (jar.find? (·.1 == name)).map Prod.snd

end Jar

/-! ## Cookie text -/

/-- Text that may stand in a cookie: visible ASCII without semicolons. -/
def IsCookieText (s : Str) : Prop :=
  ∀ c ∈ s, (32 < c.toNat ∧ c.toNat < 127) ∧ c ≠ ';'

instance (s : Str) : Decidable (IsCookieText s) :=
  decidable_of_iff (s.all fun c => decide (32 < c.toNat ∧ c.toNat < 127) && c != ';') (by
    simp only [List.all_eq_true, Bool.and_eq_true, decide_eq_true_eq, bne_iff_ne, IsCookieText])

/-- A pair that a client may hold. -/
structure IsPair (kv : Str × Str) : Prop where
  name : IsCookieText kv.1
  noSign : '=' ∉ kv.1
  value : IsCookieText kv.2

/-- The cookies of a client that keeps one for a name. -/
structure Jar.Kept (jar : Jar) : Prop where
  pairs : ∀ kv ∈ jar, IsPair kv
  names : (jar.map Prod.fst).Nodup

/-- The text of a pair. -/
def pairText (kv : Str × Str) : Str :=
  kv.1 ++ '=' :: kv.2

lemma IsCookieText.trim_eq {s : Str} (h : IsCookieText s) : trim s = s := by
  refine trim_eq_self fun c hc => ?_
  obtain ⟨⟨hlow, hhigh⟩, -⟩ := h c hc
  unfold isWhitespace
  simp only [Bool.or_eq_false_iff, Bool.and_eq_false_iff, decide_eq_false_iff_not, beq_eq_false_iff_ne]
  omega

lemma IsPair.isCookieText {kv : Str × Str} (h : IsPair kv) : IsCookieText (pairText kv) := by
  intro c hc
  rcases List.mem_append.mp hc with hc | hc
  · exact h.name c hc
  · rcases List.mem_cons.mp hc with rfl | hc
    · decide
    · exact h.value c hc

lemma IsPair.splitOnce_eq {kv : Str × Str} (h : IsPair kv) : splitOnce '=' (pairText kv) = some kv :=
  splitOnce_append h.noSign kv.2

/-- A blank before a text that has none is trimmed. -/
lemma trim_blank_cons {s : Str} (h : IsCookieText s) : trim (' ' :: s) = s := by
  have hblank : isWhitespace ' ' = true := by decide
  have htrim := h.trim_eq
  unfold trim at htrim ⊢
  rw [List.dropWhile_cons_of_pos hblank]
  exact htrim

/-- The parts between semicolons, when the text before the first one has none. -/
lemma split_cons_of_notMem {s : Str} (h : ';' ∉ s) (rest : Str) :
    split ';' (s ++ ';' :: rest) = s :: split ';' rest := by
  rw [split_append_cons, split_eq_singleton h, List.singleton_append]

/-! ## The round trip of a field -/

/-- Texts that are joined with a semicolon and a blank are read back, once trimmed. -/
lemma map_trim_split_join {texts : List Str} (hne : texts ≠ []) (h : ∀ s ∈ texts, IsCookieText s) :
    (split ';' (join "; ".toList texts)).map trim = texts := by
  induction texts with
  | nil => exact absurd rfl hne
  | cons s texts ih =>
    have hs : IsCookieText s := h s List.mem_cons_self
    have hnot : ';' ∉ s := fun hc => (hs _ hc).2 rfl
    by_cases hnil : texts = []
    · subst hnil
      rw [join, List.intercalate_singleton, split_eq_singleton hnot, List.map_singleton, hs.trim_eq]
    · have htexts : ∀ t ∈ texts, IsCookieText t := fun t ht => h t (List.mem_cons_of_mem s ht)
      have hjoin : join "; ".toList (s :: texts) = s ++ ';' :: (' ' :: join "; ".toList texts) := by
        rw [join, List.intercalate_cons_of_ne_nil hnil]
        simp [join]
      rw [hjoin, split_cons_of_notMem hnot, List.map_cons, hs.trim_eq]
      congr 1
      have ih := ih hnil htexts
      -- The blank that follows the semicolon belongs to the first of the other texts.
      obtain ⟨t, ts, rfl⟩ := List.exists_cons_of_ne_nil hnil
      have ht : IsCookieText t := htexts t List.mem_cons_self
      have hnot' : ';' ∉ t := fun hc => (ht _ hc).2 rfl
      have hnot'' : ';' ∉ ' ' :: t := by simpa using hnot'
      by_cases hts : ts = []
      · subst hts
        rw [join, List.intercalate_singleton, split_eq_singleton hnot'', List.map_singleton,
          trim_blank_cons ht]
      · have hjoin' : join "; ".toList (t :: ts) = t ++ ';' :: (' ' :: join "; ".toList ts) := by
          rw [join, List.intercalate_cons_of_ne_nil hts]
          simp [join]
        rw [hjoin', split_cons_of_notMem hnot', List.map_cons] at ih
        rw [hjoin', ← List.cons_append, split_cons_of_notMem hnot'', List.map_cons, trim_blank_cons ht]
        congr 1
        exact (List.cons.inj ih).2

/-- The text of a field of visible ASCII and blanks is read back. -/
lemma toStr_asBytes {s : Str} (h : ∀ c ∈ s, 32 ≤ c.toNat ∧ c.toNat < 127) :
    HeaderValue.toStr (asBytes s) = some s := by
  have hascii : ∀ c ∈ s, c.toNat < 128 := fun c hc => Nat.lt_succ_of_lt (h c hc).2
  have htext : ((s.map fun c => UInt8.ofNat c.toNat).all isTextByte) = true := by
    rw [List.all_map, List.all_eq_true]
    intro c hc
    obtain ⟨hlow, hhigh⟩ := h c hc
    have hbyte : (UInt8.ofNat c.toNat).toNat = c.toNat := by
      rw [UInt8.toNat_ofNat']
      omega
    simp only [Function.comp_apply, isTextByte, Bool.or_eq_true, Bool.and_eq_true, decide_eq_true_eq]
    left
    rw [UInt8.le_iff_toNat_le, UInt8.lt_iff_toNat_lt, hbyte]
    exact ⟨hlow, hhigh⟩
  unfold HeaderValue.toStr
  rw [asBytes_of_ascii hascii, if_pos htext, List.map_map]
  congr 1
  calc s.map ((fun b => Char.ofNat b.toNat) ∘ fun c => UInt8.ofNat c.toNat)
      = s.map id := List.map_congr_left fun c hc => ofNat_byte (hascii c hc)
    _ = s := List.map_id s

/-- Texts that are joined with a semicolon and a blank are visible ASCII and blanks. -/
lemma ascii_join {texts : List Str} (h : ∀ s ∈ texts, ∀ c ∈ s, 32 ≤ c.toNat ∧ c.toNat < 127) :
    ∀ c ∈ join "; ".toList texts, 32 ≤ c.toNat ∧ c.toNat < 127 := by
  induction texts with
  | nil => exact fun c hc => absurd hc List.not_mem_nil
  | cons s texts ih =>
    have hs := h s List.mem_cons_self
    by_cases hnil : texts = []
    · subst hnil
      rw [join, List.intercalate_singleton]
      exact hs
    · have hsep : ∀ c ∈ "; ".toList, 32 ≤ c.toNat ∧ c.toNat < 127 :=
        List.forall_mem_cons.mpr ⟨by decide, List.forall_mem_singleton.mpr (by decide)⟩
      intro c hc
      rw [join, List.intercalate_cons_of_ne_nil hnil, List.mem_append, List.mem_append] at hc
      rcases hc with (hc | hc) | hc
      · exact hs c hc
      · exact hsep c hc
      · exact ih (fun t ht => h t (List.mem_cons_of_mem s ht)) c hc

/-- The pairs of a client are read back from the field it sends. -/
lemma cookiePairs_fields {jar : Jar} (hpairs : ∀ kv ∈ jar, IsPair kv) :
    ((firstText jar.fields).map cookiePairs).getD [] = jar := by
  unfold Jar.fields
  by_cases hnil : jar = []
  · subst hnil
    rfl
  have htexts : ∀ s ∈ jar.map pairText, IsCookieText s := by
    intro s hs
    obtain ⟨kv, hkv, rfl⟩ := List.mem_map.mp hs
    exact (hpairs kv hkv).isCookieText
  have hread := map_trim_split_join (by simpa using hnil) htexts
  have htext : firstText [asBytes (join "; ".toList (jar.map pairText))] =
      some (join "; ".toList (jar.map pairText)) :=
    toStr_asBytes (ascii_join fun s hs c hc => ⟨(htexts s hs c hc).1.1.le, (htexts s hs c hc).1.2⟩)
  rw [if_neg (by simpa using hnil)]
  change ((firstText [asBytes (join "; ".toList (jar.map pairText))]).map cookiePairs).getD [] = jar
  rw [htext, Option.map_some, Option.getD_some]
  unfold cookiePairs
  have hcomp : (fun pair : Str => (splitOnce '=' (trim pair)).map fun kv => (trim kv.1, trim kv.2)) =
      (fun s : Str => (splitOnce '=' s).map fun kv => (trim kv.1, trim kv.2)) ∘ trim := rfl
  rw [hcomp, ← List.filterMap_map, hread, List.filterMap_map]
  calc jar.filterMap ((fun s => (splitOnce '=' s).map fun kv => (trim kv.1, trim kv.2)) ∘ pairText)
      = jar.filterMap some := by
        refine List.filterMap_congr fun kv hkv => ?_
        have hkv := hpairs kv hkv
        rw [Function.comp_apply, hkv.splitOnce_eq, Option.map_some, hkv.name.trim_eq, hkv.value.trim_eq]
    _ = jar := List.filterMap_some

/-- A map that pairs are inserted in has those of a list without repeated names. -/
lemma lookup_insertPairs {jar : Jar} (hnames : (jar.map Prod.fst).Nodup) (name : Str) :
    (insertPairs jar).lookup name = jar.value name := by
  suffices hgen : ∀ m : Map Str Str, (jar.foldl (fun m kv => m.insert kv.1 kv.2) m).lookup name =
      (jar.value name).or (m.lookup name) by
    rw [insertPairs, hgen ∅, AList.lookup_empty, Option.or_none]
  unfold Jar.value
  induction jar with
  | nil => exact fun m => rfl
  | cons kv jar ih =>
    intro m
    obtain ⟨hfresh, hnames⟩ := List.nodup_cons.mp hnames
    rw [List.foldl_cons, ih hnames]
    by_cases hname : kv.1 = name
    · subst hname
      have hnone : jar.find? (·.1 == kv.1) = none := by
        refine List.find?_eq_none.mpr fun kv' hkv' hsame => hfresh ?_
        rw [← beq_iff_eq.mp hsame]
        exact List.mem_map_of_mem hkv'
      rw [hnone, List.find?_cons_of_pos (by simp), AList.lookup_insert]
      rfl
    · rw [AList.lookup_insert_ne (Ne.symm hname), List.find?_cons_of_neg (by simpa using hname)]

/-- The server reads the cookies of a client as the client holds them. -/
theorem parseCookies_fields {jar : Jar} (hjar : jar.Kept) (name : Str) :
    (parseCookies jar.fields).lookup name = jar.value name := by
  rw [parseCookies, cookiePairs_fields hjar.pairs, lookup_insertPairs hjar.names]

/-! ## A login and a logout -/

/-- The attributes of a cookie. -/
def attributes (secure httpOnly : Bool) (maxAge : ℕ) : List Str :=
  ["Path=/".toList, "SameSite=Strict".toList, "Max-Age=".toList ++ Nat.toDigits 10 maxAge] ++
    ((if httpOnly then ["HttpOnly".toList] else []) ++ if secure then ["Secure".toList] else [])

/-- A `Set-Cookie` text has the pair and the attributes between semicolons. -/
lemma cookie_eq_join (name value : Str) (secure httpOnly : Bool) (maxAge : ℕ) :
    cookie name value secure httpOnly maxAge =
      join "; ".toList (pairText (name, value) :: attributes secure httpOnly maxAge) := by
  unfold cookie attributes join pairText
  cases httpOnly <;> cases secure <;> simp [List.intercalate_cons_of_ne_nil]

lemma isCookieText_attributes (secure httpOnly : Bool) (maxAge : ℕ) :
    ∀ s ∈ attributes secure httpOnly maxAge, IsCookieText s := by
  have hdigits : IsCookieText ("Max-Age=".toList ++ Nat.toDigits 10 maxAge) := by
    intro c hc
    rcases List.mem_append.mp hc with hc | hc
    · have hplain : IsCookieText "Max-Age=".toList := by decide
      exact hplain c hc
    · have hdigit : c.isDigit = true :=
        Nat.isDigit_of_mem_toDigits (by decide) (by decide) hc
      have hrange : 48 ≤ c.toNat ∧ c.toNat ≤ 57 := by
        rw [Char.isDigit, Bool.and_eq_true, decide_eq_true_eq, decide_eq_true_eq] at hdigit
        exact ⟨UInt32.le_iff_toNat_le.mp hdigit.1, UInt32.le_iff_toNat_le.mp hdigit.2⟩
      refine ⟨by omega, ?_⟩
      rintro rfl
      revert hrange
      decide
  intro s hs
  unfold attributes at hs
  have hrest : ∀ s ∈ (if httpOnly then ["HttpOnly".toList] else []) ++
      (if secure then ["Secure".toList] else []), IsCookieText s := by
    cases httpOnly <;> cases secure <;> decide
  rcases List.mem_append.mp hs with hs | hs
  · have hcases : s = "Path=/".toList ∨ s = "SameSite=Strict".toList ∨
        s = "Max-Age=".toList ++ Nat.toDigits 10 maxAge := by simpa using hs
    rcases hcases with rfl | rfl | rfl
    · decide
    · decide
    · exact hdigits
  · exact hrest s hs

/-- An attribute says that the age is 0 exactly when it is. -/
lemma contains_attributes (secure httpOnly : Bool) (maxAge : ℕ) :
    (attributes secure httpOnly maxAge).contains "Max-Age=0".toList = decide (maxAge = 0) := by
  have hage : "Max-Age=".toList ++ Nat.toDigits 10 maxAge = "Max-Age=0".toList ↔ maxAge = 0 := by
    constructor
    · intro h
      have hdigits : Nat.toDigits 10 maxAge = Nat.toDigits 10 0 := List.append_cancel_left h
      have hvalue := congrArg (fun digits => Nat.ofDigitChars 10 digits 0) hdigits
      simpa only [Nat.ofDigitChars_ten_toDigits] using hvalue
    · rintro rfl
      rfl
  have hrest : "Max-Age=0".toList ∉ (if httpOnly then ["HttpOnly".toList] else []) ++
      (if secure then ["Secure".toList] else []) := by
    cases httpOnly <;> cases secure <;> decide
  rw [List.contains_eq_mem, decide_eq_decide, ← hage]
  unfold attributes
  rw [List.mem_append, or_iff_left hrest, List.mem_cons, List.mem_cons, List.mem_singleton,
    or_iff_right (by decide), or_iff_right (by decide), eq_comm]

/-- A client that receives a cookie keeps it in place of the one of its name, unless its age is 0. -/
lemma receive_cookie (jar : Jar) {name value : Str} (hpair : IsPair (name, value)) (secure httpOnly : Bool)
    (maxAge : ℕ) :
    jar.receive (cookie name value secure httpOnly maxAge) =
      jar.filter (·.1 != name) ++ if maxAge = 0 then [] else [(name, value)] := by
  have hparts : (split ';' (cookie name value secure httpOnly maxAge)).map trim =
      pairText (name, value) :: attributes secure httpOnly maxAge := by
    rw [cookie_eq_join]
    refine map_trim_split_join (List.cons_ne_nil _ _) fun s hs => ?_
    rcases List.mem_cons.mp hs with rfl | hs
    · exact hpair.isCookieText
    · exact isCookieText_attributes secure httpOnly maxAge s hs
  unfold Jar.receive
  rw [hparts]
  simp only [List.head?_cons, Option.bind_some, hpair.splitOnce_eq, List.tail_cons, contains_attributes,
    decide_eq_true_eq]
  split
  · rw [List.append_nil]
  · rfl

/-- The value of a cookie after its name was received, and the values of the others. -/
lemma value_replaced (jar : Jar) (name value : Str) (name' : Str) :
    Jar.value (jar.filter (·.1 != name) ++ [(name, value)]) name' =
      if name' = name then some value else jar.value name' := by
  unfold Jar.value
  by_cases h : name' = name
  · subst h
    have hnone : (jar.filter (·.1 != name')).find? (·.1 == name') = none := by
      refine List.find?_eq_none.mpr fun kv hkv => ?_
      simpa using (List.mem_filter.mp hkv).2
    rw [List.find?_append, hnone, if_pos rfl, Option.none_or, List.find?_cons_of_pos (by simp)]
    rfl
  · have hother : (jar.filter (·.1 != name)).find? (·.1 == name') = jar.find? (·.1 == name') := by
      rw [List.find?_filter]
      refine congrArg (fun p => jar.find? p) (funext fun kv => ?_)
      by_cases hkv : kv.1 = name'
      · simp [hkv, h]
      · simp [hkv]
    rw [List.find?_append, hother, if_neg h, List.find?_cons_of_neg (by simpa using Ne.symm h),
      List.find?_nil, Option.or_none]

lemma value_removed (jar : Jar) (name name' : Str) :
    Jar.value (jar.filter (·.1 != name)) name' = if name' = name then none else jar.value name' := by
  unfold Jar.value
  rw [List.find?_filter]
  by_cases h : name' = name
  · subst h
    rw [if_pos rfl, List.find?_eq_none.mpr fun kv _ => by simp, Option.map_none]
  · rw [if_neg h]
    refine congrArg (fun p => (jar.find? p).map Prod.snd) (funext fun kv => ?_)
    by_cases hkv : kv.1 = name'
    · simp [hkv, h]
    · simp [hkv]

/-- What a client keeps stays so when it takes a cookie in place of the one of its name. -/
lemma Jar.Kept.replaced {jar : Jar} (h : jar.Kept) {name value : Str} (hpair : IsPair (name, value)) :
    Jar.Kept (jar.filter (·.1 != name) ++ [(name, value)]) where
  pairs kv hkv := by
    rcases List.mem_append.mp hkv with hkv | hkv
    · exact h.pairs kv (List.mem_of_mem_filter hkv)
    · rw [List.mem_singleton.mp hkv]
      exact hpair
  names := by
    rw [List.map_append, List.map_singleton]
    refine List.Nodup.append (h.names.sublist (List.filter_sublist.map _)) (List.nodup_singleton _) ?_
    rw [List.disjoint_singleton]
    rintro hmem
    obtain ⟨kv, hkv, hname⟩ := List.mem_map.mp hmem
    simpa [hname] using (List.mem_filter.mp hkv).2

lemma Jar.Kept.removed {jar : Jar} (h : jar.Kept) (name : Str) : Jar.Kept (jar.filter (·.1 != name)) where
  pairs kv hkv := h.pairs kv (List.mem_of_mem_filter hkv)
  names := h.names.sublist (List.filter_sublist.map _)

/-- The cookies of a client after a login, and after the logout that follows. -/
def Jar.afterLogin (jar : Jar) (secure : Bool) (token csrf : Str) : Jar :=
  (sessionCookies secure token csrf).foldl Jar.receive jar

def Jar.afterLogout (jar : Jar) (secure : Bool) : Jar :=
  (clearedCookies secure).foldl Jar.receive jar

/-- The cookies of the server can be kept. -/
lemma isPair_sessionCookie {token : Str} (h : IsCookieText token) : IsPair (sessionCookieName, token) := by
  have hname : IsCookieText sessionCookieName ∧ '=' ∉ sessionCookieName := by decide
  exact ⟨hname.1, hname.2, h⟩

lemma isPair_csrfCookie {csrf : Str} (h : IsCookieText csrf) : IsPair (csrfCookieName, csrf) := by
  have hname : IsCookieText csrfCookieName ∧ '=' ∉ csrfCookieName := by decide
  exact ⟨hname.1, hname.2, h⟩

/-- The client keeps the two cookies of a login in place of its own of these names. -/
lemma Jar.afterLogin_eq (jar : Jar) (secure : Bool) {token csrf : Str} (htoken : IsCookieText token)
    (hcsrf : IsCookieText csrf) :
    jar.afterLogin secure token csrf =
      ((jar.filter (·.1 != sessionCookieName) ++ [(sessionCookieName, token)]).filter
        (·.1 != csrfCookieName)) ++ [(csrfCookieName, csrf)] := by
  unfold Jar.afterLogin sessionCookies sessionCookie csrfCookie
  rw [List.foldl_cons, List.foldl_cons, List.foldl_nil, receive_cookie _ (isPair_sessionCookie htoken),
    receive_cookie _ (isPair_csrfCookie hcsrf), if_neg (by decide), if_neg (by decide)]

/-- The client keeps no cookie of these names after a logout. -/
lemma Jar.afterLogout_eq (jar : Jar) (secure : Bool) :
    jar.afterLogout secure = (jar.filter (·.1 != sessionCookieName)).filter (·.1 != csrfCookieName) := by
  have hnil : IsCookieText [] := by decide
  unfold Jar.afterLogout clearedCookies sessionCookie csrfCookie
  rw [List.foldl_cons, List.foldl_cons, List.foldl_nil, receive_cookie _ (isPair_sessionCookie hnil),
    receive_cookie _ (isPair_csrfCookie hnil), if_pos rfl, List.append_nil, if_pos rfl, List.append_nil]

lemma Jar.Kept.afterLogin {jar : Jar} (hjar : jar.Kept) (secure : Bool) {token csrf : Str}
    (htoken : IsCookieText token) (hcsrf : IsCookieText csrf) : (jar.afterLogin secure token csrf).Kept := by
  rw [Jar.afterLogin_eq jar secure htoken hcsrf]
  exact (hjar.replaced (isPair_sessionCookie htoken)).replaced (isPair_csrfCookie hcsrf)

lemma Jar.Kept.afterLogout {jar : Jar} (hjar : jar.Kept) (secure : Bool) : (jar.afterLogout secure).Kept := by
  rw [Jar.afterLogout_eq]
  exact (hjar.removed _).removed _

/-- What a client has after a login. -/
lemma Jar.value_afterLogin (jar : Jar) (secure : Bool) {token csrf : Str} (htoken : IsCookieText token)
    (hcsrf : IsCookieText csrf) (name : Str) :
    (jar.afterLogin secure token csrf).value name =
      if name = sessionCookieName then some token else if name = csrfCookieName then some csrf
        else jar.value name := by
  have hne : sessionCookieName ≠ csrfCookieName := by decide
  rw [Jar.afterLogin_eq jar secure htoken hcsrf, value_replaced, value_replaced]
  by_cases hs : name = sessionCookieName
  · rw [if_pos hs, if_pos hs, if_neg (hs ▸ hne)]
  · rw [if_neg hs, if_neg hs]

/-- What a client has after a logout. -/
lemma Jar.value_afterLogout (jar : Jar) (secure : Bool) (name : Str) :
    (jar.afterLogout secure).value name =
      if name = sessionCookieName ∨ name = csrfCookieName then none else jar.value name := by
  rw [Jar.afterLogout_eq, value_removed, value_removed]
  by_cases hs : name = sessionCookieName
  · simp [hs]
  · simp [hs]

/-- A client that logs in with whatever cookies it has sends the session token and the CSRF token back, and
the server reads them; after a logout it reads neither. Its other cookies are read as before. -/
theorem parseCookies_login_logout {jar : Jar} (hjar : jar.Kept) (secure : Bool) {token csrf : Str}
    (htoken : IsCookieText token) (hcsrf : IsCookieText csrf) (name : Str) :
    (parseCookies (jar.afterLogin secure token csrf).fields).lookup name =
        (if name = sessionCookieName then some token else if name = csrfCookieName then some csrf
          else jar.value name) ∧
      (parseCookies ((jar.afterLogin secure token csrf).afterLogout secure).fields).lookup name =
        if name = sessionCookieName ∨ name = csrfCookieName then none else jar.value name := by
  have hkept := hjar.afterLogin secure htoken hcsrf
  have hvalue := jar.value_afterLogin secure htoken hcsrf name
  constructor
  · rw [parseCookies_fields hkept, hvalue]
  · rw [parseCookies_fields (hkept.afterLogout secure), Jar.value_afterLogout, hvalue]
    by_cases hs : name = sessionCookieName
    · simp [hs]
    · by_cases hc : name = csrfCookieName
      · simp [hc]
      · simp [hs, hc]

/-- A client with a cookie of another server on the host. -/
theorem parseCookies_theme :
    (parseCookies (Jar.afterLogin [("theme".toList, "dark".toList)] true "kPz4_w".toList
        "b-93Q".toList).fields).lookup csrfCookieName = some "b-93Q".toList := by
  have hkept : Jar.Kept [("theme".toList, "dark".toList)] :=
    ⟨fun kv hkv => by rw [List.mem_singleton.mp hkv]; exact ⟨by decide, by decide, by decide⟩, by decide⟩
  have htoken : IsCookieText "kPz4_w".toList := by decide
  have hcsrf : IsCookieText "b-93Q".toList := by decide
  have h := (parseCookies_login_logout hkept true htoken hcsrf csrfCookieName).1
  rw [h]
  decide

end Nomina
