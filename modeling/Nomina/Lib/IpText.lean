import Nomina.Lib.Text

/-!
# The text form of IP addresses

Parsing and printing of IPv4 and IPv6 addresses as the Rust standard library does it: the
recursive-descent reader behind `str::parse::<IpAddr>()` and the `Display` forms, with the
compression of the longest zero run of an IPv6 address.

The main result is `parseIpAddr_fmtIpAddr`: printing an address and parsing the text gives the
address back, so two different addresses never share a text.
-/

namespace Lib

/-- `std::net::Ipv4Addr`. -/
abbrev Ipv4Addr := BitVec 32

/-- `std::net::Ipv6Addr`. -/
abbrev Ipv6Addr := BitVec 128

/-- `std::net::IpAddr`. -/
inductive IpAddr
  | v4 (a : Ipv4Addr)
  | v6 (a : Ipv6Addr)
deriving DecidableEq

/-! ## Big-endian digits -/

/-- The `k` lowest digits of `n` in base `b`, most significant first. -/
def digitsBE (b : ℕ) : ℕ → ℕ → List ℕ
  | 0, _ => []
  | k + 1, n => digitsBE b k (n / b) ++ [n % b]

/-- The number that a list of digits in base `b` denotes, most significant first. -/
def ofDigitsBE (b : ℕ) (ds : List ℕ) : ℕ :=
  ds.foldl (fun acc d => acc * b + d) 0

/-- There are as many digits as asked for. -/
@[simp] lemma length_digitsBE (b k n : ℕ) : (digitsBE b k n).length = k := by
  induction k generalizing n with
  | zero => rfl
  | succ k ih => simp [digitsBE, ih]

/-- Every digit is below the base. -/
lemma lt_of_mem_digitsBE {b k n d : ℕ} (hb : 0 < b) (h : d ∈ digitsBE b k n) : d < b := by
  induction k generalizing n with
  | zero => simp [digitsBE] at h
  | succ k ih =>
    rcases List.mem_append.mp h with h | h
    · exact ih h
    · rw [List.mem_singleton.mp h]
      exact Nat.mod_lt n hb

/-- The digits of a number denote the number modulo the range they cover. -/
lemma ofDigitsBE_digitsBE (b k n : ℕ) : ofDigitsBE b (digitsBE b k n) = n % b ^ k := by
  induction k generalizing n with
  | zero => simp [digitsBE, ofDigitsBE, Nat.mod_one]
  | succ k ih =>
    have hstep : ofDigitsBE b (digitsBE b (k + 1) n) =
        ofDigitsBE b (digitsBE b k (n / b)) * b + n % b := by
      simp [ofDigitsBE, digitsBE]
    rw [hstep, ih, Nat.pow_succ', Nat.mod_mul, Nat.mul_comm b, Nat.add_comm]

/-- The leading digits are those of the number without its lowest digits. -/
lemma take_digitsBE (b k j n : ℕ) : (digitsBE b (k + j) n).take k = digitsBE b k (n / b ^ j) := by
  induction j generalizing n with
  | zero => rw [Nat.add_zero, Nat.pow_zero, Nat.div_one, List.take_of_length_le (by simp)]
  | succ j ih =>
    have hshort : k ≤ (digitsBE b (k + j) (n / b)).length := by
      simp
    rw [← Nat.add_assoc, digitsBE, List.take_append_of_le_length hshort, ih, Nat.div_div_eq_div_mul,
      Nat.pow_succ']

/-! ## The reader

Each reader takes the remaining input and returns what it read together with the input left, or
nothing, in which case the caller goes on from where the reader started. -/

/-- `char::to_digit`. -/
def toDigit (radix : ℕ) (c : Char) : Option ℕ :=
  let d :=
    if '0' ≤ c ∧ c ≤ '9' then c.toNat - '0'.toNat
    else if 'a' ≤ c ∧ c ≤ 'z' then c.toNat - 'a'.toNat + 10
    else if 'A' ≤ c ∧ c ≤ 'Z' then c.toNat - 'A'.toNat + 10
    else radix
  if d < radix then some d else none

/-- The digits at the start of the input. -/
def readDigits (radix : ℕ) : Str → List ℕ × Str
  | [] => ([], [])
  | c :: s =>
    match toDigit radix c with
    | some d => (d :: (readDigits radix s).1, (readDigits radix s).2)
    | none => ([], c :: s)

/-- `Parser::read_number`: at most `maxDigits` digits, with a leading zero only where allowed, of a
value at most `bound`. -/
def readNumber (radix maxDigits : ℕ) (allowZeroPrefix : Bool) (bound : ℕ) (s : Str) :
    Option (ℕ × Str) :=
  let ds := (readDigits radix s).1
  if ds = [] ∨ maxDigits < ds.length ∨
      (allowZeroPrefix = false ∧ ds.head? = some 0 ∧ 1 < ds.length) ∨
      bound < ofDigitsBE radix ds then
    none
  else
    some (ofDigitsBE radix ds, (readDigits radix s).2)

/-- `Parser::read_given_char`. -/
def readGivenChar (c : Char) : Str → Option Str
  | [] => none
  | c' :: s => if c' = c then some s else none

/-- `Parser::read_separator`: the separator is read before every element but the first. -/
def readSeparated {α : Type} (sep : Char) (i : ℕ) (inner : Str → Option (α × Str)) (s : Str) :
    Option (α × Str) :=
  if 0 < i then (readGivenChar sep s).bind inner else inner s

/-- `Parser::read_ipv4_addr`. -/
def readIpv4 (s : Str) : Option (Ipv4Addr × Str) := do
  let (a, s) ← readSeparated '.' 0 (readNumber 10 3 false 255) s
  let (b, s) ← readSeparated '.' 1 (readNumber 10 3 false 255) s
  let (c, s) ← readSeparated '.' 2 (readNumber 10 3 false 255) s
  let (d, s) ← readSeparated '.' 3 (readNumber 10 3 false 255) s
  return (BitVec.ofNat 32 (ofDigitsBE 256 [a, b, c, d]), s)

/-- `read_groups`: up to `slots` colon-separated groups, of which the last two may be written as an
embedded IPv4 address. Returns the groups, whether they end in such an address, and the rest. -/
def readGroups : (slots i : ℕ) → Str → List ℕ × Bool × Str
  | 0, _, s => ([], false, s)
  | k + 1, i, s =>
    match if 1 ≤ k then readSeparated ':' i readIpv4 s else none with
    | some (a, s') => (digitsBE 65536 2 a.toNat, true, s')
    | none =>
      match readSeparated ':' i (readNumber 16 4 true 65535) s with
      | some (g, s') =>
        let r := readGroups k (i + 1) s'
        (g :: r.1, r.2.1, r.2.2)
      | none => ([], false, s)

/-- `Parser::read_ipv6_addr`. -/
def readIpv6 (s : Str) : Option (Ipv6Addr × Str) :=
  let head := readGroups 8 0 s
  if head.1.length = 8 then some (BitVec.ofNat 128 (ofDigitsBE 65536 head.1), head.2.2)
  else if head.2.1 then none
  else do
    let s ← readGivenChar ':' head.2.2
    let s ← readGivenChar ':' s
    let tail := readGroups (8 - (head.1.length + 1)) 0 s
    let zeros := List.replicate (8 - head.1.length - tail.1.length) 0
    return (BitVec.ofNat 128 (ofDigitsBE 65536 (head.1 ++ zeros ++ tail.1)), tail.2.2)

/-- `str::parse::<Ipv4Addr>()`. -/
def parseIpv4Addr (s : Str) : Option Ipv4Addr :=
  match readIpv4 s with
  | some (a, []) => some a
  | _ => none

/-- `str::parse::<IpAddr>()`: an IPv4 address is tried first, and the whole input must be read. -/
def parseIpAddr (s : Str) : Option IpAddr :=
  match readIpv4 s with
  | some (a, []) => some (.v4 a)
  | some (_, _ :: _) => none
  | none =>
    match readIpv6 s with
    | some (a, []) => some (.v6 a)
    | _ => none

/-- `std::net::SocketAddr`; the scope id is that of an IPv6 address. -/
structure SocketAddr where
  ip : IpAddr
  port : ℕ
  scope : ℕ
deriving DecidableEq

/-- `Parser::read_port`. -/
def readPort (s : Str) : Option (ℕ × Str) := do
  let s ← readGivenChar ':' s
  readNumber 10 s.length true 65535 s

/-- `Parser::read_socket_addr_v4`. -/
def readSocketAddrV4 (s : Str) : Option (SocketAddr × Str) := do
  let (a, s) ← readIpv4 s
  let (port, s) ← readPort s
  return (⟨.v4 a, port, 0⟩, s)

/-- `Parser::read_scope_id`, which is optional. -/
def readScope (s : Str) : ℕ × Str :=
  ((readGivenChar '%' s).bind fun s => readNumber 10 s.length true 4294967295 s).getD (0, s)

/-- `Parser::read_socket_addr_v6`. -/
def readSocketAddrV6 (s : Str) : Option (SocketAddr × Str) := do
  let s ← readGivenChar '[' s
  let (a, s) ← readIpv6 s
  let (scope, s) := readScope s
  let s ← readGivenChar ']' s
  let (port, s) ← readPort s
  return (⟨.v6 a, port, scope⟩, s)

/-- `str::parse::<SocketAddr>()`. -/
def parseSocketAddr (s : Str) : Option SocketAddr :=
  match readSocketAddrV4 s with
  | some (a, []) => some a
  | some (_, _ :: _) => none
  | none =>
    match readSocketAddrV6 s with
    | some (a, []) => some a
    | _ => none

/-! ## Printing -/

/-- `{}` of a `u8`. -/
def fmtOctet (n : ℕ) : Str :=
  if n < 10 then [n.digitChar]
  else if n < 100 then [(n / 10).digitChar, (n % 10).digitChar]
  else [(n / 100).digitChar, (n / 10 % 10).digitChar, (n % 10).digitChar]

/-- `{:x}` of a `u16`. -/
def fmtHex (n : ℕ) : Str :=
  if n < 16 then [n.digitChar]
  else if n < 256 then [(n / 16).digitChar, (n % 16).digitChar]
  else if n < 4096 then [(n / 256).digitChar, (n / 16 % 16).digitChar, (n % 16).digitChar]
  else [(n / 4096).digitChar, (n / 256 % 16).digitChar, (n / 16 % 16).digitChar,
    (n % 16).digitChar]

/-- `Ipv4Addr::octets`. -/
def octets (a : Ipv4Addr) : List ℕ :=
  digitsBE 256 4 a.toNat

/-- `Ipv6Addr::segments`. -/
def segments (a : Ipv6Addr) : List ℕ :=
  digitsBE 65536 8 a.toNat

/-- `Display` of an IPv4 address. -/
def fmtIpv4 (a : Ipv4Addr) : Str :=
  join ['.'] ((octets a).map fmtOctet)

/-- A run of segments. -/
structure Span where
  start : ℕ
  len : ℕ

/-- The loop that looks for the first longest run of zero segments. -/
def zeroSpan : List ℕ → ℕ → (longest current : Span) → Span
  | [], _, longest, _ => longest
  | s :: ss, i, longest, current =>
    if s = 0 then
      let current := { start := if current.len = 0 then i else current.start, len := current.len + 1 }
      zeroSpan ss (i + 1) (if longest.len < current.len then current else longest) current
    else zeroSpan ss (i + 1) longest ⟨0, 0⟩

/-- `fmt_subslice`: a colon-separated part of the address. -/
def fmtSegments (ss : List ℕ) : Str :=
  join [':'] (ss.map fmtHex)

/-- `Display` of an IPv6 address. -/
def fmtIpv6 (a : Ipv6Addr) : Str :=
  let segs := segments a
  if segs.take 6 = [0, 0, 0, 0, 0, 0xffff] then
    "::ffff:".toList ++ fmtIpv4 (BitVec.ofNat 32 a.toNat)
  else
    let zeroes := zeroSpan segs 0 ⟨0, 0⟩ ⟨0, 0⟩
    if 1 < zeroes.len then
      fmtSegments (segs.take zeroes.start) ++ [':', ':'] ++
        fmtSegments (segs.drop (zeroes.start + zeroes.len))
    else fmtSegments segs

/-- `Display` of an IP address. -/
def fmtIpAddr : IpAddr → Str
  | .v4 a => fmtIpv4 a
  | .v6 a => fmtIpv6 a

/-- `Display` of a socket address. -/
def fmtSocketAddr (a : SocketAddr) : Str :=
  let port := ':' :: Nat.toDigits 10 a.port
  match a.ip with
  | .v4 ip => fmtIpv4 ip ++ port
  | .v6 ip =>
    let scope := if a.scope = 0 then [] else '%' :: Nat.toDigits 10 a.scope
    '[' :: fmtIpv6 ip ++ scope ++ ']' :: port

/-! ## Reading back what was printed -/

/-- A printed decimal digit is read back. -/
lemma toDigit_digitChar_ten : ∀ d < 10, toDigit 10 d.digitChar = some d := by decide

/-- A printed hexadecimal digit is read back. -/
lemma toDigit_digitChar_sixteen : ∀ d < 16, toDigit 16 d.digitChar = some d := by decide

/-- Printed digits in front of anything that is not a digit are read as those digits. -/
lemma readDigits_map_append {radix : ℕ} {ds : List ℕ} {rest : Str}
    (hds : ∀ d ∈ ds, toDigit radix d.digitChar = some d)
    (hrest : ∀ c ∈ rest.head?, toDigit radix c = none) :
    readDigits radix (ds.map Nat.digitChar ++ rest) = (ds, rest) := by
  induction ds with
  | nil =>
    cases rest with
    | nil => rfl
    | cons c rest => simp [readDigits, hrest c (by simp)]
  | cons d ds ih =>
    have ih' := ih fun e he => hds e (List.mem_cons_of_mem d he)
    simp [readDigits, hds d (by simp), ih']

/-- What the digit reader leaves is a suffix of its input. -/
lemma readDigits_suffix (radix : ℕ) (s : Str) : (readDigits radix s).2 <:+ s := by
  induction s with
  | nil => exact List.suffix_rfl
  | cons c s ih =>
    unfold readDigits
    cases toDigit radix c with
    | none => exact List.suffix_rfl
    | some d => exact ih.trans (List.suffix_cons c s)

/-- A printed octet is read back. -/
lemma readNumber_fmtOctet {n : ℕ} (hn : n < 256) {rest : Str}
    (hrest : ∀ c ∈ rest.head?, toDigit 10 c = none) :
    readNumber 10 3 false 255 (fmtOctet n ++ rest) = some (n, rest) := by
  have key : ∀ ds : List ℕ, (∀ d ∈ ds, d < 10) → fmtOctet n = ds.map Nat.digitChar → ds ≠ [] →
      ds.length ≤ 3 → ¬(ds.head? = some 0 ∧ 1 < ds.length) → ofDigitsBE 10 ds = n →
      readNumber 10 3 false 255 (fmtOctet n ++ rest) = some (n, rest) := by
    intro ds hlt hfmt hne hlen hzero hval
    have hread : readDigits 10 (ds.map Nat.digitChar ++ rest) = (ds, rest) :=
      readDigits_map_append (fun d hd => toDigit_digitChar_ten d (hlt d hd)) hrest
    simp only [readNumber, hfmt, hread, hval]
    rw [if_neg]
    rintro (h | h | h | h)
    · exact hne h
    · omega
    · exact hzero h.2
    · omega
  by_cases h10 : n < 10
  · exact key [n] (by simpa using h10) (by simp [fmtOctet, h10]) (by simp) (by simp) (by simp)
      (by simp [ofDigitsBE])
  by_cases h100 : n < 100
  · refine key [n / 10, n % 10] ?_ (by simp [fmtOctet, h10, h100]) (by simp) (by simp) ?_ ?_
    · simp only [List.mem_cons, List.not_mem_nil, or_false, forall_eq_or_imp, forall_eq]
      omega
    · simp only [List.head?_cons, Option.some.injEq, List.length_cons]
      omega
    · simp only [ofDigitsBE, List.foldl_cons, List.foldl_nil]
      omega
  · refine key [n / 100, n / 10 % 10, n % 10] ?_ (by simp [fmtOctet, h10, h100]) (by simp) (by simp)
      ?_ ?_
    · simp only [List.mem_cons, List.not_mem_nil, or_false, forall_eq_or_imp, forall_eq]
      omega
    · simp only [List.head?_cons, Option.some.injEq, List.length_cons]
      omega
    · simp only [ofDigitsBE, List.foldl_cons, List.foldl_nil]
      omega

/-- A printed hexadecimal group is read back. -/
lemma readNumber_fmtHex {n : ℕ} (hn : n < 65536) {rest : Str}
    (hrest : ∀ c ∈ rest.head?, toDigit 16 c = none) :
    readNumber 16 4 true 65535 (fmtHex n ++ rest) = some (n, rest) := by
  have key : ∀ ds : List ℕ, (∀ d ∈ ds, d < 16) → fmtHex n = ds.map Nat.digitChar → ds ≠ [] →
      ds.length ≤ 4 → ofDigitsBE 16 ds = n →
      readNumber 16 4 true 65535 (fmtHex n ++ rest) = some (n, rest) := by
    intro ds hlt hfmt hne hlen hval
    have hread : readDigits 16 (ds.map Nat.digitChar ++ rest) = (ds, rest) :=
      readDigits_map_append (fun d hd => toDigit_digitChar_sixteen d (hlt d hd)) hrest
    simp only [readNumber, hfmt, hread, hval]
    rw [if_neg]
    rintro (h | h | h | h)
    · exact hne h
    · omega
    · simp at h
    · omega
  by_cases h1 : n < 16
  · exact key [n] (by simpa using h1) (by simp [fmtHex, h1]) (by simp) (by simp)
      (by simp [ofDigitsBE])
  by_cases h2 : n < 256
  · refine key [n / 16, n % 16] ?_ (by simp [fmtHex, h1, h2]) (by simp) (by simp) ?_
    · simp only [List.mem_cons, List.not_mem_nil, or_false, forall_eq_or_imp, forall_eq]
      omega
    · simp only [ofDigitsBE, List.foldl_cons, List.foldl_nil]
      omega
  by_cases h3 : n < 4096
  · refine key [n / 256, n / 16 % 16, n % 16] ?_ (by simp [fmtHex, h1, h2, h3]) (by simp)
      (by simp) ?_
    · simp only [List.mem_cons, List.not_mem_nil, or_false, forall_eq_or_imp, forall_eq]
      omega
    · simp only [ofDigitsBE, List.foldl_cons, List.foldl_nil]
      omega
  · refine key [n / 4096, n / 256 % 16, n / 16 % 16, n % 16] ?_
      (by simp [fmtHex, h1, h2, h3]) (by simp) (by simp) ?_
    · simp only [List.mem_cons, List.not_mem_nil, or_false, forall_eq_or_imp, forall_eq]
      omega
    · simp only [ofDigitsBE, List.foldl_cons, List.foldl_nil]
      omega

/-- A printed IPv4 address is read back, whatever follows it. -/
lemma readIpv4_fmtIpv4 (a : Ipv4Addr) (rest : Str)
    (hrest : ∀ c ∈ rest.head?, toDigit 10 c = none) :
    readIpv4 (fmtIpv4 a ++ rest) = some (a, rest) := by
  obtain ⟨o0, o1, o2, o3, ho⟩ : ∃ o0 o1 o2 o3, octets a = [o0, o1, o2, o3] :=
    ⟨_, _, _, _, rfl⟩
  have hlt : ∀ o ∈ [o0, o1, o2, o3], o < 256 := by
    intro o h
    rw [← ho] at h
    exact lt_of_mem_digitsBE (by decide) h
  have hval : ofDigitsBE 256 [o0, o1, o2, o3] = a.toNat := by
    rw [← ho, octets, ofDigitsBE_digitsBE]
    exact Nat.mod_eq_of_lt a.isLt
  have hdot : ∀ s : Str, ∀ c ∈ ('.' :: s).head?, toDigit 10 c = none := by
    intro s c hc
    have : c = '.' := by simpa [eq_comm] using hc
    subst this
    decide
  have htext : fmtIpv4 a ++ rest = fmtOctet o0 ++ '.' :: (fmtOctet o1 ++ '.' ::
      (fmtOctet o2 ++ '.' :: (fmtOctet o3 ++ rest))) := by
    simp [fmtIpv4, ho, join, List.intercalate_cons_cons]
  rw [htext]
  simp only [readIpv4, readSeparated, readGivenChar, Nat.lt_irrefl, if_false,
    readNumber_fmtOctet (hlt o0 (by simp)) (hdot _), readNumber_fmtOctet (hlt o1 (by simp)) (hdot _),
    readNumber_fmtOctet (hlt o2 (by simp)) (hdot _), readNumber_fmtOctet (hlt o3 (by simp)) hrest,
    Option.bind_eq_bind, Option.bind_some, Nat.zero_lt_succ, if_true, hval]
  simp

/-- An IPv4 address is only read from an input with a dot in it. -/
lemma readIpv4_eq_none {s : Str} (h : '.' ∉ s) : readIpv4 s = none := by
  have hrest : ∀ p, readNumber 10 3 false 255 s = some p → '.' ∉ p.2 := by
    intro p hp
    simp only [readNumber] at hp
    split at hp
    · simp at hp
    · have hsuffix := readDigits_suffix 10 s
      simp only [Option.some.injEq] at hp
      rw [← hp]
      exact fun hmem => h (hsuffix.subset hmem)
  have hsep : ∀ s' : Str, '.' ∉ s' →
      readSeparated '.' 1 (readNumber 10 3 false 255) s' = none := by
    intro s' hs'
    cases s' with
    | nil => rfl
    | cons c s' =>
      have hc : c ≠ '.' := by
        rintro rfl
        exact hs' (by simp)
      simp [readSeparated, readGivenChar, hc]
  unfold readIpv4
  simp only [readSeparated, Nat.lt_irrefl, if_false, Option.bind_eq_bind]
  cases hp : readNumber 10 3 false 255 s with
  | none => rfl
  | some p =>
    have := hsep p.2 (hrest p hp)
    simp only [readSeparated] at this
    simp only [Option.bind_some, this, Option.bind_none]

/-- Printed groups contain no dot. -/
lemma dot_not_mem_fmtHex (n : ℕ) : '.' ∉ fmtHex n := by
  unfold fmtHex
  split_ifs <;> simp

/-- The text of groups `i, i + 1, ...` of an address: a colon before each but the first group. -/
def groupText : ℕ → List ℕ → Str
  | _, [] => []
  | i, g :: gs => (if 0 < i then [':'] else []) ++ fmtHex g ++ groupText (i + 1) gs

/-- After the first group every group is preceded by a colon. -/
lemma groupText_succ_eq (i : ℕ) (g : ℕ) (gs : List ℕ) :
    groupText (i + 1) (g :: gs) = ':' :: fmtSegments (g :: gs) := by
  induction gs generalizing i g with
  | nil => simp [groupText, fmtSegments, join]
  | cons g' gs ih =>
    have hih := ih (i + 1) g'
    rw [groupText, hih]
    simp [fmtSegments, join, List.intercalate_cons_cons]

/-- The text of all groups from the first on is the colon-separated list. -/
lemma groupText_zero_eq (gs : List ℕ) : groupText 0 gs = fmtSegments gs := by
  cases gs with
  | nil => rfl
  | cons g gs =>
    cases gs with
    | nil => simp [groupText, fmtSegments, join]
    | cons g' gs =>
      rw [groupText, groupText_succ_eq]
      simp [fmtSegments, join, List.intercalate_cons_cons]

/-- The text of groups contains no dot. -/
lemma dot_not_mem_groupText (i : ℕ) (gs : List ℕ) : '.' ∉ groupText i gs := by
  induction gs generalizing i with
  | nil => simp [groupText]
  | cons g gs ih =>
    simp only [groupText, List.mem_append, not_or]
    refine ⟨⟨?_, dot_not_mem_fmtHex g⟩, ih (i + 1)⟩
    split_ifs <;> simp

/-- No number is read where there is no digit. -/
lemma readNumber_of_not_digit {radix : ℕ} {c : Char} (h : toDigit radix c = none) (m : ℕ) (z : Bool)
    (b : ℕ) (s : Str) : readNumber radix m z b (c :: s) = none := by
  simp [readNumber, readDigits, h]

/-- Where the group reader stops: at the end of the input or at a double colon. -/
def GroupsEnd (rest : Str) : Prop :=
  rest = [] ∨ ∃ r, rest = ':' :: ':' :: r

/-- No group is read at the end of the groups. -/
lemma readSeparated_groupsEnd {rest : Str} (h : GroupsEnd rest) (i : ℕ) :
    readSeparated ':' i (readNumber 16 4 true 65535) rest = none := by
  have hcolon : ∀ r : Str, readNumber 16 4 true 65535 (':' :: r) = none :=
    readNumber_of_not_digit (by decide) 4 true 65535
  have hnil : readNumber 16 4 true 65535 [] = none := by decide
  rcases h with rfl | ⟨r, rfl⟩
  · by_cases hi : 0 < i <;> simp [readSeparated, hi, readGivenChar, hnil]
  · by_cases hi : 0 < i <;> simp [readSeparated, hi, readGivenChar, hcolon]

/-- An input that goes on with more groups or ends does not start with a digit. -/
lemma head_groupText_append (i : ℕ) (gs : List ℕ) {rest : Str} (h : GroupsEnd rest) :
    ∀ c ∈ (groupText (i + 1) gs ++ rest).head?, toDigit 16 c = none := by
  have hcolon : toDigit 16 ':' = none := by decide
  cases gs with
  | nil =>
    rcases h with rfl | ⟨r, rfl⟩
    · simp [groupText]
    · simp [groupText, hcolon]
  | cons g gs => simp [groupText, hcolon]

/-- The group reader reads back printed groups, up to where they end. -/
lemma readGroups_groupText {gs : List ℕ} {rest : Str} (hgs : ∀ g ∈ gs, g < 65536)
    (hrest : GroupsEnd rest) (hdot : '.' ∉ rest) (k i : ℕ) (hk : gs.length ≤ k) :
    readGroups k i (groupText i gs ++ rest) = (gs, false, rest) := by
  induction gs generalizing k i with
  | nil =>
    cases k with
    | zero => rfl
    | succ k =>
      have hv4 : readSeparated ':' i readIpv4 rest = none := by
        by_cases hi : 0 < i
        · rcases hrest with rfl | ⟨r, rfl⟩
          · simp [readSeparated, hi, readGivenChar]
          · simp [readSeparated, hi, readGivenChar, readIpv4_eq_none (s := ':' :: r)
              (fun hmem => hdot (List.mem_cons_of_mem ':' hmem))]
        · simp [readSeparated, hi, readIpv4_eq_none hdot]
      simp [groupText, readGroups, hv4, readSeparated_groupsEnd hrest i]
  | cons g gs ih =>
    cases k with
    | zero => simp at hk
    | succ k =>
      have hgs' : ∀ g' ∈ gs, g' < 65536 := fun g' hg' => hgs g' (List.mem_cons_of_mem g hg')
      have ih' := ih hgs' k (i + 1) (by simpa using hk)
      have hread := readNumber_fmtHex (hgs g (by simp)) (head_groupText_append i gs hrest)
      have hno : '.' ∉ fmtHex g ++ (groupText (i + 1) gs ++ rest) := by
        simp only [List.mem_append, not_or]
        exact ⟨dot_not_mem_fmtHex g, dot_not_mem_groupText (i + 1) gs, hdot⟩
      have hv4 := readIpv4_eq_none hno
      by_cases hi : 0 < i
      · have htext : groupText i (g :: gs) ++ rest =
            ':' :: (fmtHex g ++ (groupText (i + 1) gs ++ rest)) := by
          simp [groupText, hi]
        rw [htext]
        simp [readGroups, readSeparated, hi, readGivenChar, hv4, hread, ih']
      · have htext : groupText i (g :: gs) ++ rest =
            fmtHex g ++ (groupText (i + 1) gs ++ rest) := by
          simp [groupText, hi]
        rw [htext]
        simp [readGroups, readSeparated, hi, hv4, hread, ih']

/-- Every segment of the run is zero. -/
def IsZeroRun (ss : List ℕ) (r : Span) : Prop :=
  ∀ j, r.start ≤ j → j < r.start + r.len → ss[j]? = some 0

/-- The loop only ever returns runs of zeros. The invariant: the longest run so far is one, and so
is the current run, which ends where the loop stands. -/
lemma isZeroRun_zeroSpan {ss : List ℕ} (pre rest : List ℕ) (hss : ss = pre ++ rest)
    (longest current : Span) (hl : IsZeroRun ss longest) (hc : IsZeroRun ss current)
    (hend : current.len = 0 ∨ current.start + current.len = pre.length) :
    IsZeroRun ss (zeroSpan rest pre.length longest current) := by
  induction rest generalizing pre longest current with
  | nil => exact hl
  | cons s rest ih =>
    have hss' : ss = (pre ++ [s]) ++ rest := by simp [hss]
    have hlen : (pre ++ [s]).length = pre.length + 1 := by simp
    unfold zeroSpan
    rw [← hlen]
    by_cases hs : s = 0
    · rw [if_pos hs]
      have hhere : ss[pre.length]? = some 0 := by simp [hss, hs]
      have hc' : IsZeroRun ss
          ⟨if current.len = 0 then pre.length else current.start, current.len + 1⟩ := by
        intro j hj hj'
        simp only at hj hj'
        by_cases h0 : current.len = 0
        · simp only [h0, if_true] at hj hj'
          have : j = pre.length := by omega
          rw [this, hhere]
        · simp only [h0, if_false] at hj hj'
          by_cases hlast : j = pre.length
          · rw [hlast, hhere]
          · exact hc j hj (by omega)
      refine ih (pre ++ [s]) hss' _ _ ?_ hc' (Or.inr ?_)
      · by_cases hlt : longest.len < current.len + 1
        · simpa only [hlt, if_true] using hc'
        · simpa only [hlt, if_false] using hl
      · rw [hlen]
        by_cases h0 : current.len = 0
        · simp [h0]
        · simp only [h0, if_false]
          omega
    · rw [if_neg hs]
      exact ih (pre ++ [s]) hss' longest ⟨0, 0⟩ hl (fun j _ hj => by simp at hj) (Or.inl rfl)

/-- A list is what stands before a run of zeros, the zeros, and what stands after them. -/
lemma IsZeroRun.eq_append {ss : List ℕ} {r : Span} (h : IsZeroRun ss r) :
    ss = ss.take r.start ++ List.replicate r.len 0 ++ ss.drop (r.start + r.len) := by
  by_cases h0 : r.len = 0
  · simp [h0]
  have hlast := h (r.start + r.len - 1) (by omega) (by omega)
  have hle : r.start + r.len ≤ ss.length := by
    have := (List.getElem?_eq_some_iff.mp hlast).1
    omega
  have hrun : (ss.drop r.start).take r.len = List.replicate r.len 0 := by
    apply List.ext_getElem?
    intro j
    by_cases hj : j < r.len
    · rw [List.getElem?_take_of_lt hj, List.getElem?_drop, h (r.start + j) (by omega) (by omega),
        List.getElem?_replicate, if_pos hj]
    · rw [List.getElem?_eq_none (by simp; omega), List.getElem?_eq_none (by simp; omega)]
  rw [← hrun, ← List.drop_drop, List.append_assoc, List.take_append_drop, List.take_append_drop]

/-- An address is recovered from its segments. -/
lemma ofNat_segments (a : Ipv6Addr) : BitVec.ofNat 128 (ofDigitsBE 65536 (segments a)) = a := by
  rw [segments, ofDigitsBE_digitsBE, Nat.mod_eq_of_lt (by simpa using a.isLt)]
  simp

/-- The segments of an address are 16-bit numbers. -/
lemma segments_lt {a : Ipv6Addr} : ∀ s ∈ segments a, s < 65536 :=
  fun _ h => lt_of_mem_digitsBE (by decide) h

/-- A printed address without embedded IPv4 part is read back. -/
lemma readIpv6_compressed {a : Ipv6Addr} {pre post : List ℕ} {n : ℕ}
    (h : segments a = pre ++ List.replicate n 0 ++ post) (hn : 1 < n) :
    readIpv6 (fmtSegments pre ++ [':', ':'] ++ fmtSegments post) = some (a, []) := by
  have hlen : pre.length + n + post.length = 8 := by
    have := congrArg List.length h
    simp only [segments, length_digitsBE, List.length_append, List.length_replicate] at this
    omega
  have hlt := @segments_lt a
  rw [h] at hlt
  have hpre : ∀ g ∈ pre, g < 65536 := fun g hg => hlt g (by simp [hg])
  have hpost : ∀ g ∈ post, g < 65536 := fun g hg => hlt g (by simp [hg])
  have hdot : '.' ∉ ':' :: ':' :: groupText 0 post := by
    simp [dot_not_mem_groupText]
  have hhead := readGroups_groupText hpre (Or.inr ⟨groupText 0 post, rfl⟩) hdot 8 0 (by omega)
  have htail := readGroups_groupText hpost (Or.inl rfl) (by simp) (7 - pre.length) 0 (by omega)
  rw [List.append_nil] at htail
  have hne : pre.length ≠ 8 := by omega
  have hzeros : 8 - pre.length - post.length = n := by omega
  have hvalue := ofNat_segments a
  rw [h] at hvalue
  rw [← groupText_zero_eq, ← groupText_zero_eq, List.append_assoc]
  simp only [List.cons_append, List.nil_append, readIpv6, hhead, hne, if_false, Bool.false_eq_true,
    readGivenChar, if_true, Option.bind_eq_bind, Option.bind_some, Nat.reduceSubDiff, htail, hzeros,
    hvalue]
  rfl

/-- A printed address with all eight groups is read back. -/
lemma readIpv6_full (a : Ipv6Addr) : readIpv6 (fmtSegments (segments a)) = some (a, []) := by
  have hlen : (segments a).length = 8 := by simp [segments]
  have hread := readGroups_groupText (@segments_lt a) (Or.inl rfl) (by simp) 8 0 hlen.le
  rw [List.append_nil, groupText_zero_eq] at hread
  simp [readIpv6, hread, hlen, ofNat_segments]

/-- A printed IPv4-mapped address is read back. -/
lemma readIpv6_mapped {a : Ipv6Addr} (h : (segments a).take 6 = [0, 0, 0, 0, 0, 0xffff]) :
    readIpv6 ("::ffff:".toList ++ fmtIpv4 (BitVec.ofNat 32 a.toNat)) = some (a, []) := by
  set b : Ipv4Addr := BitVec.ofNat 32 a.toNat with hb
  have hv4 : readIpv4 (fmtIpv4 b) = some (b, []) := by
    have := readIpv4_fmtIpv4 b [] (by simp)
    rwa [List.append_nil] at this
  have hv4none : ∀ c r, toDigit 10 c = none → readIpv4 (c :: r) = none := by
    intro c r hc
    simp [readIpv4, readSeparated, readNumber_of_not_digit hc]
  have hgroup : ∀ r, readNumber 16 4 true 65535 ('f' :: 'f' :: 'f' :: 'f' :: ':' :: r) =
      some (0xffff, ':' :: r) := by
    intro r
    have hrest : ∀ c ∈ (':' :: r).head?, toDigit 16 c = none := by
      simpa using show toDigit 16 ':' = none by decide
    exact readNumber_fmtHex (n := 0xffff) (by decide) hrest
  have hhead : ∀ r, readGroups 8 0 (':' :: r) = ([], false, ':' :: r) := by
    intro r
    simp [readGroups, readSeparated, hv4none ':' r (by decide),
      readNumber_of_not_digit (show toDigit 16 ':' = none by decide)]
  have htail : readGroups 7 0 ('f' :: 'f' :: 'f' :: 'f' :: ':' :: fmtIpv4 b) =
      (0xffff :: digitsBE 65536 2 b.toNat, true, []) := by
    simp [readGroups, readSeparated, hv4none 'f' _ (by decide), hgroup, readGivenChar, hv4]
  have hsegs : segments a = [0, 0, 0, 0, 0] ++ 0xffff :: digitsBE 65536 2 b.toNat := by
    have hlow : digitsBE 65536 2 b.toNat = [a.toNat / 65536 % 65536, a.toNat % 65536] := by
      have hbv : b.toNat = a.toNat % 2 ^ 32 := by simp [hb]
      simp only [digitsBE, hbv, List.nil_append, List.cons_append, List.cons.injEq, and_true]
      omega
    have happ : segments a = (segments a).take 6 ++ [a.toNat / 65536 % 65536, a.toNat % 65536] := rfl
    rw [happ, h, hlow]
    rfl
  have hvalue := ofNat_segments a
  rw [hsegs] at hvalue
  have htext : "::ffff:".toList ++ fmtIpv4 b =
      ':' :: ':' :: 'f' :: 'f' :: 'f' :: 'f' :: ':' :: fmtIpv4 b := rfl
  rw [htext]
  simp only [readIpv6, hhead, List.length_nil, Nat.reduceEqDiff, if_false, Bool.false_eq_true,
    readGivenChar, if_true, Option.bind_eq_bind, Option.bind_some, Nat.reduceAdd, Nat.reduceSub,
    htail, List.length_cons, length_digitsBE, List.nil_append]
  exact congrArg (fun v => some (v, [])) hvalue

/-- A printed IPv6 address is read back. -/
lemma readIpv6_fmtIpv6 (a : Ipv6Addr) : readIpv6 (fmtIpv6 a) = some (a, []) := by
  simp only [fmtIpv6]
  split_ifs with hmapped hzero
  · exact readIpv6_mapped hmapped
  · have hempty : IsZeroRun (segments a) ⟨0, 0⟩ := fun j _ h => by simp at h
    have hrun := isZeroRun_zeroSpan [] (segments a) rfl ⟨0, 0⟩ ⟨0, 0⟩ hempty hempty (Or.inl rfl)
    exact readIpv6_compressed hrun.eq_append hzero
  · exact readIpv6_full a

/-- The text of an IPv6 address is not the start of an IPv4 address. -/
lemma readIpv4_fmtIpv6 (a : Ipv6Addr) : readIpv4 (fmtIpv6 a) = none := by
  simp only [fmtIpv6]
  split_ifs
  · simp [readIpv4, readSeparated, readNumber_of_not_digit (show toDigit 10 ':' = none by decide)]
  · apply readIpv4_eq_none
    simp [← groupText_zero_eq, dot_not_mem_groupText]
  · apply readIpv4_eq_none
    rw [← groupText_zero_eq]
    exact dot_not_mem_groupText 0 _

/-- Parsing the text of an address gives the address. -/
@[simp] theorem parseIpAddr_fmtIpAddr (ip : IpAddr) : parseIpAddr (fmtIpAddr ip) = some ip := by
  cases ip with
  | v4 a =>
    have h := readIpv4_fmtIpv4 a [] (by simp)
    rw [List.append_nil] at h
    simp [fmtIpAddr, parseIpAddr, h]
  | v6 a => simp [fmtIpAddr, parseIpAddr, readIpv4_fmtIpv6, readIpv6_fmtIpv6]

example : fmtIpAddr (.v4 0xc0a80105) = "192.168.1.5" := by decide
example : fmtIpAddr (.v6 0x20010db8000000000000000000000010) = "2001:db8::10" := by decide +kernel
example : parseIpAddr "::ffff:10.0.0.1" = some (.v6 0xffff0a000001) := by decide +kernel

end Lib
