import Nomina.Lib.IpText

/-!
# Domain models

The DNS values the program handles (names, record types, record data, records) and the row types
of the management database, with the helpers of `models.rs` that turn user text into DNS values.

Names and record data are values of the `hickory` crate. Their structure is modelled; how the crate
reads and prints them is a parameter, collected in `Crates`.
-/

namespace Nomina

open Lib

/-! ## Names -/

/-- A DNS label: its bytes as they stand on the wire. -/
abbrev Label := List UInt8

/-- ASCII folding of one byte of a label. -/
def lowerByte (b : UInt8) : UInt8 :=
  if 0x41 ≤ b ∧ b ≤ 0x5a then b + 0x20 else b

/-- An absolute domain name, leftmost label first. Every name the modelled functions build or
receive is absolute, so the crate's `is_fqdn` flag is left out. -/
structure Name where
  labels : List Label
deriving DecidableEq

/-- `Name::to_lowercase`. -/
def Name.toLowercase (n : Name) : Name :=
  ⟨n.labels.map (List.map lowerByte)⟩

/-- `Name::zone_of`: the labels of the zone are a suffix of those of the name, ignoring ASCII
case. -/
def Name.zoneOf (z n : Name) : Bool :=
  z.toLowercase.labels.isSuffixOf n.toLowercase.labels

/-- `Name::num_labels`: a leading `*` label is not counted. -/
def Name.numLabels (n : Name) : ℕ :=
  match n.labels with
  | [0x2a] :: rest => rest.length
  | labels => labels.length

/-! ## Record types -/

/-- The type codes that have a name in `RecordType` below. -/
def namedCodes : List ℕ :=
  [1, 2, 5, 6, 12, 13, 15, 16, 28, 33, 35, 37, 43, 44, 46, 47, 48, 50, 51, 52, 53, 61, 62, 64, 65,
    251, 252, 255, 257, 65305]

/-- Record types: those the program names, and every other code. -/
inductive RecordType
  | A | NS | CNAME | SOA | PTR | HINFO | MX | TXT | AAAA | SRV | NAPTR | CERT | DS | SSHFP | RRSIG
  | NSEC | DNSKEY | NSEC3 | NSEC3PARAM | TLSA | SMIMEA | OPENPGPKEY | CSYNC | SVCB | HTTPS | IXFR
  | AXFR | ANY | CAA | ANAME
  | other (code : ℕ) (unnamed : code ∉ namedCodes)
deriving DecidableEq

namespace RecordType

/-- The assigned code, by which record types are ordered. -/
def code : RecordType → ℕ
  | A => 1 | NS => 2 | CNAME => 5 | SOA => 6 | PTR => 12 | HINFO => 13 | MX => 15 | TXT => 16
  | AAAA => 28 | SRV => 33 | NAPTR => 35 | CERT => 37 | DS => 43 | SSHFP => 44 | RRSIG => 46
  | NSEC => 47 | DNSKEY => 48 | NSEC3 => 50 | NSEC3PARAM => 51 | TLSA => 52 | SMIMEA => 53
  | OPENPGPKEY => 61 | CSYNC => 62 | SVCB => 64 | HTTPS => 65 | IXFR => 251 | AXFR => 252
  | ANY => 255 | CAA => 257 | ANAME => 65305
  | other c _ => c

/-- The type of a code. -/
def ofCode (c : ℕ) : RecordType :=
  if h : c ∉ namedCodes then other c h else
  match c with
  | 1 => A | 2 => NS | 5 => CNAME | 6 => SOA | 12 => PTR | 13 => HINFO | 15 => MX | 16 => TXT
  | 28 => AAAA | 33 => SRV | 35 => NAPTR | 37 => CERT | 43 => DS | 44 => SSHFP | 46 => RRSIG
  | 47 => NSEC | 48 => DNSKEY | 50 => NSEC3 | 51 => NSEC3PARAM | 52 => TLSA | 53 => SMIMEA
  | 61 => OPENPGPKEY | 62 => CSYNC | 64 => SVCB | 65 => HTTPS | 251 => IXFR | 252 => AXFR
  | 255 => ANY | 257 => CAA | _ => ANAME

/-- Reading the code of a type back gives the type. -/
lemma ofCode_code (t : RecordType) : ofCode t.code = t := by
  cases t with
  | other c h => simp [code, ofCode, h]
  | _ => rfl

/-- Different types have different codes. -/
lemma code_injective : Function.Injective code := by
  intro a b h
  rw [← ofCode_code a, h, ofCode_code]

/-- The mnemonic of a type. The types without a name are all printed alike. -/
def toText : RecordType → Str
  | A => "A" | NS => "NS" | CNAME => "CNAME" | SOA => "SOA" | PTR => "PTR" | HINFO => "HINFO"
  | MX => "MX" | TXT => "TXT" | AAAA => "AAAA" | SRV => "SRV" | NAPTR => "NAPTR" | CERT => "CERT"
  | DS => "DS" | SSHFP => "SSHFP" | RRSIG => "RRSIG" | NSEC => "NSEC" | DNSKEY => "DNSKEY"
  | NSEC3 => "NSEC3" | NSEC3PARAM => "NSEC3PARAM" | TLSA => "TLSA" | SMIMEA => "SMIMEA"
  | OPENPGPKEY => "OPENPGPKEY" | CSYNC => "CSYNC" | SVCB => "SVCB" | HTTPS => "HTTPS"
  | IXFR => "IXFR" | AXFR => "AXFR" | ANY => "ANY" | CAA => "CAA" | ANAME => "ANAME"
  | other _ _ => "Unknown"

end RecordType

/-! ## Record data -/

/-- SOA record data. -/
structure SOA where
  mname : Name
  rname : Name
  serial : ℕ
  refresh : ℤ
  retry : ℤ
  expire : ℤ
  minimum : ℕ
deriving DecidableEq

/-- Record data. The data of the types no modelled function looks into is kept as its text. -/
inductive RData
  | a (ip : Ipv4Addr)
  | aaaa (ip : Ipv6Addr)
  | cname (target : Name)
  | ns (target : Name)
  | ptr (target : Name)
  | soa (soa : SOA)
  | nsec (next : Name) (types : List RecordType)
  | nsec3 (salt : List UInt8) (iterations : ℕ) (next : List UInt8) (types : List RecordType)
  | other (rtype : RecordType) (text : Str)
deriving DecidableEq

/-- `RData::record_type`. -/
def RData.recordType : RData → RecordType
  | .a _ => .A
  | .aaaa _ => .AAAA
  | .cname _ => .CNAME
  | .ns _ => .NS
  | .ptr _ => .PTR
  | .soa _ => .SOA
  | .nsec _ _ => .NSEC
  | .nsec3 _ _ _ _ => .NSEC3
  | .other t _ => t

/-- A resource record as it is sent: owner, TTL and data. -/
structure Record where
  name : Name
  ttl : ℕ
  data : RData
deriving DecidableEq

/-- The response codes the server answers with, and every other one an upstream may send, by the name
it is printed with. -/
inductive ResponseCode
  | NoError | FormErr | ServFail | NXDomain | NotImp | Refused
  | other (name : Str)
deriving DecidableEq

/-- `format!("{:?}", rcode).to_uppercase()`. -/
def ResponseCode.toText : ResponseCode → Str
  | NoError => "NOERROR"
  | FormErr => "FORMERR"
  | ServFail => "SERVFAIL"
  | NXDomain => "NXDOMAIN"
  | NotImp => "NOTIMP"
  | Refused => "REFUSED"
  | other name => toAsciiUppercase name

/-- An address range in CIDR form. -/
structure IpNet where
  addr : IpAddr
  prefixLen : ℕ
deriving DecidableEq

/-- `IpNet::contains`: same family, and the leading bits agree. -/
def IpNet.contains (n : IpNet) (ip : IpAddr) : Bool :=
  match n.addr, ip with
  | .v4 a, .v4 b => a >>> (32 - n.prefixLen) == b >>> (32 - n.prefixLen)
  | .v6 a, .v6 b => a >>> (128 - n.prefixLen) == b >>> (128 - n.prefixLen)
  | _, _ => false

/-! ## The crates -/

/-- What the program uses of its crates without looking inside: reading and printing names and
record data (`hickory`), networks (`ipnet`), times (`time`), key material and hexadecimal text.
Errors carry the text the crate prints for them. -/
structure Crates where
  /-- How a label is displayed: escaped, and internationalised labels in Unicode. -/
  labelText : Label → Str
  /-- `Name::from_utf8`. -/
  fromUtf8 : Str → Except Str Name
  /-- `Name::from_ascii`. -/
  fromAscii : Str → Except Str Name
  /-- `RData::try_from_str`. -/
  tryFromStr : RecordType → Str → Except Str RData
  /-- How record data is displayed. -/
  rdataText : RData → Str
  /-- `str::parse::<IpNet>`. -/
  parseIpNet : Str → Option IpNet
  /-- Whether a stored DNSSEC secret decodes to a signing key. -/
  loadsKey : Str → Bool
  /-- `HEXLOWER_PERMISSIVE.decode`. -/
  decodeHex : Str → Option (List UInt8)
  /-- `OffsetDateTime::parse` of an RFC 3339 text, as a Unix timestamp. -/
  parseRfc3339 : Str → Option ℤ
  /-- The RFC 3339 text of a Unix timestamp. -/
  rfc3339 : ℤ → Str
  /-- The records of a zone file that is read with an origin, without signatures. -/
  parseZonefile : Str → Name → Except Str (List Record)
  /-- `STANDARD.decode` of base64 text. -/
  decodeBase64 : Str → Option (List UInt8)
  /-- Whether a password has an Argon2 hash. -/
  verifyPassword : Str → Str → Bool
  /-- What the database library says of a statement that is refused. -/
  refusedText : Str
  /-- The DUID of the server, derived from the host name. -/
  serverDuid : List UInt8
  /-- Data read for a type is data of that type. -/
  tryFromStr_recordType : ∀ {t s d}, tryFromStr t s = .ok d → d.recordType = t

/-! A plain instance, which reads and prints names of letters, digits, hyphens and underscores as
they are. -/

/-- The label of a piece of plain text, folded as `from_utf8` folds it. -/
def plainLabel (s : Str) : Option Label :=
  if s ≠ [] ∧ s.length ≤ 63 ∧
      (s = ['*'] ∨ s.all (fun c => c.isAlphanum || c == '-' || c == '_')) then
    some ((toAsciiLowercase s).map fun c => UInt8.ofNat c.toNat)
  else none

/-- The name of plain dotted text. -/
def plainName (s : Str) : Except Str Name :=
  match ((stripSuffix s ['.']).map (split '.')).bind (·.mapM plainLabel) with
  | some labels => .ok ⟨labels⟩
  | none => .error "malformed label"

/-- A label of plain characters, as text. -/
def plainLabelText (l : Label) : Str :=
  l.map fun b => Char.ofNat b.toNat

/-- Read record data: addresses, names, and any text for the other types. -/
def plainRData (t : RecordType) (s : Str) : Except Str RData :=
  match t with
  | .A => match parseIpv4Addr s with
    | some ip => .ok (.a ip)
    | none => .error "invalid address"
  | .AAAA => match parseIpAddr s with
    | some (.v6 ip) => .ok (.aaaa ip)
    | _ => .error "invalid address"
  | .CNAME => (plainName s).map .cname
  | .NS => (plainName s).map .ns
  | .PTR => (plainName s).map .ptr
  | t => .ok (.other t s)

/-- Print record data. -/
def plainRDataText : RData → Str
  | .a ip => fmtIpv4 ip
  | .aaaa ip => fmtIpv6 ip
  | .cname n | .ns n | .ptr n => n.labels.flatMap fun l => plainLabelText l ++ ['.']
  | .soa _ | .nsec _ _ | .nsec3 _ _ _ _ => []
  | .other _ s => s

/-- Reading plain data keeps the type. -/
lemma plainRData_recordType {t : RecordType} {s : Str} {d : RData} (h : plainRData t s = .ok d) :
    d.recordType = t := by
  unfold plainRData at h
  split at h
  · split at h
    · cases h
      rfl
    · cases h
  · split at h
    · cases h
      rfl
    · cases h
  all_goals first
    | cases h; rfl
    | cases hn : plainName s with
      | error e => rw [hn] at h; cases h
      | ok n => rw [hn] at h; cases h; rfl

/-- The name written as plain dotted text without a trailing dot. -/
def Name.ofPlain (s : Str) : Name :=
  ⟨(split '.' s).map fun l => l.map fun c => UInt8.ofNat c.toNat⟩

/-- A number below a hundred, in two digits. -/
def twoDigits (n : ℕ) : Str :=
  [(n / 10 % 10).digitChar, (n % 10).digitChar]

/-- The RFC 3339 text of a time on the first day of the Unix epoch. -/
def plainRfc3339 (t : ℤ) : Str :=
  if 0 ≤ t ∧ t < 86400 then
    let n := t.toNat
    "1970-01-01T".toList ++ twoDigits (n / 3600) ++ ':' :: twoDigits (n / 60 % 60) ++
      ':' :: twoDigits (n % 60) ++ ['Z']
  else []

/-- Read the RFC 3339 text of a time on the first day of the Unix epoch. -/
def plainParseRfc3339 (s : Str) : Option ℤ :=
  if s.take 11 = "1970-01-01T".toList then
    match s.drop 11 with
    | [h, h', ':', m, m', ':', sec, sec', 'Z'] => do
      let digits ← [h, h', m, m', sec, sec'].mapM (toDigit 10)
      match digits with
      | [h, h', m, m', sec, sec'] =>
        some ((h * 10 + h') * 3600 + (m * 10 + m') * 60 + (sec * 10 + sec') : ℕ)
      | _ => none
    | _ => none
  else none

/-- Crates that handle plain text. -/
def plainCrates : Crates where
  labelText := plainLabelText
  fromUtf8 := plainName
  fromAscii := plainName
  tryFromStr := plainRData
  rdataText := plainRDataText
  parseIpNet _ := none
  loadsKey _ := false
  decodeHex _ := none
  parseRfc3339 := plainParseRfc3339
  rfc3339 := plainRfc3339
  parseZonefile text _ := if text.isEmpty then .ok [] else .error "unexpected token"
  decodeBase64 _ := none
  verifyPassword _ _ := false
  refusedText := "database is locked"
  serverDuid := [0, 3, 0, 1]
  tryFromStr_recordType := plainRData_recordType

/-- The label of `bücher` as it stands on the wire. -/
def bucherLabel : Label :=
  "xn--bcher-kva".toList.map fun c => UInt8.ofNat c.toNat

/-- Print a label: the one of `bücher` in Unicode. -/
def idnLabelText (l : Label) : Str :=
  if l = bucherLabel then "bücher" else plainLabelText l

/-- Crates that handle plain text and display one internationalised label in Unicode. -/
def bucherCrates : Crates :=
  { plainCrates with labelText := idnLabelText }

variable (K : Crates)

/-- The display form of a name, with its trailing dot. -/
def Name.toText (n : Name) : Str :=
  if n.labels.isEmpty then ['.'] else n.labels.flatMap fun l => K.labelText l ++ ['.']

/-! ## Rows -/

/-- A split-horizon view. -/
structure View where
  id : ℕ
  name : Str
  networks : List Str
  countries : List Str
  continents : List Str
  asns : List ℕ
  priority : ℤ
  isDefault : Bool
deriving DecidableEq

/-- The configured SOA fields of a zone. -/
structure Soa where
  primaryNs : Str
  adminEmail : Str
  refresh : ℤ
  retry : ℤ
  expire : ℤ
  minimum : ℕ
deriving DecidableEq

/-- `Soa::default_for`. -/
def Soa.defaultFor (zone : Str) : Soa where
  primaryNs := "ns1.".toList ++ zone ++ ['.']
  adminEmail := "hostmaster.".toList ++ zone ++ ['.']
  refresh := 3600
  retry := 600
  expire := 604800
  minimum := 60

/-- A zone row. Timestamps and the columns joined in for display are left out. -/
structure Zone where
  id : ℕ
  name : Str
  enabled : Bool
  soa : Soa
  defaultTtl : ℕ
  serial : ℕ
deriving DecidableEq

/-- A record row. -/
structure DnsRecord where
  id : ℕ
  zoneId : ℕ
  viewId : Option ℕ
  name : Str
  rtype : Str
  ttl : Option ℕ
  data : Str
  enabled : Bool
deriving DecidableEq

/-! ## DNS helpers -/

/-- Record types users may manage. -/
def supportedRecordTypes : List RecordType :=
  [.A, .AAAA, .ANAME, .CAA, .CERT, .CNAME, .CSYNC, .HINFO, .HTTPS, .MX, .NAPTR, .NS, .OPENPGPKEY,
    .PTR, .SMIMEA, .SRV, .SSHFP, .SVCB, .TLSA, .TXT]

/-- The types of which an owner has one record at most. -/
def isSingleton (t : RecordType) : Bool :=
  t == .SOA || t == .CNAME || t == .ANAME

/-- `parse_record_type`: read a mnemonic, restricted to the supported types. -/
def parseRecordType (s : Str) : Except Str RecordType :=
  let up := toAsciiUppercase (trim s)
  match supportedRecordTypes.find? (fun t => t.toText == up) with
  | some t => .ok t
  | none => .error ("unsupported record type: ".toList ++ s)

/-- `canonical_zone_name`: lowercase, without the trailing dot. -/
def canonicalZoneName (name : Str) : Except Str Str :=
  let trimmed := toAsciiLowercase (trimEndMatches '.' (trim name))
  if trimmed.isEmpty then .error "zone name must not be empty"
  else match K.fromUtf8 (trimmed ++ ['.']) with
    | .error e => .error ("invalid zone name: ".toList ++ e)
    | .ok _ => .ok trimmed

variable {K} in
/-- A canonical zone name is not empty, is folded, has no dot at its end and is read as a name. -/
lemma canonicalZoneName_spec {raw name : Str} (h : canonicalZoneName K raw = .ok name) :
    name ≠ [] ∧ toAsciiLowercase (trimEndMatches '.' name) = name ∧
      ∃ apex, K.fromUtf8 (name ++ ['.']) = .ok apex := by
  unfold canonicalZoneName at h
  dsimp only at h
  split at h
  · cases h
  · rename_i hne
    split at h
    · cases h
    · rename_i apex hapex
      cases h
      refine ⟨by simpa using hne, ?_, apex, hapex⟩
      rw [trimEndMatches_toAsciiLowercase, trimEndMatches_idem, toAsciiLowercase_idem]

variable {K} in
/-- A canonical zone name has no blanks around it. -/
lemma trim_of_canonicalZoneName {name : Str} (h : canonicalZoneName K name = .ok name) :
    trim name = name := by
  unfold canonicalZoneName at h
  dsimp only at h
  split at h
  · cases h
  · split at h
    · cases h
    · have hname := congrArg List.length (Except.ok.inj h)
      have hdots := (List.rdropWhile_prefix (· == '.') (trim name)).length_le
      unfold toAsciiLowercase trimEndMatches at hname
      rw [List.length_map] at hname
      exact (trim_isInfix name).eq_of_length (le_antisymm (trim_isInfix name).length_le (by omega))

/-- `record_fqdn_name`: the absolute name of a record, given its name relative to the zone. -/
def recordFqdnName (recordName zone : Str) : Except Str Name :=
  let rec' := trimEndMatches '.' (trim recordName)
  let fqdn := if rec'.isEmpty || rec' == ['@'] then zone ++ ['.'] else rec' ++ '.' :: zone ++ ['.']
  match K.fromUtf8 fqdn with
  | .error e => .error ("invalid record name: ".toList ++ e)
  | .ok name => .ok name

/-- `record_fqdn_string`: the same name as lowercase text without the trailing dot. -/
def recordFqdnString (recordName zone : Str) : Str :=
  let rec' := trimEndMatches '.' (trim recordName)
  if rec'.isEmpty || rec' == ['@'] then toAsciiLowercase zone
  else toAsciiLowercase rec' ++ '.' :: toAsciiLowercase zone

/-- The text of a record's name depends on the name up to ASCII case. -/
lemma recordFqdnString_congr {a b : Str} (h : toAsciiLowercase a = toAsciiLowercase b) (zone : Str) :
    recordFqdnString a zone = recordFqdnString b zone := by
  have hfold : ∀ s : Str, recordFqdnString s zone =
      let rec' := trimEndMatches '.' (trim (toAsciiLowercase s))
      if rec'.isEmpty || rec' == ['@'] then toAsciiLowercase zone
      else rec' ++ '.' :: toAsciiLowercase zone := by
    intro s
    rw [trim_toAsciiLowercase, trimEndMatches_toAsciiLowercase]
    have hat : (toAsciiLowercase (trimEndMatches '.' (trim s)) == ['@']) =
        (trimEndMatches '.' (trim s) == ['@']) := by
      rw [Bool.eq_iff_iff, beq_iff_eq, beq_iff_eq]
      unfold toAsciiLowercase
      rw [List.map_eq_singleton_iff]
      constructor
      · rintro ⟨c, hc, hlow⟩
        rw [hc, (toLower_eq_iff (by decide)).mp hlow]
      · intro hc
        exact ⟨'@', hc, rfl⟩
    have hempty : (toAsciiLowercase (trimEndMatches '.' (trim s))).isEmpty =
        (trimEndMatches '.' (trim s)).isEmpty := by
      unfold toAsciiLowercase
      exact List.isEmpty_map
    dsimp only
    rw [hat, hempty]
    rfl
  rw [hfold a, hfold b, h]

/-- The inner `qualify` of `prequalify_data`: one name token, made absolute. -/
def qualify (zone tok : Str) : Str :=
  let t := trim tok
  if t.isEmpty || t == ['@'] then zone ++ ['.']
  else if endsWith t ['.'] then t
  else if t.contains '.' then t ++ ['.']
  else t ++ '.' :: zone ++ ['.']

/-- `prequalify_data`: make the name tokens of record data absolute. -/
def prequalifyData (rtype : RecordType) (data zone : Str) : Str :=
  match rtype with
  | .CNAME | .NS | .PTR => qualify zone data
  | .MX =>
    match splitWhitespace data with
    | [pref, exchange] => pref ++ ' ' :: qualify zone exchange
    | _ => data
  | .SRV =>
    match splitWhitespace data with
    | [prio, weight, port, target] =>
      prio ++ ' ' :: weight ++ ' ' :: port ++ ' ' :: qualify zone target
    | _ => data
  | _ => data

/-- `parse_rdata`. -/
def parseRdata (rtype : RecordType) (data zone : Str) : Except Str RData :=
  match K.tryFromStr rtype (prequalifyData rtype data zone) with
  | .error e => .error ("invalid ".toList ++ rtype.toText ++ " data: ".toList ++ e)
  | .ok d => .ok d

/-- `soa_rname`: the RNAME of an e-mail style or zone-file style admin address. -/
def soaRname (admin : Str) : Except Str Name :=
  let s := trim admin
  let dns := match splitOnce '@' s with
    | some (loc, domain) => replaceChar '.' "\\." loc ++ '.' :: domain
    | none => s
  let dns := if endsWith dns ['.'] then dns else dns ++ ['.']
  match K.fromUtf8 dns with
  | .error e => .error ("invalid admin email: ".toList ++ e)
  | .ok name => .ok name

end Nomina
