import Nomina.Store.Lookup

/-!
# Online signing

`dns/dnssec.rs`: the signatures that are appended to an answer, the records synthesized at the apex of
a signed zone, and the NSEC and NSEC3 records that deny a name or a type.

Signing and hashing are the work of crates. Which records are signed and denied, and with which types,
is modelled.
-/

namespace Nomina

open Lib

/-- What signing uses of its crates: keys and signatures as text, hashes and their labels. A signature
may fail. -/
structure SigningCrates where
  /-- The DNSKEY data of a secret. -/
  dnskey : Str → Str
  /-- `RRSIG::from_rrset` of a record set at an inception time. -/
  rrsig : ZoneSigner → Name → RecordType → List Record → ℤ → Option Str
  /-- The text of record data of some type, with the names in it in lowercase. -/
  foldText : RecordType → Str → Str
  /-- `Nsec3HashAlgorithm::hash` with a salt and a number of iterations. -/
  nsec3Hash : Nsec3Params → Name → Option (List UInt8)
  /-- `Label::from_ascii` of the hash in base32. -/
  base32Label : List UInt8 → Option Label
  /-- The NSEC3PARAM data of some parameters. -/
  nsec3param : Nsec3Params → Str

/-- `Name::prepend_label`: the name with the label may be too long. -/
def Name.prependLabel (l : Label) (n : Name) : Option Name :=
  let labels := l :: n.labels
  if (labels.map fun l => l.length + 1).sum + 1 ≤ 255 then some ⟨labels⟩ else none

/-- `increment_hash`: the next value, with wraparound. The first component is the carry. -/
def incrementHash : List UInt8 → Bool × List UInt8
  | [] => (true, [])
  | b :: bs =>
    let (carry, bs) := incrementHash bs
    if carry then (b == 255, (b + 1) :: bs) else (false, b :: bs)

/-! ## Record sets -/

section RecordSets

variable (S : SigningCrates)

/-- Record data as the crate compares it: the names in it ignore ASCII case. -/
def RData.folded : RData → RData
  | .cname target => .cname target.toLowercase
  | .ns target => .ns target.toLowercase
  | .ptr target => .ptr target.toLowercase
  | .soa s => .soa { s with mname := s.mname.toLowercase, rname := s.rname.toLowercase }
  | .nsec next types => .nsec next.toLowercase types
  | .other t text => .other t (S.foldText t text)
  | d => d

/-- Two records have equal data. -/
def Record.EqualData (r r' : Record) : Prop :=
  r.data.folded S = r'.data.folded S

instance (r r' : Record) : Decidable (r.EqualData S r') :=
  inferInstanceAs (Decidable (r.data.folded S = r'.data.folded S))

/-- Whether the SOA record `old` stays when `r` is inserted: a higher serial replaces it. -/
def Record.keepsSoa (r old : Record) : Bool :=
  match old.data, r.data with
  | .soa existing, .soa new => new.serial ≤ existing.serial
  | _, _ => true

/-- `RecordSet::insert`: there is one SOA, the one with the highest serial, and one CNAME or ANAME, the
last one. Any other record is left out when its data is there already. -/
def recordSetInsert (set : List Record) (r : Record) : List Record :=
  if r.data.recordType == .SOA then if set.any r.keepsSoa then set else [r]
  else if r.data.recordType == .CNAME || r.data.recordType == .ANAME then [r]
  else if set.any (·.EqualData S r) then set else set ++ [r]

/-- The record set that some records are inserted into. -/
def recordSet (records : List Record) : List Record :=
  records.foldl (recordSetInsert S) []

end RecordSets

/-! ## Signatures -/

namespace ZoneSigner

variable (S : SigningCrates) (now : ℤ)

/-- `ZoneSigner::uses_nsec3`. -/
def usesNsec3 (signer : ZoneSigner) : Bool :=
  signer.nsec3.isSome

/-- `ZoneSigner::sign_rrset`: signatures are dated back by an hour. -/
def signRrset (signer : ZoneSigner) (name : Name) (rtype : RecordType) (ttl : ℕ)
    (records : List Record) : Option Record :=
  (S.rrsig signer name rtype (recordSet S records) (now - 3600)).map fun sig =>
    ⟨name, ttl, .other .RRSIG sig⟩

/-- A record followed by its signature. -/
def withSignature (signer : ZoneSigner) (r : Record) : List Record :=
  r :: (signer.signRrset S now r.name r.data.recordType r.ttl [r]).toList

/-- The key by which records are grouped into record sets. -/
def rrsetKey (K : Crates) (r : Record) : Str × RecordType :=
  (toAsciiLowercase (r.name.toText K), r.data.recordType)

/-- The records that `sign_records` signs, by their keys and in the order of the keys. -/
def rrsetGroups (K : Crates) (records : List Record) : List ((Str × RecordType) × List Record) :=
  let unsigned := records.filter fun r => r.data.recordType != .RRSIG
  let groups := collect (unsigned.map fun r => (rrsetKey K r, r))
  let keys := groups.keys.insertionSort fun a b =>
    a.1 < b.1 ∨ (a.1 = b.1 ∧ a.2.code ≤ b.2.code)
  keys.map fun k => (k, groups.at k)

/-- The signature of a group. -/
def signGroup (signer : ZoneSigner) : (Str × RecordType) × List Record → Option Record
  | (_, []) => none
  | ((_, rtype), r :: rs) => signer.signRrset S now r.name rtype r.ttl (r :: rs)

/-- `ZoneSigner::sign_records`: the signatures of the groups are appended. -/
def signRecords (K : Crates) (signer : ZoneSigner) (records : List Record) : List Record :=
  records ++ (rrsetGroups K records).filterMap (signer.signGroup S now)

/-- `ZoneSigner::dnskey_rrset`. -/
def dnskeyRrset (signer : ZoneSigner) : List Record :=
  signer.withSignature S now
    ⟨signer.apex, signer.defaultTtl, .other .DNSKEY (S.dnskey signer.secret)⟩

/-- `ZoneSigner::nsec3param_rrset`. -/
def nsec3paramRrset (signer : ZoneSigner) : List Record :=
  match signer.nsec3 with
  | none => []
  | some p =>
    signer.withSignature S now ⟨signer.apex, signer.defaultTtl, .other .NSEC3PARAM (S.nsec3param p)⟩

/-- `ZoneSigner::nsec_records`. -/
def nsecRecords (signer : ZoneSigner) (owner : Name) (present : List RecordType) (ttl : ℕ) :
    List Record :=
  let next := (owner.prependLabel [0]).getD owner
  signer.withSignature S now ⟨owner, ttl, .nsec next (present ++ [.RRSIG, .NSEC])⟩

/-- `ZoneSigner::nsec3_records`. -/
def nsec3Records (signer : ZoneSigner) (owner : Name) (present : List RecordType) (ttl : ℕ) :
    List Record :=
  match signer.nsec3 with
  | none => []
  | some p =>
    match S.nsec3Hash p owner with
    | none => []
    | some hash =>
      match (S.base32Label hash).bind (Name.prependLabel · signer.apex) with
      | none => []
      | some nsec3Owner =>
        signer.withSignature S now ⟨nsec3Owner, ttl,
          .nsec3 p.salt p.iterations (incrementHash hash).2 (present ++ [.RRSIG])⟩

/-- `denial`: NSEC3 where the zone uses it. -/
def denial (signer : ZoneSigner) (owner : Name) (present : List RecordType) (ttl : ℕ) :
    List Record :=
  if signer.usesNsec3 then signer.nsec3Records S now owner present ttl
  else signer.nsecRecords S now owner present ttl

end ZoneSigner

end Nomina
