import Nomina.Web.Settings

/-!
# Serving zone transfers

`handle_axfr` of `dns/handler.rs` with `dns/tsig.rs`: who gets a zone. The transport must keep a
connection, the client must be allowed, and when signatures are required the request must be signed
with a configured key.

The crate checks the signature and hands back the times for which it is valid, and leaves it to its
caller to look at the clock. `verify_request` drops them, so a signed request stays good forever:
`replayProtected_iff` says exactly which requests are protected all the same.
-/

namespace Nomina

open Lib

/-! ## Signatures -/

/-- How long before and after its time a signature is good, in seconds. -/
def fudge : ℕ := 300

/-- A signer: its key material, algorithm, name and fudge. -/
structure TSigner where
  key : List UInt8
  algorithm : Str
  name : Name
  fudge : ℕ
deriving DecidableEq

/-- The signature record of a request: its owner, which is the name of the key, its time and its
fudge. -/
structure TSig where
  name : Name
  time : ℕ
  fudge : ℕ
deriving DecidableEq

/-- What the transfers need of the crates beside the signers: the check of the bytes of a message
against a signer, which is of the key name, the algorithm and the MAC. -/
structure TransferCrates extends Api.TsigCrates where
  verifyMac : TSigner → List UInt8 → Except Str Unit

variable (K : Crates) (X : TransferCrates)

/-- `build_signer`, with the signer it builds. -/
def buildSigner (key : TsigKey) : Except Str TSigner :=
  match Api.tsigAlgorithm key.algorithm with
  | none => .error ("unsupported TSIG algorithm: ".toList ++ key.algorithm)
  | some algorithm =>
    match K.decodeBase64 (trim key.secret) with
    | none => .error ("invalid base64 TSIG secret: ".toList ++ X.base64Error (trim key.secret))
    | some secret =>
      match K.fromUtf8 key.name with
      | .error e => .error e
      | .ok name =>
        match X.newSigner secret algorithm name with
        | .error e => .error ("building TSIG signer: ".toList ++ e)
        | .ok () => .ok ⟨secret, algorithm, name, fudge⟩

/-- `TSigner::verify_message_byte` of a message with the signature record `tsig`: the times for which
the signature is valid. They are not compared with the clock. -/
def verifyMessageByte (signer : TSigner) (bytes : List UInt8) (tsig : TSig) : Except Str (ℕ × ℕ) :=
  match X.verifyMac signer bytes with
  | .error e => .error e
  | .ok () => .ok (tsig.time - tsig.fudge, tsig.time + tsig.fudge)

/-- The key of a name among the configured ones. -/
def findKey (keys : List TsigKey) (name : Name) : Option TsigKey :=
  keys.find? fun k => toAsciiLowercase (trimEndMatches '.' k.name) == nameKey K name

/-- `verify_request`: the name of the key. -/
def verifyRequest (keys : List TsigKey) (bytes : List UInt8) (tsig : TSig) : Except Str Str :=
  match findKey K keys tsig.name with
  | none => .error ("unknown TSIG key: ".toList ++ tsig.name.toText K)
  | some key =>
    match buildSigner K X key with
    | .error e => .error e
    | .ok signer =>
      match verifyMessageByte X signer bytes tsig with
      | .error e => .error ("TSIG verification failed: ".toList ++ e)
      | .ok _ => .ok key.name

/-! ## Requests -/

/-- How a request came in. -/
inductive Protocol
  | Udp | Tcp | Tls | Https | Quic | H3
deriving DecidableEq

/-- A request for a transfer: its signature, if it has one, and its bytes. -/
structure AxfrRequest where
  protocol : Protocol
  qname : Name
  client : IpAddr
  signature : Option TSig
  bytes : List UInt8
deriving DecidableEq

/-- How a request ends: it is turned away, or the store is asked for the zone. -/
inductive AxfrOutcome
  | turnedAway
  | looked (records : Option (List Record))

/-- What is answered: the records, or a response code. -/
def AxfrOutcome.answer : AxfrOutcome → Except ResponseCode (List Record)
  | .turnedAway => .error .Refused
  | .looked none => .error .Refused
  | .looked (some records) => .ok records

/-- `axfr_allowed`. -/
def axfrAllowed (settings : Settings) (ip : IpAddr) : Bool :=
  (settings.allowAxfrFrom.filterMap K.parseIpNet).any (·.contains ip)

/-- Whether a request has a signature that verifies. -/
def signatureOk (keys : List TsigKey) (req : AxfrRequest) : Bool :=
  match req.signature with
  | some tsig => (verifyRequest K X keys req.bytes tsig).isOk
  | none => false

/-- `handle_axfr`. The map of records is iterated in some order `entries`. -/
def handleAxfr (settings : Settings) (store : ZoneStore)
    (entries : StoredZone → List (Str × List StoredRecord)) (req : AxfrRequest) : AxfrOutcome :=
  if req.protocol = .Udp then .turnedAway
  else if !axfrAllowed K settings req.client then .turnedAway
  else if settings.axfrRequireTsig && !signatureOk K X settings.tsigKeys req then .turnedAway
  else .looked (store.axfr K entries req.qname req.client)

/-! ## Which requests are protected against replay -/

/-- The signature was made with a configured key, at a time that is within the fudge of `now`. -/
def SignedAt (settings : Settings) (now : ℕ) (req : AxfrRequest) : Prop :=
  ∃ tsig key signer, req.signature = some tsig ∧ key ∈ settings.tsigKeys ∧
    toAsciiLowercase (trimEndMatches '.' key.name) = nameKey K tsig.name ∧
    buildSigner K X key = .ok signer ∧ X.verifyMac signer req.bytes = .ok () ∧
    now ≤ tsig.time + fudge ∧ tsig.time ≤ now + fudge

/-- The store is asked at `now` only for a request that was signed then. -/
def ReplayProtected (settings : Settings) (store : ZoneStore)
    (entries : StoredZone → List (Str × List StoredRecord)) (now : ℕ) (req : AxfrRequest) : Prop :=
  ∀ records, handleAxfr K X settings store entries req = .looked records →
    SignedAt K X settings now req

variable {K X} {settings : Settings}

/-- A signature that verifies was made with a configured key. -/
lemma verifyRequest_ok {keys : List TsigKey} {bytes : List UInt8} {tsig : TSig}
    (h : (verifyRequest K X keys bytes tsig).isOk = true) :
    ∃ key ∈ keys, toAsciiLowercase (trimEndMatches '.' key.name) = nameKey K tsig.name ∧
      ∃ signer, buildSigner K X key = .ok signer ∧ X.verifyMac signer bytes = .ok () := by
  unfold verifyRequest at h
  cases hkey : findKey K keys tsig.name with
  | none =>
    rw [hkey] at h
    cases h
  | some key =>
    rw [hkey] at h
    dsimp only at h
    have hmem : key ∈ keys := List.mem_of_find?_eq_some hkey
    have hname : toAsciiLowercase (trimEndMatches '.' key.name) = nameKey K tsig.name := by
      simpa using List.find?_some hkey
    cases hsigner : buildSigner K X key with
    | error e =>
      rw [hsigner] at h
      cases h
    | ok signer =>
      rw [hsigner] at h
      unfold verifyMessageByte at h
      dsimp only at h
      cases hmac : X.verifyMac signer bytes with
      | error e =>
        rw [hmac] at h
        cases h
      | ok u => exact ⟨key, hmem, hname, signer, hsigner, hmac⟩

/-- When the store is asked. -/
lemma handleAxfr_looked_iff (store : ZoneStore)
    (entries : StoredZone → List (Str × List StoredRecord)) (req : AxfrRequest)
    (hrequired : settings.axfrRequireTsig = true) :
    (∃ records, handleAxfr K X settings store entries req = .looked records) ↔
      req.protocol ≠ .Udp ∧ axfrAllowed K settings req.client = true ∧
        signatureOk K X settings.tsigKeys req = true := by
  unfold handleAxfr
  rw [hrequired]
  by_cases hudp : req.protocol = .Udp
  · simp [hudp]
  · by_cases hallowed : axfrAllowed K settings req.client = true
    · by_cases hsigned : signatureOk K X settings.tsigKeys req = true
      · simp [hudp, hallowed, hsigned]
      · simp [hudp, hallowed, hsigned]
    · simp [hudp, hallowed]

/-- With signatures required, a request is protected against replay exactly when it comes over UDP, or
from a client that is not allowed, or its signature does not verify, or the time of its signature is
within the fudge of the clock. -/
theorem replayProtected_iff (K : Crates) (X : TransferCrates) (settings : Settings)
    (hrequired : settings.axfrRequireTsig = true) (store : ZoneStore)
    (entries : StoredZone → List (Str × List StoredRecord)) (now : ℕ) (req : AxfrRequest) :
    ReplayProtected K X settings store entries now req ↔
      req.protocol = .Udp ∨ axfrAllowed K settings req.client = false ∨
        ∀ tsig, req.signature = some tsig →
          (verifyRequest K X settings.tsigKeys req.bytes tsig).isOk = true →
          now ≤ tsig.time + fudge ∧ tsig.time ≤ now + fudge := by
  have hlooked := handleAxfr_looked_iff (K := K) (X := X) store entries req hrequired
  constructor
  · intro h
    by_cases hudp : req.protocol = .Udp
    · exact .inl hudp
    cases hallowed : axfrAllowed K settings req.client with
    | false => exact .inr (.inl rfl)
    | true =>
      refine .inr (.inr fun tsig hsig hok => ?_)
      have hsigned : signatureOk K X settings.tsigKeys req = true := by
        unfold signatureOk
        rw [hsig]
        exact hok
      obtain ⟨records, hrecords⟩ := hlooked.mpr ⟨hudp, hallowed, hsigned⟩
      obtain ⟨tsig', -, -, hsig', -, -, -, -, hwithin⟩ := h records hrecords
      cases hsig.symm.trans hsig'
      exact hwithin
  · intro h records hrecords
    obtain ⟨hudp, hallowed, hsigned⟩ := hlooked.mp ⟨records, hrecords⟩
    unfold signatureOk at hsigned
    cases hsig : req.signature with
    | none =>
      rw [hsig] at hsigned
      cases hsigned
    | some tsig =>
      rw [hsig] at hsigned
      obtain ⟨key, hkey, hname, signer, hsigner, hmac⟩ := verifyRequest_ok hsigned
      refine ⟨tsig, key, signer, hsig, hkey, hname, hsigner, hmac, ?_⟩
      rcases h with hudp' | hnot | hwithin
      · exact absurd hudp' hudp
      · rw [hallowed] at hnot
        cases hnot
      · exact hwithin tsig hsig hsigned

/-- A key of 32 zero bytes. -/
def xferKey : TsigKey :=
  ⟨"xfer.key.", "hmac-sha256", "AAAAAAAAAAAAAAAAAAAAAAAAAAAAAAAAAAAAAAAAAAA="⟩

/-- Crates that read the key and a network of secondaries. -/
def xferCrates : Crates :=
  { plainCrates with
    parseIpNet := fun cidr => if cidr = "10.0.0.0/8".toList then some ⟨.v4 0x0a000000, 8⟩ else none
    decodeBase64 := fun text =>
      if text = xferKey.secret then some (List.replicate 32 0) else none }

/-- The bytes of a message that was signed with the key. -/
def xferBytes : List UInt8 :=
  [0x04, 0xd2, 0x00, 0x00, 0x00, 0x01]

/-- Crates for which this is the message that was signed. -/
def xferSigners : TransferCrates where
  toTsigCrates := Api.plainTsig
  verifyMac signer bytes :=
    if signer.key = List.replicate 32 0 ∧ bytes = xferBytes then .ok () else .error "bad MAC"

/-- Settings that require the key of a secondary in the network. -/
def xferSettings : Settings :=
  { Settings.default with
    allowAxfrFrom := ["10.0.0.0/8"], tsigKeys := [xferKey], axfrRequireTsig := true }

/-- A transfer requested at a time. -/
def xferRequest (time : ℕ) : AxfrRequest :=
  ⟨.Tcp, .ofPlain "home.lan", .v4 0x0a000005, some ⟨.ofPlain "xfer.key", time, fudge⟩, xferBytes⟩

/-- A request that comes in four minutes after it was signed is served, and is protected. -/
theorem replayProtected_fresh :
    signatureOk xferCrates xferSigners xferSettings.tsigKeys (xferRequest 1000) = true ∧
      ReplayProtected xferCrates xferSigners xferSettings (homeStore []) (fun _ => []) 1240
        (xferRequest 1000) := by
  refine ⟨by decide +kernel, ?_⟩
  refine (replayProtected_iff xferCrates xferSigners xferSettings rfl (homeStore []) (fun _ => []) 1240
    (xferRequest 1000)).mpr (.inr (.inr fun tsig hsig _ => ?_))
  cases hsig
  decide

/-- The same request a day later asks the store again. -/
theorem replayed_request_served :
    ¬ ReplayProtected xferCrates xferSigners xferSettings (homeStore []) (fun _ => []) 87400
      (xferRequest 1000) := by
  intro h
  have hrequired : xferSettings.axfrRequireTsig = true := rfl
  obtain ⟨records, hrecords⟩ := (handleAxfr_looked_iff (K := xferCrates) (X := xferSigners)
    (homeStore []) (fun _ => []) (xferRequest 1000) hrequired).mpr (by decide +kernel)
  obtain ⟨tsig, key, signer, hsig, -, -, -, -, hlate, -⟩ := h records hrecords
  cases hsig
  revert hlate
  decide

end Nomina
