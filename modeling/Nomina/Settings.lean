import Nomina.Models

/-!
# Settings

The settings of the server with their defaults, and the request that changes some of them. The
fields are enumerated by `SettingsField`, so that a statement about all fields need not list them:
`Settings.get` and `SettingsUpdate.value` read a field, and `get_merge` is all that is used of the
merge.
-/

namespace Nomina

open Lib

/-- How a forwarder is reached. -/
inductive ForwardProtocol
  | Udp | Tcp | Tls | Https
deriving DecidableEq

/-- An upstream resolver. -/
structure Forwarder where
  addr : Str
  protocol : ForwardProtocol
  port : ℕ
  tlsName : Option Str
deriving DecidableEq

/-- How names outside the local zones are resolved. -/
inductive ResolutionMode
  | Forward | Recursive | Off
deriving DecidableEq

/-- How the address records of an answer are ordered. -/
inductive LoadBalance
  | Off | RoundRobin | Random
deriving DecidableEq

/-- What a blocked name is answered with. -/
inductive BlockMode
  | NxDomain | ZeroIp | Refused
deriving DecidableEq

/-- Protection against lookalike names. -/
inductive HomographMode
  | Off | Mixed | AllIdn
deriving DecidableEq

/-- How much of each query is retained. -/
inductive QueryLog
  | Off | Anonymized | Full
deriving DecidableEq

/-- A TSIG key. -/
structure TsigKey where
  name : Str
  algorithm : Str
  secret : Str
deriving DecidableEq

/-- The settings. -/
structure Settings where
  forwarders : List Forwarder
  resolutionMode : ResolutionMode
  blockMode : BlockMode
  blockingEnabled : Bool
  queryLog : QueryLog
  homographProtection : HomographMode
  cacheSize : ℕ
  cacheMinTtl : ℕ
  cacheMaxTtl : ℕ
  dnssecValidateUpstream : Bool
  allowAxfrFrom : List Str
  tsigKeys : List TsigKey
  axfrRequireTsig : Bool
  loadBalance : LoadBalance
  blockedAsns : List ℕ
  mdnsEnabled : Bool
  mdnsZone : Str
  mdnsTtl : ℕ
  mdnsPublishPublic : Bool
  dnsListen : List Str
  dotListen : List Str
  dohListen : List Str
  doqListen : List Str
  doh3Listen : List Str
  dohPath : Str
  tcpTimeoutSecs : ℕ
  tlsHostname : Str
  tlsAcme : Bool
  tlsAcmeDomains : List Str
  tlsAcmeContact : Str
  tlsAcmeStaging : Bool
  tlsCertPath : Str
  tlsKeyPath : Str
  tlsAutoSelfSigned : Option Bool
  geoipDb : Str
  asnDb : Str
  webAllowNetworks : List Str
  blocklistRefreshHours : ℕ
deriving DecidableEq

/-- `Settings::default`. -/
def Settings.default : Settings where
  forwarders := [⟨"1.1.1.1", .Udp, 53, none⟩, ⟨"9.9.9.9", .Udp, 53, none⟩]
  resolutionMode := .Forward
  blockMode := .NxDomain
  blockingEnabled := true
  queryLog := .Off
  homographProtection := .Off
  cacheSize := 1024
  cacheMinTtl := 0
  cacheMaxTtl := 86400
  dnssecValidateUpstream := false
  allowAxfrFrom := []
  tsigKeys := []
  axfrRequireTsig := false
  loadBalance := .Off
  blockedAsns := []
  mdnsEnabled := false
  mdnsZone := []
  mdnsTtl := 120
  mdnsPublishPublic := false
  dnsListen := []
  dotListen := []
  dohListen := []
  doqListen := []
  doh3Listen := []
  dohPath := []
  tcpTimeoutSecs := 0
  tlsHostname := []
  tlsAcme := false
  tlsAcmeDomains := []
  tlsAcmeContact := []
  tlsAcmeStaging := false
  tlsCertPath := []
  tlsKeyPath := []
  tlsAutoSelfSigned := none
  geoipDb := []
  asnDb := []
  webAllowNetworks := []
  blocklistRefreshHours := 0

/-- The body of a request that changes settings: the fields that are present. -/
structure SettingsUpdate where
  forwarders : Option (List Forwarder) := none
  resolutionMode : Option ResolutionMode := none
  blockMode : Option BlockMode := none
  blockingEnabled : Option Bool := none
  queryLog : Option QueryLog := none
  homographProtection : Option HomographMode := none
  cacheSize : Option ℕ := none
  cacheMinTtl : Option ℕ := none
  cacheMaxTtl : Option ℕ := none
  dnssecValidateUpstream : Option Bool := none
  allowAxfrFrom : Option (List Str) := none
  tsigKeys : Option (List TsigKey) := none
  axfrRequireTsig : Option Bool := none
  loadBalance : Option LoadBalance := none
  blockedAsns : Option (List ℕ) := none
  mdnsEnabled : Option Bool := none
  mdnsZone : Option Str := none
  mdnsTtl : Option ℕ := none
  mdnsPublishPublic : Option Bool := none
  dnsListen : Option (List Str) := none
  dotListen : Option (List Str) := none
  dohListen : Option (List Str) := none
  doqListen : Option (List Str) := none
  doh3Listen : Option (List Str) := none
  dohPath : Option Str := none
  tcpTimeoutSecs : Option ℕ := none
  tlsHostname : Option Str := none
  tlsAcme : Option Bool := none
  tlsAcmeDomains : Option (List Str) := none
  tlsAcmeContact : Option Str := none
  tlsAcmeStaging : Option Bool := none
  tlsCertPath : Option Str := none
  tlsKeyPath : Option Str := none
  tlsAutoSelfSigned : Option Bool := none
  geoipDb : Option Str := none
  asnDb : Option Str := none
  webAllowNetworks : Option (List Str) := none
  blocklistRefreshHours : Option ℕ := none
deriving DecidableEq

/-- The fields of the settings. -/
inductive SettingsField
  | forwarders | resolutionMode | blockMode | blockingEnabled | queryLog | homographProtection
  | cacheSize | cacheMinTtl | cacheMaxTtl | dnssecValidateUpstream | allowAxfrFrom | tsigKeys
  | axfrRequireTsig | loadBalance | blockedAsns | mdnsEnabled | mdnsZone | mdnsTtl
  | mdnsPublishPublic | dnsListen | dotListen | dohListen | doqListen | doh3Listen | dohPath
  | tcpTimeoutSecs | tlsHostname | tlsAcme | tlsAcmeDomains | tlsAcmeContact | tlsAcmeStaging
  | tlsCertPath | tlsKeyPath | tlsAutoSelfSigned | geoipDb | asnDb | webAllowNetworks
  | blocklistRefreshHours
deriving DecidableEq

/-- The type of a field. -/
def SettingsField.Value : SettingsField → Type
  | .forwarders => List Forwarder
  | .resolutionMode => ResolutionMode
  | .blockMode => BlockMode
  | .blockingEnabled => Bool
  | .queryLog => QueryLog
  | .homographProtection => HomographMode
  | .cacheSize => ℕ
  | .cacheMinTtl => ℕ
  | .cacheMaxTtl => ℕ
  | .dnssecValidateUpstream => Bool
  | .allowAxfrFrom => List Str
  | .tsigKeys => List TsigKey
  | .axfrRequireTsig => Bool
  | .loadBalance => LoadBalance
  | .blockedAsns => List ℕ
  | .mdnsEnabled => Bool
  | .mdnsZone => Str
  | .mdnsTtl => ℕ
  | .mdnsPublishPublic => Bool
  | .dnsListen => List Str
  | .dotListen => List Str
  | .dohListen => List Str
  | .doqListen => List Str
  | .doh3Listen => List Str
  | .dohPath => Str
  | .tcpTimeoutSecs => ℕ
  | .tlsHostname => Str
  | .tlsAcme => Bool
  | .tlsAcmeDomains => List Str
  | .tlsAcmeContact => Str
  | .tlsAcmeStaging => Bool
  | .tlsCertPath => Str
  | .tlsKeyPath => Str
  | .tlsAutoSelfSigned => Option Bool
  | .geoipDb => Str
  | .asnDb => Str
  | .webAllowNetworks => List Str
  | .blocklistRefreshHours => ℕ

/-- A field of the settings. -/
def Settings.get (s : Settings) : (f : SettingsField) → f.Value
  | .forwarders => s.forwarders
  | .resolutionMode => s.resolutionMode
  | .blockMode => s.blockMode
  | .blockingEnabled => s.blockingEnabled
  | .queryLog => s.queryLog
  | .homographProtection => s.homographProtection
  | .cacheSize => s.cacheSize
  | .cacheMinTtl => s.cacheMinTtl
  | .cacheMaxTtl => s.cacheMaxTtl
  | .dnssecValidateUpstream => s.dnssecValidateUpstream
  | .allowAxfrFrom => s.allowAxfrFrom
  | .tsigKeys => s.tsigKeys
  | .axfrRequireTsig => s.axfrRequireTsig
  | .loadBalance => s.loadBalance
  | .blockedAsns => s.blockedAsns
  | .mdnsEnabled => s.mdnsEnabled
  | .mdnsZone => s.mdnsZone
  | .mdnsTtl => s.mdnsTtl
  | .mdnsPublishPublic => s.mdnsPublishPublic
  | .dnsListen => s.dnsListen
  | .dotListen => s.dotListen
  | .dohListen => s.dohListen
  | .doqListen => s.doqListen
  | .doh3Listen => s.doh3Listen
  | .dohPath => s.dohPath
  | .tcpTimeoutSecs => s.tcpTimeoutSecs
  | .tlsHostname => s.tlsHostname
  | .tlsAcme => s.tlsAcme
  | .tlsAcmeDomains => s.tlsAcmeDomains
  | .tlsAcmeContact => s.tlsAcmeContact
  | .tlsAcmeStaging => s.tlsAcmeStaging
  | .tlsCertPath => s.tlsCertPath
  | .tlsKeyPath => s.tlsKeyPath
  | .tlsAutoSelfSigned => s.tlsAutoSelfSigned
  | .geoipDb => s.geoipDb
  | .asnDb => s.asnDb
  | .webAllowNetworks => s.webAllowNetworks
  | .blocklistRefreshHours => s.blocklistRefreshHours

/-- The form in which the mDNS zone is stored. -/
def mdnsZoneText (v : Str) : Str :=
  toAsciiLowercase (trimEndMatches '.' (trim v))

/-- The TTL of mDNS records is at least one second. -/
def mdnsTtlValue (v : ℕ) : ℕ :=
  max v 1

/-- The form in which the ACME domains are stored. -/
def acmeDomains (v : List Str) : List Str :=
  (v.map trim).filter fun d => !d.isEmpty

/-- The in-memory merge of `put_settings`: the fields of the request over those of the settings. -/
def SettingsUpdate.merge (u : SettingsUpdate) (s : Settings) : Settings where
  forwarders := u.forwarders.getD s.forwarders
  resolutionMode := u.resolutionMode.getD s.resolutionMode
  blockMode := u.blockMode.getD s.blockMode
  blockingEnabled := u.blockingEnabled.getD s.blockingEnabled
  queryLog := u.queryLog.getD s.queryLog
  homographProtection := u.homographProtection.getD s.homographProtection
  cacheSize := u.cacheSize.getD s.cacheSize
  cacheMinTtl := u.cacheMinTtl.getD s.cacheMinTtl
  cacheMaxTtl := u.cacheMaxTtl.getD s.cacheMaxTtl
  dnssecValidateUpstream := u.dnssecValidateUpstream.getD s.dnssecValidateUpstream
  allowAxfrFrom := u.allowAxfrFrom.getD s.allowAxfrFrom
  tsigKeys := u.tsigKeys.getD s.tsigKeys
  axfrRequireTsig := u.axfrRequireTsig.getD s.axfrRequireTsig
  loadBalance := u.loadBalance.getD s.loadBalance
  blockedAsns := u.blockedAsns.getD s.blockedAsns
  mdnsEnabled := u.mdnsEnabled.getD s.mdnsEnabled
  mdnsZone := (u.mdnsZone.map mdnsZoneText).getD s.mdnsZone
  mdnsTtl := (u.mdnsTtl.map mdnsTtlValue).getD s.mdnsTtl
  mdnsPublishPublic := u.mdnsPublishPublic.getD s.mdnsPublishPublic
  dnsListen := u.dnsListen.getD s.dnsListen
  dotListen := u.dotListen.getD s.dotListen
  dohListen := u.dohListen.getD s.dohListen
  doqListen := u.doqListen.getD s.doqListen
  doh3Listen := u.doh3Listen.getD s.doh3Listen
  dohPath := (u.dohPath.map trim).getD s.dohPath
  tcpTimeoutSecs := u.tcpTimeoutSecs.getD s.tcpTimeoutSecs
  tlsHostname := (u.tlsHostname.map trim).getD s.tlsHostname
  tlsAcme := u.tlsAcme.getD s.tlsAcme
  tlsAcmeDomains := (u.tlsAcmeDomains.map acmeDomains).getD s.tlsAcmeDomains
  tlsAcmeContact := (u.tlsAcmeContact.map trim).getD s.tlsAcmeContact
  tlsAcmeStaging := u.tlsAcmeStaging.getD s.tlsAcmeStaging
  tlsCertPath := (u.tlsCertPath.map trim).getD s.tlsCertPath
  tlsKeyPath := (u.tlsKeyPath.map trim).getD s.tlsKeyPath
  tlsAutoSelfSigned := (u.tlsAutoSelfSigned.map some).getD s.tlsAutoSelfSigned
  geoipDb := (u.geoipDb.map trim).getD s.geoipDb
  asnDb := (u.asnDb.map trim).getD s.asnDb
  webAllowNetworks := u.webAllowNetworks.getD s.webAllowNetworks
  blocklistRefreshHours := u.blocklistRefreshHours.getD s.blocklistRefreshHours

/-- The value a request gives a field, if it is present. -/
def SettingsUpdate.value (u : SettingsUpdate) : (f : SettingsField) → Option f.Value
  | .forwarders => u.forwarders
  | .resolutionMode => u.resolutionMode
  | .blockMode => u.blockMode
  | .blockingEnabled => u.blockingEnabled
  | .queryLog => u.queryLog
  | .homographProtection => u.homographProtection
  | .cacheSize => u.cacheSize
  | .cacheMinTtl => u.cacheMinTtl
  | .cacheMaxTtl => u.cacheMaxTtl
  | .dnssecValidateUpstream => u.dnssecValidateUpstream
  | .allowAxfrFrom => u.allowAxfrFrom
  | .tsigKeys => u.tsigKeys
  | .axfrRequireTsig => u.axfrRequireTsig
  | .loadBalance => u.loadBalance
  | .blockedAsns => u.blockedAsns
  | .mdnsEnabled => u.mdnsEnabled
  | .mdnsZone => u.mdnsZone.map mdnsZoneText
  | .mdnsTtl => u.mdnsTtl.map mdnsTtlValue
  | .mdnsPublishPublic => u.mdnsPublishPublic
  | .dnsListen => u.dnsListen
  | .dotListen => u.dotListen
  | .dohListen => u.dohListen
  | .doqListen => u.doqListen
  | .doh3Listen => u.doh3Listen
  | .dohPath => u.dohPath.map trim
  | .tcpTimeoutSecs => u.tcpTimeoutSecs
  | .tlsHostname => u.tlsHostname.map trim
  | .tlsAcme => u.tlsAcme
  | .tlsAcmeDomains => u.tlsAcmeDomains.map acmeDomains
  | .tlsAcmeContact => u.tlsAcmeContact.map trim
  | .tlsAcmeStaging => u.tlsAcmeStaging
  | .tlsCertPath => u.tlsCertPath.map trim
  | .tlsKeyPath => u.tlsKeyPath.map trim
  | .tlsAutoSelfSigned => u.tlsAutoSelfSigned.map some
  | .geoipDb => u.geoipDb.map trim
  | .asnDb => u.asnDb.map trim
  | .webAllowNetworks => u.webAllowNetworks
  | .blocklistRefreshHours => u.blocklistRefreshHours

/-- A field after the merge. -/
@[simp] lemma SettingsUpdate.get_merge (u : SettingsUpdate) (s : Settings) (f : SettingsField) :
    (u.merge s).get f = (u.value f).getD (s.get f) := by
  cases f <;> rfl

namespace SettingsUpdate

/-- The requests have no field in common. -/
def Disjoint (u v : SettingsUpdate) : Prop :=
  ∀ f, u.value f = none ∨ v.value f = none

/-- The settings have the values the request gives. -/
def Carried (u : SettingsUpdate) (s : Settings) : Prop :=
  ∀ f v, u.value f = some v → s.get f = v

variable {u v : SettingsUpdate} {s : Settings}

/-- The settings carry a request right after it was merged. -/
lemma carried_merge (u : SettingsUpdate) (s : Settings) : u.Carried (u.merge s) := by
  intro f x hx
  rw [get_merge, hx, Option.getD_some]

/-- A merge leaves the fields alone that another request has. -/
lemma Disjoint.get_merge_eq (h : u.Disjoint v) {f : SettingsField} {x : f.Value}
    (hx : u.value f = some x) : (v.merge s).get f = s.get f := by
  have hv : v.value f = none := by
    rcases h f with hu | hv
    · rw [hu] at hx
      cases hx
    · exact hv
  rw [get_merge, hv, Option.getD_none]

/-- Merging a request with other fields does not matter to what is carried. -/
lemma Disjoint.carried_merge_iff (h : u.Disjoint v) :
    u.Carried (v.merge s) ↔ u.Carried s := by
  constructor
  · intro hc f x hx
    rw [← h.get_merge_eq hx]
    exact hc f x hx
  · intro hc f x hx
    rw [h.get_merge_eq hx]
    exact hc f x hx

/-- Having no field in common is symmetric. -/
lemma Disjoint.symm (h : u.Disjoint v) : v.Disjoint u := by
  intro f
  exact (h f).symm

end SettingsUpdate

end Nomina
