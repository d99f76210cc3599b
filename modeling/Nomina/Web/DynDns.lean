import Nomina.State

/-!
# DynDNS updates

`nic_update` of `web/dyndns.rs`: authentication with a token, the addresses and host names of the
request, the updates, one reload at the end if anything changed, and the note in the token.
-/

namespace Nomina

open Lib

variable (K : Crates)

/-! ## The request -/

/-- A request: the `Authorization` header, the address of the peer and the query parameters. -/
structure NicRequest where
  authorization : Option Str
  peer : IpAddr
  params : List (Str × Str)
deriving DecidableEq

/-- A response in plain text. -/
structure NicResponse where
  status : ℕ
  body : Str
deriving DecidableEq

/-- A query parameter. -/
def NicRequest.param (req : NicRequest) (key : Str) : Option Str :=
  req.params.lookup key

/-- `basic_auth`: user and password of a Basic authorization. -/
def basicAuth (req : NicRequest) : Option (Str × Str) := do
  let raw ← req.authorization
  let encoded ← (stripPrefix raw "Basic ").or (stripPrefix raw "basic ")
  let decoded ← K.decodeBase64 (trim encoded)
  let s ← utf8 decoded
  splitOnce ':' s

/-- Take an address as that of its family, unless the family has one. -/
def takeAddress (found : Option IpAddr × Option IpAddr) (ip : IpAddr) :
    Option IpAddr × Option IpAddr :=
  match ip with
  | .v4 _ => (found.1.or (some ip), found.2)
  | .v6 _ => (found.1, found.2.or (some ip))

/-- The addresses to set, at most one of each family: those of the parameters `myip`, `myipv6` and
`ip`, else the address of the peer. -/
def requestAddrs (req : NicRequest) : List IpAddr :=
  let given := ["myip".toList, "myipv6".toList, "ip".toList].filterMap req.param
  let ips := (given.flatMap (split ',')).filterMap fun tok => parseIpAddr (trim tok)
  let found := ips.foldl takeAddress (none, none)
  let found := if found = (none, none) then takeAddress found req.peer else found
  found.1.toList ++ found.2.toList

/-- The host names to update, folded; `none` if there are none. -/
def requestHosts (req : NicRequest) : Option (List Str) :=
  ((req.param "hostname").or (req.param "host")).bind fun h =>
    match (split ',' h).map (fun s => Db.foldHost (trim s)) |>.filter (!·.isEmpty) with
    | [] => none
    | hosts => some hosts

/-! ## The updates -/

/-- What the updates of one host did. -/
structure HostOutcome where
  changed : Bool
  hadZone : Bool
deriving DecidableEq

/-- Note the outcome of one update. -/
def HostOutcome.note (o : HostOutcome) : Db.DynUpdate → HostOutcome
  | .Created | .Updated => ⟨true, true⟩
  | .Unchanged => ⟨o.changed, true⟩
  | .NoZone => o

/-- The inner loop: set every address for a host; `none` when a database call failed. -/
def updateHost (token : DynDnsToken) (host : Str) : List IpAddr → HostOutcome →
    App (Option HostOutcome)
  | [], o => pure (some o)
  | ip :: ips, o => do
    match ← tryDb (Db.dyndnsSetAddress host ip token.viewId token.ttl) with
    | .error _ => pure none
    | .ok u => updateHost token host ips (o.note u)

/-- The line of the answer for a host. -/
def hostLine (label : Str) (o : HostOutcome) : Str :=
  if !o.hadZone then "nohost"
  else if o.changed then "good ".toList ++ label
  else "nochg ".toList ++ label

/-- What the updates of all hosts did: the lines of the answer, and whether anything changed. -/
structure NicOutcome where
  lines : List Str
  anyChange : Bool
deriving DecidableEq

/-- Note the outcome of one host. -/
def NicOutcome.note (o : NicOutcome) (label : Str) (h : HostOutcome) : NicOutcome :=
  ⟨o.lines ++ [hostLine label h], o.anyChange || (h.hadZone && h.changed)⟩

/-- The outer loop over the host names; a token may only update those it owns. -/
def updateHosts (token : DynDnsToken) (addrs : List IpAddr) (label : Str) : List Str →
    NicOutcome → App (Option NicOutcome)
  | [], o => pure (some o)
  | host :: hosts, o =>
    if (Db.splitHostnames token.hostnames).contains host then do
      match ← updateHost token host addrs ⟨false, false⟩ with
      | none => pure none
      | some h => updateHosts token addrs label hosts (o.note label h)
    else updateHosts token addrs label hosts (o.note label ⟨false, false⟩)

/-! ## The handler -/

/-- The reload at the end. -/
def reloadWhen (b : Bool) : App Unit :=
  if b then reloadStore K else pure ()

/-- The addresses as the answer shows them. -/
def addrLabel (req : NicRequest) : Str :=
  join [','] ((requestAddrs req).map fmtIpAddr)

/-- The end of the updates: a failure is answered at once, a change is followed by a reload. -/
def finishUpdates (token : DynDnsToken) :
    Option NicOutcome → App (Except NicResponse (DynDnsToken × NicOutcome))
  | none => pure (.error ⟨500, "911"⟩)
  | some o => do
    reloadWhen K o.anyChange
    pure (.ok (token, o))

/-- The updates of an authenticated request, with the reload. -/
def applyUpdates (req : NicRequest) (token : DynDnsToken) (hosts : List Str) :
    App (Except NicResponse (DynDnsToken × NicOutcome)) := do
  let outcome ← updateHosts token (requestAddrs req) (addrLabel req) hosts ⟨[], false⟩
  finishUpdates K token outcome

/-- The part of `nic_update` after authentication, but for the note in the token. -/
def serveUpdates (req : NicRequest) (token : DynDnsToken) :
    App (Except NicResponse (DynDnsToken × NicOutcome)) :=
  match requestHosts req with
  | none => pure (.error ⟨400, "notfqdn"⟩)
  | some hosts => applyUpdates K req token hosts

/-- The token that a user and password belong to. -/
def authenticate (user pass : Str) : App (Except NicResponse DynDnsToken) := do
  match ← tryDb (Db.dyndnsAuth user) with
  | .error _ => pure (.error ⟨500, "911"⟩)
  | .ok none => pure (.error ⟨401, "badauth"⟩)
  | .ok (some token) =>
    if token.enabled && K.verifyPassword pass token.secretHash then pure (.ok token)
    else pure (.error ⟨401, "badauth"⟩)

/-- `nic_update` up to the reload: the token and what was done, or the response to an error. -/
def nicUpdates (req : NicRequest) : App (Except NicResponse (DynDnsToken × NicOutcome)) :=
  match basicAuth K req with
  | none => pure (.error ⟨401, "badauth"⟩)
  | some (user, pass) => do
    match ← authenticate K user pass with
    | .error response => pure (.error response)
    | .ok token => serveUpdates K req token

/-- `nic_update`: at the end the update is noted in the token, whatever comes of that. -/
def nicUpdate (req : NicRequest) : App NicResponse := do
  match ← nicUpdates K req with
  | .error response => pure response
  | .ok (token, o) => do
    let _ ← tryDb (Db.touchDyndnsToken token.id (addrLabel req))
    pure ⟨200, join ['\n'] o.lines⟩

end Nomina
