import Mathlib.Data.List.Rotate
import Nomina.Dns.Cache
import Nomina.Dns.Dnssec
import Nomina.Dns.Filter
import Nomina.Lib.Prog
import Nomina.Stats

/-!
# Resolution

`resolve_query` of `dns/resolve.rs`, through which every transport resolves its queries, and the
worker of `main.rs` that resolves blocked domains in the background. A query is a program on the parts
of the shared state that queries change, given those they only read; it stops only by a panic.

What the upstream resolvers answer, the clock and the shuffling are the environment of a query. The
names handed to an upstream are recorded in the state, in the order in which they are asked.
-/

namespace Nomina

open Lib

/-! ## State and environment -/

/-- What the query path uses of its crates. -/
structure QueryCrates extends Crates where
  signing : SigningCrates
  scripts : ScriptCrates
  /-- `Name::parse_arpa_name`, as far as the address. -/
  arpaAddr : Name → Option IpAddr

/-- The GeoIP and ASN databases: whether there is a City database, and what is known of an
address. -/
structure GeoDb where
  hasGeoip : Bool
  lookup : IpAddr → ClientGeo

/-- `MdnsRegistry`: the addresses of the discovered hosts and when they expire. -/
structure MdnsRegistry where
  hosts : List (Str × List IpAddr × ℕ)

/-- A name and type handed to an upstream. -/
structure Asked where
  upstream : Upstream
  name : Name
  rtype : RecordType
deriving DecidableEq

/-- The parts of the shared state that queries only read. -/
structure Config where
  store : ZoneStore
  upstream : Option Upstream
  conditional : List ConditionalRule
  filter : FilterSet
  settings : Settings
  geo : GeoDb
  mdns : MdnsRegistry

/-- The parts of the shared state that queries and the worker change, and two histories beside it: the
puts stored in the cache, the last one first, and what the upstreams were asked. -/
structure Resolver where
  cache : DnsCache
  rrCounter : ℕ
  stats : Stats
  qlog : List RecentQuery
  blocked : List Str
  seen : List Str
  stored : List CachePut
  asked : List Asked

/-- The environment of a query: its moment, as the cache, the statistics, the log and the signatures
see it, the answers of the upstreams, and a shuffle. -/
structure Env where
  now : ℕ
  sec : ℕ
  time : Str
  unixTime : ℤ
  respond : Asked → CachedAnswer
  shuffle : List Record → List Record
  shuffle_perm : ∀ l, (shuffle l).Perm l

/-- A query with the client it comes from. -/
structure DnsQuery where
  qname : Name
  qtype : RecordType
  client : IpAddr
  dnssecOk : Bool
deriving DecidableEq

/-- `ResolveOutput`. -/
structure ResolveOutput where
  answers : List Record
  authority : List Record
  rcode : ResponseCode
  authoritative : Bool
  recursionAvailable : Bool
deriving DecidableEq

/-- A program of the query path; it stops only by a panic. -/
abbrev Query (α : Type) := EStateM Unit Resolver α

variable (X : QueryCrates) (C : Config) (E : Env)

/-- The text of a name without trailing dots. -/
def nameText (n : Name) : Str :=
  trimEndMatches '.' (n.toText X.toCrates)

/-- `same_name`. -/
def sameName (a b : Name) : Bool :=
  eqIgnoreAsciiCase (nameText X a) (nameText X b)

/-- `Upstream::resolve`. -/
def Upstream.resolve (up : Upstream) (name : Name) (rtype : RecordType) : Query CachedAnswer := do
  modify fun s => { s with asked := s.asked ++ [⟨up, name, rtype⟩] }
  return E.respond ⟨up, name, rtype⟩

/-! ## Statistics -/

/-- Change the statistics. -/
def onStats (f : Stats → Stats) : Query Unit :=
  modify fun s => { s with stats := f s.stats }

/-- `AppState::note_blocked_domain`: the queue holds 4096 domains, and takes no more. -/
def noteBlockedDomain (domain : Str) : Query Unit :=
  modify fun s => if s.blocked.length < 4096 then { s with blocked := s.blocked ++ [domain] } else s

/-- `AppState::log_query`: the queue holds 10000 entries, and takes no more. -/
def logQuery (entry : RecentQuery) : Query Unit :=
  modify fun s => if s.qlog.length < 10000 then { s with qlog := s.qlog ++ [entry] } else s

/-- The client and the domain of a blocked query are noted. -/
def noteBlocked (q : DnsQuery) : Query Unit := do
  onStats (·.recordBlockedClient q.client)
  noteBlockedDomain (nameText X q.qname)

/-- `Stats::record`, whose entry goes to the log. -/
def logStat (q : DnsQuery) (view : Option Str) (stat : QueryOutcome) (out : ResolveOutput) :
    Query Unit := do
  let s ← get
  let (entry, stats) := s.stats.record C.settings.queryLog q.client view (nameText X q.qname)
    q.qtype.toText stat out.rcode.toText E.sec E.time
  set { s with stats }
  match entry with
  | some entry => logQuery entry
  | none => return ()

/-- `record_stat`, which `resolve_query` also ends with. -/
def recordStat (q : DnsQuery) (view : Option Str) (stat : QueryOutcome) (out : ResolveOutput) :
    Query Unit := do
  if stat = .Blocked then noteBlocked X q
  logStat X C E q view stat out

/-! ## mDNS -/

/-- `MdnsRegistry::lookup`. -/
def MdnsRegistry.lookup (m : MdnsRegistry) (host : Str) (rtype : RecordType) (now : ℕ) :
    List IpAddr :=
  match m.hosts.lookup (toAsciiLowercase host) with
  | some (ips, expires) =>
    if now < expires then
      ips.filter fun ip => match rtype with
        | .A => isIpv4 ip
        | .AAAA => !isIpv4 ip
        | _ => true
    else []
  | none => []

/-- `MdnsRegistry::reverse`. -/
def MdnsRegistry.reverse (m : MdnsRegistry) (ip : IpAddr) (now : ℕ) : Option Str :=
  (m.hosts.find? fun h => now < h.2.2 && h.2.1.contains ip).map Prod.fst

/-- An address record. -/
def addressRecord (name : Name) (ttl : ℕ) : IpAddr → Record
  | .v4 ip => ⟨name, ttl, .a ip⟩
  | .v6 ip => ⟨name, ttl, .aaaa ip⟩

/-- `AppState::mdns_zone`. -/
def Config.mdnsZone (C : Config) : Option Str :=
  let z := mdnsZoneText C.settings.mdnsZone
  if z.isEmpty then none else some z

/-- The reverse part of `mdns_answer`. -/
def mdnsReverse (zone : Str) (qname : Name) (qtype : RecordType) :
    Option (List Record) :=
  if qtype = .PTR ∨ qtype = .ANY then do
    let ip ← X.arpaAddr qname
    let host ← C.mdns.reverse ip E.now
    match X.fromAscii (host ++ '.' :: zone ++ ['.']) with
    | .ok target => some [⟨qname, max C.settings.mdnsTtl 1, .ptr target⟩]
    | .error _ => none
  else none

/-- The forward part of `mdns_answer`. -/
def mdnsForward (zone : Str) (qname : Name) (qtype : RecordType) :
    Option (List Record) :=
  if qtype = .A ∨ qtype = .AAAA ∨ qtype = .ANY then do
    let label ← stripSuffix (nameKey X.toCrates qname) ('.' :: zone)
    if label.isEmpty || label.contains '.' then none
    else
      let answers :=
        (C.mdns.lookup label qtype E.now).map (addressRecord qname (max C.settings.mdnsTtl 1))
      if answers.isEmpty then none else some answers
  else none

/-- `mdns_answer`. -/
def mdnsAnswer (qname : Name) (qtype : RecordType) : Option (List Record) :=
  if C.settings.mdnsEnabled then do
    let zone ← C.mdnsZone
    (mdnsReverse X C E zone qname qtype).or (mdnsForward X C E zone qname qtype)
  else none

/-! ## Signed zones -/

/-- `ZoneStore::signer_for`. -/
def ZoneStore.signerFor (s : ZoneStore) (qname : Name) : Option ZoneSigner :=
  (s.zoneFor qname).bind StoredZone.signer

/-- The records synthesized at the apex of a signed zone: its DNSKEY and its NSEC3PARAM. -/
def apexAnswer (q : DnsQuery) : Option (List Record) :=
  if q.dnssecOk ∧ q.qtype = .DNSKEY then do
    let signer ← C.store.signerFor q.qname
    if sameName X q.qname signer.apex then some (signer.dnskeyRrset X.signing E.unixTime) else none
  else if q.dnssecOk ∧ q.qtype = .NSEC3PARAM then do
    let signer ← C.store.signerFor q.qname
    if signer.usesNsec3 && sameName X q.qname signer.apex then
      some (signer.nsec3paramRrset X.signing E.unixTime)
    else none
  else none

/-- `apply_dnssec`. -/
def applyDnssec (signer : ZoneSigner) (qname : Name) (outcome : Outcome)
    (out : ResolveOutput) : ResolveOutput :=
  let ttl := (out.authority.head?.map Record.ttl).getD 60
  match outcome with
  | .Authoritative =>
    { out with answers := signer.signRecords X.signing E.unixTime X.toCrates out.answers }
  | .NoData => { out with
      authority := signer.signRecords X.signing E.unixTime X.toCrates out.authority ++
        signer.denial X.signing E.unixTime qname (C.store.presentTypes X.toCrates qname) ttl }
  | .NxDomain => { out with
      rcode := .NoError
      authority := signer.signRecords X.signing E.unixTime X.toCrates out.authority ++
        signer.denial X.signing E.unixTime qname [] ttl }
  | .NotAuthoritative => out

/-! ## Load balancing -/

/-- Put the records of a group into the places of the records of their type. -/
def refill (rtype : RecordType) : List Record → List Record → List Record
  | [], _ => []
  | r :: rs, group =>
    if r.data.recordType = rtype then
      match group with
      | g :: group => g :: refill rtype rs group
      | [] => r :: refill rtype rs []
    else r :: refill rtype rs group

/-- Reorder the records of a type among themselves, if there are several. -/
def spread (reorder : List Record → List Record) (answers : List Record) (rtype : RecordType) :
    List Record :=
  let group := answers.filter fun r => r.data.recordType = rtype
  if group.length < 2 then answers else refill rtype answers (reorder group)

/-- `apply_load_balance`; the round-robin offset is only taken when it is needed. -/
def applyLoadBalance (answers : List Record) : Query (List Record) := do
  if answers.length < 2 then return answers
  else match C.settings.loadBalance with
    | .Off => return answers
    | .RoundRobin =>
      let s ← get
      set { s with rrCounter := s.rrCounter + 1 }
      return [.A, .AAAA].foldl (spread fun g => g.rotate (s.rrCounter % g.length)) answers
    | .Random => return [.A, .AAAA].foldl (spread E.shuffle) answers

section LoadBalance

variable {rtype : RecordType}

/-- The types of the answers stay in their places. -/
lemma map_recordType_refill {group : List Record} (hgroup : ∀ r ∈ group, r.data.recordType = rtype)
    (answers : List Record) :
    (refill rtype answers group).map (·.data.recordType) = answers.map (·.data.recordType) := by
  induction answers generalizing group with
  | nil => rfl
  | cons r rs ih =>
    unfold refill
    split
    · rename_i hr
      split
      · rename_i g group'
        obtain ⟨hg, hgroup'⟩ := List.forall_mem_cons.mp hgroup
        rw [List.map_cons, List.map_cons, ih hgroup', hg, hr]
      · rw [List.map_cons, List.map_cons, ih (by simp)]
    · rw [List.map_cons, List.map_cons, ih hgroup]

/-- The records that are put in stand for those of their type. -/
lemma refill_perm {answers group : List Record}
    (hlen : group.length = (answers.filter fun r => r.data.recordType = rtype).length) :
    (refill rtype answers group).Perm
      ((answers.filter fun r => ¬ r.data.recordType = rtype) ++ group) := by
  induction answers generalizing group with
  | nil =>
    have hnil : group = [] := List.length_eq_zero_iff.mp hlen
    rw [hnil]
    exact .refl _
  | cons r rs ih =>
    unfold refill
    by_cases hr : r.data.recordType = rtype
    · rw [List.filter_cons_of_pos (by simpa using hr), List.length_cons] at hlen
      rw [if_pos hr, List.filter_cons_of_neg (by simpa using hr)]
      match group, hlen with
      | g :: group, hlen =>
        exact ((ih (Nat.succ.inj hlen)).cons g).trans List.perm_middle.symm
    · rw [List.filter_cons_of_neg (by simpa using hr)] at hlen
      rw [if_neg hr, List.filter_cons_of_pos (by simpa using hr), List.cons_append]
      exact (ih hlen).cons r

/-- Reordering the records of a type keeps the records, and the types in their places. -/
lemma spread_spec {reorder : List Record → List Record} (hreorder : ∀ l, (reorder l).Perm l)
    (answers : List Record) (rtype : RecordType) :
    (spread reorder answers rtype).Perm answers ∧
      (spread reorder answers rtype).map (·.data.recordType) =
        answers.map (·.data.recordType) := by
  unfold spread
  dsimp only
  split
  · exact ⟨.refl _, rfl⟩
  · have hperm := hreorder (answers.filter fun r => r.data.recordType = rtype)
    constructor
    · refine (refill_perm hperm.length_eq).trans ((hperm.append_left _).trans ?_)
      refine List.perm_append_comm.trans ?_
      simpa using List.filter_append_perm (fun r : Record => decide (r.data.recordType = rtype)) answers
    · apply map_recordType_refill
      intro r hr
      simpa using (List.mem_filter.mp (hperm.mem_iff.mp hr)).2

/-- Load balancing keeps the records of an answer, and their types in their places; it changes
nothing but the round-robin counter. -/
lemma applyLoadBalance_run (C : Config) (E : Env) (answers : List Record) (s : Resolver) :
    ∃ answers' n, applyLoadBalance C E answers s = .ok answers' { s with rrCounter := n } ∧
      answers'.Perm answers ∧
        answers'.map (·.data.recordType) = answers.map (·.data.recordType) := by
  have hspread {reorder : List Record → List Record} (hreorder : ∀ l, (reorder l).Perm l) :
      ([.A, .AAAA].foldl (spread reorder) answers).Perm answers ∧
        ([.A, .AAAA].foldl (spread reorder) answers).map (·.data.recordType) =
          answers.map (·.data.recordType) := by
    obtain ⟨hp₁, ht₁⟩ := spread_spec hreorder answers .A
    obtain ⟨hp₂, ht₂⟩ := spread_spec hreorder (spread reorder answers .A) .AAAA
    exact ⟨hp₂.trans hp₁, ht₂.trans ht₁⟩
  unfold applyLoadBalance
  split
  · exact ⟨answers, s.rrCounter, rfl, .refl _, rfl⟩
  · cases C.settings.loadBalance with
    | Off => exact ⟨answers, s.rrCounter, rfl, .refl _, rfl⟩
    | RoundRobin => exact ⟨_, s.rrCounter + 1, rfl, hspread fun l => List.rotate_perm l _⟩
    | Random => exact ⟨_, s.rrCounter, rfl, hspread E.shuffle_perm⟩

end LoadBalance

/-! ## Names outside the local zones -/

/-- `block_answer`. -/
def blockAnswer (mode : BlockMode) (qname : Name) (qtype : RecordType) (recursionAvailable : Bool) :
    ResolveOutput :=
  match mode with
  | .NxDomain => ⟨[], [], .NXDomain, true, recursionAvailable⟩
  | .Refused => ⟨[], [], .Refused, false, recursionAvailable⟩
  | .ZeroIp =>
    ⟨(if qtype = .A ∨ qtype = .ANY then [⟨qname, 60, .a 0⟩] else []) ++
      (if qtype = .AAAA ∨ qtype = .ANY then [⟨qname, 60, .aaaa 0⟩] else []),
      [], .NoError, true, recursionAvailable⟩

/-- The answers to a rewritten name; a target name is resolved upstream when addresses are asked
for. -/
def rewriteRecords (qname : Name) (qtype : RecordType) : RewriteTarget → Query (List Record)
  | .ip (.v4 ip) => return if qtype = .A ∨ qtype = .ANY then [⟨qname, 300, .a ip⟩] else []
  | .ip (.v6 ip) => return if qtype = .AAAA ∨ qtype = .ANY then [⟨qname, 300, .aaaa ip⟩] else []
  | .name target => do
    match C.upstream with
    | some up =>
      if qtype = .A ∨ qtype = .AAAA then
        return ⟨qname, 300, .cname target⟩ :: (← up.resolve E target qtype).answers
      else return [⟨qname, 300, .cname target⟩]
    | none => return [⟨qname, 300, .cname target⟩]

/-- `rewrite_answer`. -/
def rewriteAnswer (qname : Name) (qtype : RecordType) (target : RewriteTarget)
    (recursionAvailable : Bool) : Query (ResolveOutput × QueryOutcome) := do
  let answers ← rewriteRecords C E qname qtype target
  return (⟨answers, [], .NoError, true, recursionAvailable⟩, .Rewritten)

/-- How the answer of an upstream is counted. -/
def upstreamOutcome : ResponseCode → QueryOutcome
  | .NXDomain => .NxDomain
  | .ServFail => .ServFail
  | _ => .Forwarded

/-- A failure while validation is enabled is counted as a rejected answer. -/
def noteValidation (r : CachedAnswer) : Query Unit :=
  if r.rcode = .ServFail ∧ C.settings.dnssecValidateUpstream = true then
    onStats Stats.recordDnssecFailure
  else return ()

/-- The answer of an upstream as the output. -/
def CachedAnswer.output (r : CachedAnswer) (recursionAvailable : Bool) : ResolveOutput :=
  ⟨r.answers, r.authority, r.rcode, false, recursionAvailable⟩

/-- `cache.get`. -/
def cacheGet (qname : Name) (qtype : RecordType) : Query (Option CachedAnswer) := do
  let s ← get
  let (hit, cache) := s.cache.get X.toCrates qname qtype E.now
  set { s with cache }
  return hit

/-- `cache.put`. -/
def cachePut (qname : Name) (qtype : RecordType) (r : CachedAnswer) : Query Unit := do
  let s ← get
  let p : CachePut := ⟨qname, qtype, r.answers, r.authority, r.rcode, E.now⟩
  match s.cache.put X.toCrates p with
  | some cache =>
    set { s with cache, stored := if s.cache.stores p then p :: s.stored else s.stored }
  | none => throw ()

/-- The end of `resolve_external`: the global resolver behind the edge cache. -/
def resolveGlobal (qname : Name) (qtype : RecordType) (recursionAvailable : Bool) :
    Query (ResolveOutput × QueryOutcome) := do
  match C.upstream with
  | some up =>
    match ← cacheGet X E qname qtype with
    | some c => return (c.output recursionAvailable, .Cached)
    | none =>
      let r ← up.resolve E qname qtype
      noteValidation C r
      cachePut X E qname qtype r
      return (r.output recursionAvailable, upstreamOutcome r.rcode)
  | none => return (⟨[], [], .Refused, false, recursionAvailable⟩, .Refused)

/-- The forwarding part of `resolve_external`: a conditional forwarder comes before the global
resolver. -/
def forward (qname : Name) (qtype : RecordType) (recursionAvailable : Bool) :
    Query (ResolveOutput × QueryOutcome) := do
  match matchFor C.conditional (nameKey X.toCrates qname) with
  | some up =>
    let r ← up.resolve E qname qtype
    noteValidation C r
    return (r.output true, upstreamOutcome r.rcode)
  | none => resolveGlobal X C E qname qtype recursionAvailable

/-- `resolve_external`. -/
def resolveExternal (qname : Name) (qtype : RecordType) (recursionAvailable : Bool) :
    Query (ResolveOutput × QueryOutcome) := do
  let key := nameKey X.toCrates qname
  match C.filter.decide key with
  | .rewrite target => rewriteAnswer C E qname qtype target recursionAvailable
  | .block =>
    match C.filter.blocklistHit key with
    | some id => onStats (·.recordBlocklistHit id)
    | none => pure ()
    return (blockAnswer C.settings.blockMode qname qtype recursionAvailable, .Blocked)
  | .allow => forward X C E qname qtype recursionAvailable
  | .pass =>
    if isSuspicious X.scripts key C.settings.homographProtection then
      return (blockAnswer C.settings.blockMode qname qtype recursionAvailable, .Dangerous)
    else forward X C E qname qtype recursionAvailable

/-! ## Queries -/

/-- Whether the client is in a blocked autonomous system. -/
def Config.asnBlocked (C : Config) (client : IpAddr) : Bool :=
  (C.geo.lookup client).asn.any C.settings.blockedAsns.contains

/-- The part of `resolve_query` from the lookup on, up to the answer and its outcome. -/
def resolveLookup (q : DnsQuery) (result : LookupResult) (recursionAvailable : Bool) :
    Query (ResolveOutput × QueryOutcome) :=
  match result.outcome with
  | .Authoritative | .NoData =>
    return (⟨result.answers, result.authority, result.rcode, true, recursionAvailable⟩,
      .Authoritative)
  | .NxDomain =>
    return (⟨result.answers, result.authority, .NXDomain, true, recursionAvailable⟩, .NxDomain)
  | .NotAuthoritative => resolveExternal X C E q.qname q.qtype recursionAvailable

/-- The signatures and denials of an authoritative answer of a signed zone. -/
def signed (q : DnsQuery) (outcome : Outcome) (out : ResolveOutput) :
    ResolveOutput :=
  if q.dnssecOk ∧ outcome ≠ .NotAuthoritative then
    match C.store.signerFor q.qname with
    | some signer => applyDnssec X C E signer q.qname outcome out
    | none => out
  else out

/-- The addresses of the answers. -/
def answerAddrs (answers : List Record) : List IpAddr :=
  answers.filterMap fun r => match r.data with
    | .a ip => some (.v4 ip)
    | .aaaa ip => some (.v6 ip)
    | _ => none

/-- `resolve_query` up to the statistics of the query: the view, how it is counted, and the output. -/
def answerQuery (q : DnsQuery) : Query (Option Str × QueryOutcome × ResolveOutput) := do
  let recursionAvailable := C.upstream.isSome
  if C.asnBlocked q.client then
    return (none, .Blocked, blockAnswer C.settings.blockMode q.qname q.qtype recursionAvailable)
  else match (mdnsAnswer X C E q.qname q.qtype).or (apexAnswer X C E q) with
    | some answers => return (none, .Authoritative, ⟨answers, [], .NoError, true, recursionAvailable⟩)
    | none =>
      let result := C.store.lookup X.toCrates q.qname q.qtype q.client (C.geo.lookup q.client)
      let (out, stat) ← resolveLookup X C E q result recursionAvailable
      let out := signed X C E q result.outcome out
      let answers ← applyLoadBalance C E out.answers
      onStats (·.recordResolved (answerAddrs answers))
      return (result.viewName, stat, { out with answers })

/-- `resolve_query`: the early returns record the statistics as the end does. -/
def resolveQuery (q : DnsQuery) : Query ResolveOutput := do
  let (view, stat, out) ← answerQuery X C E q
  recordStat X C E q view stat out
  return out

/-! ## The worker for blocked domains -/

/-- The worker resolves a domain for the addresses of its servers, if there is an upstream and it is a
name. -/
def locateDomain (domain : Str) : Query Unit :=
  match C.upstream, X.fromAscii (domain ++ ['.']) with
  | some up, .ok name => do
    let r ← up.resolve E name .A
    onStats fun st => (r.answers.filterMap fun a => match a.data with
      | .a ip => some (IpAddr.v4 ip)
      | _ => none).foldl Stats.recordBlockedDest st
  | _, _ => return ()

/-- What the worker remembers of the domains it has seen: it forgets them all when there are many. -/
def remembered (seen : List Str) : List Str :=
  if 8192 ≤ seen.length then [] else seen

/-- The worker resolves a domain, unless there is no City database or it remembers the domain. -/
def workDomain (domain : Str) : Query Unit := do
  if !C.geo.hasGeoip then return ()
  else
    let s ← get
    if (remembered s.seen).contains domain then set { s with seen := remembered s.seen }
    else
      set { s with seen := remembered s.seen ++ [domain] }
      locateDomain X C E domain

/-- One round of the worker, which takes a domain from the queue. -/
def blockedWorker : Query Unit := do
  let s ← get
  match s.blocked with
  | [] => return ()
  | domain :: rest =>
    set { s with blocked := rest }
    workDomain X C E domain

end Nomina
