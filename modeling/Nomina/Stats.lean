import Nomina.Lib.Assoc
import Nomina.Settings

/-!
# Query statistics

`stats.rs`: counters and a per-second series that are always collected, and the detail of queries,
which the query-log setting gates. The ring of latencies and what is only read for the dashboard are
left out.
-/

namespace Nomina

open Lib

/-- How a query ended, for the statistics. -/
inductive QueryOutcome
  | Authoritative | Forwarded | Cached | NxDomain | Refused | ServFail | Blocked | Rewritten
  | Dangerous
deriving DecidableEq

/-- `QueryOutcome::as_str`. -/
def QueryOutcome.asStr : QueryOutcome → Str
  | Authoritative => "authoritative"
  | Forwarded => "forwarded"
  | Cached => "cached"
  | NxDomain => "nxdomain"
  | Refused => "refused"
  | ServFail => "servfail"
  | Blocked => "blocked"
  | Rewritten => "rewritten"
  | Dangerous => "dangerous"

/-- The detail kept of a query. -/
structure RecentQuery where
  time : Str
  client : Str
  view : Option Str
  name : Str
  qtype : Str
  outcome : Str
  rcode : Str
deriving DecidableEq

/-- The counters. -/
structure Counters where
  total : ℕ := 0
  authoritative : ℕ := 0
  forwarded : ℕ := 0
  cached : ℕ := 0
  nxdomain : ℕ := 0
  refused : ℕ := 0
  servfail : ℕ := 0
  blocked : ℕ := 0
  dangerous : ℕ := 0
  dnssecFailures : ℕ := 0
  ipv4 : ℕ := 0
  ipv6 : ℕ := 0
deriving DecidableEq

/-! ## The series -/

/-- Seconds that the series retains. -/
abbrev seriesWindow : ℕ := 300

/-- Query counts per second. -/
structure Series where
  buckets : List ℕ
  lastSec : ℕ
deriving DecidableEq

/-- `Series::new`. -/
def Series.new : Series :=
  ⟨List.replicate seriesWindow 0, 0⟩

/-- `Series::bump`: the buckets of the seconds that were skipped are zeroed first. -/
def Series.bump (s : Series) (sec : ℕ) : Series :=
  let buckets :=
    if sec = s.lastSec then s.buckets
    else
      (List.range' 1 (min (sec - s.lastSec) seriesWindow)).foldl
        (fun b i => b.set ((s.lastSec + i) % seriesWindow) 0) s.buckets
  ⟨buckets.modify (sec % seriesWindow) (· + 1), sec⟩

/-! ## Addresses -/

/-- `is_global` of an IPv4 address. -/
def isGlobalV4 (a : Ipv4Addr) : Bool :=
  match octets a with
  | [a, b, c, d] =>
    !(a = 10 ∨ (a = 172 ∧ 16 ≤ b ∧ b ≤ 31) ∨ (a = 192 ∧ b = 168) ∨
      a = 127 ∨
      (a = 169 ∧ b = 254) ∨
      (a = 255 ∧ b = 255 ∧ c = 255 ∧ d = 255) ∨
      (a = 192 ∧ b = 0 ∧ c = 2) ∨ (a = 198 ∧ b = 51 ∧ c = 100) ∨ (a = 203 ∧ b = 0 ∧ c = 113) ∨
      (224 ≤ a ∧ a ≤ 239) ∨
      -- `0.0.0.0` and the rest of its network.
      a = 0 ∨
      (a = 100 ∧ 64 ≤ b ∧ b ≤ 127))
  | _ => false

/-- `is_global` of an IPv6 address. -/
def isGlobalV6 (a : Ipv6Addr) : Bool :=
  match segments a with
  | s :: t :: _ =>
    !(a = 1 ∨ a = 0 ∨ 0xff00 ≤ s ∨ (0xfe80 ≤ s ∧ s ≤ 0xfebf) ∨ (0xfc00 ≤ s ∧ s ≤ 0xfdff) ∨
      (s = 0x2001 ∧ t = 0x0db8))
  | _ => false

/-- `is_global`. -/
def isGlobal : IpAddr → Bool
  | .v4 a => isGlobalV4 a
  | .v6 a => isGlobalV6 a

/-- `anonymize`. -/
def anonymize : IpAddr → Str
  | .v4 a => join ['.'] (((octets a).take 3).map fmtOctet) ++ ".0/24".toList
  | .v6 a => join [':'] (((segments a).take 3).map fmtHex) ++ "::/48".toList

/-- `IpAddr::is_ipv4`. -/
def isIpv4 : IpAddr → Bool
  | .v4 _ => true
  | .v6 _ => false

/-! ## The statistics -/

/-- The statistics. -/
structure Stats where
  counters : Counters
  byQtype : Map Str ℕ
  recent : List RecentQuery
  topDomains : Map Str ℕ
  topBlocked : Map Str ℕ
  series : Series
  resolved : Map IpAddr ℕ
  blockedDest : Map IpAddr ℕ
  blockedClient : Map IpAddr ℕ
  blocklistHits : Map ℕ ℕ

namespace Stats

/-- `Stats::new`. -/
def new : Stats :=
  ⟨{}, ∅, [], ∅, ∅, .new, ∅, ∅, ∅, ∅⟩

/-- The counters of `record`. -/
def count (c : Counters) (client : IpAddr) (outcome : QueryOutcome) : Counters :=
  let c := { c with total := c.total + 1 }
  let c := if isIpv4 client then { c with ipv4 := c.ipv4 + 1 } else { c with ipv6 := c.ipv6 + 1 }
  match outcome with
  | .Authoritative | .Rewritten => { c with authoritative := c.authoritative + 1 }
  | .Forwarded => { c with forwarded := c.forwarded + 1 }
  | .Cached => { c with cached := c.cached + 1 }
  | .NxDomain => { c with nxdomain := c.nxdomain + 1 }
  | .Refused => { c with refused := c.refused + 1 }
  | .ServFail => { c with servfail := c.servfail + 1 }
  | .Blocked => { c with blocked := c.blocked + 1 }
  | .Dangerous => { c with dangerous := c.dangerous + 1 }

/-- The client as it is logged. -/
def loggedClient (mode : QueryLog) (client : IpAddr) : Str :=
  match mode with
  | .Full => fmtIpAddr client
  | _ => anonymize client

/-- `Stats::record`, at the second `sec` and the time `time`. -/
def record (s : Stats) (mode : QueryLog) (client : IpAddr) (view : Option Str) (name qtype : Str)
    (outcome : QueryOutcome) (rcode : Str) (sec : ℕ) (time : Str) : Option RecentQuery × Stats :=
  let s := { s with
    counters := count s.counters client outcome
    byQtype := Map.bump s.byQtype qtype
    series := s.series.bump sec }
  if mode = .Off then (none, s)
  else
    let entry : RecentQuery :=
      ⟨time, loggedClient mode client, view, name, qtype, outcome.asStr, rcode⟩
    (some entry, { s with
      topBlocked := if outcome = .Blocked then Map.bumpWithin 5000 s.topBlocked name
        else s.topBlocked
      topDomains := Map.bumpWithin 5000 s.topDomains name
      recent := (if s.recent.length = 200 then s.recent.tail else s.recent) ++ [entry] })

/-- `Stats::record_dnssec_failure`. -/
def recordDnssecFailure (s : Stats) : Stats :=
  { s with counters := { s.counters with dnssecFailures := s.counters.dnssecFailures + 1 } }

/-- Count a public address, unless it is new and the map is full. -/
def countGlobal (m : Map IpAddr ℕ) (ip : IpAddr) : Map IpAddr ℕ :=
  if isGlobal ip then Map.bumpWithin 5000 m ip else m

/-- `Stats::record_resolved`. -/
def recordResolved (s : Stats) (ips : List IpAddr) : Stats :=
  { s with resolved := ips.foldl countGlobal s.resolved }

/-- `Stats::record_blocked_dest`. -/
def recordBlockedDest (s : Stats) (ip : IpAddr) : Stats :=
  { s with blockedDest := countGlobal s.blockedDest ip }

/-- `Stats::record_blocked_client`. -/
def recordBlockedClient (s : Stats) (ip : IpAddr) : Stats :=
  { s with blockedClient := countGlobal s.blockedClient ip }

/-- `Stats::record_blocklist_hit`. -/
def recordBlocklistHit (s : Stats) (id : ℕ) : Stats :=
  { s with blocklistHits := Map.bump s.blocklistHits id }

end Stats

/-! ## Anonymous clients -/

/-- The clients are of one family, and of one network of the size that `anonymize` leaves. -/
def SameNetwork : IpAddr → IpAddr → Prop
  | .v4 a, .v4 b => a >>> 8 = b >>> 8
  | .v6 a, .v6 b => a >>> 80 = b >>> 80
  | _, _ => False

/-- Clients of one network are logged alike. -/
lemma anonymize_eq {c c' : IpAddr} (h : SameNetwork c c') : anonymize c = anonymize c' := by
  match c, c', h with
  | .v4 a, .v4 b, h =>
    have hnat := congrArg BitVec.toNat (show a >>> 8 = b >>> 8 from h)
    simp only [BitVec.toNat_ushiftRight, Nat.shiftRight_eq_div_pow] at hnat
    have htake : (octets a).take 3 = (octets b).take 3 := by
      unfold octets
      rw [take_digitsBE 256 3 1, take_digitsBE 256 3 1, Nat.pow_one, hnat]
    simp only [anonymize, htake]
  | .v6 a, .v6 b, h =>
    have hnat := congrArg BitVec.toNat (show a >>> 80 = b >>> 80 from h)
    simp only [BitVec.toNat_ushiftRight, Nat.shiftRight_eq_div_pow] at hnat
    have htake : (segments a).take 3 = (segments b).take 3 := by
      unfold segments
      rw [take_digitsBE 65536 3 5, take_digitsBE 65536 3 5, show 65536 ^ 5 = 2 ^ 80 by decide, hnat]
    simp only [anonymize, htake]

end Nomina
