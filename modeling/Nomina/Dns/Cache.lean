import Mathlib.Data.List.Find
import Nomina.Lib.Lts
import Nomina.Store.Lookup

/-!
# The edge cache

`DnsCache` of `dns/cache.rs`: a bounded map from (lowercase name, type) to upstream answers with the
moment they expire. Expired entries go when they are looked up, or all at once when the map is full;
a full map of live entries takes no new one.

The results are about runs of `put`, `get` and `clear`. The puts that were stored since the last
`clear` are kept beside the cache, and the invariant ties every entry to the last of them under its
key.
-/

namespace Nomina

open Lib

/-- Nanoseconds in a second; moments are in nanoseconds. -/
def nanosPerSec : ℕ := 1000000000

/-- A cached upstream answer. -/
structure CachedAnswer where
  answers : List Record
  authority : List Record
  rcode : ResponseCode
deriving DecidableEq

/-- An entry of the cache. -/
structure CacheEntry extends CachedAnswer where
  expires : ℕ
deriving DecidableEq

/-- The cache. -/
structure DnsCache where
  map : Map (Str × RecordType) CacheEntry
  hits : ℕ
  misses : ℕ
  cap : ℕ
  minTtl : ℕ
  maxTtl : ℕ

/-- The arguments of `DnsCache::put`. -/
structure CachePut where
  name : Name
  rtype : RecordType
  answers : List Record
  authority : List Record
  rcode : ResponseCode
  now : ℕ
deriving DecidableEq

/-- What is cached of a put. -/
def CachePut.answer (p : CachePut) : CachedAnswer :=
  ⟨p.answers, p.authority, p.rcode⟩

/-- The smallest TTL of the records, or `NEGATIVE_TTL` when there are none. -/
def CachePut.rawTtl (p : CachePut) : ℕ :=
  ((p.answers ++ p.authority).map Record.ttl).min?.getD 30

/-- `u32::clamp`, which panics when the bounds are the wrong way round. -/
def clamp (x lo hi : ℕ) : Option ℕ :=
  if lo ≤ hi then some (max lo (min x hi)) else none

namespace DnsCache

/-- `DnsCache::new`. -/
def new (cap minTtl maxTtl : ℕ) : DnsCache :=
  ⟨∅, 0, 0, max cap 1, minTtl, max maxTtl 1⟩

variable (K : Crates)

/-- `DnsCache::key`. -/
def key (name : Name) (rtype : RecordType) : Str × RecordType :=
  (nameKey K name, rtype)

/-- `DnsCache::get`. -/
def get (c : DnsCache) (name : Name) (rtype : RecordType) (now : ℕ) :
    Option CachedAnswer × DnsCache :=
  match c.map.lookup (key K name rtype) with
  | some e =>
    if now < e.expires then (some e.toCachedAnswer, { c with hits := c.hits + 1 })
    else (none, { c with map := c.map.erase (key K name rtype), misses := c.misses + 1 })
  | none => (none, { c with misses := c.misses + 1 })

/-- The map after the purge that a put into a full cache begins with. -/
def purged (c : DnsCache) (now : ℕ) : Map (Str × RecordType) CacheEntry :=
  if c.cap ≤ c.map.len then c.map.retain fun e => now < e.expires else c.map

/-- `DnsCache::put`. It panics when the TTL bounds are the wrong way round. -/
def put (c : DnsCache) (p : CachePut) : Option DnsCache :=
  if p.rcode = .ServFail then some c
  else do
    let ttl ← clamp p.rawTtl (max c.minTtl 1) c.maxTtl
    let m := c.purged p.now
    if c.cap ≤ m.len then some { c with map := m }
    else some { c with
      map := m.insert (key K p.name p.rtype) ⟨p.answer, p.now + ttl * nanosPerSec⟩ }

/-- `DnsCache::clear`. -/
def clear (c : DnsCache) : DnsCache :=
  { c with map := ∅, hits := 0, misses := 0 }

/-! ## Runs -/

/-- The operations of a run. -/
inductive Op
  | put (p : CachePut)
  | get (name : Name) (rtype : RecordType) (now : ℕ)
  | clear

/-- Whether a put is stored: it is not a failure, and there is room after the purge. -/
def stores (c : DnsCache) (p : CachePut) : Bool :=
  p.rcode ≠ .ServFail ∧ Map.len (c.purged p.now) < c.cap

/-- The cache, and the puts stored since the last `clear`, the last one first. -/
structure Run where
  cache : DnsCache
  stored : List CachePut

/-- One operation of a run; a panic ends it. -/
def Run.step (r : Run) : Op → Option Run
  | .put p => (r.cache.put K p).map fun c =>
      ⟨c, if r.cache.stores p then p :: r.stored else r.stored⟩
  | .get name rtype now => some ⟨(r.cache.get K name rtype now).2, r.stored⟩
  | .clear => some ⟨r.cache.clear, []⟩

/-- A run starts with a new cache. -/
def Run.initial (cap minTtl maxTtl : ℕ) : Run :=
  ⟨new cap minTtl maxTtl, []⟩

/-- How long a put is cached, in seconds. -/
def lifetime (minTtl maxTtl : ℕ) (p : CachePut) : ℕ :=
  max (max minTtl 1) (min p.rawTtl maxTtl)

/-- The last stored put under a key. -/
def Run.lastStored (r : Run) (k : Str × RecordType) : Option CachePut :=
  r.stored.find? fun p => key K p.name p.rtype = k

/-- The invariant of runs: the parameters stay, the map is bounded, and every entry is the last stored
put under its key. -/
structure Run.Inv (cap minTtl maxTtl : ℕ) (r : Run) : Prop where
  cap_eq : r.cache.cap = max cap 1
  minTtl_eq : r.cache.minTtl = minTtl
  maxTtl_eq : r.cache.maxTtl = max maxTtl 1
  len_le : r.cache.map.len ≤ r.cache.cap
  origin : ∀ k e, r.cache.map.lookup k = some e → ∃ p, r.lastStored K k = some p ∧
    p.rcode ≠ .ServFail ∧ e = ⟨p.answer, p.now + lifetime minTtl (max maxTtl 1) p * nanosPerSec⟩

variable {K} {cap minTtl maxTtl : ℕ} {r : Run}

/-- A run starts with the invariant. -/
lemma Run.inv_initial : (Run.initial cap minTtl maxTtl).Inv K cap minTtl maxTtl where
  cap_eq := rfl
  minTtl_eq := rfl
  maxTtl_eq := rfl
  len_le := Nat.zero_le _
  origin := by
    intro k e h
    cases h

/-- The purge only takes entries away. -/
lemma lookup_of_purged {c : DnsCache} {now : ℕ} {k : Str × RecordType} {e : CacheEntry}
    (h : AList.lookup k (c.purged now) = some e) : c.map.lookup k = some e := by
  unfold purged at h
  split at h
  · exact Map.lookup_of_retain h
  · exact h

/-- A purged map is not larger. -/
lemma len_purged_le (c : DnsCache) (now : ℕ) : Map.len (c.purged now) ≤ c.map.len := by
  unfold purged
  split
  · exact Map.len_retain_le _ _
  · exact le_rfl

/-- A lookup keeps the invariant. -/
lemma Run.Inv.get (h : r.Inv K cap minTtl maxTtl) (name : Name) (rtype : RecordType) (now : ℕ) :
    (Run.mk (r.cache.get K name rtype now).2 r.stored).Inv K cap minTtl maxTtl := by
  unfold DnsCache.get
  split
  · split
    · exact ⟨h.cap_eq, h.minTtl_eq, h.maxTtl_eq, h.len_le, h.origin⟩
    · refine ⟨h.cap_eq, h.minTtl_eq, h.maxTtl_eq, (Map.len_erase_le _ _).trans h.len_le, ?_⟩
      intro k e hk
      apply h.origin k e
      by_cases hkey : k = key K name rtype
      · subst hkey
        rw [AList.lookup_erase] at hk
        cases hk
      · rwa [AList.lookup_erase_ne hkey] at hk
  · exact ⟨h.cap_eq, h.minTtl_eq, h.maxTtl_eq, h.len_le, h.origin⟩

/-- Clearing keeps the invariant. -/
lemma Run.Inv.clear (h : r.Inv K cap minTtl maxTtl) :
    (Run.mk r.cache.clear []).Inv K cap minTtl maxTtl where
  cap_eq := h.cap_eq
  minTtl_eq := h.minTtl_eq
  maxTtl_eq := h.maxTtl_eq
  len_le := Nat.zero_le _
  origin := by
    intro k e hk
    cases hk

/-- With TTL bounds the right way round a put does not panic: it is dropped, or what is left after
the purge stays, and with room the answer is inserted. -/
lemma put_eq {c : DnsCache} (h : max c.minTtl 1 ≤ c.maxTtl) (p : CachePut) :
    c.put K p = some (
      if p.rcode = .ServFail then c
      else if c.stores p then { c with
        map := (c.purged p.now).insert (key K p.name p.rtype)
          ⟨p.answer, p.now + lifetime c.minTtl c.maxTtl p * nanosPerSec⟩ }
      else { c with map := c.purged p.now }) := by
  unfold put
  by_cases hfail : p.rcode = .ServFail
  · rw [if_pos hfail, if_pos hfail]
  · have hclamp : clamp p.rawTtl (max c.minTtl 1) c.maxTtl =
        some (lifetime c.minTtl c.maxTtl p) := if_pos h
    rw [if_neg hfail, if_neg hfail, hclamp]
    simp only [Option.bind_eq_bind, Option.bind_some]
    by_cases hfull : c.cap ≤ Map.len (c.purged p.now)
    · have hstores : c.stores p = false := by
        simp [stores, hfull]
      rw [if_pos hfull, hstores]
      rfl
    · have hstores : c.stores p = true := by
        simp only [stores, decide_eq_true_eq]
        exact ⟨hfail, not_le.mp hfull⟩
      rw [if_neg hfull, hstores]
      rfl

/-- A put keeps the invariant. -/
lemma Run.Inv.put (h : r.Inv K cap minTtl maxTtl) (hbounds : max minTtl 1 ≤ max maxTtl 1)
    (p : CachePut) :
    ∃ c, r.cache.put K p = some c ∧
      (Run.mk c (if r.cache.stores p then p :: r.stored else r.stored)).Inv K cap minTtl
        maxTtl := by
  have hle : max r.cache.minTtl 1 ≤ r.cache.maxTtl := by
    rw [h.minTtl_eq, h.maxTtl_eq]
    exact hbounds
  refine ⟨_, put_eq hle p, ?_⟩
  by_cases hfail : p.rcode = .ServFail
  · have hstores : r.cache.stores p = false := by
      simp [stores, hfail]
    rw [if_pos hfail, hstores]
    exact h
  · rw [if_neg hfail]
    cases hstores : r.cache.stores p with
    | false =>
      refine ⟨h.cap_eq, h.minTtl_eq, h.maxTtl_eq, (len_purged_le _ _).trans h.len_le, ?_⟩
      intro k e hk
      exact h.origin k e (lookup_of_purged hk)
    | true =>
      have hroom : Map.len (r.cache.purged p.now) < r.cache.cap := by
        simp only [stores, decide_eq_true_eq] at hstores
        exact hstores.2
      refine ⟨h.cap_eq, h.minTtl_eq, h.maxTtl_eq, (Map.len_insert_le _ _ _).trans hroom, ?_⟩
      intro k e hk
      by_cases hkey : key K p.name p.rtype = k
      · subst hkey
        refine ⟨p, List.find?_cons_of_pos (by simp), hfail, ?_⟩
        have hentry := Option.some.inj ((AList.lookup_insert _).symm.trans hk)
        rw [← hentry, h.minTtl_eq, h.maxTtl_eq]
      · have hold : r.cache.map.lookup k = some e := by
          have hpurged : AList.lookup k (r.cache.purged p.now) = some e :=
            (AList.lookup_insert_ne (Ne.symm hkey)).symm.trans hk
          exact lookup_of_purged hpurged
        obtain ⟨p', hp', hrest⟩ := h.origin k e hold
        refine ⟨p', ?_, hrest⟩
        exact (List.find?_cons_of_neg (by simpa using hkey)).trans hp'

/-- An operation of a run is possible and keeps the invariant. -/
lemma Run.inv_step (hbounds : max minTtl 1 ≤ max maxTtl 1) (h : r.Inv K cap minTtl maxTtl) (op : Op) :
    ∃ r', r.step K op = some r' ∧ r'.Inv K cap minTtl maxTtl := by
  cases op with
  | put p =>
    obtain ⟨c, hc, hinv⟩ := h.put hbounds p
    refine ⟨_, ?_, hinv⟩
    simp only [Run.step, hc, Option.map_some]
  | get name rtype now => exact ⟨_, rfl, h.get name rtype now⟩
  | clear => exact ⟨_, rfl, h.clear⟩

/-- A hit returns an entry that has not expired. -/
lemma get_eq_some {c : DnsCache} {name : Name} {rtype : RecordType} {now : ℕ} {a : CachedAnswer}
    (h : (c.get K name rtype now).1 = some a) :
    ∃ e, c.map.lookup (key K name rtype) = some e ∧ now < e.expires ∧ a = e.toCachedAnswer := by
  unfold get at h
  split at h
  · rename_i e he
    split at h
    · rename_i hlive
      exact ⟨e, he, hlive, (Option.some.inj h).symm⟩
    · cases h
  · cases h

/-- The text of names tells `n` and `m` apart exactly when they differ in more than ASCII case. -/
def TellsApart (K : Crates) (n m : Name) : Prop :=
  nameKey K n = nameKey K m ↔ n.toLowercase = m.toLowercase

/-- The last stored put of a type under a name, ignoring ASCII case. -/
def Run.lastStoredFor (r : Run) (name : Name) (rtype : RecordType) : Option CachePut :=
  r.stored.find? fun p => p.rtype = rtype ∧ p.name.toLowercase = name.toLowercase

/-- A lookup only finds the last put of the name and type that was stored since the last `clear`, no failure,
and before its smallest TTL, kept within the bounds, has run out. -/
def Run.FindsLast (K : Crates) (minTtl maxTtl : ℕ) (r : Run) (name : Name) (rtype : RecordType) : Prop :=
  ∀ now a, (r.cache.get K name rtype now).1 = some a →
    ∃ p, r.lastStoredFor name rtype = some p ∧ a = p.answer ∧ p.rcode ≠ .ServFail ∧
      now < p.now + max (max minTtl 1) (min p.rawTtl maxTtl) * nanosPerSec

/-- Every run of the cache: it never holds more entries than its capacity, and a lookup finds the last put
of the name and type when the displayed names tell the name from those of the stored puts of the type. -/
theorem get_run (K : Crates) (cap minTtl maxTtl : ℕ) (hbounds : max minTtl 1 ≤ maxTtl)
    (ops : List Op) :
    ∃ r, run (Run.step K) (.initial cap minTtl maxTtl) ops = some r ∧
      r.cache.map.len ≤ r.cache.cap ∧ r.cache.cap = max cap 1 ∧
      ∀ name rtype, (∀ p ∈ r.stored, p.rtype = rtype → TellsApart K p.name name) →
        r.FindsLast K minTtl maxTtl name rtype := by
  have hbounds' : max minTtl 1 ≤ max maxTtl 1 := hbounds.trans (le_max_left _ _)
  obtain ⟨r, hrun, hinv⟩ :=
    exists_run (fun _ op h => Run.inv_step (K := K) hbounds' h op) Run.inv_initial ops
  refine ⟨r, hrun, hinv.len_le, hinv.cap_eq, ?_⟩
  intro name rtype hnames now a hget
  obtain ⟨e, he, hlive, rfl⟩ := get_eq_some hget
  obtain ⟨p, hp, hfail, rfl⟩ := hinv.origin _ e he
  have hmax : max maxTtl 1 = maxTtl := by
    omega
  refine ⟨p, ?_, rfl, hfail, ?_⟩
  · rw [← hp]
    apply List.find?_congr
    intro p' hp'
    simp only [key, Prod.mk.injEq, decide_eq_decide]
    exact and_comm.trans (and_congr_left fun htype => (hnames p' hp' htype).symm)
  · rw [hmax] at hlive
    exact hlive

/-- An answer for `nas.example` of an upstream. -/
def examplePut : CachePut :=
  ⟨.ofPlain "nas.example", .A, [⟨.ofPlain "nas.example", 300, .a 0x08080808⟩], [], .NoError, 0⟩

/-- A lookup in other case, a minute later, finds the answer. -/
theorem get_run_example :
    ∃ r, run (Run.step plainCrates) (.initial 1024 0 86400) [.put examplePut] = some r ∧
      (r.cache.get plainCrates (.ofPlain "NAS.example") .A (60 * nanosPerSec)).1 =
        some examplePut.answer ∧
      60 * nanosPerSec < examplePut.now + 300 * nanosPerSec := by
  obtain ⟨r, hrun, -, -, hget⟩ := get_run plainCrates 1024 0 86400 (by decide) [.put examplePut]
  have hr : r = ⟨_, [examplePut]⟩ := (Option.some.inj hrun).symm
  have hnames : ∀ p ∈ r.stored, p.rtype = .A → TellsApart plainCrates p.name (.ofPlain "NAS.example") := by
    intro p hp _
    rw [hr] at hp
    rw [List.mem_singleton.mp hp]
    exact iff_of_true (by decide +kernel) (by decide +kernel)
  have hhit : (r.cache.get plainCrates (.ofPlain "NAS.example") .A (60 * nanosPerSec)).1 =
      some examplePut.answer := by
    rw [hr]
    decide +kernel
  obtain ⟨p, hp, -, -, hlive⟩ := hget _ _ hnames _ _ hhit
  rw [hr] at hp
  have hlast : p = examplePut := (Option.some.inj hp).symm
  rw [hlast] at hlive
  exact ⟨r, hrun, hhit, hlive⟩

/-- An answer for the name of `www.bücher.example` in lower or in upper case. -/
def bucherPut (name : Str) (ip : Ipv4Addr) (now : ℕ) : CachePut :=
  ⟨.ofPlain name, .A, [⟨.ofPlain name, 300, .a ip⟩], [], .NoError, now⟩

/-- A name in upper case, which is displayed as it is, hides the later answer from a lookup in lower case,
which is displayed in Unicode. -/
theorem get_finds_older :
    ∃ r, run (Run.step bucherCrates) (.initial 1024 0 86400)
        [.put (bucherPut "www.xn--bcher-kva.example" 0x08080801 0),
          .put (bucherPut "WWW.XN--BCHER-KVA.EXAMPLE" 0x08080802 nanosPerSec)] = some r ∧
      (r.cache.get bucherCrates (.ofPlain "www.xn--bcher-kva.example") .A (2 * nanosPerSec)).1 =
        some (bucherPut "www.xn--bcher-kva.example" 0x08080801 0).answer ∧
      r.lastStoredFor (.ofPlain "www.xn--bcher-kva.example") .A =
        some (bucherPut "WWW.XN--BCHER-KVA.EXAMPLE" 0x08080802 nanosPerSec) ∧
      ¬r.FindsLast bucherCrates 0 86400 (.ofPlain "www.xn--bcher-kva.example") .A := by
  obtain ⟨r, hrun, hboth⟩ := (Option.any_eq_true _ _).mp (show
    (run (Run.step bucherCrates) (.initial 1024 0 86400)
      [.put (bucherPut "www.xn--bcher-kva.example" 0x08080801 0),
        .put (bucherPut "WWW.XN--BCHER-KVA.EXAMPLE" 0x08080802 nanosPerSec)]).any (fun r => decide (
      (r.cache.get bucherCrates (.ofPlain "www.xn--bcher-kva.example") .A (2 * nanosPerSec)).1 =
        some (bucherPut "www.xn--bcher-kva.example" 0x08080801 0).answer ∧
      r.lastStoredFor (.ofPlain "www.xn--bcher-kva.example") .A =
        some (bucherPut "WWW.XN--BCHER-KVA.EXAMPLE" 0x08080802 nanosPerSec))) = true by decide +kernel)
  obtain ⟨hhit, hlast⟩ := of_decide_eq_true hboth
  refine ⟨r, hrun, hhit, hlast, fun h => ?_⟩
  obtain ⟨p, hp, hanswer, -⟩ := h _ _ hhit
  rw [hlast] at hp
  cases hp
  exact absurd hanswer (by decide +kernel)

end DnsCache

end Nomina
