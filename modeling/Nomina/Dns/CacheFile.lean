import Nomina.Dns.Cache

/-!
# The edge cache across a restart

`DnsCache::save` at shutdown and `DnsCache::load` at startup: the file has what is left of each entry's
lifetime in whole seconds, and loading counts these seconds from the moment of the load. What a process
stores of moments are the readings of its own monotonic clock; the wall clock goes on between the two
processes, so the two are related at the save and at the load.

A restored entry is therefore served as long after the load as the entry was fresh after the save. The
time in between is not counted.
-/

namespace Nomina

open Lib

/-- An entry of the file. -/
structure Persisted where
  name : Str
  rtype : RecordType
  rcode : ResponseCode
  ttl : UInt32
  answers : List Record
  authority : List Record
deriving DecidableEq

/-- What serde writes of entries and reads from the contents of a file. -/
structure EntryCodec where
  Bytes : Type
  toVec : List Persisted → Bytes
  fromSlice : Bytes → Option (List Persisted)

namespace DnsCache

/-- The entry of the cache that is made of a saved one. -/
def restored (now : ℕ) (p : Persisted) : CacheEntry :=
  ⟨⟨p.answers, p.authority, p.rcode⟩, now + p.ttl.toNat * nanosPerSec⟩

/-- The loop of `load`: the map, and the number of entries inserted. -/
def restore (cap now : ℕ) (m : Map (Str × RecordType) CacheEntry) :
    List Persisted → Map (Str × RecordType) CacheEntry × ℕ
  | [] => (m, 0)
  | p :: rest =>
    if p.ttl = 0 ∨ cap ≤ m.len then restore cap now m rest
    else
      let (m', n) := restore cap now (m.insert (p.name, p.rtype) (restored now p)) rest
      (m', n + 1)

/-- `DnsCache::load`, with the contents of the file if it can be read. -/
def load (J : EntryCodec) (c : DnsCache) (bytes : Option J.Bytes) (now : ℕ) : DnsCache × ℕ :=
  match bytes.bind J.fromSlice with
  | none => (c, 0)
  | some entries =>
    let (m, n) := restore c.cap now c.map entries
    ({ c with map := m }, n)

/-- The caches of a process at the readings `now` of its monotonic clock. -/
inductive Reached (K : Crates) (J : EntryCodec) : DnsCache → ℕ → Prop
  | new (cap minTtl maxTtl now : ℕ) : maxTtl < 2 ^ 32 → Reached K J (.new cap minTtl maxTtl) now
  | load {c : DnsCache} {now : ℕ} (bytes : Option J.Bytes) :
      Reached K J c now → Reached K J (c.load J bytes now).1 now
  | put {c c' : DnsCache} {now : ℕ} (p : CachePut) :
      Reached K J c now → now ≤ p.now → c.put K p = some c' → Reached K J c' p.now
  | get {c : DnsCache} {now : ℕ} (name : Name) (rtype : RecordType) (later : ℕ) :
      Reached K J c now → now ≤ later → Reached K J (c.get K name rtype later).2 later
  | clear {c : DnsCache} {now : ℕ} : Reached K J c now → Reached K J c.clear now
  | wait {c : DnsCache} {now : ℕ} (later : ℕ) :
      Reached K J c now → now ≤ later → Reached K J c later

/-! ## Loading -/

section Restore

variable {cap now : ℕ}

/-- An entry of the map after the loop was there or is made of a saved one. -/
lemma lookup_of_restore {entries : List Persisted} {m : Map (Str × RecordType) CacheEntry}
    {k : Str × RecordType} {e : CacheEntry} (h : (restore cap now m entries).1.lookup k = some e) :
    m.lookup k = some e ∨ ∃ p ∈ entries, (p.name, p.rtype) = k ∧ e = restored now p := by
  induction entries generalizing m with
  | nil => exact .inl h
  | cons p rest ih =>
    unfold restore at h
    split at h
    · rcases ih h with hold | ⟨p', hp', hrest⟩
      · exact .inl hold
      · exact .inr ⟨p', List.mem_cons_of_mem p hp', hrest⟩
    · rcases ih h with hold | ⟨p', hp', hrest⟩
      · by_cases hk : k = (p.name, p.rtype)
        · subst hk
          rw [AList.lookup_insert] at hold
          exact .inr ⟨p, List.mem_cons_self, rfl, (Option.some.inj hold).symm⟩
        · rw [AList.lookup_insert_ne hk] at hold
          exact .inl hold
      · exact .inr ⟨p', List.mem_cons_of_mem p hp', hrest⟩

end Restore

/-! ## Saving -/

/-- No entry outlives the longest TTL. -/
structure Bounded (c : DnsCache) (now : ℕ) : Prop where
  maxTtl_lt : c.maxTtl < 2 ^ 32
  expires_lt : ∀ k e, c.map.lookup k = some e → e.expires < now + 2 ^ 32 * nanosPerSec

/-- Time only shortens what is left. -/
lemma Bounded.wait {c : DnsCache} {now later : ℕ} (h : c.Bounded now) (hle : now ≤ later) :
    c.Bounded later where
  maxTtl_lt := h.maxTtl_lt
  expires_lt k e he := (h.expires_lt k e he).trans_le (Nat.add_le_add_right hle _)

/-- What is read from a file has a TTL. -/
lemma expires_restored_lt (now : ℕ) (p : Persisted) :
    (restored now p).expires < now + 2 ^ 32 * nanosPerSec := by
  have hlt : p.ttl.toNat < 2 ^ 32 := p.ttl.toNat_lt
  have hsec : 0 < nanosPerSec := by decide
  exact Nat.add_lt_add_left (Nat.mul_lt_mul_of_pos_right hlt hsec) now

/-- Loading keeps the bound. -/
lemma Bounded.load {J : EntryCodec} {c : DnsCache} {now : ℕ} (h : c.Bounded now)
    (bytes : Option J.Bytes) : (c.load J bytes now).1.Bounded now := by
  unfold DnsCache.load
  split
  · exact h
  · refine ⟨h.maxTtl_lt, fun k e he => ?_⟩
    rcases lookup_of_restore he with hold | ⟨p, -, -, rfl⟩
    · exact h.expires_lt k e hold
    · exact expires_restored_lt now p

/-- A put keeps the bound: its TTL is clamped. -/
lemma Bounded.put {K : Crates} {c c' : DnsCache} {p : CachePut} (h : c.Bounded p.now)
    (hput : c.put K p = some c') : c'.Bounded p.now := by
  unfold DnsCache.put at hput
  split at hput
  · cases hput
    exact h
  · cases hclamp : clamp p.rawTtl (max c.minTtl 1) c.maxTtl with
    | none =>
      rw [hclamp] at hput
      cases hput
    | some ttl =>
      have httl : ttl ≤ c.maxTtl := by
        unfold clamp at hclamp
        split at hclamp
        · cases hclamp
          omega
        · cases hclamp
      have hsec : 0 < nanosPerSec := by decide
      rw [hclamp] at hput
      simp only [Option.bind_eq_bind, Option.bind_some] at hput
      split at hput
      · cases hput
        exact ⟨h.maxTtl_lt, fun k e he => h.expires_lt k e (lookup_of_purged he)⟩
      · cases hput
        refine ⟨h.maxTtl_lt, fun k e he => ?_⟩
        dsimp only at he
        by_cases hk : k = key K p.name p.rtype
        · subst hk
          rw [AList.lookup_insert] at he
          rw [← Option.some.inj he]
          exact Nat.add_lt_add_left
            (Nat.mul_lt_mul_of_pos_right (httl.trans_lt h.maxTtl_lt) hsec) p.now
        · rw [AList.lookup_insert_ne hk] at he
          exact h.expires_lt k e (lookup_of_purged he)

/-- A lookup keeps the bound. -/
lemma Bounded.get {K : Crates} {c : DnsCache} {now : ℕ} (h : c.Bounded now) (name : Name)
    (rtype : RecordType) : (c.get K name rtype now).2.Bounded now := by
  unfold DnsCache.get
  split
  · split
    · exact ⟨h.maxTtl_lt, h.expires_lt⟩
    · refine ⟨h.maxTtl_lt, fun k e he => ?_⟩
      dsimp only at he
      by_cases hk : k = key K name rtype
      · subst hk
        rw [AList.lookup_erase] at he
        cases he
      · rw [AList.lookup_erase_ne hk] at he
        exact h.expires_lt k e he
  · exact ⟨h.maxTtl_lt, h.expires_lt⟩

/-- The caches of a process keep the bound. -/
lemma Reached.bounded {K : Crates} {J : EntryCodec} {c : DnsCache} {now : ℕ}
    (h : Reached K J c now) : c.Bounded now := by
  induction h with
  | new cap minTtl maxTtl now hmax =>
    refine ⟨?_, fun k e he => ?_⟩
    · exact max_lt hmax (by decide)
    · cases he
  | load bytes _ ih => exact ih.load bytes
  | put p _ hle hput ih => exact (ih.wait hle).put hput
  | get name rtype later _ hle ih => exact (ih.wait hle).get name rtype
  | clear _ ih =>
    refine ⟨ih.maxTtl_lt, fun k e he => ?_⟩
    cases he
  | wait later _ hle ih => exact ih.wait hle

/-! ## Restarts -/

end DnsCache

namespace DnsCache

section Restarted

variable {J : EntryCodec} {c : DnsCache}
  {order : IterationOrder ((_ : Str × RecordType) × CacheEntry)} {s l : Clocks}
  {cap minTtl maxTtl : ℕ}

end Restarted

/-! ## A long downtime -/

end DnsCache

end Nomina
