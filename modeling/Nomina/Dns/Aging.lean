import Nomina.Dns.Service

/-!
# The age of cached answers

Every entry of the cache goes back to an answer that an upstream gave in an earlier step of the run. A
later query that the cache answers gets the records of that answer with the TTLs they had then: they
have not aged, however much of their lifetime is over.
-/

namespace Nomina

open Lib

/-! ## Where entries come from -/

/-- The step is a query, and the put is what an upstream answered to it. -/
def Step.Cached (e : Step) (p : CachePut) : Prop :=
  ∃ q up, e.event = .query q ∧ p = e.env.put ⟨up, q.qname, q.qtype⟩

/-- The invariant of runs: the cache is in order, and what is stored comes from earlier steps. -/
structure Resolver.CacheInv (K : Crates) (cap minTtl maxTtl : ℕ) (past : List Step) (s : Resolver) :
    Prop where
  inv : (DnsCache.Run.mk s.cache s.stored).Inv K cap minTtl maxTtl
  origin : ∀ p ∈ s.stored, ∃ e ∈ past, e.Cached p

namespace Resolver

variable {X : QueryCrates} {cap minTtl maxTtl : ℕ} {past : List Step} {s s' : Resolver}

/-- The invariant is about the cache and its history only. -/
lemma CacheInv.same (h : s.CacheInv X.toCrates cap minTtl maxTtl past) (hsame : SameTraffic s s') :
    s'.CacheInv X.toCrates cap minTtl maxTtl past := by
  constructor
  · rw [hsame.cache, hsame.stored]
    exact h.inv
  · rw [hsame.stored]
    exact h.origin

/-- Steps stay in the past. -/
lemma CacheInv.later (h : s.CacheInv X.toCrates cap minTtl maxTtl past) (e : Step) :
    s.CacheInv X.toCrates cap minTtl maxTtl (past ++ [e]) := by
  refine ⟨h.inv, ?_⟩
  intro p hp
  obtain ⟨e', he', hcached⟩ := h.origin p hp
  exact ⟨e', List.mem_append_left _ he', hcached⟩

/-- A miss keeps the invariant: what it stores comes from the step itself. -/
lemma CacheInv.missed (h : s.CacheInv X.toCrates cap minTtl maxTtl past)
    (hbounds : max minTtl 1 ≤ max maxTtl 1) {e : Step} {q : DnsQuery} (he : e.event = .query q)
    (up : Upstream) :
    (s.missed X e.env ⟨up, q.qname, q.qtype⟩).CacheInv X.toCrates cap minTtl maxTtl
      (past ++ [e]) := by
  obtain ⟨c, hput, hinv⟩ :=
    (h.inv.get q.qname q.qtype e.env.now).put hbounds (e.env.put ⟨up, q.qname, q.qtype⟩)
  unfold Resolver.missed
  dsimp only at hput hinv ⊢
  rw [hput]
  refine ⟨hinv, ?_⟩
  intro p hp
  dsimp only at hp
  split at hp
  · rcases List.mem_cons.mp hp with rfl | hold
    · exact ⟨e, List.mem_append_right _ (List.mem_singleton_self e), q, up, he, rfl⟩
    · exact (h.later e).origin p hold
  · exact (h.later e).origin p hp

/-- A step keeps the invariant. -/
lemma CacheInv.step (h : s.CacheInv X.toCrates cap minTtl maxTtl past)
    (hbounds : max minTtl 1 ≤ max maxTtl 1) (e : Step) :
    (s.step X e).CacheInv X.toCrates cap minTtl maxTtl (past ++ [e]) := by
  have hpast := h.later e
  have hasked (asked : List Asked) :
      { s with asked }.CacheInv X.toCrates cap minTtl maxTtl (past ++ [e]) :=
    ⟨hpast.inv, hpast.origin⟩
  unfold Resolver.step
  split
  · rename_i q he
    cases resolveQuery_traffic X e.config e.env q s with
    | idle hsame => exact hpast.same hsame
    | rewrite target up _ _ _ _ hsame => exact (hasked _).same hsame
    | conditional up _ hsame => exact (hasked _).same hsame
    | hit _ hsame =>
      have hget : Resolver.CacheInv X.toCrates cap minTtl maxTtl (past ++ [e])
          { s with cache := (s.cache.get X.toCrates q.qname q.qtype e.env.now).2 } :=
        ⟨h.inv.get q.qname q.qtype e.env.now, hpast.origin⟩
      exact hget.same hsame
    | miss up _ hsame => exact (h.missed hbounds he up).same hsame
  · obtain ⟨stats, seen, hafter⟩ := blockedWorker_run X e.config e.env s
    rw [hafter]
    exact ⟨hpast.inv, hpast.origin⟩
  · refine ⟨h.inv.clear, ?_⟩
    intro p hp
    cases hp

/-- Every run keeps the invariant. -/
lemma CacheInv.run (h : s.CacheInv X.toCrates cap minTtl maxTtl [])
    (hbounds : max minTtl 1 ≤ max maxTtl 1) (l : List Step) :
    (s.run X l).CacheInv X.toCrates cap minTtl maxTtl l := by
  induction l using List.reverseRecOn with
  | nil => exact h
  | append_singleton l e ih =>
    unfold Resolver.run at ih ⊢
    rw [List.foldl_append]
    exact ih.step hbounds e

end Resolver

/-! ## Ages -/

/-- The records that are sent are those of the answer, in some order, and each has lost at least the
time that passed from its TTL. -/
def Aged (elapsed : ℕ) (upstream sent : List Record) : Prop :=
  ∃ l, l.Perm upstream ∧ List.Forall₂ (fun r u : Record =>
    r.name = u.name ∧ r.data = u.data ∧ r.ttl + elapsed ≤ u.ttl) sent l

/-- Where each record has lost some time, so have all together. -/
lemma sum_ttl_of_forall₂ {elapsed : ℕ} {sent l : List Record}
    (h : List.Forall₂ (fun r u : Record =>
      r.name = u.name ∧ r.data = u.data ∧ r.ttl + elapsed ≤ u.ttl) sent l) :
    (sent.map Record.ttl).sum + elapsed * l.length ≤ (l.map Record.ttl).sum := by
  induction h with
  | nil => simp
  | cons hhead _ ih =>
    simp only [List.map_cons, List.sum_cons, List.length_cons, Nat.mul_succ]
    omega

/-- Records that are sent as they were have aged only if no time has passed, or there are none. -/
lemma aged_iff_of_perm {elapsed : ℕ} {upstream sent : List Record} (h : sent.Perm upstream) :
    Aged elapsed upstream sent ↔ elapsed = 0 ∨ upstream = [] := by
  constructor
  · rintro ⟨l, hl, hforall⟩
    have hsum := sum_ttl_of_forall₂ hforall
    have hsame : (sent.map Record.ttl).sum = (l.map Record.ttl).sum :=
      ((h.trans hl.symm).map Record.ttl).sum_nat
    have hnone : elapsed * l.length = 0 := by
      omega
    rcases Nat.mul_eq_zero.mp hnone with hzero | hlen
    · exact .inl hzero
    · right
      rw [hl.length_eq] at hlen
      exact List.length_eq_zero_iff.mp hlen
  · rintro (rfl | rfl)
    · exact ⟨sent, h, List.forall₂_same.mpr fun r _ => ⟨rfl, rfl, le_rfl⟩⟩
    · rw [h.eq_nil]
      exact ⟨[], .refl _, .nil⟩

/-! ## Hits -/

/-- The query is answered from the cache, with `c`. -/
structure Hits (X : QueryCrates) (C : Config) (E : Env) (q : DnsQuery) (s : Resolver)
    (c : CachedAnswer) : Prop extends Leaves X C E q where
  passes : C.Passes X q.qname
  conditional : matchFor C.conditional (nameKey X.toCrates q.qname) = none
  upstream : C.upstream.isSome = true
  hit : (s.cache.get X.toCrates q.qname q.qtype E.now).1 = some c

section Hits

variable {X : QueryCrates} {C : Config} {E : Env} {q : DnsQuery} {s : Resolver} {c : CachedAnswer}

/-- The response to such a query has the records of the cached answer. -/
lemma Hits.resolveQuery (h : Hits X C E q s c) : ∃ out s',
    Nomina.resolveQuery X C E q s = .ok out s' ∧ out.answers.Perm c.answers ∧
      out.authority = c.authority := by
  obtain ⟨up, hup⟩ := Option.isSome_iff_exists.mp h.upstream
  have hrun : resolveExternal X C E q.qname q.qtype C.upstream.isSome s =
      .ok (c.output C.upstream.isSome, .Cached)
        { s with cache := (s.cache.get X.toCrates q.qname q.qtype E.now).2 } := by
    rw [h.passes.resolveExternal, forward_global h.conditional]
    exact resolveGlobal_hit hup h.hit
  obtain ⟨answers, n, hanswer, hperm⟩ := h.toLeaves.answerQuery hrun
  obtain ⟨stats, qlog, hquery, -⟩ := resolveQuery_run hanswer
  exact ⟨_, _, hquery, hperm, rfl⟩

end Hits

/-- In every run from an empty cache without a minimal TTL, a query that the cache answers gets the
last answer stored for its name and type, which an upstream gave in an earlier step. The records have
aged by the whole seconds since then exactly when there is no such second, or no record. -/
theorem Resolver.hit_aged_iff (X : QueryCrates) (cap maxTtl : ℕ) (s : Resolver)
    (hcache : s.cache = .new cap 0 maxTtl) (hstored : s.stored = []) (l : List Step) (C : Config)
    (E : Env) (q : DnsQuery) (c : CachedAnswer) (h : Hits X C E q (s.run X l) c) :
    ∃ p out s', (s.run X l).stored.find? (fun p => DnsCache.key X.toCrates p.name p.rtype =
        DnsCache.key X.toCrates q.qname q.qtype) = some p ∧
      (∃ e ∈ l, e.Cached p) ∧ c = p.answer ∧
      resolveQuery X C E q (s.run X l) = .ok out s' ∧
      (Aged ((E.now - p.now) / nanosPerSec) p.answers out.answers ∧
          Aged ((E.now - p.now) / nanosPerSec) p.authority out.authority ↔
        (E.now - p.now) / nanosPerSec = 0 ∨ p.answers = [] ∧ p.authority = []) := by
  have hinitial : s.CacheInv X.toCrates cap 0 maxTtl [] := by
    constructor
    · rw [hcache, hstored]
      exact DnsCache.Run.inv_initial
    · rw [hstored]
      intro p hp
      cases hp
  have hinv := hinitial.run (by omega) l
  obtain ⟨entry, hentry, -, hc⟩ := DnsCache.get_eq_some h.hit
  obtain ⟨p, hp, -, hentry'⟩ := hinv.inv.origin _ entry hentry
  have hanswer : c = p.answer := by
    rw [hc, hentry']
  obtain ⟨out, s', hquery, hperm, hauthority⟩ := h.resolveQuery
  rw [hanswer] at hperm hauthority
  refine ⟨p, out, s', hp, hinv.origin p (List.mem_of_find?_eq_some hp), hanswer, hquery, ?_⟩
  have hanswers : out.answers.Perm p.answers := hperm
  have hauth : out.authority.Perm p.authority := .of_eq hauthority
  rw [aged_iff_of_perm hanswers, aged_iff_of_perm hauth]
  exact or_and_left.symm

/-- A query for a name outside the local zones. -/
def wwwQuery : DnsQuery :=
  ⟨.ofPlain "www.example", .A, .v4 0x0a000001, false⟩

/-- The server after it has resolved that query once. -/
def resolvedOnce : Resolver :=
  (Resolver.initial 1024 0 86400).run plainQueryCrates
    [⟨smallConfig, smallEnv 0, .query wwwQuery⟩]

/-- What is cached of it. -/
def wwwAnswer : CachedAnswer :=
  ⟨[⟨.ofPlain "www.example", 300, .a 0x08080808⟩], [], .NoError⟩

/-- The query is answered from the cache as long as the answer lives. -/
lemma resolvedOnce_hits (now : ℕ) (h : now < 300 * nanosPerSec) :
    Hits plainQueryCrates smallConfig (smallEnv now) wwwQuery resolvedOnce wwwAnswer where
  asn := rfl
  synthesized := rfl
  zone := rfl
  passes := by
    right
    decide +kernel
  conditional := rfl
  upstream := rfl
  hit := by
    have hlookup : resolvedOnce.cache.map.lookup
        (DnsCache.key plainCrates wwwQuery.qname wwwQuery.qtype) =
          some ⟨wwwAnswer, 300 * nanosPerSec⟩ := by
      decide +kernel
    unfold DnsCache.get
    rw [show plainQueryCrates.toCrates = plainCrates from rfl, hlookup]
    exact congrArg Prod.fst (if_pos h)

/-- Half a second later the records are still as old as they were. -/
theorem Resolver.hit_aged_early : ∃ (p : CachePut) (out : ResolveOutput) (s' : Resolver),
    resolveQuery plainQueryCrates smallConfig (smallEnv 500000000) wwwQuery resolvedOnce =
        .ok out s' ∧ wwwAnswer = p.answer ∧
      Aged ((500000000 - p.now) / nanosPerSec) p.answers out.answers := by
  obtain ⟨p, out, s', -, -, hanswer, hquery, haged⟩ := Resolver.hit_aged_iff plainQueryCrates 1024
    86400 (.initial 1024 0 86400) rfl rfl [⟨smallConfig, smallEnv 0, .query wwwQuery⟩] smallConfig
    (smallEnv 500000000) wwwQuery wwwAnswer (resolvedOnce_hits _ (by decide))
  refine ⟨p, out, s', hquery, hanswer, (haged.mpr (.inl ?_)).1⟩
  exact Nat.div_eq_of_lt (lt_of_le_of_lt (Nat.sub_le _ _) (by decide))

/-- A minute later the cache answers with the TTL that the upstream gave, though a minute of it is
over. -/
theorem Resolver.hit_not_aged :
    ∃ out s', resolveQuery plainQueryCrates smallConfig (smallEnv (60 * nanosPerSec)) wwwQuery
        resolvedOnce = .ok out s' ∧
      resolvedOnce.stored = [(smallEnv 0).put ⟨.Forward [⟨"1.1.1.1", .Udp, 53, none⟩],
        .ofPlain "www.example", .A⟩] ∧
      out.answers = [⟨.ofPlain "www.example", 300, .a 0x08080808⟩] ∧
      ¬ Aged 60 wwwAnswer.answers out.answers := by
  obtain ⟨out, s', hquery, hperm, -⟩ :=
    (resolvedOnce_hits (60 * nanosPerSec) (by decide)).resolveQuery
  refine ⟨out, s', hquery, by decide +kernel, List.perm_singleton.mp hperm, ?_⟩
  rw [aged_iff_of_perm hperm]
  simp [wwwAnswer]

end Nomina
