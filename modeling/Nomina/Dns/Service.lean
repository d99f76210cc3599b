import Nomina.Dns.Resolve

/-!
# Serving queries

What `resolve_query` does, case by case: a query is blocked for its client, answered with synthesized
records, answered from the local zones, or leaves them, and then the filters decide. The server as a
whole takes steps: it resolves a query, the worker takes a round, or the log and the cache are cleared.
-/

namespace Nomina

open Lib

variable (X : QueryCrates) (C : Config) (E : Env)

/-! ## Decisions -/

/-- The query gets past the blocking of clients and the synthesized records. -/
structure LooksUp (q : DnsQuery) : Prop where
  asn : C.asnBlocked q.client = false
  synthesized : (mdnsAnswer X C E q.qname q.qtype).or (apexAnswer X C E q) = none

/-- The query leaves the local zones. -/
structure Leaves (q : DnsQuery) : Prop extends LooksUp X C E q where
  zone : C.store.zoneFor q.qname = none

/-- The filters let a name pass. -/
def Config.Passes (qname : Name) : Prop :=
  C.filter.decide (nameKey X.toCrates qname) = .allow ∨
    C.filter.decide (nameKey X.toCrates qname) = .pass ∧
      isSuspicious X.scripts (nameKey X.toCrates qname) C.settings.homographProtection = false

/-- The query is blocked, for its client or by the filters. -/
def Blocks (q : DnsQuery) : Prop :=
  C.asnBlocked q.client = true ∨
    Leaves X C E q ∧ C.filter.decide (nameKey X.toCrates q.qname) = .block

/-- What the local zones say about a query. -/
def Config.lookup (q : DnsQuery) : LookupResult :=
  C.store.lookup X.toCrates q.qname q.qtype q.client (C.geo.lookup q.client)

variable {X C E} {q : DnsQuery} {s s' : Resolver}

/-- The local zones have nothing to say exactly when none covers the name. -/
lemma Config.lookup_notAuthoritative :
    (C.lookup X q).outcome = .NotAuthoritative ↔ C.store.zoneFor q.qname = none := by
  unfold Config.lookup
  cases hzone : C.store.zoneFor q.qname with
  | none =>
    rw [lookup_of_zoneFor_none hzone]
    exact iff_of_true rfl rfl
  | some zone =>
    refine iff_of_false ?_ (Option.some_ne_none zone)
    rw [lookup_of_zoneFor hzone]
    by_cases hsoa : q.qtype = .SOA ∧ nameKey X.toCrates q.qname = nameKey X.toCrates zone.apex
    · simp [lookupIn_soa hsoa, LookupResult.ok]
    · rw [lookupIn_entry hsoa]
      cases recordsAt zone (nameKey X.toCrates q.qname) with
      | none => simp
      | some recs =>
        rw [Option.elim_some]
        obtain ⟨-, h | h⟩ := answer_outcome (K := X.toCrates) zone
          (C.store.clientView q.client (C.geo.lookup q.client))
          (Option.map Prod.snd (C.store.viewFor q.client (C.geo.lookup q.client))) q.qname q.qtype recs
        · rw [h]
          simp
        · rw [h]
          simp

/-! ## Answers -/

/-- A query from a blocked client. -/
lemma answerQuery_asn (h : C.asnBlocked q.client = true) : answerQuery X C E q s =
    .ok (none, .Blocked, blockAnswer C.settings.blockMode q.qname q.qtype C.upstream.isSome) s := by
  unfold answerQuery
  dsimp only
  rw [if_pos h]
  rfl

/-- A query answered with synthesized records. -/
lemma answerQuery_synthesized (hasn : C.asnBlocked q.client = false) {answers : List Record}
    (h : (mdnsAnswer X C E q.qname q.qtype).or (apexAnswer X C E q) = some answers) :
    answerQuery X C E q s =
      .ok (none, .Authoritative, ⟨answers, [], .NoError, true, C.upstream.isSome⟩) s := by
  unfold answerQuery
  dsimp only
  rw [if_neg (by simp [hasn]), h]
  rfl

/-- A query that is looked up: the answer is signed and balanced. -/
lemma LooksUp.answerQuery (h : LooksUp X C E q) {out : ResolveOutput} {stat : QueryOutcome}
    (hrun : resolveLookup X C E q (C.lookup X q) C.upstream.isSome s = .ok (out, stat) s') :
    ∃ answers n, answerQuery X C E q s = .ok ((C.lookup X q).viewName, stat,
        { signed X C E q (C.lookup X q).outcome out with answers })
        { s' with rrCounter := n, stats := s'.stats.recordResolved (answerAddrs answers) } ∧
      answers.Perm (signed X C E q (C.lookup X q).outcome out).answers ∧
      answers.map (·.data.recordType) =
        (signed X C E q (C.lookup X q).outcome out).answers.map (·.data.recordType) := by
  obtain ⟨answers, n, hbalance, hperm, htypes⟩ :=
    applyLoadBalance_run C E (signed X C E q (C.lookup X q).outcome out).answers s'
  refine ⟨answers, n, ?_, hperm, htypes⟩
  unfold Nomina.answerQuery
  dsimp only
  rw [if_neg (by simp [h.asn]), h.synthesized]
  exact (EStateM.run_bind_ok hrun _).trans (EStateM.run_bind_ok hbalance _)

/-- In a local zone the answer is what the lookup finds. -/
lemma resolveLookup_local (h : C.store.zoneFor q.qname ≠ none) (recursionAvailable : Bool)
    (s : Resolver) :
    ∃ stat rcode, resolveLookup X C E q (C.lookup X q) recursionAvailable s =
      .ok (⟨(C.lookup X q).answers, (C.lookup X q).authority, rcode, true, recursionAvailable⟩, stat)
        s := by
  unfold resolveLookup
  cases houtcome : (C.lookup X q).outcome with
  | Authoritative => exact ⟨_, _, rfl⟩
  | NoData => exact ⟨_, _, rfl⟩
  | NxDomain => exact ⟨_, _, rfl⟩
  | NotAuthoritative => exact absurd (Config.lookup_notAuthoritative.mp houtcome) h

/-- A query that leaves the local zones is answered with what comes from outside. -/
lemma Leaves.answerQuery (h : Leaves X C E q) {out : ResolveOutput} {stat : QueryOutcome}
    (hrun : resolveExternal X C E q.qname q.qtype C.upstream.isSome s = .ok (out, stat) s') :
    ∃ answers n, Nomina.answerQuery X C E q s =
        .ok ((C.lookup X q).viewName, stat, { out with answers })
          { s' with rrCounter := n, stats := s'.stats.recordResolved (answerAddrs answers) } ∧
      answers.Perm out.answers := by
  have houtcome : (C.lookup X q).outcome = .NotAuthoritative :=
    Config.lookup_notAuthoritative.mpr h.zone
  have hlookup : resolveLookup X C E q (C.lookup X q) C.upstream.isSome s = .ok (out, stat) s' := by
    unfold resolveLookup
    rw [houtcome]
    exact hrun
  obtain ⟨answers, n, hanswer, hperm, -⟩ := h.toLooksUp.answerQuery hlookup
  have hsigned : signed X C E q (C.lookup X q).outcome out = out := by
    unfold signed
    rw [if_neg (by simp [houtcome])]
  rw [hsigned] at hanswer hperm
  exact ⟨answers, n, hanswer, hperm⟩

/-! ## Filters -/

section Filters

variable {qname : Name} {qtype : RecordType} {recursionAvailable : Bool}

lemma resolveExternal_rewrite {target : RewriteTarget}
    (h : C.filter.decide (nameKey X.toCrates qname) = .rewrite target) :
    resolveExternal X C E qname qtype recursionAvailable =
      rewriteAnswer C E qname qtype target recursionAvailable := by
  unfold resolveExternal
  dsimp only
  rw [h]

/-- A name that passes the filters is forwarded. -/
lemma Config.Passes.resolveExternal (h : C.Passes X qname) :
    Nomina.resolveExternal X C E qname qtype recursionAvailable =
      forward X C E qname qtype recursionAvailable := by
  unfold Nomina.resolveExternal
  dsimp only
  rcases h with h | ⟨h, hsafe⟩
  · rw [h]
  · rw [h]
    dsimp only
    rw [if_neg (by simp [hsafe])]

/-- A block only counts the blocklist it is due to. -/
lemma resolveExternal_block (h : C.filter.decide (nameKey X.toCrates qname) = .block)
    (qtype : RecordType) (recursionAvailable : Bool) (s : Resolver) :
    ∃ hits, resolveExternal X C E qname qtype recursionAvailable s =
      .ok (blockAnswer C.settings.blockMode qname qtype recursionAvailable, .Blocked)
        { s with stats := { s.stats with blocklistHits := hits } } := by
  unfold resolveExternal
  dsimp only
  rw [h]
  dsimp only
  cases C.filter.blocklistHit (nameKey X.toCrates qname) with
  | none => exact ⟨s.stats.blocklistHits, rfl⟩
  | some id => exact ⟨_, rfl⟩

end Filters

/-! ## Statistics -/

/-- Logging changes the statistics, apart from the blocked clients, and the log. -/
lemma logStat_run (view : Option Str) (stat : QueryOutcome) (out : ResolveOutput) (s : Resolver) :
    ∃ stats qlog, logStat X C E q view stat out s = .ok () { s with stats, qlog } ∧
      stats.blockedClient = s.stats.blockedClient := by
  have hclient (mode : QueryLog) (st : Stats) : (st.record mode q.client view (nameText X q.qname)
      q.qtype.toText stat out.rcode.toText E.sec E.time).2.blockedClient = st.blockedClient := by
    unfold Stats.record
    dsimp only
    split <;> rfl
  unfold logStat
  rw [EStateM.run_get_bind]
  dsimp only
  cases (s.stats.record C.settings.queryLog q.client view (nameText X q.qname) q.qtype.toText stat
    out.rcode.toText E.sec E.time).1 with
  | none => exact ⟨_, s.qlog, rfl, hclient _ _⟩
  | some entry =>
    by_cases hroom : s.qlog.length < 10000
    · exact ⟨_, s.qlog ++ [entry], congrArg (EStateM.Result.ok ()) (if_pos hroom), hclient _ _⟩
    · exact ⟨_, s.qlog, congrArg (EStateM.Result.ok ()) (if_neg hroom), hclient _ _⟩

/-- Recording a query changes the statistics and the queues: a blocked one adds its client to the
former and its domain to the latter. -/
lemma recordStat_run (view : Option Str) (stat : QueryOutcome) (out : ResolveOutput) (s : Resolver) :
    ∃ stats qlog, recordStat X C E q view stat out s = .ok () { s with
        stats, qlog
        blocked := if stat = .Blocked ∧ s.blocked.length < 4096 then
          s.blocked ++ [nameText X q.qname] else s.blocked } ∧
      stats.blockedClient = if stat = .Blocked then
        Stats.countGlobal s.stats.blockedClient q.client else s.stats.blockedClient := by
  unfold recordStat
  by_cases hstat : stat = .Blocked
  · have hnote : noteBlocked X q s = .ok () { s with
        stats := s.stats.recordBlockedClient q.client
        blocked := if s.blocked.length < 4096 then s.blocked ++ [nameText X q.qname]
          else s.blocked } := by
      by_cases hroom : s.blocked.length < 4096
      · rw [if_pos hroom]
        exact congrArg (EStateM.Result.ok ()) (if_pos hroom)
      · rw [if_neg hroom]
        exact congrArg (EStateM.Result.ok ()) (if_neg hroom)
    obtain ⟨stats, qlog, hlog, hclient⟩ := logStat_run (C := C) (E := E) (q := q) (X := X) view stat out
      { s with
        stats := s.stats.recordBlockedClient q.client
        blocked := if s.blocked.length < 4096 then s.blocked ++ [nameText X q.qname] else s.blocked }
    refine ⟨stats, qlog, ?_, ?_⟩
    · rw [if_pos hstat]
      refine (EStateM.run_bind_ok hnote _).trans (hlog.trans ?_)
      simp only [hstat, true_and]
    · rw [if_pos hstat, hclient]
      rfl
  · obtain ⟨stats, qlog, hlog, hclient⟩ := logStat_run (C := C) (E := E) (q := q) (X := X) view stat out s
    refine ⟨stats, qlog, ?_, ?_⟩
    · rw [if_neg hstat]
      refine hlog.trans ?_
      simp only [hstat, false_and, if_false]
    · rw [if_neg hstat, hclient]

/-- A query ends with its statistics. -/
lemma resolveQuery_run {view : Option Str} {stat : QueryOutcome} {out : ResolveOutput}
    (h : answerQuery X C E q s = .ok (view, stat, out) s') :
    ∃ stats qlog, resolveQuery X C E q s = .ok out { s' with
        stats, qlog
        blocked := if stat = .Blocked ∧ s'.blocked.length < 4096 then
          s'.blocked ++ [nameText X q.qname] else s'.blocked } ∧
      stats.blockedClient = if stat = .Blocked then
        Stats.countGlobal s'.stats.blockedClient q.client else s'.stats.blockedClient := by
  obtain ⟨stats, qlog, hrecord, hclient⟩ :=
    recordStat_run (X := X) (C := C) (E := E) (q := q) view stat out s'
  exact ⟨stats, qlog, (EStateM.run_bind_ok h _).trans (EStateM.run_bind_ok hrecord _), hclient⟩

/-! ## Forwarding -/

section Forwarding

variable {qname : Name} {qtype : RecordType} {recursionAvailable : Bool}

/-- A rejected answer only counts. -/
lemma noteValidation_run (r : CachedAnswer) (s : Resolver) :
    ∃ stats, noteValidation C r s = .ok () { s with stats } := by
  unfold noteValidation
  split
  · exact ⟨_, rfl⟩
  · exact ⟨s.stats, rfl⟩

/-- A conditional forwarder is asked for the name. -/
lemma forward_conditional {up : Upstream}
    (h : matchFor C.conditional (nameKey X.toCrates qname) = some up) (qtype : RecordType)
    (recursionAvailable : Bool) (s : Resolver) :
    ∃ stats, forward X C E qname qtype recursionAvailable s =
      .ok ((E.respond ⟨up, qname, qtype⟩).output true,
          upstreamOutcome (E.respond ⟨up, qname, qtype⟩).rcode)
        { s with stats, asked := s.asked ++ [⟨up, qname, qtype⟩] } := by
  obtain ⟨stats, hnote⟩ := noteValidation_run (C := C) (E.respond ⟨up, qname, qtype⟩)
    { s with asked := s.asked ++ [⟨up, qname, qtype⟩] }
  refine ⟨stats, ?_⟩
  unfold forward
  rw [h]
  exact EStateM.run_bind_ok hnote _

/-- Without a conditional forwarder, the global resolver is next. -/
lemma forward_global (h : matchFor C.conditional (nameKey X.toCrates qname) = none) :
    forward X C E qname qtype recursionAvailable =
      resolveGlobal X C E qname qtype recursionAvailable := by
  unfold forward
  rw [h]

/-- A hit of the cache is returned. -/
lemma resolveGlobal_hit {up : Upstream} (hup : C.upstream = some up) {c : CachedAnswer}
    (h : (s.cache.get X.toCrates qname qtype E.now).1 = some c) :
    resolveGlobal X C E qname qtype recursionAvailable s =
      .ok (c.output recursionAvailable, .Cached)
        { s with cache := (s.cache.get X.toCrates qname qtype E.now).2 } := by
  have hget : cacheGet X E qname qtype s =
      .ok (some c) { s with cache := (s.cache.get X.toCrates qname qtype E.now).2 } := by
    rw [← h]
    rfl
  unfold resolveGlobal
  rw [hup]
  exact EStateM.run_bind_ok hget _

/-- The put of an answer to a question of the global resolver. -/
def Env.put (E : Env) (a : Asked) : CachePut :=
  ⟨a.name, a.rtype, (E.respond a).answers, (E.respond a).authority, (E.respond a).rcode, E.now⟩

variable (X E) in
/-- The state after a miss of the cache: the upstream was asked, and its answer offered to the
cache. -/
def Resolver.missed (s : Resolver) (a : Asked) : Resolver :=
  let s := { s with
    cache := (s.cache.get X.toCrates a.name a.rtype E.now).2
    asked := s.asked ++ [a] }
  match s.cache.put X.toCrates (E.put a) with
  | some cache => { s with
      cache, stored := if s.cache.stores (E.put a) then E.put a :: s.stored else s.stored }
  | none => s

/-- An answer that is offered to the cache is stored, dropped, or ends the query. -/
lemma after_cachePut (qname : Name) (qtype : RecordType) (r : CachedAnswer) (s : Resolver) :
    (cachePut X E qname qtype r).after s =
      match s.cache.put X.toCrates ⟨qname, qtype, r.answers, r.authority, r.rcode, E.now⟩ with
      | some cache => { s with
          cache
          stored := if s.cache.stores ⟨qname, qtype, r.answers, r.authority, r.rcode, E.now⟩ then
            ⟨qname, qtype, r.answers, r.authority, r.rcode, E.now⟩ :: s.stored else s.stored }
      | none => s := by
  unfold cachePut EStateM.after
  rw [EStateM.run_get_bind]
  cases s.cache.put X.toCrates ⟨qname, qtype, r.answers, r.authority, r.rcode, E.now⟩ <;> rfl

/-- After a miss of the cache the upstream is asked for the name, and its answer is offered to the
cache. -/
lemma resolveGlobal_miss {up : Upstream} (hup : C.upstream = some up)
    (recursionAvailable : Bool) (h : (s.cache.get X.toCrates qname qtype E.now).1 = none) :
    ∃ stats, resolveGlobal X C E qname qtype recursionAvailable s =
      (cachePut X E qname qtype (E.respond ⟨up, qname, qtype⟩) >>= fun _ =>
        pure ((E.respond ⟨up, qname, qtype⟩).output recursionAvailable,
          upstreamOutcome (E.respond ⟨up, qname, qtype⟩).rcode))
        { s with
          cache := (s.cache.get X.toCrates qname qtype E.now).2
          asked := s.asked ++ [⟨up, qname, qtype⟩]
          stats } := by
  obtain ⟨stats, hnote⟩ := noteValidation_run (C := C) (E.respond ⟨up, qname, qtype⟩)
    { s with
      cache := (s.cache.get X.toCrates qname qtype E.now).2
      asked := s.asked ++ [⟨up, qname, qtype⟩] }
  refine ⟨stats, ?_⟩
  have hget : cacheGet X E qname qtype s =
      .ok none { s with cache := (s.cache.get X.toCrates qname qtype E.now).2 } := by
    rw [← h]
    rfl
  unfold resolveGlobal
  rw [hup]
  exact (EStateM.run_bind_ok hget _).trans (EStateM.run_bind_ok hnote _)

/-- What the state is after a miss of the cache. -/
lemma after_resolveGlobal_miss {up : Upstream} (hup : C.upstream = some up)
    (recursionAvailable : Bool) (h : (s.cache.get X.toCrates qname qtype E.now).1 = none) :
    ∃ stats, (resolveGlobal X C E qname qtype recursionAvailable).after s =
      { s.missed X E ⟨up, qname, qtype⟩ with stats } := by
  obtain ⟨stats, hrun⟩ := resolveGlobal_miss hup recursionAvailable h
  refine ⟨stats, ?_⟩
  have hafter : (resolveGlobal X C E qname qtype recursionAvailable).after s =
      (cachePut X E qname qtype (E.respond ⟨up, qname, qtype⟩)).after _ :=
    (EStateM.after_congr hrun).trans (EStateM.after_bind_pure _ _ _)
  rw [hafter, after_cachePut]
  unfold Resolver.missed Env.put
  dsimp only
  cases DnsCache.put X.toCrates (s.cache.get X.toCrates qname qtype E.now).2 _ <;> rfl

end Forwarding

/-! ## Traffic -/

/-- The cache, its history and what the upstreams were asked are the same. -/
structure SameTraffic (s s' : Resolver) : Prop where
  cache : s'.cache = s.cache
  stored : s'.stored = s.stored
  asked : s'.asked = s.asked

/-- Up to the outside world, a query changes neither the cache nor what was asked. -/
lemma sameTraffic_of_not_leaves (h : ¬ Leaves X C E q) (s : Resolver) :
    SameTraffic s ((resolveQuery X C E q).after s) := by
  have hrecord {view : Option Str} {stat : QueryOutcome} {out : ResolveOutput} {n : ℕ} {st : Stats}
      (hanswer : answerQuery X C E q s =
        .ok (view, stat, out) { s with rrCounter := n, stats := st }) :
      SameTraffic s ((resolveQuery X C E q).after s) := by
    obtain ⟨stats, qlog, hrun, -⟩ := resolveQuery_run hanswer
    unfold EStateM.after
    rw [hrun]
    exact ⟨rfl, rfl, rfl⟩
  by_cases hasn : C.asnBlocked q.client = true
  · exact hrecord (answerQuery_asn hasn)
  · rw [Bool.not_eq_true] at hasn
    cases hsynth : (mdnsAnswer X C E q.qname q.qtype).or (apexAnswer X C E q) with
    | some answers => exact hrecord (answerQuery_synthesized hasn hsynth)
    | none =>
      have hlooksUp : LooksUp X C E q := ⟨hasn, hsynth⟩
      have hzone : C.store.zoneFor q.qname ≠ none := fun hzone => h ⟨hlooksUp, hzone⟩
      obtain ⟨stat, rcode, hlookup⟩ := resolveLookup_local hzone C.upstream.isSome s
      obtain ⟨answers, n, hanswer, -⟩ := hlooksUp.answerQuery hlookup
      exact hrecord hanswer

/-- After the outside world, a query changes neither the cache nor what was asked. -/
lemma Leaves.sameTraffic (h : Leaves X C E q) (s : Resolver) :
    SameTraffic ((resolveExternal X C E q.qname q.qtype C.upstream.isSome).after s)
      ((resolveQuery X C E q).after s) := by
  cases hrun : resolveExternal X C E q.qname q.qtype C.upstream.isSome s with
  | ok r s' =>
    obtain ⟨answers, n, hanswer, -⟩ := h.answerQuery hrun
    obtain ⟨stats, qlog, hquery, -⟩ := resolveQuery_run hanswer
    unfold EStateM.after
    rw [hrun, hquery]
    exact ⟨rfl, rfl, rfl⟩
  | error e s' =>
    have hlookup : resolveLookup X C E q (C.lookup X q) C.upstream.isSome s = .error e s' := by
      unfold resolveLookup
      rw [Config.lookup_notAuthoritative.mpr h.zone]
      exact hrun
    have hanswer : Nomina.answerQuery X C E q s = .error e s' := by
      unfold Nomina.answerQuery
      dsimp only
      rw [if_neg (by simp [h.asn]), h.synthesized]
      exact EStateM.run_bind_error hlookup _
    have hquery : resolveQuery X C E q s = .error e s' := EStateM.run_bind_error hanswer _
    unfold EStateM.after
    rw [hrun, hquery]
    exact ⟨rfl, rfl, rfl⟩

/-- What a query does to the cache and the upstreams. -/
inductive Traffic (X : QueryCrates) (C : Config) (E : Env) (q : DnsQuery) (s s' : Resolver) : Prop
  /-- Nothing is asked, and the cache stays. -/
  | idle (h : SameTraffic s s')
  /-- The target of a rewrite is resolved. -/
  | rewrite (target : Name) (up : Upstream) (hleaves : Leaves X C E q)
      (hfilter : C.filter.decide (nameKey X.toCrates q.qname) = .rewrite (.name target))
      (hup : C.upstream = some up) (hqtype : q.qtype = .A ∨ q.qtype = .AAAA)
      (h : SameTraffic { s with asked := s.asked ++ [⟨up, target, q.qtype⟩] } s')
  /-- The query goes to a conditional forwarder. -/
  | conditional (up : Upstream) (hleaves : Leaves X C E q)
      (h : SameTraffic { s with asked := s.asked ++ [⟨up, q.qname, q.qtype⟩] } s')
  /-- The query is answered from the cache. -/
  | hit (hleaves : Leaves X C E q)
      (h : SameTraffic { s with cache := (s.cache.get X.toCrates q.qname q.qtype E.now).2 } s')
  /-- The query goes to the global resolver. -/
  | miss (up : Upstream) (hleaves : Leaves X C E q)
      (h : SameTraffic (s.missed X E ⟨up, q.qname, q.qtype⟩) s')

lemma SameTraffic.trans {t : Resolver} (h : SameTraffic s t) (h' : SameTraffic t s') :
    SameTraffic s s' :=
  ⟨h'.cache.trans h.cache, h'.stored.trans h.stored, h'.asked.trans h.asked⟩

/-- The kind of a query does not depend on what else it changes. -/
lemma Traffic.same {t : Resolver} (h : Traffic X C E q s t) (h' : SameTraffic t s') :
    Traffic X C E q s s' := by
  cases h with
  | idle h => exact .idle (h.trans h')
  | rewrite target up hleaves hfilter hup hqtype h =>
    exact .rewrite target up hleaves hfilter hup hqtype (h.trans h')
  | conditional up hleaves h => exact .conditional up hleaves (h.trans h')
  | hit hleaves h => exact .hit hleaves (h.trans h')
  | miss up hleaves h => exact .miss up hleaves (h.trans h')

/-- The traffic of a rewrite. -/
lemma Leaves.traffic_rewrite (h : Leaves X C E q) {target : RewriteTarget}
    (hfilter : C.filter.decide (nameKey X.toCrates q.qname) = .rewrite target)
    (recursionAvailable : Bool) (s : Resolver) :
    Traffic X C E q s
      ((rewriteAnswer C E q.qname q.qtype target recursionAvailable).after s) := by
  unfold rewriteAnswer
  rw [EStateM.after_bind_pure]
  cases target with
  | ip ip =>
    cases ip with
    | v4 ip => exact .idle ⟨rfl, rfl, rfl⟩
    | v6 ip => exact .idle ⟨rfl, rfl, rfl⟩
  | name target =>
    unfold rewriteRecords
    cases hup : C.upstream with
    | none => exact .idle ⟨rfl, rfl, rfl⟩
    | some up =>
      dsimp only
      split
      · rename_i hqtype
        exact .rewrite target up h hfilter hup hqtype ⟨rfl, rfl, rfl⟩
      · exact .idle ⟨rfl, rfl, rfl⟩

/-- The traffic of a name that passes the filters. -/
lemma Leaves.traffic_forward (h : Leaves X C E q) (recursionAvailable : Bool) (s : Resolver) :
    Traffic X C E q s ((forward X C E q.qname q.qtype recursionAvailable).after s) := by
  cases hmatch : matchFor C.conditional (nameKey X.toCrates q.qname) with
  | some up =>
    obtain ⟨stats, hrun⟩ := forward_conditional (E := E) hmatch q.qtype recursionAvailable s
    refine .conditional up h ?_
    unfold EStateM.after
    rw [hrun]
    exact ⟨rfl, rfl, rfl⟩
  | none =>
    rw [forward_global hmatch]
    cases hup : C.upstream with
    | none =>
      unfold resolveGlobal
      rw [hup]
      exact .idle ⟨rfl, rfl, rfl⟩
    | some up =>
      cases hget : (s.cache.get X.toCrates q.qname q.qtype E.now).1 with
      | some c =>
        refine .hit h ?_
        unfold EStateM.after
        rw [resolveGlobal_hit hup hget]
        exact ⟨rfl, rfl, rfl⟩
      | none =>
        obtain ⟨stats, hafter⟩ := after_resolveGlobal_miss hup recursionAvailable hget
        refine .miss up h ?_
        rw [hafter]
        exact ⟨rfl, rfl, rfl⟩

/-- Every query is of one of these kinds. -/
lemma resolveQuery_traffic (X : QueryCrates) (C : Config) (E : Env) (q : DnsQuery) (s : Resolver) :
    Traffic X C E q s ((resolveQuery X C E q).after s) := by
  by_cases hleaves : Leaves X C E q
  · refine Traffic.same ?_ (hleaves.sameTraffic s)
    cases hfilter : C.filter.decide (nameKey X.toCrates q.qname) with
    | rewrite target =>
      rw [resolveExternal_rewrite hfilter]
      exact hleaves.traffic_rewrite hfilter _ s
    | block =>
      obtain ⟨hits, hrun⟩ := resolveExternal_block (E := E) hfilter q.qtype C.upstream.isSome s
      unfold EStateM.after
      rw [hrun]
      exact .idle ⟨rfl, rfl, rfl⟩
    | allow =>
      rw [Config.Passes.resolveExternal (.inl hfilter)]
      exact hleaves.traffic_forward _ s
    | pass =>
      cases hsafe : isSuspicious X.scripts (nameKey X.toCrates q.qname)
          C.settings.homographProtection with
      | false =>
        rw [Config.Passes.resolveExternal (.inr ⟨hfilter, hsafe⟩)]
        exact hleaves.traffic_forward _ s
      | true =>
        unfold resolveExternal
        dsimp only
        rw [hfilter]
        dsimp only
        rw [if_pos hsafe]
        exact .idle ⟨rfl, rfl, rfl⟩
  · exact .idle (sameTraffic_of_not_leaves hleaves s)

/-! ## What an answer leaves alone -/

section Frame

variable {R : Resolver → Resolver → Prop} [IsPreorder Resolver R]
  (hframe : ∀ (s : Resolver) (cache : DnsCache) (rrCounter : ℕ) (stats : Stats)
    (stored : List CachePut) (asked : List Asked),
    R s { s with cache, rrCounter, stats, stored, asked })

include hframe

lemma keeps_forward (qname : Name) (qtype : RecordType) (recursionAvailable : Bool) :
    EStateM.Keeps R (forward X C E qname qtype recursionAvailable) := by
  have hresolve (up : Upstream) : EStateM.Keeps R (up.resolve E qname qtype) :=
    fun s => hframe s _ _ _ _ _
  have hnote (r : CachedAnswer) : EStateM.Keeps R (noteValidation C r) := by
    intro s
    obtain ⟨stats, hrun⟩ := noteValidation_run (C := C) r s
    unfold EStateM.after
    rw [hrun]
    exact hframe s _ _ _ _ _
  have hput (r : CachedAnswer) : EStateM.Keeps R (cachePut X E qname qtype r) := by
    intro s
    rw [after_cachePut]
    split
    · exact hframe s _ _ _ _ _
    · exact refl_of R s
  unfold forward
  split
  · exact (hresolve _).bind fun r => (hnote r).bind fun _ => .pure _
  · unfold resolveGlobal
    split
    · have hget : EStateM.Keeps R (cacheGet X E qname qtype) := fun s => hframe s _ _ _ _ _
      refine hget.bind fun hit => ?_
      cases hit with
      | some c => exact .pure _
      | none =>
        exact (hresolve _).bind fun r => (hnote r).bind fun _ => (hput r).bind fun _ => .pure _
    · exact .pure _

lemma keeps_resolveExternal (qname : Name) (qtype : RecordType) (recursionAvailable : Bool) :
    EStateM.Keeps R (resolveExternal X C E qname qtype recursionAvailable) := by
  have hstats (f : Stats → Stats) : EStateM.Keeps R (onStats f) := fun s => hframe s _ _ _ _ _
  unfold resolveExternal
  dsimp only
  split
  · rename_i target _
    refine EStateM.Keeps.bind ?_ fun _ => .pure _
    unfold rewriteRecords
    split
    · exact .pure _
    · exact .pure _
    · split
      · split
        · exact EStateM.Keeps.bind (fun s => hframe s _ _ _ _ _) fun _ => .pure _
        · exact .pure _
      · exact .pure _
  · split
    · exact (hstats _).bind fun _ => .pure _
    · exact .pure _
  · exact keeps_forward hframe qname qtype recursionAvailable
  · split
    · exact .pure _
    · exact keeps_forward hframe qname qtype recursionAvailable

/-- Up to its statistics, a query keeps whatever does not depend on the cache, the counters, the
statistics and the upstreams. -/
lemma keeps_answerQuery (q : DnsQuery) : EStateM.Keeps R (answerQuery X C E q) := by
  unfold answerQuery
  dsimp only
  split
  · exact .pure _
  · split
    · exact .pure _
    · refine EStateM.Keeps.bind ?_ fun _ => EStateM.Keeps.bind ?_ fun _ => EStateM.Keeps.bind ?_
        fun _ => .pure _
      · unfold resolveLookup
        split
        · exact .pure _
        · exact .pure _
        · exact .pure _
        · exact keeps_resolveExternal hframe q.qname q.qtype _
      · intro s
        obtain ⟨answers, n, hrun, -⟩ := applyLoadBalance_run C E _ s
        unfold EStateM.after
        rw [hrun]
        exact hframe s _ _ _ _ _
      · exact fun s => hframe s _ _ _ _ _

end Frame

/-! ## Blocked queries -/

/-- A blocked query is counted as such. Up to then it leaves the clients, the queues and the upstreams
alone. -/
lemma Blocks.answerQuery (h : Blocks X C E q) (s : Resolver) :
    ∃ view out s', Nomina.answerQuery X C E q s = .ok (view, .Blocked, out) s' ∧
      s'.stats.blockedClient = s.stats.blockedClient ∧ s'.blocked = s.blocked ∧
      s'.asked = s.asked := by
  rcases h with hasn | ⟨hleaves, hblock⟩
  · exact ⟨_, _, s, answerQuery_asn hasn, rfl, rfl, rfl⟩
  · obtain ⟨hits, hrun⟩ :=
      resolveExternal_block (E := E) hblock q.qtype C.upstream.isSome s
    obtain ⟨answers, n, hanswer, -⟩ := hleaves.answerQuery hrun
    exact ⟨_, _, _, hanswer, rfl, rfl, rfl⟩

/-- What a forwarded name is counted as. -/
lemma yields_forward (qname : Name) (qtype : RecordType) (recursionAvailable : Bool) :
    EStateM.Yields (fun r => r.2 ≠ .Blocked) (forward X C E qname qtype recursionAvailable) := by
  have hupstream (r : CachedAnswer) : upstreamOutcome r.rcode ≠ .Blocked := by
    unfold upstreamOutcome
    split <;> simp
  unfold forward
  split
  · exact .bind fun r => .bind fun _ => .pure (hupstream r)
  · unfold resolveGlobal
    split
    · refine .bind fun hit => ?_
      cases hit with
      | some c => exact .pure (by simp)
      | none => exact .bind fun r => .bind fun _ => .bind fun _ => .pure (hupstream r)
    · exact .pure (by simp)

/-- Outside the local zones, only the filters block. -/
lemma yields_resolveExternal (qname : Name) (qtype : RecordType) (recursionAvailable : Bool) :
    EStateM.Yields (fun r => r.2 = .Blocked →
      C.filter.decide (nameKey X.toCrates qname) = .block)
      (resolveExternal X C E qname qtype recursionAvailable) := by
  unfold resolveExternal
  dsimp only
  split
  · exact .bind fun _ => .pure (by simp)
  · rename_i hblock
    exact fun _ _ _ _ => hblock
  · exact fun s r hr hstat => absurd hstat (yields_forward qname qtype recursionAvailable s r hr)
  · split
    · exact .pure (by simp)
    · exact fun s r hr hstat => absurd hstat (yields_forward qname qtype recursionAvailable s r hr)

/-- Only blocked queries are counted as such. -/
lemma blocks_of_answerQuery {view : Option Str} {out : ResolveOutput}
    (h : (answerQuery X C E q).result s = .ok (view, .Blocked, out)) : Blocks X C E q := by
  by_contra hblocks
  obtain ⟨hasn, hexternal⟩ := not_or.mp hblocks
  have hasn' : C.asnBlocked q.client = false := by
    simpa using hasn
  unfold answerQuery at h
  dsimp only at h
  rw [if_neg hasn] at h
  split at h
  · cases h
  · rename_i hsynth
    obtain ⟨⟨o, stat⟩, hlookup, h, -⟩ := EStateM.bind_ok h
    obtain ⟨answers, -, h, -⟩ := EStateM.bind_ok h
    obtain ⟨-, -, h, -⟩ := EStateM.bind_ok h
    cases h
    unfold resolveLookup at hlookup
    split at hlookup
    · cases hlookup
    · cases hlookup
    · cases hlookup
    · rename_i houtcome
      have hzone := Config.lookup_notAuthoritative.mp houtcome
      exact hexternal ⟨⟨⟨hasn', hsynth⟩, hzone⟩,
        yields_resolveExternal _ _ _ _ _ hlookup rfl⟩

/-! ## The worker -/

variable (X C) in
/-- What is asked to locate a domain. -/
def Config.locates (domain : Str) : List Asked :=
  match C.upstream, X.fromAscii (domain ++ ['.']) with
  | some up, .ok name => [⟨up, name, .A⟩]
  | _, _ => []

lemma locateDomain_run (X : QueryCrates) (C : Config) (E : Env) (domain : Str) (s : Resolver) :
    ∃ stats, (locateDomain X C E domain).after s =
      { s with stats, asked := s.asked ++ C.locates X domain } := by
  unfold locateDomain Config.locates
  cases C.upstream with
  | none => exact ⟨s.stats, by rw [List.append_nil]; rfl⟩
  | some up =>
    cases X.fromAscii (domain ++ ['.']) with
    | error e => exact ⟨s.stats, by rw [List.append_nil]; rfl⟩
    | ok name => exact ⟨_, rfl⟩

variable (X C) in
/-- What the worker asks when it takes a domain. -/
def Resolver.workAsks (s : Resolver) (domain : Str) : List Asked :=
  if C.geo.hasGeoip ∧ ¬ (remembered s.seen).contains domain then
    C.locates X domain
  else []

lemma workDomain_run (X : QueryCrates) (C : Config) (E : Env) (domain : Str) (s : Resolver) :
    ∃ stats seen, (workDomain X C E domain).after s =
      { s with stats, seen, asked := s.asked ++ s.workAsks X C domain } := by
  unfold workDomain Resolver.workAsks
  by_cases hgeo : C.geo.hasGeoip = true
  · rw [if_neg (by simp [hgeo])]
    rw [EStateM.after_congr (EStateM.run_get_bind _ s)]
    split
    · rename_i hseen
      rw [if_neg fun h => h.2 hseen, List.append_nil]
      exact ⟨s.stats, _, rfl⟩
    · rename_i hseen
      rw [if_pos ⟨hgeo, hseen⟩]
      obtain ⟨stats, hlocate⟩ := locateDomain_run X C E domain { s with
        seen := remembered s.seen ++ [domain] }
      exact ⟨stats, _, hlocate⟩
  · rw [if_pos (by simpa using hgeo), if_neg fun h => hgeo h.1, List.append_nil]
    exact ⟨s.stats, s.seen, rfl⟩

/-- A round of the worker takes the first domain from the queue. -/
lemma blockedWorker_run (X : QueryCrates) (C : Config) (E : Env) (s : Resolver) :
    ∃ stats seen, (blockedWorker X C E).after s = { s with
      blocked := s.blocked.tail
      stats, seen
      asked := s.asked ++ (s.blocked.head?.map (s.workAsks X C)).getD [] } := by
  unfold blockedWorker EStateM.after
  rw [EStateM.run_get_bind]
  cases hblocked : s.blocked with
  | nil =>
    refine ⟨s.stats, s.seen, ?_⟩
    simp only [List.head?_nil, Option.map_none, Option.getD_none, List.append_nil, List.tail_nil]
    rw [← hblocked]
    rfl
  | cons domain rest => exact workDomain_run X C E domain { s with blocked := rest }

/-! ## Steps -/

/-- What the server does next. -/
inductive Event
  | query (q : DnsQuery)
  | worker
  /-- `clear_stats` of the web interface. -/
  | clear

/-- A step of the server: what it does, under which configuration, and in which environment. -/
structure Step where
  config : Config
  env : Env
  event : Event

/-- `clear_stats`. -/
def clearStats : Query Unit :=
  modify fun s => { s with
    stats := { s.stats with recent := [], topDomains := ∅, topBlocked := ∅ }
    cache := s.cache.clear
    stored := [] }

variable (X) in
/-- The state a step leaves; a panic ends a query where it occurs. -/
def Resolver.step (s : Resolver) (e : Step) : Resolver :=
  match e.event with
  | .query q => (resolveQuery X e.config e.env q).after s
  | .worker => (blockedWorker X e.config e.env).after s
  | .clear => clearStats.after s

variable (X) in
/-- The state after some steps. -/
def Resolver.run (s : Resolver) (l : List Step) : Resolver :=
  l.foldl (Resolver.step X) s

/-! ## A small server -/

/-- Crates that know plain names only. -/
def plainQueryCrates : QueryCrates where
  toCrates := plainCrates
  signing :=
    ⟨fun s => s, fun _ _ _ _ _ => none, fun _ text => text, fun _ _ => none, fun _ => none, fun _ => []⟩
  scripts := ⟨fun s => s, Char.isAlpha, fun _ => some 0⟩
  arpaAddr _ := none

/-- The default settings, one upstream, no zones and no lists, but a deny rule. -/
def smallConfig : Config where
  store := ⟨[], [], .nil, .nil⟩
  upstream := some (.Forward [⟨"1.1.1.1", .Udp, 53, none⟩])
  conditional := []
  filter := ⟨true, [], ["ads.example"], [], []⟩
  settings := .default
  geo := ⟨false, fun _ => {}⟩
  mdns := ⟨[]⟩

/-- An environment in which the upstreams answer with one address. -/
def smallEnv (now : ℕ) : Env where
  now := now
  sec := now / nanosPerSec
  time := "2026-01-01T00:00:00Z"
  unixTime := 1767225600
  respond a := ⟨[⟨a.name, 300, .a 0x08080808⟩], [], .NoError⟩
  shuffle l := l
  shuffle_perm _ := .refl _

/-- The state the server starts with. -/
def Resolver.initial (cap minTtl maxTtl : ℕ) : Resolver :=
  ⟨.new cap minTtl maxTtl, 0, .new, [], [], [], [], []⟩

end Nomina
