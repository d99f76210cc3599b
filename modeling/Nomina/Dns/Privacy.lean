import Nomina.Dns.Service

/-!
# What is kept of clients

Two runs of the server that differ only in the addresses of the clients are compared, where the query
log is off or anonymous and the clients are not told apart by what the queries may depend on: their
family, the blocking of autonomous systems and their view. Only the map of blocked clients, which the
setting does not gate, tells the runs apart.
-/

namespace Nomina

open Lib

/-! ## The sinks -/

namespace Stats

/-- Whether a public address is counted in a map: it has an entry, or there is room for one. -/
def Counted (m : Map IpAddr ℕ) (ip : IpAddr) : Prop :=
  isGlobal ip = true ∧ (m.len < 5000 ∨ ip ∈ m)

instance (m : Map IpAddr ℕ) (ip : IpAddr) : Decidable (Counted m ip) :=
  inferInstanceAs (Decidable (_ ∧ _))

lemma countGlobal_of_not {m : Map IpAddr ℕ} {ip : IpAddr} (h : ¬ Counted m ip) :
    countGlobal m ip = m := by
  unfold countGlobal
  split
  · rename_i hglobal
    exact if_neg fun hroom => h ⟨hglobal, hroom⟩
  · rfl

/-- A counted address has one more than before. -/
lemma lookup_countGlobal {m : Map IpAddr ℕ} {ip : IpAddr} (h : Counted m ip) :
    (countGlobal m ip).lookup ip = some ((m.lookup ip).getD 0 + 1) := by
  unfold countGlobal Map.bumpWithin
  rw [if_pos h.1, if_pos h.2]
  exact AList.lookup_insert _

/-- The counts of other addresses stay. -/
lemma lookup_countGlobal_ne {m : Map IpAddr ℕ} {ip ip' : IpAddr} (h : ip' ≠ ip) :
    (countGlobal m ip).lookup ip' = m.lookup ip' := by
  unfold countGlobal Map.bumpWithin
  split
  · split
    · exact AList.lookup_insert_ne h
    · rfl
  · rfl

/-- Counting does not tell two addresses apart exactly when they are the same or neither is counted. -/
lemma countGlobal_eq_iff {m : Map IpAddr ℕ} {c c' : IpAddr} :
    countGlobal m c = countGlobal m c' ↔ c = c' ∨ ¬ Counted m c ∧ ¬ Counted m c' := by
  constructor
  · intro h
    by_contra hnot
    obtain ⟨hne, hcounted⟩ := not_or.mp hnot
    rcases not_and_or.mp hcounted with hc | hc
    · have hone := lookup_countGlobal (not_not.mp hc)
      rw [h, lookup_countGlobal_ne hne] at hone
      cases hm : m.lookup c <;> simp [hm] at hone
    · have hone := lookup_countGlobal (not_not.mp hc)
      rw [← h, lookup_countGlobal_ne (Ne.symm hne)] at hone
      cases hm : m.lookup c' <;> simp [hm] at hone
  · rintro (rfl | ⟨hc, hc'⟩)
    · rfl
    · rw [countGlobal_of_not hc, countGlobal_of_not hc']

/-- Without the log, or with networks in it, a query is recorded alike for both clients. -/
lemma record_eq {mode : QueryLog} {c c' : IpAddr} (hfamily : isIpv4 c = isIpv4 c')
    (hlog : mode = .Off ∨ mode = .Anonymized ∧ SameNetwork c c') (s : Stats) (view : Option Str)
    (name qtype : Str) (outcome : QueryOutcome) (rcode : Str) (sec : ℕ) (time : Str) :
    s.record mode c view name qtype outcome rcode sec time =
      s.record mode c' view name qtype outcome rcode sec time := by
  have hcount : count s.counters c outcome = count s.counters c' outcome := by
    unfold count
    rw [hfamily]
  unfold record
  rw [hcount]
  rcases hlog with rfl | ⟨rfl, hnetwork⟩
  · rfl
  · have hlogged : loggedClient .Anonymized c = loggedClient .Anonymized c' := anonymize_eq hnetwork
    rw [hlogged]

end Stats

/-! ## Clients that are not told apart -/

/-- The clients are of one family, the configuration decides about them in the same way, and the log
does not tell them apart. -/
structure Config.Alike (C : Config) (c c' : IpAddr) : Prop where
  family : isIpv4 c = isIpv4 c'
  asn : C.asnBlocked c = C.asnBlocked c'
  view : C.store.viewFor c (C.geo.lookup c) = C.store.viewFor c' (C.geo.lookup c')
  log : C.settings.queryLog = .Off ∨ C.settings.queryLog = .Anonymized ∧ SameNetwork c c'

/-- The step, with its query from another client. -/
def Step.from (e : Step) (c : IpAddr) : Step :=
  match e.event with
  | .query q => { e with event := .query { q with client := c } }
  | _ => e

/-- The step does not tell its client from another one. -/
def Step.Alike (e : Step) (c : IpAddr) : Prop :=
  match e.event with
  | .query q => e.config.Alike q.client c
  | _ => True

section Query

variable {X : QueryCrates} {C : Config} {E : Env} {q : DnsQuery} {c : IpAddr} {s : Resolver}

/-- Up to the statistics, the query is the same for both clients. -/
lemma Config.Alike.answerQuery_eq (h : C.Alike q.client c) :
    answerQuery X C E { q with client := c } = answerQuery X C E q := by
  have hview : C.store.clientView c (C.geo.lookup c) =
      C.store.clientView q.client (C.geo.lookup q.client) := by
    unfold ZoneStore.clientView
    rw [h.view]
  have hlookup : C.store.lookup X.toCrates q.qname q.qtype c (C.geo.lookup c) =
      C.store.lookup X.toCrates q.qname q.qtype q.client (C.geo.lookup q.client) := by
    unfold ZoneStore.lookup
    rw [h.view, hview]
  have hsigned : signed X C E { q with client := c } = signed X C E q := rfl
  have hresolve : resolveLookup X C E { q with client := c } = resolveLookup X C E q := rfl
  have hapex : apexAnswer X C E { q with client := c } = apexAnswer X C E q := rfl
  unfold answerQuery
  dsimp only
  rw [h.asn, hlookup, hsigned, hresolve, hapex]

/-- The statistics tell the clients apart at most by the map of blocked clients. -/
lemma Config.Alike.recordStat_eq (h : C.Alike q.client c) {view : Option Str} {stat : QueryOutcome}
    {out : ResolveOutput}
    (hblocked : stat = .Blocked → Stats.countGlobal s.stats.blockedClient q.client =
      Stats.countGlobal s.stats.blockedClient c) :
    recordStat X C E { q with client := c } view stat out s =
      recordStat X C E q view stat out s := by
  have hlog : logStat X C E { q with client := c } view stat out = logStat X C E q view stat out := by
    unfold logStat
    simp only [Stats.record_eq h.family h.log]
  unfold recordStat
  rw [hlog]
  by_cases hstat : stat = .Blocked
  · have hnote : noteBlocked X { q with client := c } s = noteBlocked X q s := by
      have hclient : s.stats.recordBlockedClient c = s.stats.recordBlockedClient q.client := by
        unfold Stats.recordBlockedClient
        rw [hblocked hstat]
      change noteBlockedDomain _ { s with stats := s.stats.recordBlockedClient c } = _
      rw [hclient]
      rfl
    rw [if_pos hstat, if_pos hstat]
    change EStateM.bind _ _ s = EStateM.bind _ _ s
    unfold EStateM.bind
    rw [hnote]
  · rw [if_neg hstat, if_neg hstat]

/-- The query is not blocked, its clients are the same, or the map of blocked clients counts neither. -/
def Unlinked (X : QueryCrates) (C : Config) (E : Env) (q : DnsQuery) (c : IpAddr) (s : Resolver) :
    Prop :=
  Blocks X C E q → q.client = c ∨
    ¬ Stats.Counted s.stats.blockedClient q.client ∧ ¬ Stats.Counted s.stats.blockedClient c

/-- A query from either client leads to the same state. -/
lemma Config.Alike.resolveQuery_eq (h : C.Alike q.client c) (hunlinked : Unlinked X C E q c s) :
    resolveQuery X C E { q with client := c } s = resolveQuery X C E q s := by
  unfold resolveQuery
  rw [h.answerQuery_eq]
  change EStateM.bind _ _ s = EStateM.bind _ _ s
  unfold EStateM.bind
  cases hanswer : answerQuery X C E q s with
  | error e s' => rfl
  | ok r s' =>
    obtain ⟨view, stat, out⟩ := r
    have hrecord : recordStat X C E { q with client := c } view stat out s' =
        recordStat X C E q view stat out s' := by
      apply h.recordStat_eq
      rintro rfl
      have hresult : (answerQuery X C E q).result s = .ok (view, .Blocked, out) := by
        unfold EStateM.result
        rw [hanswer]
      have hblocks : Blocks X C E q := blocks_of_answerQuery hresult
      obtain ⟨view', out', s'', hanswer', hclient, -, -⟩ := hblocks.answerQuery s
      cases hanswer.symm.trans hanswer'
      rw [hclient]
      exact Stats.countGlobal_eq_iff.mpr (hunlinked hblocks)
    dsimp only
    change EStateM.bind _ _ s' = EStateM.bind _ _ s'
    unfold EStateM.bind
    rw [hrecord]

/-- The clients that are kept of a blocked query. -/
lemma Blocks.blockedClient (h : Blocks X C E q) :
    ((resolveQuery X C E q).after s).stats.blockedClient =
      Stats.countGlobal s.stats.blockedClient q.client := by
  obtain ⟨view, out, s', hanswer, hclient, -, -⟩ := h.answerQuery s
  obtain ⟨stats, qlog, hrun, hstats⟩ := resolveQuery_run hanswer
  unfold EStateM.after
  rw [hrun]
  exact hstats.trans ((if_pos rfl).trans (by rw [hclient]))

/-- Statistics that do not tell the clients apart come from such queries only. -/
lemma Config.Alike.unlinked (h : C.Alike q.client c)
    (hstats : ((resolveQuery X C E q).after s).stats =
      ((resolveQuery X C E { q with client := c }).after s).stats) : Unlinked X C E q c s := by
  intro hblocks
  have hblocks' : Blocks X C E { q with client := c } := by
    rcases hblocks with hasn | ⟨⟨⟨hasn, hsynth⟩, hzone⟩, hfilter⟩
    · exact .inl (h.asn ▸ hasn)
    · exact .inr ⟨⟨⟨h.asn ▸ hasn, hsynth⟩, hzone⟩, hfilter⟩
  have hclients := congrArg Stats.blockedClient hstats
  rw [hblocks.blockedClient, hblocks'.blockedClient] at hclients
  exact Stats.countGlobal_eq_iff.mp hclients

end Query

/-! ## Two runs -/

/-- The step does not link its statistics to its client rather than to another one. -/
def Step.Unlinked (X : QueryCrates) (s : Resolver) (e : Step) (c : IpAddr) : Prop :=
  match e.event with
  | .query q => Nomina.Unlinked X e.config e.env q c s
  | _ => True

section Steps

variable {X : QueryCrates} {e : Step} {c : IpAddr} {s : Resolver}

/-- A step from either client leads to the same state. -/
lemma Step.Alike.step_eq (h : e.Alike c) (hunlinked : e.Unlinked X s c) :
    s.step X e = s.step X (e.from c) := by
  obtain ⟨C, E, event⟩ := e
  cases event with
  | query q =>
    have hquery : resolveQuery X C E { q with client := c } s = resolveQuery X C E q s :=
      Config.Alike.resolveQuery_eq h hunlinked
    exact EStateM.after_congr hquery.symm
  | worker => rfl
  | clear => rfl

/-- Where the statistics after a step do not tell the clients apart, the step does not link them. -/
lemma Step.Alike.unlinked (h : e.Alike c)
    (hstats : (s.step X e).stats = (s.step X (e.from c)).stats) : e.Unlinked X s c := by
  obtain ⟨C, E, event⟩ := e
  cases event with
  | query q => exact Config.Alike.unlinked h hstats
  | worker => trivial
  | clear => trivial

end Steps

/-- Two runs that differ in the clients only, which the queries and the log may not tell apart, keep
the same statistics after each of their steps exactly when no step counts a blocked public client in
one run that is another one in the other. -/
theorem Resolver.stats_run_iff (X : QueryCrates) (s : Resolver) (l : List (Step × IpAddr))
    (halike : ∀ p ∈ l, p.1.Alike p.2) :
    (∀ pre, pre <+: l → (s.run X (pre.map Prod.fst)).stats =
        (s.run X (pre.map fun p => p.1.from p.2)).stats) ↔
      ∀ pre p, pre ++ [p] <+: l → p.1.Unlinked X (s.run X (pre.map Prod.fst)) p.2 := by
  unfold Resolver.run
  simp only [List.foldl_map]
  have hsame : ∀ t, ∀ p ∈ l, p.1.Unlinked X t p.2 →
      step X t p.1 = step X t (p.1.from p.2) :=
    fun t p hp hunlinked => (halike p hp).step_eq hunlinked
  have hstats : ∀ t, ∀ p ∈ l, (step X t p.1).stats = (step X t (p.1.from p.2)).stats →
      p.1.Unlinked X t p.2 :=
    fun t p hp h => (halike p hp).unlinked h
  exact twin_iff hsame hstats s

/-- One query for a denied name, from either of two clients. -/
def deniedRun (mode : QueryLog) (c c' : IpAddr) : List (Step × IpAddr) :=
  [(⟨{ smallConfig with settings := { Settings.default with queryLog := mode } }, smallEnv 0,
    .query ⟨.ofPlain "ads.example", .A, c, false⟩⟩, c')]

/-- The clients of such a query are not told apart by what queries depend on. -/
lemma deniedRun_alike {mode : QueryLog} {c c' : IpAddr} (hfamily : isIpv4 c = isIpv4 c')
    (hlog : mode = .Off ∨ mode = .Anonymized ∧ SameNetwork c c') :
    ∀ p ∈ deniedRun mode c c', p.1.Alike p.2 := by
  intro p hp
  rw [List.mem_singleton.mp hp]
  exact ⟨hfamily, rfl, rfl, hlog⟩

/-- Clients in the local network leave no trace. -/
theorem Resolver.stats_run_lan :
    ((Resolver.initial 1024 0 86400).run plainQueryCrates
        ((deniedRun .Off (.v4 0x0a000001) (.v4 0x0a000002)).map Prod.fst)).stats =
      ((Resolver.initial 1024 0 86400).run plainQueryCrates
        ((deniedRun .Off (.v4 0x0a000001) (.v4 0x0a000002)).map fun p => p.1.from p.2)).stats := by
  have halike : ∀ p ∈ deniedRun .Off (.v4 0x0a000001) (.v4 0x0a000002), p.1.Alike p.2 :=
    deniedRun_alike rfl (.inl rfl)
  refine (Resolver.stats_run_iff plainQueryCrates (.initial 1024 0 86400) _ halike).mpr ?_ _
    List.prefix_rfl
  intro pre p hp
  have hlen : (pre ++ [p]).length ≤ 1 := hp.length_le
  rw [List.length_append, List.length_singleton] at hlen
  have hpre : pre = [] := List.length_eq_zero_iff.mp (by omega)
  subst hpre
  have hmem := hp.subset (List.mem_singleton_self p)
  rw [List.mem_singleton.mp hmem]
  intro _
  exact .inr ⟨by decide +kernel, by decide +kernel⟩

/-- A public client whose query is blocked is kept, without the log and with networks in it. -/
theorem Resolver.stats_run_public :
    (∀ p ∈ deniedRun .Off (.v4 0x08080801) (.v4 0x09090901), p.1.Alike p.2) ∧
    ((Resolver.initial 1024 0 86400).run plainQueryCrates
        ((deniedRun .Off (.v4 0x08080801) (.v4 0x09090901)).map Prod.fst)).stats ≠
      ((Resolver.initial 1024 0 86400).run plainQueryCrates
        ((deniedRun .Off (.v4 0x08080801) (.v4 0x09090901)).map fun p => p.1.from p.2)).stats ∧
    (∀ p ∈ deniedRun .Anonymized (.v4 0x08080801) (.v4 0x08080802), p.1.Alike p.2) ∧
    ((Resolver.initial 1024 0 86400).run plainQueryCrates
        ((deniedRun .Anonymized (.v4 0x08080801) (.v4 0x08080802)).map Prod.fst)).stats ≠
      ((Resolver.initial 1024 0 86400).run plainQueryCrates
        ((deniedRun .Anonymized (.v4 0x08080801) (.v4 0x08080802)).map
          fun p => p.1.from p.2)).stats := by
  refine ⟨deniedRun_alike rfl (.inl rfl), ?_, deniedRun_alike rfl (.inr ⟨rfl, rfl⟩), ?_⟩
  · intro h
    have hcount := congrArg (fun st : Stats => st.blockedClient.lookup (.v4 0x08080801)) h
    revert hcount
    decide +kernel
  · intro h
    have hcount := congrArg (fun st : Stats => st.blockedClient.lookup (.v4 0x08080801)) h
    revert hcount
    decide +kernel

end Nomina
