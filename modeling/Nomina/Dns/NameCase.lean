import Nomina.Lib.Bytes
import Nomina.Dns.Service
import Nomina.Store.Visibility

/-!
# Names in other letter case

Every layer of the query path normalises names by itself: the store, the filter, conditional forwarding
and the cache look up folded texts, and zones are compared label by label. The main result compares two
queries whose names differ in ASCII case only: they are answered alike, up to the case of the owner
names that are copied from the query.
-/

namespace Nomina

open Lib

/-- Two names differ in ASCII case only. -/
def Name.EqIgnoringCase (n m : Name) : Prop :=
  n.toLowercase = m.toLowercase

/-- The display of names keeps labels: those that differ in ASCII case only are displayed by texts that
differ in ASCII case only. -/
def Crates.PreservesLabels (K : Crates) : Prop :=
  ∀ l l' : Label, l.map lowerByte = l'.map lowerByte →
    toAsciiLowercase (K.labelText l) = toAsciiLowercase (K.labelText l')

variable {K : Crates}

section Keys

variable {n m : Name}

/-- Names that differ in case have folded texts alike. -/
lemma Crates.PreservesLabels.toText (hK : K.PreservesLabels) (h : n.EqIgnoringCase m) :
    toAsciiLowercase (n.toText K) = toAsciiLowercase (m.toText K) := by
  have hlabels : n.labels.map (List.map lowerByte) = m.labels.map (List.map lowerByte) :=
    congrArg Name.labels h
  have hempty : n.labels.isEmpty = m.labels.isEmpty := by
    have hlength := congrArg List.length hlabels
    rw [List.length_map, List.length_map] at hlength
    rw [Bool.eq_iff_iff, List.isEmpty_iff_length_eq_zero, List.isEmpty_iff_length_eq_zero, hlength]
  have hflat : ∀ ls ms : List Label, ls.map (List.map lowerByte) = ms.map (List.map lowerByte) →
      toAsciiLowercase (ls.flatMap fun l => K.labelText l ++ ['.']) =
        toAsciiLowercase (ms.flatMap fun l => K.labelText l ++ ['.']) := by
    intro ls
    induction ls with
    | nil =>
      intro ms hms
      rw [List.map_eq_nil_iff.mp hms.symm]
    | cons l ls ih =>
      intro ms hms
      obtain ⟨l', ms, rfl, hl, hrest⟩ := List.map_eq_cons_iff.mp hms.symm
      have hlabel := hK l l' hl.symm
      have htail := ih ms hrest.symm
      unfold toAsciiLowercase at hlabel htail ⊢
      rw [List.flatMap_cons, List.flatMap_cons, List.map_append, List.map_append, List.map_append,
        List.map_append, hlabel, htail]
  unfold Name.toText
  rw [hempty]
  split
  · rfl
  · exact hflat _ _ hlabels

/-- Names that differ in case have the same key. -/
lemma Crates.PreservesLabels.nameKey (hK : K.PreservesLabels) (h : n.EqIgnoringCase m) :
    nameKey K n = nameKey K m := by
  unfold Nomina.nameKey
  rw [← trimEndMatches_toAsciiLowercase, ← trimEndMatches_toAsciiLowercase, hK.toText h]

/-- A zone covers both of two names that differ in case, or neither. -/
lemma Name.EqIgnoringCase.zoneOf (h : n.EqIgnoringCase m) (apex : Name) :
    apex.zoneOf n = apex.zoneOf m := by
  unfold Name.zoneOf
  rw [h]

end Keys

/-! ## Lookups -/

/-- Two answers are the same, or differ in the owner name, which each has from its query. -/
def Record.SameButOwner (q q' : Name) (r r' : Record) : Prop :=
  r' = r ∨ r.name = q ∧ r' = { r with name := q' }

/-- Two results are the same up to the owner names that are copied from the queries. -/
structure LookupResult.SameButOwner (q q' : Name) (r r' : LookupResult) : Prop where
  rcode : r'.rcode = r.rcode
  outcome : r'.outcome = r.outcome
  authority : r'.authority = r.authority
  answers : List.Forall₂ (Record.SameButOwner q q') r.answers r'.answers

section Lookup

variable {q q' : Name} {zone : StoredZone} {viewId : ℤ} {viewName : Option Str} {qtype : RecordType}

/-- Records under the names of both queries. -/
lemma sameButOwner_map (q q' : Name) (recs : List StoredRecord) :
    List.Forall₂ (Record.SameButOwner q q') (recs.map (·.toRecord q)) (recs.map (·.toRecord q')) := by
  induction recs with
  | nil => exact .nil
  | cons r recs ih => exact .cons (.inr ⟨rfl, rfl⟩) ih

lemma sameButOwner_refl (q q' : Name) (records : List Record) :
    List.Forall₂ (Record.SameButOwner q q') records records :=
  List.forall₂_same.mpr fun _ _ => .inl rfl

/-- The chase differs in the owner of the first records only. -/
lemma sameButOwner_chase (remaining : ℕ) (cnames : List StoredRecord) :
    List.Forall₂ (Record.SameButOwner q q') (chase K zone viewId qtype remaining q cnames)
      (chase K zone viewId qtype remaining q' cnames) := by
  cases remaining with
  | zero => exact sameButOwner_map q q' cnames
  | succ remaining =>
    rw [chase_succ, chase_succ]
    exact List.rel_append (sameButOwner_map q q' cnames) (sameButOwner_refl q q' _)

/-- An owner entry is answered alike. -/
lemma sameButOwner_answer (recs : List StoredRecord) :
    LookupResult.SameButOwner q q' (answer K zone viewId viewName q qtype recs)
      (answer K zone viewId viewName q' qtype recs) := by
  have hnodata : LookupResult.SameButOwner q q' (.nodata zone.soaRecord viewName)
      (.nodata zone.soaRecord viewName) := ⟨rfl, rfl, rfl, .nil⟩
  unfold answer
  dsimp only
  split
  · -- ANY
    rw [List.isEmpty_map, List.isEmpty_map]
    split
    · exact hnodata
    · exact ⟨rfl, rfl, rfl, sameButOwner_map q q' _⟩
  · split
    · exact ⟨rfl, rfl, rfl, sameButOwner_map q q' _⟩
    · split
      · exact ⟨rfl, rfl, rfl, sameButOwner_chase 8 _⟩
      · exact hnodata

/-- A store looks up both names alike. -/
lemma sameButOwner_lookup (hK : K.PreservesLabels) (h : q.EqIgnoringCase q') (s : ZoneStore)
    (qtype : RecordType) (client : IpAddr) (geo : ClientGeo) :
    LookupResult.SameButOwner q q' (s.lookup K q qtype client geo) (s.lookup K q' qtype client geo) := by
  have hzone : s.zoneFor q' = s.zoneFor q := by
    unfold ZoneStore.zoneFor
    simp only [h.zoneOf]
  cases hz : s.zoneFor q with
  | none =>
    rw [lookup_of_zoneFor_none hz, lookup_of_zoneFor_none (hzone.trans hz)]
    exact ⟨rfl, rfl, rfl, .nil⟩
  | some zone =>
    have hkey := hK.nameKey h
    rw [lookup_of_zoneFor hz, lookup_of_zoneFor (hzone.trans hz)]
    by_cases hsoa : qtype = .SOA ∧ nameKey K q = nameKey K zone.apex
    · rw [lookupIn_soa hsoa, lookupIn_soa (hkey ▸ hsoa)]
      exact ⟨rfl, rfl, rfl, sameButOwner_refl q q' _⟩
    · rw [lookupIn_entry hsoa, lookupIn_entry (hkey ▸ hsoa), ← hkey]
      cases recordsAt zone (nameKey K q) with
      | none => exact ⟨rfl, rfl, rfl, .nil⟩
      | some recs => exact sameButOwner_answer recs

end Lookup

/-! ## Names outside the local zones -/

/-- The runs of two queries are decided alike: both stop, or both are counted alike, with the same
response code, and the same upstreams were asked. -/
def DecidedAlike : EStateM.Result Unit Resolver (ResolveOutput × QueryOutcome) →
    EStateM.Result Unit Resolver (ResolveOutput × QueryOutcome) → Prop
  | .ok (o, d) s, .ok (o', d') s' =>
    o'.rcode = o.rcode ∧ d' = d ∧ s'.asked.map Asked.upstream = s.asked.map Asked.upstream
  | .error _ s, .error _ s' => s'.asked.map Asked.upstream = s.asked.map Asked.upstream
  | _, _ => False

/-- The upstreams answer both names with the same response code. -/
def Env.RespondsAlike (E : Env) (q q' : Name) (qtype : RecordType) : Prop :=
  ∀ up, (E.respond ⟨up, q', qtype⟩).rcode = (E.respond ⟨up, q, qtype⟩).rcode

section External

variable {X : QueryCrates} {C : Config} {E : Env} {q q' : Name} {qtype : RecordType} {ra : Bool}

/-- A rewrite answers both names with the same records behind the name. -/
lemma decidedAlike_rewrite (target : RewriteTarget) (s : Resolver) :
    DecidedAlike (rewriteAnswer C E q qtype target ra s) (rewriteAnswer C E q' qtype target ra s) := by
  unfold rewriteAnswer rewriteRecords
  cases target with
  | ip ip =>
    cases ip with
    | v4 ip => exact ⟨rfl, rfl, rfl⟩
    | v6 ip => exact ⟨rfl, rfl, rfl⟩
  | name target =>
    cases C.upstream with
    | none => exact ⟨rfl, rfl, rfl⟩
    | some up =>
      dsimp only
      split
      · exact ⟨rfl, rfl, rfl⟩
      · exact ⟨rfl, rfl, rfl⟩

/-- Whether a put panics depends on the response code and the bounds. -/
lemma DnsCache.isSome_put (c : DnsCache) (p : CachePut) :
    (c.put X.toCrates p).isSome = (decide (p.rcode = .ServFail) || decide (max c.minTtl 1 ≤ c.maxTtl)) := by
  unfold DnsCache.put clamp
  by_cases hfail : p.rcode = .ServFail
  · simp [hfail]
  · by_cases hbounds : max c.minTtl 1 ≤ c.maxTtl
    · rw [if_neg hfail, if_pos hbounds]
      dsimp only [bind, Option.bind]
      split <;> simp [hbounds]
    · simp [hfail, hbounds]

/-- An answer offered to the cache is taken, whatever becomes of it, or ends the query; which of these
depends on the response code. -/
lemma cachePut_run (qname : Name) (qtype : RecordType) (r : CachedAnswer) (s : Resolver) :
    ∃ cache stored, cachePut X E qname qtype r s =
      if r.rcode = .ServFail ∨ max s.cache.minTtl 1 ≤ s.cache.maxTtl then .ok () { s with cache, stored }
      else .error () s := by
  have hput := DnsCache.isSome_put (X := X) s.cache
    ⟨qname, qtype, r.answers, r.authority, r.rcode, E.now⟩
  unfold cachePut
  rw [EStateM.run_get_bind]
  cases h : s.cache.put X.toCrates ⟨qname, qtype, r.answers, r.authority, r.rcode, E.now⟩ with
  | none =>
    rw [h, Option.isSome_none, eq_comm, Bool.or_eq_false_iff, decide_eq_false_iff_not,
      decide_eq_false_iff_not] at hput
    refine ⟨s.cache, s.stored, ?_⟩
    rw [if_neg (not_or.mpr hput)]
    rfl
  | some cache =>
    rw [h, Option.isSome_some, eq_comm, Bool.or_eq_true, decide_eq_true_eq, decide_eq_true_eq] at hput
    refine ⟨cache, if s.cache.stores ⟨qname, qtype, r.answers, r.authority, r.rcode, E.now⟩ then
      ⟨qname, qtype, r.answers, r.authority, r.rcode, E.now⟩ :: s.stored else s.stored, ?_⟩
    rw [if_pos hput]
    rfl

/-- After a miss of the cache the answer of the upstream is the answer, or the query ends; which of these
depends on the response code and the cache. -/
lemma resolveGlobal_offered (ra : Bool) {n : Name} {up : Upstream} (hup : C.upstream = some up) {s : Resolver}
    (h : (s.cache.get X.toCrates n qtype E.now).1 = none) :
    ∃ stats cache stored, resolveGlobal X C E n qtype ra s =
      if (E.respond ⟨up, n, qtype⟩).rcode = .ServFail ∨
          max (s.cache.get X.toCrates n qtype E.now).2.minTtl 1 ≤
            (s.cache.get X.toCrates n qtype E.now).2.maxTtl then
        .ok ((E.respond ⟨up, n, qtype⟩).output ra, upstreamOutcome (E.respond ⟨up, n, qtype⟩).rcode)
          { s with stats, cache, stored, asked := s.asked ++ [⟨up, n, qtype⟩] }
      else .error () { s with
        stats
        cache := (s.cache.get X.toCrates n qtype E.now).2
        asked := s.asked ++ [⟨up, n, qtype⟩] } := by
  obtain ⟨stats, hrun⟩ := resolveGlobal_miss hup ra h
  obtain ⟨cache, stored, hput⟩ := cachePut_run (X := X) (E := E) n qtype (E.respond ⟨up, n, qtype⟩)
    { s with
      stats
      cache := (s.cache.get X.toCrates n qtype E.now).2
      asked := s.asked ++ [⟨up, n, qtype⟩] }
  refine ⟨stats, cache, stored, hrun.trans ?_⟩
  split at hput
  · rename_i hok
    rw [if_pos hok]
    exact EStateM.run_bind_ok hput _
  · rename_i hstop
    rw [if_neg hstop]
    exact EStateM.run_bind_error hput _

/-- The global resolver, behind the cache, is asked for both names or for none. -/
lemma decidedAlike_global (hkey : nameKey X.toCrates q = nameKey X.toCrates q')
    (hE : E.RespondsAlike q q' qtype) (s : Resolver) :
    DecidedAlike (resolveGlobal X C E q qtype ra s) (resolveGlobal X C E q' qtype ra s) := by
  have hget : s.cache.get X.toCrates q' qtype E.now = s.cache.get X.toCrates q qtype E.now := by
    unfold DnsCache.get DnsCache.key
    rw [hkey]
  cases hup : C.upstream with
  | none =>
    unfold resolveGlobal
    rw [hup]
    exact ⟨rfl, rfl, rfl⟩
  | some up =>
    cases hhit : (s.cache.get X.toCrates q qtype E.now).1 with
    | some c =>
      have hhit' : (s.cache.get X.toCrates q' qtype E.now).1 = some c := hget ▸ hhit
      rw [resolveGlobal_hit hup hhit, resolveGlobal_hit hup hhit']
      exact ⟨rfl, rfl, rfl⟩
    | none =>
      have hmiss' : (s.cache.get X.toCrates q' qtype E.now).1 = none := hget ▸ hhit
      obtain ⟨stats, cache, stored, hrun⟩ := resolveGlobal_offered ra hup hhit
      obtain ⟨stats', cache', stored', hrun'⟩ := resolveGlobal_offered ra hup hmiss'
      rw [hrun, hrun', hget, hE up]
      split
      · exact ⟨hE up, rfl, by simp⟩
      · simp [DecidedAlike]

/-- Names outside the local zones are decided alike. -/
lemma decidedAlike_external (hkey : nameKey X.toCrates q = nameKey X.toCrates q')
    (hE : E.RespondsAlike q q' qtype) (s : Resolver) :
    DecidedAlike (resolveExternal X C E q qtype ra s) (resolveExternal X C E q' qtype ra s) := by
  have hforward : DecidedAlike (forward X C E q qtype ra s) (forward X C E q' qtype ra s) := by
    cases hmatch : matchFor C.conditional (nameKey X.toCrates q) with
    | none =>
      rw [forward_global hmatch, forward_global (hkey ▸ hmatch)]
      exact decidedAlike_global hkey hE s
    | some up =>
      obtain ⟨stats, hrun⟩ := forward_conditional (E := E) hmatch qtype ra s
      obtain ⟨stats', hrun'⟩ := forward_conditional (E := E) (hkey ▸ hmatch) qtype ra s
      rw [hrun, hrun']
      refine ⟨hE up, ?_, by simp⟩
      rw [hE up]
  unfold resolveExternal
  dsimp only
  rw [← hkey]
  cases C.filter.decide (nameKey X.toCrates q) with
  | rewrite target => exact decidedAlike_rewrite target s
  | block =>
    dsimp only
    cases C.filter.blocklistHit (nameKey X.toCrates q) with
    | none => cases hmode : C.settings.blockMode <;> exact ⟨rfl, rfl, rfl⟩
    | some id => cases hmode : C.settings.blockMode <;> exact ⟨rfl, rfl, rfl⟩
  | allow => exact hforward
  | pass =>
    dsimp only
    split
    · cases hmode : C.settings.blockMode <;> exact ⟨rfl, rfl, rfl⟩
    · exact hforward

end External

/-! ## Two queries -/

/-- The layers of the query path treat two names alike: the store, the filter, conditional forwarding,
the cache, and the resolution of names outside the local zones, when the upstreams answer both names
with the same code. -/
structure TreatedAlike (X : QueryCrates) (C : Config) (q q' : Name) : Prop where
  lookup : ∀ qtype client geo, LookupResult.SameButOwner q q'
    (C.store.lookup X.toCrates q qtype client geo) (C.store.lookup X.toCrates q' qtype client geo)
  decide : C.filter.decide (nameKey X.toCrates q') = C.filter.decide (nameKey X.toCrates q)
  matchFor : matchFor C.conditional (nameKey X.toCrates q') =
    matchFor C.conditional (nameKey X.toCrates q)
  get : ∀ (c : DnsCache) rtype now, c.get X.toCrates q' rtype now = c.get X.toCrates q rtype now
  put : ∀ (c : DnsCache) (p : CachePut),
    c.put X.toCrates { p with name := q' } = c.put X.toCrates { p with name := q }
  external : ∀ E qtype recursionAvailable s, E.RespondsAlike q q' qtype →
    DecidedAlike (resolveExternal X C E q qtype recursionAvailable s)
      (resolveExternal X C E q' qtype recursionAvailable s)

/-- Names that differ in ASCII case only are treated alike in every state. -/
theorem treatedAlike_of_eqIgnoringCase (X : QueryCrates) (hX : X.toCrates.PreservesLabels) (C : Config)
    {q q' : Name} (h : q.EqIgnoringCase q') : TreatedAlike X C q q' := by
  have hkey := hX.nameKey h
  constructor
  case lookup => exact fun qtype client geo => sameButOwner_lookup hX h C.store qtype client geo
  case decide => rw [hkey]
  case matchFor => rw [hkey]
  case get =>
    intro c rtype now
    unfold DnsCache.get DnsCache.key
    rw [hkey]
  case put =>
    intro c p
    unfold DnsCache.put DnsCache.key
    rw [hkey]
    rfl
  case external => exact fun E qtype recursionAvailable s hE => decidedAlike_external hkey hE s

/-- A byte is folded as its character. -/
lemma toLower_ofNat (b : UInt8) : (Char.ofNat b.toNat).toLower = Char.ofNat (lowerByte b).toNat := by
  revert b
  exact forall_byte (by decide +kernel)

/-- So is a label as its plain text. -/
lemma toAsciiLowercase_plainLabelText (l : Label) :
    toAsciiLowercase (plainLabelText l) = plainLabelText (l.map lowerByte) := by
  unfold toAsciiLowercase plainLabelText
  rw [List.map_map, List.map_map]
  exact List.map_congr_left fun b _ => toLower_ofNat b

/-- The plain crates keep labels. -/
lemma plain_preservesLabels : plainCrates.PreservesLabels := by
  intro l l' h
  change toAsciiLowercase (plainLabelText l) = toAsciiLowercase (plainLabelText l')
  rw [toAsciiLowercase_plainLabelText, toAsciiLowercase_plainLabelText, h]

/-- Two spellings of a name. -/
theorem treatedAlike_nas :
    (Name.ofPlain "NAS.home.LAN").EqIgnoringCase (.ofPlain "nas.home.lan") ∧
      TreatedAlike plainQueryCrates smallConfig (.ofPlain "NAS.home.LAN") (.ofPlain "nas.home.lan") := by
  have h : (Name.ofPlain "NAS.home.LAN").EqIgnoringCase (.ofPlain "nas.home.lan") := by
    unfold Name.EqIgnoringCase
    decide
  exact ⟨h, treatedAlike_of_eqIgnoringCase plainQueryCrates plain_preservesLabels smallConfig h⟩

end Nomina
