import Nomina.Dns.Service

/-!
# Local names and the upstreams

Which names are handed to an upstream on behalf of a query: those it asks for itself, and the domain
it leaves to the worker. A name that is forwarded is in no local zone. The target of a rewrite is not
looked up in the zones, and the name of a query that is blocked for its client is left to the worker
before any zone is looked at.
-/

namespace Nomina

open Lib

/-- A name at or below the apex of a local zone. -/
def Config.Local (C : Config) (n : Name) : Prop :=
  ∃ zone ∈ C.store.zones, zone.apex.zoneOf n = true

/-- What is handed to an upstream on behalf of a query: while it is resolved, or when the worker takes
the domain that it left in the queue, in whatever state the server is then. -/
inductive HandedOver (X : QueryCrates) (C : Config) (E : Env) (q : DnsQuery) (s : Resolver)
    (a : Asked) : Prop
  | resolving (l : List Asked)
      (h : ((resolveQuery X C E q).after s).asked = s.asked ++ l) (ha : a ∈ l)
  | working (domain : Str)
      (hqueued : ((resolveQuery X C E q).after s).blocked = s.blocked ++ [domain])
      (E' : Env) (t : Resolver) (rest : List Str) (ht : t.blocked = domain :: rest) (l : List Asked)
      (h : ((blockedWorker X C E').after t).asked = t.asked ++ l) (ha : a ∈ l)

section Conditions

variable (X : QueryCrates) (C : Config) (E : Env) (q : DnsQuery)

/-- The query is rewritten to a local name that is resolved upstream. -/
def RewritesToLocal : Prop :=
  Leaves X C E q ∧ C.upstream.isSome = true ∧ (q.qtype = .A ∨ q.qtype = .AAAA) ∧
    ∃ target, C.filter.decide (nameKey X.toCrates q.qname) = .rewrite (.name target) ∧
      C.Local target

/-- The query is blocked for its client, and its name, a local one, is left to the worker, which reads
it again from its text. -/
def LeavesLocalToWorker (s : Resolver) : Prop :=
  C.asnBlocked q.client = true ∧ s.blocked.length < 4096 ∧ C.geo.hasGeoip = true ∧
    C.upstream.isSome = true ∧ C.Local q.qname ∧
    ∃ n, X.fromAscii (nameText X q.qname ++ ['.']) = .ok n

end Conditions

variable {X : QueryCrates} {C : Config} {E : Env} {q : DnsQuery} {s : Resolver}

/-- A name is local exactly when a zone is found for it. -/
lemma Config.not_local_iff {n : Name} : ¬ C.Local n ↔ C.store.zoneFor n = none := by
  unfold Config.Local ZoneStore.zoneFor
  rw [List.find?_eq_none]
  push Not
  exact Iff.rfl

/-- The case of a name does not matter. -/
lemma Config.local_congr {n m : Name} (h : n.toLowercase = m.toLowercase) :
    C.Local n ↔ C.Local m := by
  unfold Config.Local Name.zoneOf
  rw [h]

/-- What a miss asks. -/
lemma asked_missed (s : Resolver) (a : Asked) : (s.missed X E a).asked = s.asked ++ [a] := by
  unfold Resolver.missed
  dsimp only
  split <;> rfl

/-- A query asks for its own name, which is in no local zone, or for the target of a rewrite. -/
lemma Traffic.asked {s' : Resolver} (h : Traffic X C E q s s') :
    s'.asked = s.asked ∨
      (∃ up, s'.asked = s.asked ++ [⟨up, q.qname, q.qtype⟩] ∧ ¬ C.Local q.qname) ∨
      ∃ up target, s'.asked = s.asked ++ [⟨up, target, q.qtype⟩] ∧
        (C.Local target → RewritesToLocal X C E q) := by
  cases h with
  | idle h => exact .inl h.asked
  | rewrite target up hleaves hfilter hup hqtype h =>
    refine .inr (.inr ⟨up, target, h.asked, ?_⟩)
    intro hlocal
    exact ⟨hleaves, by rw [hup]; rfl, hqtype, target, hfilter, hlocal⟩
  | conditional up hleaves h =>
    exact .inr (.inl ⟨up, h.asked, Config.not_local_iff.mpr hleaves.zone⟩)
  | hit hleaves h => exact .inl h.asked
  | miss up hleaves h =>
    exact .inr (.inl ⟨up, h.asked.trans (asked_missed s _), Config.not_local_iff.mpr hleaves.zone⟩)

/-- The queue of blocked domains is the same. -/
def SameQueue (s s' : Resolver) : Prop :=
  s'.blocked = s.blocked

instance : IsPreorder Resolver SameQueue where
  refl _ := rfl
  trans _ _ _ h h' := Eq.trans h' h

/-- Only a blocked query leaves a domain in the queue: its name. -/
lemma blocked_resolveQuery {domain : Str}
    (h : ((resolveQuery X C E q).after s).blocked = s.blocked ++ [domain]) :
    Blocks X C E q ∧ s.blocked.length < 4096 ∧ domain = nameText X q.qname := by
  have hqueue : ((answerQuery X C E q).after s).blocked = s.blocked :=
    keeps_answerQuery (R := SameQueue) (fun _ _ _ _ _ _ => rfl) q s
  have hgrows {t : List Str} (ht : t = s.blocked) (hgrow : t = s.blocked ++ [domain]) : False := by
    have hlen := congrArg List.length (ht.symm.trans hgrow)
    rw [List.length_append, List.length_singleton] at hlen
    omega
  unfold EStateM.after at h hqueue
  cases hanswer : answerQuery X C E q s with
  | error e s' =>
    have hquery : resolveQuery X C E q s = .error e s' := EStateM.run_bind_error hanswer _
    rw [hquery] at h
    rw [hanswer] at hqueue
    exact (hgrows hqueue h).elim
  | ok r s' =>
    obtain ⟨view, stat, out⟩ := r
    obtain ⟨stats, qlog, hquery, -⟩ := resolveQuery_run hanswer
    rw [hquery] at h
    rw [hanswer] at hqueue
    dsimp only at h hqueue
    rw [hqueue] at h
    split at h
    · rename_i hblocked
      obtain ⟨rfl, hroom⟩ := hblocked
      have hresult : (answerQuery X C E q).result s = .ok (view, .Blocked, out) := by
        unfold EStateM.result
        rw [hanswer]
      exact ⟨blocks_of_answerQuery hresult, hroom,
        (List.singleton_inj.mp (List.append_cancel_left h)).symm⟩
    · exact (hgrows rfl h).elim

/-- The worker asks for the name that is read from the text of the domain. -/
lemma mem_locates {domain : Str} {a : Asked} (h : a ∈ C.locates X domain) :
    C.upstream.isSome = true ∧ X.fromAscii (domain ++ ['.']) = .ok a.name := by
  unfold Config.locates at h
  split at h
  · rename_i up name hup hname
    rw [List.mem_singleton.mp h]
    exact ⟨by rw [hup]; rfl, hname⟩
  · cases h

/-- What the worker asks when it takes a domain. -/
lemma asked_blockedWorker {E' : Env} {t : Resolver} {domain : Str} {rest : List Str}
    (ht : t.blocked = domain :: rest) :
    ((blockedWorker X C E').after t).asked = t.asked ++ t.workAsks X C domain := by
  obtain ⟨stats, seen, hrun⟩ := blockedWorker_run X C E' t
  rw [hrun]
  dsimp only
  rw [ht]
  rfl

/-- A query that rewrites to a local name hands that name to the upstream. -/
lemma RewritesToLocal.handedOver (h : RewritesToLocal X C E q) (s : Resolver) :
    ∃ a, HandedOver X C E q s a ∧ C.Local a.name := by
  obtain ⟨hleaves, hup, hqtype, target, hfilter, hlocal⟩ := h
  obtain ⟨up, hup⟩ := Option.isSome_iff_exists.mp hup
  refine ⟨⟨up, target, q.qtype⟩, .resolving [⟨up, target, q.qtype⟩] ?_
    (List.mem_singleton_self _), hlocal⟩
  rw [(hleaves.sameTraffic s).asked, resolveExternal_rewrite hfilter]
  unfold rewriteAnswer
  rw [EStateM.after_bind_pure]
  unfold rewriteRecords
  rw [hup]
  dsimp only
  rw [if_pos hqtype]
  rfl

/-- A query that leaves a local name to the worker has it handed to the upstream. -/
lemma LeavesLocalToWorker.handedOver (h : LeavesLocalToWorker X C q s)
    (hascii : ∀ n, X.fromAscii (nameText X q.qname ++ ['.']) = .ok n →
      n.toLowercase = q.qname.toLowercase) :
    ∃ a, HandedOver X C E q s a ∧ C.Local a.name := by
  obtain ⟨hasn, hroom, hgeo, hup, hlocal, n, hn⟩ := h
  obtain ⟨up, hup⟩ := Option.isSome_iff_exists.mp hup
  obtain ⟨stats, qlog, hquery, -⟩ := resolveQuery_run (answerQuery_asn (X := X) (E := E) (s := s) hasn)
  have hqueued : ((resolveQuery X C E q).after s).blocked =
      s.blocked ++ [nameText X q.qname] := by
    unfold EStateM.after
    rw [hquery]
    exact if_pos ⟨rfl, hroom⟩
  refine ⟨⟨up, n, .A⟩, .working _ hqueued E { s with blocked := [nameText X q.qname], seen := [] }
    [] rfl [⟨up, n, .A⟩] ?_ (List.mem_singleton_self _), (Config.local_congr (hascii n hn)).mpr hlocal⟩
  rw [asked_blockedWorker rfl]
  unfold Resolver.workAsks Config.locates
  rw [if_pos ⟨hgeo, by simp [remembered]⟩, hup, hn]

/-- For every state and every query: no local name is handed to an upstream on its behalf, unless it
is rewritten to one, or is blocked for its client while asking for one that the worker then takes. -/
theorem handedOver_not_local_iff (X : QueryCrates) (C : Config) (E : Env) (q : DnsQuery)
    (s : Resolver)
    (hascii : ∀ n, X.fromAscii (nameText X q.qname ++ ['.']) = .ok n →
      n.toLowercase = q.qname.toLowercase) :
    (∀ a, HandedOver X C E q s a → ¬ C.Local a.name) ↔
      ¬ RewritesToLocal X C E q ∧ ¬ LeavesLocalToWorker X C q s := by
  constructor
  · intro h
    constructor
    · intro hrewrites
      obtain ⟨a, hover, hlocal⟩ := hrewrites.handedOver s
      exact h a hover hlocal
    · intro hleaves
      obtain ⟨a, hover, hlocal⟩ := hleaves.handedOver (E := E) hascii
      exact h a hover hlocal
  · rintro ⟨hrewrites, hworker⟩ a hover hlocal
    cases hover with
    | resolving l hasked ha =>
      rcases (resolveQuery_traffic X C E q s).asked with h | ⟨up, h, hnot⟩ | ⟨up, target, h, htarget⟩
      · rw [h] at hasked
        rw [List.self_eq_append_right.mp hasked] at ha
        cases ha
      · rw [h] at hasked
        rw [← List.append_cancel_left hasked] at ha
        rw [List.mem_singleton.mp ha] at hlocal
        exact hnot hlocal
      · rw [h] at hasked
        rw [← List.append_cancel_left hasked] at ha
        rw [List.mem_singleton.mp ha] at hlocal
        exact hrewrites (htarget hlocal)
    | working domain hqueued E' t rest ht l hasked ha =>
      obtain ⟨hblocks, hroom, rfl⟩ := blocked_resolveQuery hqueued
      rw [asked_blockedWorker ht] at hasked
      rw [← List.append_cancel_left hasked] at ha
      unfold Resolver.workAsks at ha
      split at ha
      · rename_i hwork
        obtain ⟨hup, hname⟩ := mem_locates ha
        have hlocal' : C.Local q.qname := (Config.local_congr (hascii a.name hname)).mp hlocal
        rcases hblocks with hasn | ⟨hleaves, -⟩
        · exact hworker ⟨hasn, hroom, hwork.1, hup, hlocal', a.name, hname⟩
        · exact Config.not_local_iff.mpr hleaves.zone hlocal'
      · cases ha

/-- A server for `home.lan` with a City database that blocks the autonomous system 64500, in which it
finds every public address, and rewrites `cdn.example` to `nas.home.lan`. -/
def homeConfig : Config := { smallConfig with
  store := homeStore []
  filter := { smallConfig.filter with rewrites := [("cdn.example", .name (.ofPlain "nas.home.lan"))] }
  settings := { Settings.default with blockedAsns := [64500] }
  geo := ⟨true, fun ip => { asn := if isGlobal ip then some 64500 else none }⟩ }

/-- A query for an address. -/
def addressQuery (name : String) (client : Ipv4Addr) : DnsQuery :=
  ⟨.ofPlain name, .A, .v4 client, false⟩

lemma homeConfig_local : homeConfig.Local (.ofPlain "nas.home.lan") :=
  ⟨homeLan [], List.mem_singleton_self _, by decide⟩

/-- A query of the local network that goes to the upstream hands over the name it asks, and no local
name. -/
theorem handedOver_not_local_www :
    (∃ a, HandedOver plainQueryCrates homeConfig (smallEnv 0)
        (addressQuery "www.example" 0x0a000001) (.initial 1024 0 86400) a ∧
      a.name = .ofPlain "www.example") ∧
    ∀ a, HandedOver plainQueryCrates homeConfig (smallEnv 0) (addressQuery "www.example" 0x0a000001)
      (.initial 1024 0 86400) a → ¬ homeConfig.Local a.name := by
  have hname : plainQueryCrates.fromAscii
      (nameText plainQueryCrates (.ofPlain "www.example") ++ ['.']) = .ok (.ofPlain "www.example") := by
    decide +kernel
  refine ⟨⟨_, .resolving _ rfl (List.mem_singleton_self _), rfl⟩, ?_⟩
  refine (handedOver_not_local_iff plainQueryCrates homeConfig (smallEnv 0)
    (addressQuery "www.example" 0x0a000001) (.initial 1024 0 86400) ?_).mpr ⟨?_, ?_⟩
  · intro n hn
    cases hname.symm.trans hn
    rfl
  · rintro ⟨-, -, -, target, hfilter, -⟩
    have hpass : homeConfig.filter.decide
        (nameKey plainQueryCrates.toCrates (.ofPlain "www.example")) = .pass := by
      decide +kernel
    cases hpass.symm.trans hfilter
  · rintro ⟨hasn, -⟩
    revert hasn
    decide +kernel

/-- The target of a rewrite and the name of a query of a blocked client go to the upstream, though both
are local. -/
theorem handedOver_local :
    (∃ a, HandedOver plainQueryCrates homeConfig (smallEnv 0)
        (addressQuery "cdn.example" 0x0a000001) (.initial 1024 0 86400) a ∧
      homeConfig.Local a.name) ∧
    ∃ a, HandedOver plainQueryCrates homeConfig (smallEnv 0)
        (addressQuery "nas.home.lan" 0x08080808) (.initial 1024 0 86400) a ∧
      homeConfig.Local a.name := by
  constructor
  · apply RewritesToLocal.handedOver
    refine ⟨⟨⟨by decide +kernel, rfl⟩, by decide +kernel⟩, rfl, .inl rfl, _, ?_, homeConfig_local⟩
    decide +kernel
  · have hname : plainQueryCrates.fromAscii
        (nameText plainQueryCrates (.ofPlain "nas.home.lan") ++ ['.']) =
          .ok (.ofPlain "nas.home.lan") := by
      decide +kernel
    apply LeavesLocalToWorker.handedOver
    · exact ⟨by decide +kernel, by decide, rfl, rfl, homeConfig_local, _, hname⟩
    · intro n hn
      cases hname.symm.trans hn
      rfl

end Nomina
