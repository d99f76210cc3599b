import Nomina.Lib.Rmw
import Nomina.Settings
import Nomina.State
import Nomina.Dns.Cache

/-!
# Changing settings

`PUT /api/settings` reads the settings row, merges the fields of the request into it, writes the row
and applies the merged settings, with nothing that keeps two requests apart. The handler is first
given as a whole; then as a client that reads, changes, writes and publishes, so that two of them can
interleave.

The last part is about sequences of requests and the cache that the settings bring about: the TTL
bounds are not checked against each other, and a cache whose bounds are the wrong way round panics.
-/

namespace Nomina

open Lib

namespace Api

variable (K : Crates)

/-! ## Checks -/

/-- What `build_signer` needs of its crates: why text is not base64, and whether a key is accepted. -/
structure TsigCrates where
  base64Error : Str → Str
  newSigner : List UInt8 → Str → Name → Except Str Unit

/-- `algorithm`: the TSIG algorithm of a text. -/
def tsigAlgorithm (s : Str) : Option Str :=
  let s := toAsciiLowercase (trim s)
  if s = "hmac-sha1" then some "hmac-sha1"
  else if s = "hmac-sha256" ∨ s = "hmac-sha-256" then some "hmac-sha256"
  else if s = "hmac-sha512" ∨ s = "hmac-sha-512" then some "hmac-sha512"
  else none

/-- `build_signer`, as far as it can fail. -/
def buildSigner (T : TsigCrates) (key : TsigKey) : Except Str Unit :=
  match tsigAlgorithm key.algorithm with
  | none => .error ("unsupported TSIG algorithm: ".toList ++ key.algorithm)
  | some algo =>
    match K.decodeBase64 (trim key.secret) with
    | none => .error ("invalid base64 TSIG secret: ".toList ++ T.base64Error (trim key.secret))
    | some secret =>
      match K.fromUtf8 key.name with
      | .error e => .error e
      | .ok name => (T.newSigner secret algo name).mapError ("building TSIG signer: ".toList ++ ·)

/-- A forwarder has an address and, where it is reached over TLS, a name. -/
def checkForwarder (f : Forwarder) : Except Str Unit :=
  if (parseIpAddr f.addr).isNone then .error ("invalid address: ".toList ++ f.addr)
  else if (f.protocol = .Tls ∨ f.protocol = .Https) ∧ (f.tlsName.getD []).isEmpty then
    .error "tls/https forwarders require tls_name"
  else .ok ()

/-- An entry of an allow-list is a network. -/
def checkCidr (cidr : Str) : Except Str Unit :=
  if (K.parseIpNet cidr).isNone then .error ("invalid CIDR: ".toList ++ cidr) else .ok ()

/-- An entry of a list of listeners is a socket address. -/
def checkAddr (a : Str) : Except Str Unit :=
  if (parseSocketAddr (trim a)).isNone then .error ("invalid address: ".toList ++ a) else .ok ()

/-- Check the entries of a field, if it is present. -/
def checkEntries {α : Type} (field : Str) (v : Option (List α)) (check : α → Except Str Unit) :
    Except AppError Unit :=
  ((v.getD []).forM check).mapError (AppError.validation field)

/-- The checks of `put_settings`, in the order in which they are made. -/
def checkSettings (T : TsigCrates) (u : SettingsUpdate) : Except AppError Unit := do
  checkEntries "forwarders" u.forwarders checkForwarder
  checkEntries "allow_axfr_from" u.allowAxfrFrom (checkCidr K)
  checkEntries "tsig_keys" u.tsigKeys (buildSigner K T)
  checkEntries "dns_listen" u.dnsListen checkAddr
  checkEntries "dot_listen" u.dotListen checkAddr
  checkEntries "doh_listen" u.dohListen checkAddr
  checkEntries "doq_listen" u.doqListen checkAddr
  checkEntries "doh3_listen" u.doh3Listen checkAddr
  checkEntries "web_allow_networks" u.webAllowNetworks (checkCidr K)

/-! ## The handler -/

/-- The settings row of the database, if there is one, and the settings that are applied. -/
structure SettingsState where
  row : Option Settings
  applied : Settings
deriving DecidableEq

/-- `Db::get_settings`: without a row the defaults. -/
def SettingsState.get (s : SettingsState) : Settings :=
  s.row.getD .default

/-- `put_settings`. Nothing is written when a check fails. -/
def putSettings (T : TsigCrates) (u : SettingsUpdate) (s : SettingsState) :
    Except AppError Settings × SettingsState :=
  let settings := u.merge s.get
  match checkSettings K T u with
  | .error e => (.error e, s)
  | .ok () => (.ok settings, ⟨some settings, settings⟩)

/-! ## Two requests at the same time -/

variable (T : TsigCrates)

/-- The steps of two requests: each reads the settings, checks and merges its fields, writes the row
and applies what it has written. A request that fails a check ends there. -/
def settingsStep (u : Bool → SettingsUpdate) (s : Rmw.Cells Settings) (i : Bool) :
    Option (Rmw.Cells Settings) :=
  match s.phase i, checkSettings K T (u i) with
  | .read _, .error _ => some { s with phase := Function.update s.phase i .done }
  | _, _ => Rmw.step (fun i => (u i).merge) s i

variable {K T} {u : Bool → SettingsUpdate}

/-- Valid requests read, merge, write and apply. -/
lemma settingsStep_eq (hvalid : ∀ i, checkSettings K T (u i) = .ok ()) :
    settingsStep K T u = Rmw.step fun i => (u i).merge := by
  funext s i
  unfold settingsStep
  rw [hvalid i]
  cases s.phase i <;> rfl

/-- A valid request alone does in its three steps what the handler does. -/
theorem run_settingsStep_eq_putSettings {i : Bool} (hvalid : ∀ i, checkSettings K T (u i) = .ok ())
    (s : SettingsState) :
    ∃ c, run (settingsStep K T u) (.initial s.get) [i, i, i] = some c ∧
      c.stored = (putSettings K T (u i) s).2.get ∧
      c.published = some (putSettings K T (u i) s).2.applied := by
  rw [settingsStep_eq hvalid]
  unfold putSettings
  rw [hvalid i]
  cases i <;> exact ⟨_, rfl, rfl, rfl⟩

/-- Which requests a value carries after the changes of a copy were made: its own, and the other one
if the copy was read late or had the other one's values already. -/
lemma carried_changes_iff (hdisj : (u true).Disjoint (u false)) (as : List Bool) (i : Bool)
    (s : Settings) :
    (∀ j, (u j).Carried ((Rmw.changes as i).foldl (fun x j => (u j).merge x) s)) ↔
      Rmw.ReadsLate as i ∨ (u !i).Carried s := by
  have hdisj' : (u !i).Disjoint (u i) := by
    cases i
    · exact hdisj
    · exact hdisj.symm
  have hboth (x : Settings) : (∀ j, (u j).Carried x) ↔ (u i).Carried x ∧ (u !i).Carried x := by
    constructor
    · intro h
      exact ⟨h i, h !i⟩
    · rintro ⟨hi, hnot⟩ j
      rcases Bool.eq_or_eq_not j i with rfl | rfl
      · exact hi
      · exact hnot
  rw [hboth]
  unfold Rmw.changes
  split
  · rename_i hlate
    refine iff_of_true ⟨SettingsUpdate.carried_merge _ _, ?_⟩ (.inl hlate)
    exact hdisj'.carried_merge_iff.mpr (SettingsUpdate.carried_merge _ _)
  · rename_i hearly
    have hiff := hdisj'.carried_merge_iff (s := s)
    constructor
    · rintro ⟨-, hnot⟩
      exact .inr (hiff.mp hnot)
    · rintro (hlate | hnot)
      · exact absurd hlate hearly
      · exact ⟨SettingsUpdate.carried_merge _ _, hiff.mpr hnot⟩

variable (K T u) in
/-- Two valid requests without a common field, in any interleaving of their steps: the settings that
are stored and applied in the end carry the fields of both exactly when the request that writes last,
and the request that applies last, have read after the other one's write, or lose nothing because the
settings had the other one's values before. -/
theorem settings_carry_both_iff (hdisj : (u true).Disjoint (u false))
    (hvalid : ∀ i, checkSettings K T (u i) = .ok ()) (s : Settings) (as : List Bool)
    (hcomplete : Rmw.Complete as) :
    ∃ c p, run (settingsStep K T u) (.initial s) as = some c ∧ c.published = some p ∧
      ((∀ i, (u i).Carried c.stored ∧ (u i).Carried p) ↔
        (Rmw.ReadsLate as (Rmw.lastWriter as) ∨ (u !Rmw.lastWriter as).Carried s) ∧
          (Rmw.ReadsLate as (Rmw.lastPublisher as) ∨ (u !Rmw.lastPublisher as).Carried s)) := by
  obtain ⟨c, hrun, hstored, hpublished⟩ :=
    Rmw.run_complete (f := fun i => (u i).merge) hcomplete s
  rw [settingsStep_eq hvalid]
  refine ⟨c, _, hrun, hpublished, ?_⟩
  rw [forall_and, hstored, carried_changes_iff hdisj, carried_changes_iff hdisj]

/-- TSIG crates that accept every key. -/
def plainTsig : TsigCrates := ⟨fun _ => [], fun _ _ _ => .ok ()⟩

/-- A request that turns blocking off, and one that enlarges the cache. -/
def twoRequests (i : Bool) : SettingsUpdate :=
  if i then { blockingEnabled := some false } else { cacheSize := some 4096 }

/-- The two requests have no field in common. -/
lemma twoRequests_disjoint : (twoRequests true).Disjoint (twoRequests false) := by
  intro f
  cases f <;> first | exact .inl rfl | exact .inr rfl

/-- The two requests are valid. -/
lemma twoRequests_valid (i : Bool) : checkSettings plainCrates plainTsig (twoRequests i) = .ok () := by
  cases i <;> rfl

/-- One request after the other: both are carried. -/
theorem settings_carry_both_serial :
    ∃ c p, run (settingsStep plainCrates plainTsig twoRequests) (.initial .default)
        [true, true, true, false, false, false] = some c ∧ c.published = some p ∧
      ∀ i, (twoRequests i).Carried c.stored ∧ (twoRequests i).Carried p := by
  obtain ⟨c, p, hrun, hp, hiff⟩ := settings_carry_both_iff plainCrates plainTsig twoRequests
    twoRequests_disjoint twoRequests_valid .default [true, true, true, false, false, false]
    (by decide)
  exact ⟨c, p, hrun, hp, hiff.mpr ⟨.inl (by decide), .inl (by decide)⟩⟩

/-- Two requests that read before either writes: blocking stays on, although the first request
turned it off. -/
theorem settings_lost_interleaved :
    ∃ c p, run (settingsStep plainCrates plainTsig twoRequests) (.initial .default)
        [true, false, true, false, true, false] = some c ∧ c.published = some p ∧
      ¬ ∀ i, (twoRequests i).Carried c.stored ∧ (twoRequests i).Carried p := by
  refine ⟨_, _, rfl, rfl, ?_⟩
  intro h
  have hblocking := (h true).1 .blockingEnabled false rfl
  cases hblocking

/-! ## The cache after a sequence of requests -/

section Cache

variable (K T)

/-- The settings of a new installation after some requests, one after the other. -/
def settingsAfter (us : List SettingsUpdate) : SettingsState :=
  us.foldl (fun s u => (putSettings K T u s).2) ⟨none, .default⟩

/-- The value of a field in the last accepted request that gives one, or the default. -/
def lastGiven (us : List SettingsUpdate) (f : SettingsField) : f.Value :=
  ((us.filter fun u => (checkSettings K T u).isOk).filterMap (·.value f)).getLast?.getD
    (Settings.default.get f)

/-- The smallest TTL that the requests set last. -/
def lastMinTtl (us : List SettingsUpdate) : ℕ :=
  lastGiven K T us .cacheMinTtl

/-- The largest TTL that the requests set last. -/
def lastMaxTtl (us : List SettingsUpdate) : ℕ :=
  lastGiven K T us .cacheMaxTtl

/-- The cache that `apply_settings` builds. -/
def settingsCache (s : Settings) : DnsCache :=
  .new s.cacheSize s.cacheMinTtl s.cacheMaxTtl

/-- Whatever is looked up, put into the cache or cleared, it does not panic. -/
def NeverPanics (c : DnsCache) : Prop :=
  ∀ ops, (run (DnsCache.Run.step K) ⟨c, []⟩ ops).isSome

variable {K T}

/-- A field has the value it was last given. -/
lemma get_settingsAfter (us : List SettingsUpdate) (f : SettingsField) :
    (settingsAfter K T us).get.get f = lastGiven K T us f := by
  induction us using List.reverseRecOn with
  | nil => rfl
  | append_singleton us u ih =>
    unfold settingsAfter lastGiven at ih ⊢
    rw [List.foldl_append, List.filter_append, List.filterMap_append]
    generalize us.foldl (fun s u => (putSettings K T u s).2) ⟨none, .default⟩ = s at ih ⊢
    simp only [List.foldl_cons, List.foldl_nil, putSettings]
    cases hcheck : checkSettings K T u with
    | error e =>
      have hrefused : ([u].filter fun u => (checkSettings K T u).isOk) = [] := by
        rw [List.filter_singleton, hcheck]
        rfl
      rw [hrefused, List.filterMap_nil, List.append_nil]
      exact ih
    | ok _ =>
      have haccepted : ([u].filter fun u => (checkSettings K T u).isOk) = [u] := by
        rw [List.filter_singleton, hcheck]
        rfl
      rw [haccepted]
      change (u.merge s.get).get f = _
      rw [SettingsUpdate.get_merge, ih]
      cases hvalue : u.value f with
      | none => simp only [List.filterMap_cons, hvalue, List.filterMap_nil, List.append_nil,
          Option.getD_none]
      | some x => simp only [List.filterMap_cons, hvalue, List.filterMap_nil,
          List.getLast?_append_cons, List.getLast?_singleton, Option.getD_some]

/-- A cache panics in no run exactly when its TTL bounds are the right way round. -/
lemma neverPanics_new_iff (cap minTtl maxTtl : ℕ) :
    NeverPanics K (.new cap minTtl maxTtl) ↔ max minTtl 1 ≤ max maxTtl 1 := by
  constructor
  · intro h
    by_contra hbounds
    -- One answer is enough.
    have hclamp : clamp DnsCache.examplePut.rawTtl (max minTtl 1) (max maxTtl 1) = none :=
      if_neg hbounds
    have hpanic : (DnsCache.new cap minTtl maxTtl).put K DnsCache.examplePut = none := by
      unfold DnsCache.put
      rw [if_neg (by decide)]
      change (clamp DnsCache.examplePut.rawTtl (max minTtl 1) (max maxTtl 1)).bind _ = none
      rw [hclamp]
      rfl
    have hput := h [.put DnsCache.examplePut]
    simp only [run, DnsCache.Run.step, hpanic, Option.map_none, Option.bind_none] at hput
    cases hput
  · intro hbounds ops
    obtain ⟨r, hrun, -⟩ := exists_run (fun _ op hinv => DnsCache.Run.inv_step (K := K) hbounds hinv op)
      DnsCache.Run.inv_initial ops
    exact Option.isSome_iff_exists.mpr ⟨r, hrun⟩

variable (K T) in
/-- After every sequence of requests the cache that is built from the stored settings panics in no run
exactly when the smallest TTL set last is at most 1 or at most the largest TTL set last. -/
theorem neverPanics_settingsAfter_iff (us : List SettingsUpdate) :
    NeverPanics K (settingsCache (settingsAfter K T us).get) ↔
      lastMinTtl K T us ≤ max (lastMaxTtl K T us) 1 := by
  have hmin : (settingsAfter K T us).get.cacheMinTtl = lastMinTtl K T us :=
    get_settingsAfter us .cacheMinTtl
  have hmax : (settingsAfter K T us).get.cacheMaxTtl = lastMaxTtl K T us :=
    get_settingsAfter us .cacheMaxTtl
  unfold settingsCache
  rw [neverPanics_new_iff, hmin, hmax]
  omega

/-- A request that sets both bounds, the wrong way round. -/
def crossedBounds : SettingsUpdate :=
  { cacheMinTtl := some 600, cacheMaxTtl := some 60 }

/-- The request is accepted, and the cache panics. -/
theorem panics_crossedBounds :
    (putSettings plainCrates plainTsig crossedBounds ⟨none, .default⟩).1.isOk = true ∧
      ¬ NeverPanics plainCrates
        (settingsCache (settingsAfter plainCrates plainTsig [crossedBounds]).get) := by
  refine ⟨rfl, fun h => ?_⟩
  have hbounds := (neverPanics_new_iff 1024 600 60).mp h
  revert hbounds
  decide

end Cache

end Api

end Nomina
