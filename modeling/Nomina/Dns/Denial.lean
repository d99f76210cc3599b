import Nomina.Dns.Service
import Nomina.Store.Build
import Nomina.Store.Visibility

/-!
# Denials of existence

A query with the DO bit for a name of a signed zone that has no answer gets an NSEC or NSEC3 record
whose types are those of all records stored at the name, whatever their view. What the same client is
answered for another type depends on its view, and on the records that are synthesized: the SOA, the
DNSKEY and the NSEC3PARAM of the apex, and those of hosts found by mDNS. The main result says exactly
when the types of the denial are the types that are answered.
-/

namespace Nomina

open Lib

/-- The type of the first record. -/
def firstType (records : List Record) : Option RecordType :=
  records.head?.map (·.data.recordType)

variable (X : QueryCrates) (C : Config) (E : Env)

/-- The type of the first answer to a query. -/
def answeredType (q : DnsQuery) (s : Resolver) : Option RecordType :=
  match (resolveQuery X C E q).result s with
  | .ok out => firstType out.answers
  | .error _ => none

variable {X C E} {q : DnsQuery} {zone : StoredZone} {signer : ZoneSigner}

/-! ## What answers start with -/

/-- Where the types are the same in each place, so is the first one. -/
lemma firstType_congr {l l' : List Record}
    (h : l.map (·.data.recordType) = l'.map (·.data.recordType)) : firstType l = firstType l' := by
  unfold firstType
  rw [← List.head?_map, ← List.head?_map, h]

/-- Signatures are appended. -/
lemma firstType_signRecords (S : SigningCrates) (now : ℤ) (K : Crates) (signer : ZoneSigner)
    (records : List Record) :
    firstType (signer.signRecords S now K records) = firstType records := by
  cases records with
  | nil => rfl
  | cons r rs => rfl

/-- Signing does not change what an answer starts with. -/
lemma firstType_signed (q : DnsQuery) (outcome : Outcome) (out : ResolveOutput) :
    firstType (signed X C E q outcome out).answers = firstType out.answers := by
  unfold signed
  split
  · split
    · unfold applyDnssec
      cases outcome with
      | Authoritative => exact firstType_signRecords _ _ _ _ _
      | NoData => rfl
      | NxDomain => rfl
      | NotAuthoritative => rfl
    · rfl
  · rfl

/-- Synthesized records are the answer. -/
lemma answeredType_synthesized (hasn : C.asnBlocked q.client = false) {answers : List Record}
    (h : (mdnsAnswer X C E q.qname q.qtype).or (apexAnswer X C E q) = some answers) (s : Resolver) :
    answeredType X C E q s = firstType answers := by
  obtain ⟨stats, qlog, hrun, -⟩ := resolveQuery_run (answerQuery_synthesized (s := s) hasn h)
  unfold answeredType EStateM.result
  rw [hrun]

/-- The lookup of a name of a local zone is one in that zone. -/
lemma Config.lookup_eq (hzone : C.store.zoneFor q.qname = some zone) :
    C.lookup X q = lookupIn X.toCrates zone (C.store.clientView q.client (C.geo.lookup q.client))
      ((C.store.viewFor q.client (C.geo.lookup q.client)).map Prod.snd) q.qname q.qtype := by
  exact lookup_of_zoneFor hzone _ _

/-- A query in a local zone is answered with what the lookup finds. -/
lemma LooksUp.answeredType (h : LooksUp X C E q) (hzone : C.store.zoneFor q.qname = some zone)
    (s : Resolver) : Nomina.answeredType X C E q s = firstType (C.lookup X q).answers := by
  have hsome : C.store.zoneFor q.qname ≠ none := by
    rw [hzone]
    exact Option.some_ne_none zone
  obtain ⟨stat, rcode, hlookup⟩ := resolveLookup_local hsome C.upstream.isSome s
  obtain ⟨answers, n, hanswer, -, htypes⟩ := h.answerQuery hlookup
  obtain ⟨stats, qlog, hrun, -⟩ := resolveQuery_run hanswer
  unfold Nomina.answeredType EStateM.result
  rw [hrun]
  dsimp only
  rw [firstType_congr htypes, firstType_signed]

/-! ## Answers from a zone -/

/-- The records stored for a name, by itself or by a wildcard. -/
def StoredZone.stored (K : Crates) (zone : StoredZone) (qname : Name) : List StoredRecord :=
  (recordsAt zone (nameKey K qname)).getD []

lemma mem_recordTypes {recs : List StoredRecord} {t : RecordType} :
    t ∈ recordTypes recs ↔ ∃ r ∈ recs, r.rtype = t := by
  unfold recordTypes
  rw [mem_btreeSet, List.mem_map]

section Zone

variable {K : Crates} {viewId : ℤ} {viewName : Option Str} {qname : Name} {t : RecordType}

/-- Records that are shown are of the type asked for. -/
lemma firstType_map_toRecord {recs : List StoredRecord} (h : recs ≠ [])
    (htypes : ∀ r ∈ recs, r.rtype = t) (owner : Name) :
    firstType (recs.map (·.toRecord owner)) = some t := by
  match recs, h with
  | r :: rs, _ =>
    have hr : r.rdata.recordType = t := r.typed.trans (htypes r List.mem_cons_self)
    exact congrArg some hr

/-- Where nothing is shown for ANY, no type is shown. -/
lemma resolve_eq_nil_of_all {recs : List StoredRecord}
    (h : (recordTypes recs).flatMap (resolve recs viewId) = []) (u : RecordType) :
    resolve recs viewId u = [] := by
  by_contra hu
  obtain ⟨r, hr⟩ := List.exists_mem_of_ne_nil _ hu
  obtain ⟨hmem, hrtype⟩ := mem_of_mem_resolve hr
  have hshown : r ∈ (recordTypes recs).flatMap (resolve recs viewId) :=
    List.mem_flatMap.mpr ⟨u, mem_recordTypes.mpr ⟨r, hmem, hrtype⟩, hr⟩
  rw [h] at hshown
  cases hshown

/-- A found name without an answer is answered with NODATA, and shows neither the type asked for nor a
CNAME. -/
lemma answer_denied {recs : List StoredRecord}
    (h : (answer K zone viewId viewName qname t recs).outcome ≠ .Authoritative) :
    answer K zone viewId viewName qname t recs = .nodata zone.soaRecord viewName ∧
      resolve recs viewId t = [] ∧ resolve recs viewId .CNAME = [] := by
  unfold answer at h ⊢
  dsimp only at h ⊢
  split
  · rename_i hany
    rw [if_pos hany] at h
    split
    · rename_i hnone
      have hall := resolve_eq_nil_of_all (List.map_eq_nil_iff.mp (List.isEmpty_iff.mp hnone))
      exact ⟨rfl, hall t, hall .CNAME⟩
    · rename_i hne
      rw [if_neg hne] at h
      exact absurd rfl h
  · rename_i hany
    rw [if_neg hany] at h
    split
    · rename_i hdirect
      rw [if_pos hdirect] at h
      exact absurd rfl h
    · rename_i hdirect
      rw [if_neg hdirect] at h
      split
      · rename_i hcnames
        rw [if_pos hcnames] at h
        exact absurd rfl h
      · rename_i hcnames
        exact ⟨rfl, by simpa using hdirect, by simpa using hcnames⟩

/-- What is denied in a zone comes with its SOA record; a name that does not exist has no records. -/
lemma lookupIn_denied (h : (lookupIn K zone viewId viewName qname t).outcome ≠ .Authoritative) :
    (lookupIn K zone viewId viewName qname t).authority = [zone.soaRecord] ∧
      ((lookupIn K zone viewId viewName qname t).outcome = .NoData ∨
        (lookupIn K zone viewId viewName qname t).outcome = .NxDomain ∧ zone.stored K qname = []) := by
  by_cases hsoa : t = .SOA ∧ nameKey K qname = nameKey K zone.apex
  · rw [lookupIn_soa hsoa] at h
    exact absurd rfl h
  · rw [lookupIn_entry hsoa] at h ⊢
    unfold StoredZone.stored
    cases hrecs : recordsAt zone (nameKey K qname) with
    | none => exact ⟨rfl, .inr ⟨rfl, rfl⟩⟩
    | some recs =>
      rw [hrecs] at h
      rw [Option.elim_some, (answer_denied h).1]
      exact ⟨rfl, .inl rfl⟩

/-- A name that is denied shows neither the type asked for nor a CNAME. -/
lemma shown_of_denied (h : (lookupIn K zone viewId viewName qname t).outcome ≠ .Authoritative) :
    shown K zone viewId qname t = [] ∧ shown K zone viewId qname .CNAME = [] ∧
      ¬ (t = .SOA ∧ nameKey K qname = nameKey K zone.apex) := by
  by_cases hsoa : t = .SOA ∧ nameKey K qname = nameKey K zone.apex
  · rw [lookupIn_soa hsoa] at h
    exact absurd rfl h
  · rw [lookupIn_entry hsoa] at h
    cases hrecs : recordsAt zone (nameKey K qname) with
    | none => exact ⟨shown_of_recordsAt_none hrecs _, shown_of_recordsAt_none hrecs _, hsoa⟩
    | some recs =>
      rw [hrecs] at h
      obtain ⟨-, hdirect, hcnames⟩ := answer_denied h
      rw [shown_of_recordsAt hrecs, shown_of_recordsAt hrecs]
      exact ⟨hdirect, hcnames, hsoa⟩

/-- Where no CNAME is shown, the answer from an owner entry starts with the type asked for exactly when
it is shown. -/
lemma firstType_answer {recs : List StoredRecord} (hcname : resolve recs viewId .CNAME = [])
    (hany : ∀ r ∈ recs, r.rtype ≠ .ANY) :
    firstType (answer K zone viewId viewName qname t recs).answers = some t ↔
      resolve recs viewId t ≠ [] := by
  unfold answer
  dsimp only
  split
  · rename_i ht
    have ht' : t = .ANY := by
      simpa using ht
    subst ht'
    have hnone : resolve recs viewId .ANY = [] := by
      by_contra hne
      obtain ⟨r, hr⟩ := List.exists_mem_of_ne_nil _ hne
      obtain ⟨hmem, hrtype⟩ := mem_of_mem_resolve hr
      exact hany r hmem hrtype
    refine iff_of_false ?_ (not_not.mpr hnone)
    split
    · simp [LookupResult.nodata, firstType]
    · intro hfirst
      unfold firstType at hfirst
      obtain ⟨a, ha, hatype⟩ := Option.map_eq_some_iff.mp hfirst
      obtain ⟨r, hr, rfl⟩ := List.mem_map.mp (List.mem_of_head? ha)
      obtain ⟨u, -, hru⟩ := List.mem_flatMap.mp hr
      exact hany r (mem_of_mem_resolve hru).1 (r.typed.symm.trans hatype)
  · split
    · rename_i hdirect
      have hne : resolve recs viewId t ≠ [] := by
        simpa using hdirect
      exact iff_of_true
        (firstType_map_toRecord hne (fun r hr => (mem_of_mem_resolve hr).2) qname) hne
    · rename_i hdirect
      have hnil : resolve recs viewId t = [] := by
        simpa using hdirect
      rw [hcname]
      exact iff_of_false (by simp [LookupResult.nodata, firstType]) (not_not.mpr hnil)

/-- Where no CNAME is shown, an answer starts with the type asked for exactly when this is the SOA of
the apex or a type that is shown. -/
lemma firstType_lookupIn (hcname : shown K zone viewId qname .CNAME = [])
    (hany : ∀ r ∈ (recordsAt zone (nameKey K qname)).getD [], r.rtype ≠ .ANY) :
    firstType (lookupIn K zone viewId viewName qname t).answers = some t ↔
      (t = .SOA ∧ nameKey K qname = nameKey K zone.apex) ∨ shown K zone viewId qname t ≠ [] := by
  by_cases hsoa : t = .SOA ∧ nameKey K qname = nameKey K zone.apex
  · rw [lookupIn_soa hsoa]
    refine iff_of_true ?_ (.inl hsoa)
    rw [hsoa.1]
    rfl
  · rw [or_iff_right hsoa, lookupIn_entry hsoa]
    cases hrecs : recordsAt zone (nameKey K qname) with
    | none =>
      rw [shown_of_recordsAt_none hrecs]
      exact iff_of_false (by simp [firstType]) (by simp)
    | some recs =>
      rw [shown_of_recordsAt hrecs] at hcname ⊢
      rw [hrecs, Option.getD_some] at hany
      exact firstType_answer hcname hany

end Zone

/-! ## Synthesized answers -/

/-- The address records of an mDNS host are of the type asked for. -/
lemma recordType_addressRecord {m : MdnsRegistry} {host : Str} {t : RecordType} {now : ℕ}
    {ip : IpAddr} (h : ip ∈ m.lookup host t now) (name : Name) (ttl : ℕ) :
    (t = .A ∨ t = .AAAA → (addressRecord name ttl ip).data.recordType = t) ∧
      (addressRecord name ttl ip).data.recordType ≠ .ANY := by
  unfold MdnsRegistry.lookup at h
  refine ⟨?_, by cases ip <;> simp [addressRecord, RData.recordType]⟩
  split at h
  · split at h
    · obtain ⟨-, hfamily⟩ := List.mem_filter.mp h
      rintro (rfl | rfl)
      · cases ip with
        | v4 a => rfl
        | v6 a => cases hfamily
      · cases ip with
        | v4 a => cases hfamily
        | v6 a => rfl
    · cases h
  · cases h

/-- The reverse answer of mDNS is a PTR record. -/
lemma firstType_mdnsReverse {zone : Str} {qname : Name} {t : RecordType} {answers : List Record}
    (h : mdnsReverse X C E zone qname t = some answers) :
    firstType answers = some .PTR ∧ (t = .PTR ∨ t = .ANY) := by
  unfold mdnsReverse at h
  split at h
  · rename_i ht
    simp only [Option.bind_eq_bind, Option.bind_eq_some_iff] at h
    obtain ⟨ip, -, host, -, h⟩ := h
    split at h
    · cases h
      exact ⟨rfl, ht⟩
    · cases h
  · cases h

/-- The forward answer of mDNS has addresses. -/
lemma firstType_mdnsForward {zone : Str} {qname : Name} {t : RecordType} {answers : List Record}
    (h : mdnsForward X C E zone qname t = some answers) : firstType answers = some t ↔ t ≠ .ANY := by
  unfold mdnsForward at h
  split at h
  · rename_i ht
    simp only [Option.bind_eq_bind, Option.bind_eq_some_iff] at h
    obtain ⟨label, -, h⟩ := h
    split at h
    · cases h
    · split at h
      · cases h
      · cases h
        rename_i hne
        cases hlookup : C.mdns.lookup label t E.now with
        | nil => simp [hlookup] at hne
        | cons ip ips =>
          have hip : ip ∈ C.mdns.lookup label t E.now := by
            rw [hlookup]
            exact List.mem_cons_self
          obtain ⟨htype, hnotAny⟩ :=
            recordType_addressRecord hip qname (max C.settings.mdnsTtl 1)
          constructor
          · intro hfirst hany
            exact hnotAny ((Option.some.inj hfirst).trans hany)
          · intro hany
            have ht' : t = .A ∨ t = .AAAA := by
              rcases ht with ht | ht | ht
              · exact .inl ht
              · exact .inr ht
              · exact absurd ht hany
            exact congrArg some (htype ht')
  · cases h

/-- An mDNS answer starts with the type asked for, unless this is ANY. -/
lemma firstType_mdnsAnswer {qname : Name} {t : RecordType} {answers : List Record}
    (h : mdnsAnswer X C E qname t = some answers) : firstType answers = some t ↔ t ≠ .ANY := by
  unfold mdnsAnswer at h
  split at h
  · simp only [Option.bind_eq_bind, Option.bind_eq_some_iff] at h
    obtain ⟨zone, -, h⟩ := h
    rcases Option.or_eq_some_iff.mp h with hreverse | ⟨-, hforward⟩
    · obtain ⟨hfirst, ht⟩ := firstType_mdnsReverse hreverse
      rw [hfirst]
      rcases ht with rfl | rfl
      · exact iff_of_true rfl (by simp)
      · exact iff_of_false (by simp) (by simp)
    · exact firstType_mdnsForward hforward
  · cases h

/-- mDNS answers addresses, their names, and ANY. -/
lemma mdnsAnswer_types {qname : Name} {t : RecordType}
    (h : (mdnsAnswer X C E qname t).isSome = true) : t ∈ [RecordType.PTR, .A, .AAAA, .ANY] := by
  by_contra ht
  simp only [List.mem_cons, List.not_mem_nil, or_false, not_or] at ht
  obtain ⟨hptr, ha, haaaa, hany⟩ := ht
  have hnone : mdnsAnswer X C E qname t = none := by
    unfold mdnsAnswer mdnsReverse mdnsForward
    simp [hptr, ha, haaaa, hany]
  rw [hnone] at h
  cases h

/-- The types that are synthesized from the signer at the apex. -/
def ZoneSigner.Synthesizes (X : QueryCrates) (signer : ZoneSigner) (qname : Name) (t : RecordType) :
    Prop :=
  sameName X qname signer.apex = true ∧ (t = .DNSKEY ∨ t = .NSEC3PARAM ∧ signer.usesNsec3 = true)

/-- The records of such a type are the answer to a query with the DO bit. -/
lemma ZoneSigner.Synthesizes.apexAnswer (h : signer.Synthesizes X q.qname q.qtype)
    (hdo : q.dnssecOk = true) (hsigner : C.store.signerFor q.qname = some signer) :
    ∃ answers, Nomina.apexAnswer X C E q = some answers ∧ firstType answers = some q.qtype := by
  obtain ⟨hsame, ht⟩ := h
  unfold Nomina.apexAnswer
  rw [hsigner]
  simp only [Option.bind_eq_bind, Option.bind_some]
  rcases ht with ht | ⟨ht, huses⟩
  · rw [if_pos ⟨hdo, ht⟩, if_pos hsame]
    exact ⟨_, rfl, by rw [ht]; rfl⟩
  · rw [if_neg (by simp [ht]), if_pos ⟨hdo, ht⟩, if_pos (by simp [huses, hsame])]
    refine ⟨_, rfl, ?_⟩
    obtain ⟨p, hp⟩ := Option.isSome_iff_exists.mp huses
    unfold ZoneSigner.nsec3paramRrset
    rw [hp, ht]
    rfl

/-- Nothing else is synthesized from the signer. -/
lemma ZoneSigner.synthesizes_of_apexAnswer {answers : List Record}
    (h : apexAnswer X C E q = some answers) (hsigner : C.store.signerFor q.qname = some signer) :
    signer.Synthesizes X q.qname q.qtype := by
  unfold apexAnswer at h
  rw [hsigner] at h
  simp only [Option.bind_eq_bind, Option.bind_some] at h
  split at h
  · rename_i hq
    split at h
    · rename_i hsame
      exact ⟨hsame, .inl hq.2⟩
    · cases h
  · split at h
    · rename_i hq
      split at h
      · rename_i hsame
        obtain ⟨huses, hsame⟩ := Bool.and_eq_true_iff.mp hsame
        exact ⟨hsame, .inr ⟨hq.2, huses⟩⟩
      · cases h
    · cases h

/-! ## Types that are answered -/

/-- The query, with the DO bit, is for a name of a signed zone, which has no answer to it: there is no
data of the type, or no such name, which is denied in the same way. -/
structure Denied (X : QueryCrates) (C : Config) (E : Env) (q : DnsQuery) (zone : StoredZone)
    (signer : ZoneSigner) : Prop extends LooksUp X C E q where
  dnssecOk : q.dnssecOk = true
  zoneFor : C.store.zoneFor q.qname = some zone
  signer : zone.signer = some signer
  noAnswer : (C.lookup X q).outcome ≠ .Authoritative

/-- The types of records that are synthesized at a name of a signed zone. -/
def Synthesizes (X : QueryCrates) (C : Config) (E : Env) (qname : Name) (zone : StoredZone)
    (signer : ZoneSigner) (t : RecordType) : Prop :=
  (t ≠ .ANY ∧ (mdnsAnswer X C E qname t).isSome = true) ∨
    (t = .SOA ∧ nameKey X.toCrates qname = nameKey X.toCrates zone.apex) ∨
    signer.Synthesizes X qname t

/-- The records of a type that the client of a query is shown at its name. -/
def Config.shown (X : QueryCrates) (C : Config) (q : DnsQuery) (zone : StoredZone) (t : RecordType) :
    List StoredRecord :=
  Nomina.shown X.toCrates zone (C.store.clientView q.client (C.geo.lookup q.client)) q.qname t

section Denied

variable (h : Denied X C E q zone signer)

include h

lemma Denied.signerFor : C.store.signerFor q.qname = some signer := by
  unfold ZoneStore.signerFor
  rw [h.zoneFor]
  exact h.signer

/-- Neither the type asked for nor a CNAME is shown, and the type is not synthesized. -/
lemma Denied.shown_eq_nil : C.shown X q zone q.qtype = [] ∧ C.shown X q zone .CNAME = [] ∧
    ¬ Synthesizes X C E q.qname zone signer q.qtype := by
  have houtcome := h.noAnswer
  rw [Config.lookup_eq h.zoneFor] at houtcome
  obtain ⟨htype, hcname, hsoa⟩ := shown_of_denied houtcome
  refine ⟨htype, hcname, ?_⟩
  obtain ⟨hmdns, hapex⟩ := Option.or_eq_none_iff.mp h.synthesized
  rintro (⟨-, hsome⟩ | hsoa' | hsigner)
  · rw [hmdns] at hsome
    cases hsome
  · exact hsoa hsoa'
  · obtain ⟨answers, hanswers, -⟩ := hsigner.apexAnswer (E := E) h.dnssecOk h.signerFor
    cases hapex.symm.trans hanswers

/-- The signer synthesizes a type exactly when there are records for the query of the same client, which
start with it. -/
lemma Denied.apexAnswer (t : RecordType) :
    (signer.Synthesizes X q.qname t → ∃ answers,
      Nomina.apexAnswer X C E { q with qtype := t } = some answers ∧ firstType answers = some t) ∧
    ∀ answers, Nomina.apexAnswer X C E { q with qtype := t } = some answers →
      signer.Synthesizes X q.qname t := by
  constructor
  · intro hsigner
    exact ZoneSigner.Synthesizes.apexAnswer (q := { q with qtype := t }) hsigner h.dnssecOk h.signerFor
  · intro answers hanswers
    exact ZoneSigner.synthesizes_of_apexAnswer (q := { q with qtype := t }) hanswers h.signerFor

/-- A client is answered what is synthesized at the name. -/
lemma Denied.answeredType_synthesized {t : RecordType} {answers : List Record}
    (hsynth : (mdnsAnswer X C E q.qname t).or (Nomina.apexAnswer X C E { q with qtype := t }) =
      some answers) (s : Resolver) :
    answeredType X C E { q with qtype := t } s = firstType answers :=
  Nomina.answeredType_synthesized (q := { q with qtype := t }) h.asn hsynth s

/-- Where nothing is synthesized by mDNS or from the signer, a client is answered the SOA of the apex
and what it is shown. -/
lemma Denied.answeredType_lookup (hany : ∀ r ∈ zone.stored X.toCrates q.qname, r.rtype ≠ .ANY)
    {t : RecordType} (hmdns : mdnsAnswer X C E q.qname t = none)
    (hapex : Nomina.apexAnswer X C E { q with qtype := t } = none) (s : Resolver) :
    answeredType X C E { q with qtype := t } s = some t ↔
      (t = .SOA ∧ nameKey X.toCrates q.qname = nameKey X.toCrates zone.apex) ∨
        C.shown X q zone t ≠ [] := by
  have hlooksUp : LooksUp X C E { q with qtype := t } :=
    ⟨h.asn, Option.or_eq_none_iff.mpr ⟨hmdns, hapex⟩⟩
  rw [hlooksUp.answeredType h.zoneFor s, Config.lookup_eq (q := { q with qtype := t }) h.zoneFor]
  exact firstType_lookupIn h.shown_eq_nil.2.1 hany

/-- A client is answered a type first exactly when it is synthesized at the name or shown there. -/
lemma Denied.answeredType_iff (hany : ∀ r ∈ zone.stored X.toCrates q.qname, r.rtype ≠ .ANY)
    (t : RecordType) (s : Resolver) :
    answeredType X C E { q with qtype := t } s = some t ↔
      Synthesizes X C E q.qname zone signer t ∨ C.shown X q zone t ≠ [] := by
  have hnoAny : C.shown X q zone .ANY = [] := by
    by_contra hne
    obtain ⟨r, hr⟩ := List.exists_mem_of_ne_nil _ hne
    obtain ⟨hmem, hrtype⟩ := mem_of_mem_resolve hr
    exact hany r hmem hrtype
  obtain ⟨hsynthesizes, hsigned⟩ := h.apexAnswer t
  cases hmdns : mdnsAnswer X C E q.qname t with
  | some answers =>
    rw [h.answeredType_synthesized (by rw [hmdns, Option.some_or]), firstType_mdnsAnswer hmdns]
    constructor
    · intro ht
      exact .inl (.inl ⟨ht, by rw [hmdns]; rfl⟩)
    · -- ANY is neither synthesized nor shown.
      rintro hrhs rfl
      rcases hrhs with (⟨ht, -⟩ | ⟨ht, -⟩ | ⟨-, ht | ⟨ht, -⟩⟩) | ht
      · exact ht rfl
      · cases ht
      · cases ht
      · cases ht
      · exact ht hnoAny
  | none =>
    cases hapex : Nomina.apexAnswer X C E { q with qtype := t } with
    | some answers =>
      have hsigner := hsigned answers hapex
      obtain ⟨answers', hanswers', hfirst⟩ := hsynthesizes hsigner
      cases hapex.symm.trans hanswers'
      rw [h.answeredType_synthesized (by rw [hmdns, hapex, Option.none_or]), hfirst]
      exact iff_of_true rfl (.inl (.inr (.inr hsigner)))
    | none =>
      rw [h.answeredType_lookup hany hmdns hapex]
      constructor
      · rintro (hsoa | hshown)
        · exact .inl (.inr (.inl hsoa))
        · exact .inr hshown
      · rintro ((⟨-, hsome⟩ | hsoa | hsigner) | hshown)
        · rw [hmdns] at hsome
          cases hsome
        · exact .inl hsoa
        · obtain ⟨answers, hanswers, -⟩ := hsynthesizes hsigner
          cases hapex.symm.trans hanswers
        · exact .inr hshown

end Denied

/-! ## The types of a denial -/

/-- The types of the NSEC and NSEC3 records among some records. -/
def bitmaps (records : List Record) : List (List RecordType) :=
  records.filterMap fun r => match r.data with
    | .nsec _ types => some types
    | .nsec3 _ _ _ types => some types
    | _ => none

/-- The types that every denial has. -/
def ZoneSigner.fixedTypes (signer : ZoneSigner) : List RecordType :=
  if signer.usesNsec3 then [.RRSIG] else [.RRSIG, .NSEC]

lemma ZoneSigner.rrsig_mem_fixedTypes (signer : ZoneSigner) : .RRSIG ∈ signer.fixedTypes := by
  unfold ZoneSigner.fixedTypes
  split <;> exact List.mem_cons_self

lemma ZoneSigner.of_mem_fixedTypes (signer : ZoneSigner) {t : RecordType}
    (h : t ∈ signer.fixedTypes) : t = .RRSIG ∨ t = .NSEC := by
  unfold ZoneSigner.fixedTypes at h
  split at h
  · exact .inl (List.mem_singleton.mp h)
  · simpa using h

section Bitmaps

variable {S : SigningCrates} {now : ℤ}

lemma bitmaps_append (l l' : List Record) : bitmaps (l ++ l') = bitmaps l ++ bitmaps l' :=
  List.filterMap_append

/-- A signature has no types. -/
lemma bitmaps_signRrset {name : Name} {t : RecordType} {ttl : ℕ} {records : List Record} {r : Record}
    (h : signer.signRrset S now name t ttl records = some r) : bitmaps [r] = [] := by
  unfold ZoneSigner.signRrset at h
  obtain ⟨sig, -, rfl⟩ := Option.map_eq_some_iff.mp h
  rfl

/-- Nor do the signatures of some records. -/
lemma bitmaps_signRecords (K : Crates) (signer : ZoneSigner) (records : List Record) :
    bitmaps (signer.signRecords S now K records) = bitmaps records := by
  unfold ZoneSigner.signRecords
  rw [bitmaps_append]
  refine (congrArg _ ?_).trans (List.append_nil _)
  apply List.filterMap_eq_nil_iff.mpr
  intro r hr
  obtain ⟨⟨⟨owner, t⟩, rs⟩, -, hsig⟩ := List.mem_filterMap.mp hr
  cases rs with
  | nil => cases hsig
  | cons first rest =>
    have hnone := bitmaps_signRrset hsig
    unfold bitmaps at hnone
    exact List.filterMap_eq_nil_iff.mp hnone r (List.mem_singleton_self r)

/-- The types of a denial are those given and the fixed ones. -/
lemma mem_bitmaps_denial {owner : Name} {present types : List RecordType} {ttl : ℕ}
    (h : types ∈ bitmaps (signer.denial S now owner present ttl)) :
    types = present ++ signer.fixedTypes := by
  have hsigned (r : Record) : bitmaps (signer.withSignature S now r) = bitmaps [r] := by
    unfold ZoneSigner.withSignature
    rw [← List.singleton_append, bitmaps_append]
    cases hsig : signer.signRrset S now r.name r.data.recordType r.ttl [r] with
    | none => exact List.append_nil _
    | some sig =>
      have hnone := bitmaps_signRrset hsig
      rw [Option.toList_some, hnone, List.append_nil]
  unfold ZoneSigner.denial at h
  unfold ZoneSigner.fixedTypes
  split at h
  · rename_i huses
    rw [if_pos huses]
    unfold ZoneSigner.nsec3Records at h
    split at h
    · cases h
    · split at h
      · cases h
      · split at h
        · cases h
        · rw [hsigned] at h
          exact List.mem_singleton.mp h
  · rename_i huses
    rw [if_neg huses]
    unfold ZoneSigner.nsecRecords at h
    rw [hsigned] at h
    exact List.mem_singleton.mp h

/-- Without NSEC3 there always is a denial. -/
lemma bitmaps_denial_nsec (h : signer.usesNsec3 = false) (owner : Name) (present : List RecordType)
    (ttl : ℕ) : bitmaps (signer.denial S now owner present ttl) ≠ [] := by
  unfold ZoneSigner.denial
  rw [if_neg (by simp [h])]
  exact List.cons_ne_nil _ _

end Bitmaps

section Exact

variable (X C E) in
/-- The types of a denial are exact: neither the type asked for nor CNAME is among them and, but for
RRSIG and NSEC, they are those that the same client is answered first at the name. -/
structure BitmapExact (q : DnsQuery) (s : Resolver) (types : List RecordType) : Prop where
  qtype : q.qtype ∉ types
  cname : .CNAME ∉ types
  answered : ∀ t, t ≠ .RRSIG → t ≠ .NSEC →
    (t ∈ types ↔ answeredType X C E { q with qtype := t } s = some t)

variable (X C E) in
/-- The condition for it: the type asked for is not a fixed one of the denial, every type that is
stored is shown to the client or synthesized, and every type that is synthesized is stored. -/
structure TypesVisible (q : DnsQuery) (zone : StoredZone) (signer : ZoneSigner) : Prop where
  qtype : q.qtype ∉ signer.fixedTypes
  nsec : q.qtype = .NSEC → ∀ r ∈ zone.stored X.toCrates q.qname, r.rtype ≠ .NSEC
  visible : ∀ r ∈ zone.stored X.toCrates q.qname, r.rtype ≠ .RRSIG → r.rtype ≠ .NSEC →
    Synthesizes X C E q.qname zone signer r.rtype ∨ C.shown X q zone r.rtype ≠ []
  synthesized : ∀ t, Synthesizes X C E q.qname zone signer t →
    ∃ r ∈ zone.stored X.toCrates q.qname, r.rtype = t

/-- The response to a query that is denied. -/
lemma Denied.resolveQuery (h : Denied X C E q zone signer) (s : Resolver) :
    ∃ out s' ttl, Nomina.resolveQuery X C E q s = .ok out s' ∧
      out.authority = signer.signRecords X.signing E.unixTime X.toCrates [zone.soaRecord] ++
        signer.denial X.signing E.unixTime q.qname (recordTypes (zone.stored X.toCrates q.qname))
          ttl := by
  have hsome : C.store.zoneFor q.qname ≠ none := by
    rw [h.zoneFor]
    exact Option.some_ne_none zone
  have hnoAnswer := h.noAnswer
  rw [Config.lookup_eq h.zoneFor] at hnoAnswer
  obtain ⟨hauthority, houtcome⟩ := lookupIn_denied hnoAnswer
  rw [← Config.lookup_eq h.zoneFor] at hauthority houtcome
  obtain ⟨stat, rcode, hlookup⟩ := resolveLookup_local hsome C.upstream.isSome s
  obtain ⟨answers, n, hanswer, -, -⟩ := h.toLooksUp.answerQuery hlookup
  obtain ⟨stats, qlog, hquery, -⟩ := resolveQuery_run hanswer
  refine ⟨_, _, zone.soaRecord.ttl, hquery, ?_⟩
  have hlocal : (C.lookup X q).outcome ≠ .NotAuthoritative := by
    rw [Ne, Config.lookup_notAuthoritative]
    exact hsome
  have hpresent : C.store.presentTypes X.toCrates q.qname =
      recordTypes (zone.stored X.toCrates q.qname) := by
    unfold ZoneStore.presentTypes
    rw [h.zoneFor]
    rfl
  dsimp only
  unfold signed
  rw [if_pos ⟨h.dnssecOk, hlocal⟩, h.signerFor]
  dsimp only
  unfold applyDnssec
  rcases houtcome with houtcome | ⟨houtcome, hnone⟩
  · rw [houtcome, hauthority, ← hpresent]
    rfl
  · rw [houtcome, hauthority, hnone]
    rfl

/-- What is synthesized is neither a CNAME nor a type of the denial itself. -/
lemma Synthesizes.ne {t : RecordType} (h : Synthesizes X C E q.qname zone signer t) :
    t ≠ .CNAME ∧ t ≠ .RRSIG ∧ t ≠ .NSEC := by
  rcases h with ⟨-, hmdns⟩ | ⟨rfl, -⟩ | ⟨-, rfl | ⟨rfl, -⟩⟩
  · have ht := mdnsAnswer_types hmdns
    refine ⟨?_, ?_, ?_⟩
    all_goals
      rintro rfl
      revert ht
      decide
  · decide
  · decide
  · decide

/-- The types of a denial, those stored at the name and the fixed ones, are exact under the
condition. -/
lemma Denied.exact_of_visible (h : Denied X C E q zone signer)
    (hany : ∀ r ∈ zone.stored X.toCrates q.qname, r.rtype ≠ .ANY)
    (hvisible : TypesVisible X C E q zone signer) (s : Resolver) :
    BitmapExact X C E q s
      (recordTypes (zone.stored X.toCrates q.qname) ++ signer.fixedTypes) := by
  obtain ⟨hqtype, hcname, hsynth⟩ := h.shown_eq_nil
  have hstored (t : RecordType) (ht : t ∈ recordTypes (zone.stored X.toCrates q.qname))
      (hrrsig : t ≠ .RRSIG) (hnsec : t ≠ .NSEC) :
      Synthesizes X C E q.qname zone signer t ∨ C.shown X q zone t ≠ [] := by
    obtain ⟨r, hr, rfl⟩ := mem_recordTypes.mp ht
    exact hvisible.visible r hr hrrsig hnsec
  have hrrsig : q.qtype ≠ .RRSIG := by
    intro hq
    apply hvisible.qtype
    rw [hq]
    exact signer.rrsig_mem_fixedTypes
  constructor
  · intro hmem
    rcases List.mem_append.mp hmem with hmem | hmem
    · by_cases hnsec : q.qtype = .NSEC
      · obtain ⟨r, hr, hrtype⟩ := mem_recordTypes.mp hmem
        exact hvisible.nsec hnsec r hr (hrtype.trans hnsec)
      · rcases hstored _ hmem hrrsig hnsec with hsyn | hne
        · exact hsynth hsyn
        · exact hne hqtype
    · exact hvisible.qtype hmem
  · intro hmem
    rcases List.mem_append.mp hmem with hmem | hmem
    · rcases hstored _ hmem (by decide) (by decide) with hsyn | hne
      · exact hsyn.ne.1 rfl
      · exact hne hcname
    · rcases signer.of_mem_fixedTypes hmem with ht | ht
      · cases ht
      · cases ht
  · intro t hrrsig' hnsec'
    rw [h.answeredType_iff hany, List.mem_append]
    constructor
    · rintro (hmem | hmem)
      · exact hstored t hmem hrrsig' hnsec'
      · rcases signer.of_mem_fixedTypes hmem with ht | ht
        · exact absurd ht hrrsig'
        · exact absurd ht hnsec'
    · rintro (hsyn | hne)
      · exact .inl (mem_recordTypes.mpr (hvisible.synthesized t hsyn))
      · obtain ⟨r, hr⟩ := List.exists_mem_of_ne_nil _ hne
        obtain ⟨hmem, hrtype⟩ := mem_of_mem_resolve hr
        exact .inl (mem_recordTypes.mpr ⟨r, hmem, hrtype⟩)

/-- They are exact under no other. -/
lemma Denied.visible_of_exact (h : Denied X C E q zone signer)
    (hany : ∀ r ∈ zone.stored X.toCrates q.qname, r.rtype ≠ .ANY) {s : Resolver}
    (hexact : BitmapExact X C E q s
      (recordTypes (zone.stored X.toCrates q.qname) ++ signer.fixedTypes)) :
    TypesVisible X C E q zone signer := by
  constructor
  · intro hmem
    exact hexact.qtype (List.mem_append_right _ hmem)
  · intro hq r hr hrtype
    apply hexact.qtype
    rw [hq]
    exact List.mem_append_left _ (mem_recordTypes.mpr ⟨r, hr, hrtype⟩)
  · intro r hr hrrsig hnsec
    rw [← h.answeredType_iff hany r.rtype s]
    apply (hexact.answered r.rtype hrrsig hnsec).mp
    exact List.mem_append_left _ (mem_recordTypes.mpr ⟨r, hr, rfl⟩)
  · intro t hsyn
    obtain ⟨-, hrrsig, hnsec⟩ := hsyn.ne
    have hanswered := (h.answeredType_iff hany t s).mpr (.inl hsyn)
    rcases List.mem_append.mp ((hexact.answered t hrrsig hnsec).mpr hanswered) with hmem | hmem
    · exact mem_recordTypes.mp hmem
    · rcases signer.of_mem_fixedTypes hmem with ht | ht
      · exact absurd ht hrrsig
      · exact absurd ht hnsec

/-- The denial of a query has the types stored at the name and the fixed ones. -/
lemma Denied.bitmaps (h : Denied X C E q zone signer) (s : Resolver) :
    ∃ out t, Nomina.resolveQuery X C E q s = .ok out t ∧
      (signer.usesNsec3 = false → Nomina.bitmaps out.authority ≠ []) ∧
      ∀ types ∈ Nomina.bitmaps out.authority,
        types = recordTypes (zone.stored X.toCrates q.qname) ++ signer.fixedTypes := by
  obtain ⟨out, t, ttl, hquery, hauthority⟩ := h.resolveQuery s
  have hbitmaps : Nomina.bitmaps out.authority = Nomina.bitmaps (signer.denial X.signing E.unixTime
      q.qname (recordTypes (zone.stored X.toCrates q.qname)) ttl) := by
    rw [hauthority, bitmaps_append, bitmaps_signRecords]
    rfl
  refine ⟨out, t, hquery, ?_, ?_⟩
  · intro huses
    rw [hbitmaps]
    exact bitmaps_denial_nsec huses _ _ _
  · intro types htypes
    rw [hbitmaps] at htypes
    exact mem_bitmaps_denial htypes

/-- For every query that a signed zone denies: the NSEC or NSEC3 record of its response, in whatever
state it is resolved, has exactly the types that the same client is answered at the name, in whatever
state it asks for them, if and only if what is stored at the name is visible to the client and what is
synthesized there is stored. -/
theorem Denied.bitmap_exact_iff (h : Denied X C E q zone signer)
    (hany : ∀ r ∈ zone.stored X.toCrates q.qname, r.rtype ≠ .ANY) (s s' : Resolver) :
    ∃ out t, Nomina.resolveQuery X C E q s = .ok out t ∧
      (signer.usesNsec3 = false → Nomina.bitmaps out.authority ≠ []) ∧
      ∀ types ∈ Nomina.bitmaps out.authority,
        (BitmapExact X C E q s' types ↔ TypesVisible X C E q zone signer) := by
  obtain ⟨out, t, hquery, hnonempty, htypes⟩ := h.bitmaps s
  refine ⟨out, t, hquery, hnonempty, ?_⟩
  intro types hmem
  rw [htypes types hmem]
  exact ⟨h.visible_of_exact hany, fun hvisible => h.exact_of_visible hany hvisible s'⟩

/-! ### Stores that were built -/

/-- What a store that was built from a database has for a name is of supported types. -/
lemma rtype_of_mem_stored {K : Crates} {t : Tables} (hbuilt : zone ∈ (buildFrom K t).zones)
    {qname : Name} {r : StoredRecord} (hr : r ∈ zone.stored X.toCrates qname) :
    r.rtype ∈ supportedRecordTypes := by
  obtain ⟨owner, howner⟩ := exists_key_of_mem_recordsAt hr
  exact rtype_of_mem_buildFrom hbuilt howner

/-- In particular nothing is stored as ANY. -/
lemma stored_ne_any {K : Crates} {t : Tables} (hbuilt : zone ∈ (buildFrom K t).zones) (qname : Name) :
    ∀ r ∈ zone.stored X.toCrates qname, r.rtype ≠ .ANY := by
  intro r hr hany
  have hsupported := rtype_of_mem_stored hbuilt hr
  rw [hany] at hsupported
  revert hsupported
  decide

/-- Nor as SOA, so that no denial for the apex is exact. -/
theorem Denied.not_exact_apex (h : Denied X C E q zone signer) {K : Crates} {t : Tables}
    (hbuilt : zone ∈ (buildFrom K t).zones)
    (hapex : nameKey X.toCrates q.qname = nameKey X.toCrates zone.apex) (s s' : Resolver) :
    ∃ out s'', Nomina.resolveQuery X C E q s = .ok out s'' ∧
      ∀ types ∈ Nomina.bitmaps out.authority, ¬ BitmapExact X C E q s' types := by
  obtain ⟨out, s'', hquery, -, htypes⟩ := h.bitmaps s
  refine ⟨out, s'', hquery, ?_⟩
  intro types hmem hexact
  rw [htypes types hmem] at hexact
  have hvisible := h.visible_of_exact (stored_ne_any hbuilt q.qname) hexact
  obtain ⟨r, hr, hsoa⟩ := hvisible.synthesized .SOA (.inr (.inl ⟨rfl, hapex⟩))
  have hsupported := rtype_of_mem_stored hbuilt hr
  rw [hsoa] at hsupported
  revert hsupported
  decide

end Exact

/-! ## A small signed zone -/

/-- The signer of `home.lan`. -/
def homeSigner : ZoneSigner :=
  ⟨.ofPlain "home.lan", 300, "key", none⟩

/-- The zone `home.lan` with the given records, signed without NSEC3. -/
def signedLan (recs : List (Str × StoredRecord)) : StoredZone :=
  { homeLan recs with signer := some homeSigner }

/-- A server for that zone, with a view of the clients in `10.0.0.0/8`. -/
def signedConfig (recs : List (Str × StoredRecord)) : Config := { smallConfig with
  store := ⟨(homeStore []).views, [signedLan recs], (homeStore []).viewsSorted,
    List.pairwise_singleton _ _⟩ }

/-- A query with the DO bit from outside the view. -/
def signedQuery (name : String) (t : RecordType) : DnsQuery :=
  ⟨.ofPlain name, t, .v4 0xc0a80001, true⟩

/-- An address for all views. -/
def nasRecords : List (Str × StoredRecord) :=
  [("nas.home.lan", .ofIpv4 none 0x0a000005)]

/-- The denial of another type at a name with an address for all views has exactly that type. -/
theorem Denied.bitmap_exact_nas : ∃ out t,
    Nomina.resolveQuery plainQueryCrates (signedConfig nasRecords) (smallEnv 0)
        (signedQuery "nas.home.lan" .AAAA) (.initial 1024 0 86400) = .ok out t ∧
      ∀ types ∈ Nomina.bitmaps out.authority,
        BitmapExact plainQueryCrates (signedConfig nasRecords) (smallEnv 0)
          (signedQuery "nas.home.lan" .AAAA) (.initial 1024 0 86400) types := by
  have h : Denied plainQueryCrates (signedConfig nasRecords) (smallEnv 0)
      (signedQuery "nas.home.lan" .AAAA) (signedLan nasRecords) homeSigner :=
    ⟨⟨rfl, by decide +kernel⟩, rfl, rfl, rfl, by decide +kernel⟩
  have hstored : (signedLan nasRecords).stored plainQueryCrates.toCrates (.ofPlain "nas.home.lan") =
      [.ofIpv4 none 0x0a000005] := by
    decide +kernel
  have hrecord : ∀ r ∈ (signedLan nasRecords).stored plainQueryCrates.toCrates
      (.ofPlain "nas.home.lan"), r = .ofIpv4 none 0x0a000005 := by
    rw [hstored]
    exact fun r hr => List.mem_singleton.mp hr
  have hany : ∀ r ∈ (signedLan nasRecords).stored plainQueryCrates.toCrates
      (.ofPlain "nas.home.lan"), r.rtype ≠ .ANY := by
    intro r hr
    rw [hrecord r hr]
    decide
  obtain ⟨out, t, hquery, -, hexact⟩ :=
    h.bitmap_exact_iff hany (.initial 1024 0 86400) (.initial 1024 0 86400)
  refine ⟨out, t, hquery, fun types htypes => (hexact types htypes).mpr ?_⟩
  constructor
  · decide
  · intro hq
    cases hq
  · intro r hr _ _
    rw [hrecord r hr]
    right
    decide +kernel
  · rintro t (⟨-, hmdns⟩ | ⟨-, hapex⟩ | ⟨hapex, -⟩)
    · cases hmdns
    · exact absurd hapex (by decide +kernel)
    · exact absurd hapex (by decide +kernel)

/-- A text at the apex. -/
def apexRecords : List (Str × StoredRecord) :=
  [("home.lan", ⟨.TXT, 300, none, .other .TXT "hello", rfl⟩)]

/-- An alias for the clients in the view. -/
def pinnedRecords : List (Str × StoredRecord) :=
  [("www.home.lan", ⟨.CNAME, 300, some 1, .cname (.ofPlain "nas.home.lan"), rfl⟩)]

/-- Types that are not exact in a response, where the condition fails. -/
lemma Denied.not_exact (h : Denied X C E q zone signer) (huses : signer.usesNsec3 = false)
    (hany : ∀ r ∈ zone.stored X.toCrates q.qname, r.rtype ≠ .ANY)
    (hnot : ¬ TypesVisible X C E q zone signer) (s : Resolver) :
    ∃ out t types, Nomina.resolveQuery X C E q s = .ok out t ∧
      types ∈ Nomina.bitmaps out.authority ∧ ¬ BitmapExact X C E q s types := by
  obtain ⟨out, t, hquery, hnonempty, htypes⟩ := h.bitmaps s
  obtain ⟨types, hmem⟩ := List.exists_mem_of_ne_nil _ (hnonempty huses)
  refine ⟨out, t, types, hquery, hmem, ?_⟩
  rw [htypes types hmem]
  exact fun hexact => hnot (h.visible_of_exact hany hexact)

/-- The denial of an address at the apex does not have the SOA that is answered there, and the denial of
an address at an alias of another view has the alias. -/
theorem Denied.bitmap_not_exact :
    (∃ out t types, Nomina.resolveQuery plainQueryCrates (signedConfig apexRecords) (smallEnv 0)
        (signedQuery "home.lan" .A) (.initial 1024 0 86400) = .ok out t ∧
      types ∈ Nomina.bitmaps out.authority ∧
      ¬ BitmapExact plainQueryCrates (signedConfig apexRecords) (smallEnv 0)
        (signedQuery "home.lan" .A) (.initial 1024 0 86400) types) ∧
    ((signedConfig apexRecords).lookup plainQueryCrates (signedQuery "home.lan" .A)).outcome =
      .NoData ∧
    (∃ out t types, Nomina.resolveQuery plainQueryCrates (signedConfig pinnedRecords) (smallEnv 0)
        (signedQuery "www.home.lan" .A) (.initial 1024 0 86400) = .ok out t ∧
      types ∈ Nomina.bitmaps out.authority ∧
      ¬ BitmapExact plainQueryCrates (signedConfig pinnedRecords) (smallEnv 0)
        (signedQuery "www.home.lan" .A) (.initial 1024 0 86400) types) ∧
    ((signedConfig pinnedRecords).lookup plainQueryCrates (signedQuery "www.home.lan" .A)).outcome =
      .NoData := by
  have hapex : Denied plainQueryCrates (signedConfig apexRecords) (smallEnv 0)
      (signedQuery "home.lan" .A) (signedLan apexRecords) homeSigner :=
    ⟨⟨rfl, by decide +kernel⟩, rfl, rfl, rfl, by decide +kernel⟩
  have hpinned : Denied plainQueryCrates (signedConfig pinnedRecords) (smallEnv 0)
      (signedQuery "www.home.lan" .A) (signedLan pinnedRecords) homeSigner :=
    ⟨⟨rfl, by decide +kernel⟩, rfl, rfl, rfl, by decide +kernel⟩
  refine ⟨hapex.not_exact rfl (by decide +kernel) ?_ _, by decide +kernel,
    hpinned.not_exact rfl (by decide +kernel) ?_ _, by decide +kernel⟩
  · intro hvisible
    obtain ⟨r, hr, hrtype⟩ := hvisible.synthesized .SOA (.inr (.inl ⟨rfl, by decide +kernel⟩))
    have hstored : ∀ r ∈ (signedLan apexRecords).stored plainQueryCrates.toCrates
        (.ofPlain "home.lan"), r.rtype ≠ .SOA := by
      decide +kernel
    exact hstored r hr hrtype
  · intro hvisible
    have hmem : ⟨.CNAME, 300, some 1, .cname (.ofPlain "nas.home.lan"), rfl⟩ ∈
        (signedLan pinnedRecords).stored plainQueryCrates.toCrates (.ofPlain "www.home.lan") := by
      decide +kernel
    rcases hvisible.visible _ hmem (by decide) (by decide) with hsyn | hshown
    · exact hsyn.ne.1 rfl
    · exact hshown hpinned.shown_eq_nil.2.1

end Nomina
