import Nomina.Dhcp.Registration

/-!
# Registrations that are repeated

A client is registered again with every renewal. The forward half of a registration looks for a row and
leaves it as it should be; the reverse half adds a row each time. This module computes the rows after any
number of registrations, and says exactly when they are those after one, and when the reverse name is left
with one record.
-/

namespace Nomina

open Lib Sql EStateM

variable {K : Crates}

/-! ## Reverse names -/

/-- Before every dot of a text there is something else than a dot. -/
def DotsBetween (s : Str) : Prop :=
  ∀ a b, s = a ++ '.' :: b → a ≠ [] ∧ trimEndMatches '.' a = a

/-- A text without dots. -/
lemma dotsBetween_of_notMem {s : Str} (h : '.' ∉ s) : DotsBetween s := by
  rintro a b rfl
  simp at h

/-- A text without dots has none at its end. -/
lemma trimEndMatches_of_notMem {s : Str} (h : '.' ∉ s) : trimEndMatches '.' s = s := by
  refine List.rdropWhile_eq_self_iff.mpr fun hne hlast => ?_
  rw [beq_iff_eq] at hlast
  exact h (hlast ▸ List.getLast_mem hne)

/-- One more part in front. -/
lemma DotsBetween.cons {part rest : Str} (hne : part ≠ []) (hdot : '.' ∉ part) (h : DotsBetween rest) :
    DotsBetween (part ++ '.' :: rest) := by
  intro a b hab
  rcases List.append_eq_append_iff.mp hab with ⟨c, rfl, hc⟩ | ⟨c, rfl, hc⟩
  · cases c with
    | nil =>
      rw [List.append_nil]
      exact ⟨hne, trimEndMatches_of_notMem hdot⟩
    | cons d c =>
      obtain ⟨rfl, hrest⟩ := List.cons.inj hc
      obtain ⟨hc, htrim⟩ := h c b hrest
      have hdots : c.rdropWhile (· == '.') = c := htrim
      refine ⟨by simp [hne], ?_⟩
      rw [List.append_cons, trimEndMatches, rdropWhile_append _ (by rw [hdots]; exact hc), hdots]
  · cases c with
    | nil =>
      rw [List.append_nil] at hne hdot
      exact ⟨hne, trimEndMatches_of_notMem hdot⟩
    | cons d c =>
      obtain ⟨rfl, -⟩ := List.cons.inj hc
      simp at hdot

/-- Parts that each end in a dot, in front of a text. -/
lemma DotsBetween.flatMap {part : ℕ → Str} {tail : Str} {l : List ℕ}
    (hpart : ∀ n ∈ l, part n ≠ [] ∧ '.' ∉ part n) (h : DotsBetween tail) :
    DotsBetween ((l.flatMap fun n => part n ++ ['.']) ++ tail) := by
  induction l with
  | nil => exact h
  | cons n l ih =>
    obtain ⟨hne, hdot⟩ := hpart n List.mem_cons_self
    have hrest := ih fun m hm => hpart m (List.mem_cons_of_mem n hm)
    have htext : ((n :: l).flatMap fun n => part n ++ ['.']) ++ tail =
        part n ++ '.' :: ((l.flatMap fun n => part n ++ ['.']) ++ tail) := by
      simp
    rw [htext]
    exact hrest.cons hne hdot

/-- Printed digits are safe. -/
lemma isSafeChar_digitChar : ∀ d < 16, isSafeChar d.digitChar = true := by
  decide

/-- A printed octet is safe. -/
lemma isSafeChar_of_mem_fmtOctet {n : ℕ} (hn : n < 256) {c : Char} (h : c ∈ fmtOctet n) :
    isSafeChar c = true := by
  unfold fmtOctet at h
  split_ifs at h
  · rw [List.mem_singleton.mp h]
    exact isSafeChar_digitChar n (by omega)
  · simp only [List.mem_cons, List.not_mem_nil, or_false] at h
    rcases h with rfl | rfl
    · exact isSafeChar_digitChar _ (by omega)
    · exact isSafeChar_digitChar _ (by omega)
  · simp only [List.mem_cons, List.not_mem_nil, or_false] at h
    rcases h with rfl | rfl | rfl
    · exact isSafeChar_digitChar _ (by omega)
    · exact isSafeChar_digitChar _ (by omega)
    · exact isSafeChar_digitChar _ (by omega)

/-- A printed nibble is one safe character. -/
lemma fmtHex_nibble {n : ℕ} (hn : n < 16) : fmtHex n = [n.digitChar] := by
  unfold fmtHex
  rw [if_pos hn]

/-- A printed part is not empty. -/
lemma fmtOctet_ne_nil (n : ℕ) : fmtOctet n ≠ [] := by
  unfold fmtOctet
  split_ifs <;> exact List.cons_ne_nil _ _

/-- Safe characters are no dots. -/
lemma notMem_of_safe {s : Str} (h : ∀ c ∈ s, isSafeChar c = true) : '.' ∉ s :=
  fun hdot => (isSafeChar_spec (h _ hdot)).2.2 rfl

/-- The two nibbles of an octet, each with a dot. -/
lemma nibbles_eq {b : ℕ} (hb : b < 256) :
    fmtHex (b % 16) ++ '.' :: fmtHex (b / 16) ++ ['.'] =
      [(b % 16).digitChar] ++ ['.'] ++ ([(b / 16).digitChar] ++ ['.']) := by
  rw [fmtHex_nibble (Nat.mod_lt b (by decide)), fmtHex_nibble (by omega)]
  rfl

/-- A text of safe characters and dots. -/
lemma isSafeChar_or_dot_of_all {s : Str} (h : (s.all fun c => isSafeChar c || c == '.') = true) :
    ∀ c ∈ s, isSafeChar c = true ∨ c = '.' := by
  intro c hc
  simpa using List.all_eq_true.mp h c hc

/-- A reverse name is parts of safe characters, each with a dot, and a domain. -/
lemma exists_reverseName (ip : IpAddr) : ∃ (part : ℕ → Str) (l : List ℕ) (tail : Str),
    reverseName ip = (l.flatMap fun n => part n ++ ['.']) ++ tail ∧
      (∀ n ∈ l, part n ≠ [] ∧ ∀ c ∈ part n, isSafeChar c = true) ∧ DotsBetween tail ∧
      ∀ c ∈ tail, isSafeChar c = true ∨ c = '.' := by
  cases ip with
  | v4 a =>
    refine ⟨fmtOctet, (octets a).reverse, "in-addr.arpa".toList, rfl, fun n hn => ?_, ?_,
      isSafeChar_or_dot_of_all (by decide)⟩
    · have hlt : n < 256 := lt_of_mem_digitsBE (by decide) (List.mem_reverse.mp hn)
      exact ⟨fmtOctet_ne_nil n, fun c hc => isSafeChar_of_mem_fmtOctet hlt hc⟩
    · have harpa : DotsBetween "arpa".toList := dotsBetween_of_notMem (by decide)
      have hdomain : DotsBetween ("in-addr".toList ++ '.' :: "arpa".toList) :=
        harpa.cons (by decide) (by decide)
      exact hdomain
  | v6 a =>
    -- Each octet gives two parts: the low nibble and the high one.
    refine ⟨fun n => [n.digitChar],
      (digitsBE 256 16 a.toNat).reverse.flatMap fun b => [b % 16, b / 16], "ip6.arpa".toList, ?_,
      fun n hn => ?_, ?_, isSafeChar_or_dot_of_all (by decide)⟩
    · unfold reverseName
      refine congrArg (· ++ "ip6.arpa".toList) ?_
      rw [List.flatMap_assoc]
      refine List.flatMap_congr fun b hb => ?_
      have hlt : b < 256 := lt_of_mem_digitsBE (by decide) (List.mem_reverse.mp hb)
      rw [nibbles_eq hlt]
      rfl
    · obtain ⟨b, hb, hn⟩ := List.mem_flatMap.mp hn
      have hlt : b < 256 := lt_of_mem_digitsBE (by decide) (List.mem_reverse.mp hb)
      have hnibble : n < 16 := by
        simp only [List.mem_cons, List.not_mem_nil, or_false] at hn
        omega
      refine ⟨List.cons_ne_nil _ _, fun c hc => ?_⟩
      rw [List.mem_singleton.mp hc]
      exact isSafeChar_digitChar n hnibble
    · have harpa : DotsBetween "arpa".toList := dotsBetween_of_notMem (by decide)
      have hdomain : DotsBetween ("ip6".toList ++ '.' :: "arpa".toList) :=
        harpa.cons (by decide) (by decide)
      exact hdomain

/-- Before every dot of a reverse name there is a character that is no dot. -/
lemma dotsBetween_reverseName (ip : IpAddr) : DotsBetween (reverseName ip) := by
  obtain ⟨part, l, tail, htext, hparts, htail, -⟩ := exists_reverseName ip
  rw [htext]
  exact htail.flatMap fun n hn => ⟨(hparts n hn).1, notMem_of_safe (hparts n hn).2⟩

/-- The characters of a reverse name. -/
lemma isSafeChar_of_mem_reverseName {ip : IpAddr} {c : Char} (h : c ∈ reverseName ip) :
    isSafeChar c = true ∨ c = '.' := by
  obtain ⟨part, l, tail, htext, hparts, -, htail⟩ := exists_reverseName ip
  rw [htext] at h
  rcases List.mem_append.mp h with h | h
  · obtain ⟨n, hn, hc⟩ := List.mem_flatMap.mp h
    rcases List.mem_append.mp hc with hc | hc
    · exact .inl ((hparts n hn).2 c hc)
    · exact .inr (List.mem_singleton.mp hc)
  · exact htail c h

section Safe

variable {a : Str} (hchars : ∀ c ∈ a, isSafeChar c = true ∨ c = '.')

include hchars

/-- Safe characters and dots are folded to themselves. -/
lemma toAsciiLowercase_of_safe : toAsciiLowercase a = a := by
  refine (List.map_congr_left fun c hc => ?_).trans (List.map_id a)
  rcases hchars c hc with hsafe | rfl
  · exact (isSafeChar_spec hsafe).1
  · rfl

/-- A name of safe characters and dots is put before the zone as it is. -/
lemma recordFqdnString_of_safe (hne : a ≠ []) (hdots : trimEndMatches '.' a = a) (zoneName : Str) :
    recordFqdnString a zoneName = a ++ '.' :: toAsciiLowercase zoneName := by
  have hblank : ∀ c ∈ a, isWhitespace c = false := by
    intro c hc
    rcases hchars c hc with hsafe | rfl
    · exact (isSafeChar_spec hsafe).2.1
    · decide
  have hat : a ≠ ['@'] := by
    rintro rfl
    rcases hchars '@' (List.mem_singleton_self _) with h | h
    · revert h
      decide
    · revert h
      decide
  unfold recordFqdnString
  dsimp only
  rw [trim_eq_self hblank, hdots, toAsciiLowercase_of_safe hchars, if_neg (by simp [hne, hat])]

end Safe

/-- The name that a PTR record is stored under leads back to the reverse name. -/
lemma foldHost_recordFqdnString {ip : IpAddr} {z : Zone}
    (h : Db.covers isReverseZone (reverseName ip) z = true) :
    Db.foldHost (recordFqdnString (Db.relativeTo (reverseName ip) (Db.foldHost z.name)) z.name) =
      reverseName ip := by
  unfold Db.covers at h
  rw [Bool.and_eq_true, Bool.or_eq_true, beq_iff_eq, endsWith_iff] at h
  obtain ⟨hreverse, hapex | ⟨a, ha⟩⟩ := h
  · -- The name is the apex of the zone.
    have hat : Db.relativeTo (reverseName ip) (Db.foldHost z.name) = ['@'] := by
      unfold Db.relativeTo
      rw [if_pos (beq_iff_eq.mpr hapex)]
    have htext : recordFqdnString ['@'] z.name = toAsciiLowercase z.name := rfl
    rw [hat, htext, Db.foldHost, trimEndMatches_toAsciiLowercase, toAsciiLowercase_idem, ← Db.foldHost,
      hapex]
  · obtain ⟨hne, hdots⟩ := dotsBetween_reverseName ip a _ ha
    have hchars : ∀ c ∈ a, isSafeChar c = true ∨ c = '.' := by
      intro c hc
      have hmem : c ∈ reverseName ip := by
        rw [ha]
        exact List.mem_append_left _ hc
      exact isSafeChar_of_mem_reverseName hmem
    have hfold : toAsciiLowercase a = a := toAsciiLowercase_of_safe hchars
    -- The part before the zone is the stored name, and its text is the reverse name again.
    have hrel : Db.relativeTo (reverseName ip) (Db.foldHost z.name) = a := by
      rw [ha]
      exact relativeTo_label a _
    have htext : recordFqdnString a z.name = a ++ '.' :: toAsciiLowercase z.name :=
      recordFqdnString_of_safe hchars hne hdots z.name
    have hzone : trimEndMatches '.' (toAsciiLowercase z.name) = Db.foldHost z.name :=
      trimEndMatches_toAsciiLowercase z.name
    have hnonempty : (toAsciiLowercase z.name).rdropWhile (· == '.') ≠ [] := by
      intro hnil
      have hnone : Db.foldHost z.name = [] := hzone.symm.trans hnil
      rw [hnone] at hreverse
      revert hreverse
      decide
    rw [hrel, htext, Db.foldHost, List.append_cons, trimEndMatches, rdropWhile_append _ hnonempty]
    change toAsciiLowercase (a ++ ['.'] ++ trimEndMatches '.' (toAsciiLowercase z.name)) = _
    have hidem : toAsciiLowercase (Db.foldHost z.name) = Db.foldHost z.name := toAsciiLowercase_idem _
    rw [hzone, ha]
    unfold toAsciiLowercase at hfold hidem ⊢
    rw [List.map_append, List.map_append, hfold, hidem]
    simp

/-! ## The tables after a registration -/

section Registered

variable (ip : IpAddr) (fqdn : Str) (ttl : ℕ) (t : Tables)

/-- The tables after the forward half: a row is found and set, or a new one is there. -/
def forwarded : Tables :=
  let host := Db.foldHost (trim fqdn)
  match Db.longestSuffixZone (fun _ => true) host (Db.zonesByName t) with
  | none => t
  | some (zoneId, zoneName) =>
    match addressRow t zoneId (Db.relativeTo host zoneName) (Db.addressType ip) none with
    | none => Tables.bump { t with
        records := t.records ++ [⟨freshId (t.records.map DnsRecord.id), zoneId, none,
          Db.relativeTo host zoneName, Db.addressType ip, some ttl, fmtIpAddr ip, true⟩] } zoneId
    | some r =>
      if r.data == fmtIpAddr ip then t
      else (t.mapRecord r.id fun r => { r with data := fmtIpAddr ip }).bump r.zoneId

/-- The row that the reverse half adds, but for its id. -/
def ptrRow : Option DnsRecord :=
  (Db.longestSuffixZone isReverseZone (reverseName ip) (Db.zonesByName t)).map fun p =>
    ⟨0, p.1, none, Db.relativeTo (reverseName ip) p.2, "PTR", some ttl, fqdn ++ ['.'], true⟩

/-- The tables after the reverse half. -/
def reversed : Tables :=
  match ptrRow ip fqdn ttl t with
  | none => t
  | some r => Tables.bump { t with
      records := t.records ++ [{ r with id := freshId (t.records.map DnsRecord.id) }] } r.zoneId

/-- The tables after a registration. -/
def registered : Tables :=
  reversed ip fqdn ttl (forwarded ip fqdn ttl t)

variable {ip fqdn ttl t}

variable (ip fqdn ttl) in
/-- In a database that refuses nothing the forward half leaves these tables. -/
lemma evals_forwarded (hkeys : (t.records.map DnsRecord.id).Nodup) :
    ∃ u, Evals (Db.dyndnsSetAddress fqdn ip none ttl) t (.ok u) (forwarded ip fqdn ttl t) := by
  unfold forwarded
  dsimp only
  cases hzone : Db.longestSuffixZone (fun _ => true) (Db.foldHost (trim fqdn)) (Db.zonesByName t) with
  | none =>
    refine ⟨.NoZone, ?_⟩
    unfold Db.dyndnsSetAddress Db.listZones
    refine .bind (.select _ t) ?_
    rw [hzone]
    exact .pure _ t
  | some p =>
    obtain ⟨zoneId, zoneName⟩ := p
    dsimp only
    cases hrow : addressRow t zoneId (Db.relativeTo (Db.foldHost (trim fqdn)) zoneName)
        (Db.addressType ip) none with
    | none =>
      obtain ⟨z, hz⟩ := Db.zone?_of_longestSuffixZone hzone
      have hinsert : t.insertRecord ⟨0, zoneId, none, Db.relativeTo (Db.foldHost (trim fqdn)) zoneName,
          Db.addressType ip, some ttl, fmtIpAddr ip, true⟩ = .ok _ := if_pos (by rw [hz]; rfl)
      exact ⟨.Created, Db.evals_dyndnsSetAddress_created hzone hrow hinsert⟩
    | some r =>
      have hfound : t.record? r.id = some r := find?_of_nodup_map hkeys (addressRow_spec hrow).1
      dsimp only
      by_cases hdata : (r.data == fmtIpAddr ip) = true
      · rw [if_pos hdata]
        refine ⟨.Unchanged, evals_dyndnsSetAddress_found hzone hrow ?_⟩
        rw [if_pos hdata]
        exact .pure _ t
      · rw [if_neg hdata]
        refine ⟨.Updated, evals_dyndnsSetAddress_found hzone hrow ?_⟩
        rw [if_neg hdata]
        exact .bind (evals_updateData hfound) (.pure _ _)

variable (ip fqdn ttl) in
/-- In a database that refuses nothing the reverse half leaves these tables. -/
lemma evals_reversed :
    Evals (registerPtr (reverseName ip) (fqdn ++ ['.']) ttl) t (.ok ()) (reversed ip fqdn ttl t) := by
  unfold reversed ptrRow
  cases hzone : Db.longestSuffixZone isReverseZone (reverseName ip) (Db.zonesByName t) with
  | none =>
    unfold registerPtr Db.listZones
    refine .bind (.select _ t) ?_
    rw [hzone]
    exact .pure () t
  | some p =>
    obtain ⟨z, hz⟩ := Db.zone?_of_longestSuffixZone hzone
    exact evals_registerPtr hzone (if_pos (by dsimp only; rw [hz]; rfl))

/-- The zones are the same, but for serials. -/
lemma sameZones_forwarded : SameZones t (forwarded ip fqdn ttl t) := by
  unfold forwarded
  dsimp only
  split
  · rfl
  · split
    · exact sameZones_bump _ _
    · split
      · rfl
      · exact sameZones_bump _ _

lemma sameZones_reversed : SameZones t (reversed ip fqdn ttl t) := by
  unfold reversed
  split
  · rfl
  · exact sameZones_bump _ _

@[simp] lemma records_bump (i : ℕ) : (t.bump i).records = t.records :=
  rfl

/-- The ids stay unique. -/
lemma nodup_forwarded (h : (t.records.map DnsRecord.id).Nodup) :
    ((forwarded ip fqdn ttl t).records.map DnsRecord.id).Nodup := by
  unfold forwarded
  dsimp only
  split
  · exact h
  · split
    · rw [records_bump, List.map_append]
      exact nodup_append_freshId h
    · split
      · exact h
      · rename_i r _ _
        have hids : (t.mapRecord r.id fun r => { r with data := fmtIpAddr ip }).records.map DnsRecord.id =
            t.records.map DnsRecord.id := by
          unfold Tables.mapRecord
          rw [List.map_map]
          refine List.map_congr_left fun r' _ => ?_
          rw [Function.comp_apply]
          split
          · rfl
          · rfl
        rw [records_bump, hids]
        exact h

lemma nodup_reversed (h : (t.records.map DnsRecord.id).Nodup) :
    ((reversed ip fqdn ttl t).records.map DnsRecord.id).Nodup := by
  unfold reversed
  split
  · exact h
  · rw [records_bump, List.map_append]
    exact nodup_append_freshId h

/-! ## Registering again -/

variable (ip fqdn t) in
/-- The row that the forward half finds has the address. -/
def Settled : Prop :=
  ∀ zoneId zoneName, Db.longestSuffixZone (fun _ => true) (Db.foldHost (trim fqdn)) (Db.zonesByName t) =
    some (zoneId, zoneName) →
      ∃ r, addressRow t zoneId (Db.relativeTo (Db.foldHost (trim fqdn)) zoneName) (Db.addressType ip)
        none = some r ∧ r.data = fmtIpAddr ip

/-- A row that is added behind the others is found when no other one is. -/
lemma addressRow_append {t : Tables} {zoneId : ℕ} {rel rtype : Str} (row : DnsRecord) :
    addressRow { t with records := t.records ++ [row] } zoneId rel rtype none =
      (addressRow t zoneId rel rtype none).or
        (addressRow { t with records := [row] } zoneId rel rtype none) := by
  unfold addressRow Tables.zoneRecords
  dsimp only
  rw [List.filter_append, List.filter_append, List.find?_append]

/-- New data for a row do not change which row is found. -/
lemma addressRow_mapRecord {t : Tables} {zoneId : ℕ} {rel rtype data : Str} (i : ℕ) :
    addressRow (t.mapRecord i fun r => { r with data }) zoneId rel rtype none =
      (addressRow t zoneId rel rtype none).map fun r => if r.id = i then { r with data } else r := by
  unfold addressRow Tables.zoneRecords Tables.mapRecord
  dsimp only
  have hkept : ∀ p : DnsRecord → Bool, (∀ r data, p { r with data } = p r) →
      (p ∘ fun r => if r.id = i then { r with data } else r) = p := by
    intro p hp
    funext r
    rw [Function.comp_apply]
    split
    · exact hp r data
    · rfl
  rw [List.filter_map, List.filter_map, List.find?_map, hkept _ fun _ _ => rfl, hkept _ fun _ _ => rfl,
    hkept _ fun _ _ => rfl]

/-- The zone of a host is chosen by names. -/
lemma longestSuffixZone_of_sameZones {t t' : Tables} (h : SameZones t t') (eligible : Str → Bool)
    (host : Str) : Db.longestSuffixZone eligible host (Db.zonesByName t') =
      Db.longestSuffixZone eligible host (Db.zonesByName t) :=
  Db.longestSuffixZone_congr (f := unserial) (fun _ => ⟨rfl, rfl⟩) h eligible host

/-- After the forward half the row that it finds has the address. -/
lemma settled_forwarded : Settled ip fqdn (forwarded ip fqdn ttl t) := by
  intro zoneId zoneName hzone
  rw [longestSuffixZone_of_sameZones sameZones_forwarded] at hzone
  unfold forwarded
  dsimp only
  rw [hzone]
  dsimp only
  cases hrow : addressRow t zoneId (Db.relativeTo (Db.foldHost (trim fqdn)) zoneName)
      (Db.addressType ip) none with
  | none =>
    refine ⟨⟨freshId (t.records.map DnsRecord.id), zoneId, none,
      Db.relativeTo (Db.foldHost (trim fqdn)) zoneName, Db.addressType ip, some ttl, fmtIpAddr ip, true⟩, ?_,
      rfl⟩
    refine (addressRow_append _).trans ?_
    rw [hrow, Option.none_or]
    unfold addressRow Tables.zoneRecords
    simp [eqIgnoreAsciiCase_iff]
  | some r =>
    dsimp only
    split
    · rename_i hdata
      exact ⟨r, hrow, beq_iff_eq.mp hdata⟩
    · refine ⟨{ r with data := fmtIpAddr ip }, ?_, rfl⟩
      refine (addressRow_mapRecord r.id).trans ?_
      rw [hrow, Option.map_some, if_pos rfl]

/-- Then the forward half changes nothing. -/
lemma forwarded_of_settled (h : Settled ip fqdn t) : forwarded ip fqdn ttl t = t := by
  unfold forwarded
  dsimp only
  split
  · rfl
  · rename_i zoneId zoneName hzone
    obtain ⟨r, hr, hdata⟩ := h zoneId zoneName hzone
    rw [hr]
    dsimp only
    rw [if_pos (beq_iff_eq.mpr hdata)]

/-- The reverse half leaves the row that the forward half finds. -/
lemma settled_reversed (h : Settled ip fqdn t) : Settled ip fqdn (reversed ip fqdn ttl t) := by
  intro zoneId zoneName hzone
  rw [longestSuffixZone_of_sameZones sameZones_reversed] at hzone
  obtain ⟨r, hr, hdata⟩ := h zoneId zoneName hzone
  refine ⟨r, ?_, hdata⟩
  unfold reversed
  split
  · exact hr
  · refine (addressRow_append _).trans ?_
    rw [hr, Option.some_or]

/-- The row that the reverse half adds depends on the names of zones. -/
lemma ptrRow_of_sameZones {t t' : Tables} (h : SameZones t t') :
    ptrRow ip fqdn ttl t' = ptrRow ip fqdn ttl t := by
  unfold ptrRow
  rw [longestSuffixZone_of_sameZones h]

variable (t) in
/-- The rows, but for their ids. -/
def rowsWithoutIds : List DnsRecord :=
  t.records.map fun r => { r with id := 0 }

/-- The reverse half adds its row. -/
lemma rowsWithoutIds_reversed :
    rowsWithoutIds (reversed ip fqdn ttl t) = rowsWithoutIds t ++ (ptrRow ip fqdn ttl t).toList := by
  have hid : ∀ r, ptrRow ip fqdn ttl t = some r → { r with id := 0 } = r := by
    intro r hr
    obtain ⟨p, -, rfl⟩ := Option.map_eq_some_iff.mp hr
    rfl
  unfold reversed rowsWithoutIds
  split
  · rename_i hnone
    rw [hnone, Option.toList_none, List.append_nil]
  · rename_i r hr
    rw [hr, Option.toList_some, records_bump, List.map_append, List.map_singleton]
    exact congrArg (fun r' => _ ++ [r']) (hid r hr)

/-- The rows after one registration and more: those after the forward half, and as many reverse records
as registrations. -/
lemma registered_iterate (n : ℕ) :
    Settled ip fqdn ((registered ip fqdn ttl)^[n + 1] t) ∧
      SameZones t ((registered ip fqdn ttl)^[n + 1] t) ∧
      rowsWithoutIds ((registered ip fqdn ttl)^[n + 1] t) = rowsWithoutIds (forwarded ip fqdn ttl t) ++
        (List.replicate (n + 1) (ptrRow ip fqdn ttl t).toList).flatten := by
  induction n with
  | zero =>
    refine ⟨settled_reversed settled_forwarded, trans_of SameZones sameZones_forwarded sameZones_reversed, ?_⟩
    refine rowsWithoutIds_reversed.trans ?_
    rw [ptrRow_of_sameZones sameZones_forwarded]
    simp
  | succ n ih =>
    obtain ⟨hsettled, hzones, hrows⟩ := ih
    rw [Function.iterate_succ_apply']
    generalize (registered ip fqdn ttl)^[n + 1] t = u at hsettled hzones hrows ⊢
    unfold registered
    rw [forwarded_of_settled hsettled]
    refine ⟨settled_reversed hsettled, trans_of SameZones hzones sameZones_reversed, ?_⟩
    rw [rowsWithoutIds_reversed, hrows, ptrRow_of_sameZones hzones, List.replicate_succ' (n := n + 1),
      List.flatten_append, List.append_assoc]
    simp

end Registered

/-! ## The reverse records of an address -/

/-- The owner of a row, as `record_fqdn_string` has it, without dots at its end. -/
def ownerText (t : Tables) (r : DnsRecord) : Option Str :=
  (t.zone? r.zoneId).map fun z => Db.foldHost (recordFqdnString r.name z.name)

/-- Whether a row is a PTR record at the reverse name of an address. -/
def isPtrAt (t : Tables) (ip : IpAddr) (r : DnsRecord) : Bool :=
  r.rtype == "PTR".toList && ownerText t r == some (reverseName ip)

/-- The PTR records stored at the reverse name of an address. -/
def ptrRows (t : Tables) (ip : IpAddr) : List DnsRecord :=
  t.records.filter (isPtrAt t ip)

section PtrRows

variable {t t' : Tables} {ip : IpAddr} {fqdn : Str} {ttl : ℕ}

/-- The owner of a row depends on the names of zones. -/
lemma isPtrAt_of_sameZones (h : SameZones t t') : isPtrAt t' ip = isPtrAt t ip := by
  have hfind : ∀ (u : Tables) (i : ℕ), (u.zone? i).map unserial =
      (u.zones.map unserial).find? fun z => z.id == i := by
    intro u i
    rw [List.find?_map]
    rfl
  have hzone : ∀ i, (t'.zone? i).map unserial = (t.zone? i).map unserial := by
    intro i
    rw [hfind, hfind, h]
  have howner : ∀ (u : Tables) (r : DnsRecord), ownerText u r =
      ((u.zone? r.zoneId).map unserial).map fun z => Db.foldHost (recordFqdnString r.name z.name) := by
    intro u r
    rw [Option.map_map]
    rfl
  funext r
  unfold isPtrAt
  rw [howner, howner, hzone]

/-- A row of an address is no PTR record. -/
lemma isPtrAt_of_rtype {r : DnsRecord} (h : r.rtype = Db.addressType ip) : isPtrAt t ip r = false := by
  unfold isPtrAt
  rw [h]
  cases ip <;> rfl

/-- The forward half leaves the PTR records alone. -/
lemma ptrRows_forwarded (hkeys : (t.records.map DnsRecord.id).Nodup) :
    ptrRows (forwarded ip fqdn ttl t) ip = ptrRows t ip := by
  unfold ptrRows
  rw [isPtrAt_of_sameZones sameZones_forwarded]
  unfold forwarded
  dsimp only
  split
  · rfl
  · split
    · rw [records_bump, List.filter_append, List.filter_cons, isPtrAt_of_rtype rfl]
      simp
    · split
      · rfl
      · rename_i r hr _
        obtain ⟨hmem, -, -, htype, -⟩ := addressRow_spec hr
        -- The row that is set is one of the address, before and after.
        have hother : ∀ r' ∈ t.records, r'.id = r.id → isPtrAt t ip r' = false := by
          intro r' hr' hid
          rw [List.inj_on_of_nodup_map hkeys hr' hmem hid]
          exact isPtrAt_of_rtype htype
        have hsame : isPtrAt t ip ∘ (fun r' => if r'.id = r.id then { r' with data := fmtIpAddr ip } else r') =
            isPtrAt t ip := by
          funext r'
          rw [Function.comp_apply]
          split
          · rfl
          · rfl
        rw [records_bump]
        unfold Tables.mapRecord
        rw [List.filter_map, hsame]
        refine (List.map_congr_left fun r' hr' => ?_).trans (List.map_id _)
        obtain ⟨hr', hptr⟩ := List.mem_filter.mp hr'
        rw [if_neg, id]
        intro hid
        rw [hother r' hr' hid] at hptr
        cases hptr

/-- The row that the reverse half adds is a PTR record at the reverse name. -/
lemma isPtrAt_ptrRow (hzones : (t.zones.map Zone.id).Nodup) {r : DnsRecord}
    (h : ptrRow ip fqdn ttl t = some r) (i : ℕ) : isPtrAt t ip { r with id := i } = true := by
  obtain ⟨p, hp, rfl⟩ := Option.map_eq_some_iff.mp h
  obtain ⟨x, hx, hcovers, rfl⟩ := Db.exists_of_longestSuffixZone hp
  obtain ⟨z, hz, rfl⟩ := mem_zonesByName.mp hx
  have hzone : t.zone? z.id = some z := find?_of_nodup_map hzones hz
  unfold isPtrAt ownerText
  dsimp only
  rw [show (Db.readZone z).id = z.id from rfl, hzone, Option.map_some,
    show (Db.readZone z).name = z.name from rfl,
    foldHost_recordFqdnString (z := z) hcovers]
  simp

/-- The reverse half adds one PTR record. -/
lemma ptrRows_reversed (hzones : (t.zones.map Zone.id).Nodup) :
    ptrRows (reversed ip fqdn ttl t) ip = ptrRows t ip ++
      ((ptrRow ip fqdn ttl t).map fun r => { r with id := freshId (t.records.map DnsRecord.id) }).toList := by
  unfold ptrRows
  rw [isPtrAt_of_sameZones sameZones_reversed]
  unfold reversed
  split
  · rename_i hnone
    rw [hnone]
    simp
  · rename_i r hr
    rw [hr, records_bump, List.filter_append, List.filter_cons, isPtrAt_ptrRow hzones hr, if_pos rfl]
    simp

variable (ip fqdn ttl) in
/-- A registration adds one PTR record. -/
lemma ptrRows_registered (hrecords : (t.records.map DnsRecord.id).Nodup)
    (hzones : (t.zones.map Zone.id).Nodup) :
    ∃ i, ptrRows (registered ip fqdn ttl t) ip =
      ptrRows t ip ++ ((ptrRow ip fqdn ttl t).map fun r => { r with id := i }).toList := by
  refine ⟨freshId ((forwarded ip fqdn ttl t).records.map DnsRecord.id), ?_⟩
  unfold registered
  rw [ptrRows_reversed (SameZones.keys sameZones_forwarded hzones), ptrRows_forwarded hrecords,
    ptrRow_of_sameZones sameZones_forwarded]

end PtrRows

/-! ## Runs -/

/-- The state after a number of registrations with the same arguments. -/
def registeredTimes (K : Crates) (scope : DhcpScope) (ip : IpAddr) (hostname : Option Str) (n : ℕ)
    (s : AppState) : AppState :=
  (fun s => (registerDns K scope ip hostname).after s)^[n] s

/-- A registration writes a reverse record: the scope registers the host name, and a reverse zone covers
the address. -/
def RegistersReverse (t : Tables) (scope : DhcpScope) (ip : IpAddr) (hostname : Option Str) : Prop :=
  (registration scope hostname).isSome = true ∧
    (Db.longestSuffixZone isReverseZone (reverseName ip) (Db.zonesByName t)).isSome = true

/-- Any number of registrations leaves the rows that one leaves, but for ids. -/
def RegistersOnce (K : Crates) (s : AppState) (scope : DhcpScope) (ip : IpAddr) (hostname : Option Str) :
    Prop :=
  ∀ n, 1 ≤ n → (rowsWithoutIds (registeredTimes K scope ip hostname n s).db).Perm
    (rowsWithoutIds (registeredTimes K scope ip hostname 1 s).db)

/-- A registration of a host in a database with a covering reverse zone leaves one PTR record at the
reverse name of the address, which points to the host. -/
def LeavesOnePtr (K : Crates) (s : AppState) (scope : DhcpScope) (ip : IpAddr) (hostname : Option Str) :
    Prop :=
  ∀ fqdn ttl, registration scope hostname = some (fqdn, ttl) →
    (Db.longestSuffixZone isReverseZone (reverseName ip) (Db.zonesByName s.db)).isSome = true →
      ∃ r, ptrRows (registeredTimes K scope ip hostname 1 s).db ip = [r] ∧ r.data = fqdn ++ ['.']

section Runs

variable {s : AppState} {scope : DhcpScope} {ip : IpAddr} {hostname : Option Str} {fqdn : Str} {ttl : ℕ}

variable (K ip fqdn ttl) in
/-- In a database that refuses nothing a registration of a host leaves these tables. -/
lemma db_registerAddress (hfaults : s.conn.faults = []) (hkeys : (s.db.records.map DnsRecord.id).Nodup) :
    ((registerAddress K ip fqdn ttl).after s).db = registered ip fqdn ttl s.db ∧
      ((registerAddress K ip fqdn ttl).after s).conn.faults = [] := by
  obtain ⟨u, hforward⟩ := evals_forwarded ip fqdn ttl hkeys
  obtain ⟨hres, hdb, hfaults₂⟩ := tryDb_of_evals hforward hfaults
  unfold registerAddress
  rw [EStateM.after_bind, hres]
  dsimp only
  generalize (tryDb (Db.dyndnsSetAddress fqdn ip none ttl)).after s = s₁ at hdb hfaults₂ ⊢
  obtain ⟨store, -, hres₂, hafter₂⟩ := reloadStore_run K s₁
  obtain ⟨-, htables₂, hfaults₃, -⟩ := evals_load (K := K) s₁.db s₁.conn rfl hfaults₂
  rw [EStateM.after_bind, hres₂, hafter₂]
  dsimp only
  rw [EStateM.after_bind_pure, after_tryDb]
  obtain ⟨-, htables₃, hfaults₄, -⟩ := evals_reversed ip fqdn ttl ((load K).after s₁.conn) rfl hfaults₃
  refine ⟨?_, hfaults₄⟩
  refine htables₃.trans ?_
  rw [htables₂, hdb]
  rfl

/-- A registration that the scope or the client does not ask for does nothing. -/
lemma registeredTimes_of_none (h : registration scope hostname = none) (n : ℕ) :
    registeredTimes K scope ip hostname n s = s := by
  have hidle : (fun s : AppState => (registerDns K scope ip hostname).after s) = id := by
    funext s
    unfold registerDns
    rw [h]
    rfl
  unfold registeredTimes
  rw [hidle, Function.iterate_id, id]

/-- The tables after a number of registrations. -/
lemma db_registeredTimes (h : registration scope hostname = some (fqdn, ttl))
    (hfaults : s.conn.faults = []) (hkeys : (s.db.records.map DnsRecord.id).Nodup) (n : ℕ) :
    (registeredTimes K scope ip hostname n s).db = (registered ip fqdn ttl)^[n] s.db := by
  suffices hrun : (registeredTimes K scope ip hostname n s).db = (registered ip fqdn ttl)^[n] s.db ∧
      (registeredTimes K scope ip hostname n s).conn.faults = [] ∧
      ((registeredTimes K scope ip hostname n s).db.records.map DnsRecord.id).Nodup from hrun.1
  induction n with
  | zero => exact ⟨rfl, hfaults, hkeys⟩
  | succ n ih =>
    obtain ⟨hdb, hfaults', hkeys'⟩ := ih
    have hstep : registeredTimes K scope ip hostname (n + 1) s =
        (registerAddress K ip fqdn ttl).after (registeredTimes K scope ip hostname n s) := by
      unfold registeredTimes
      rw [Function.iterate_succ_apply']
      unfold registerDns
      rw [h]
    obtain ⟨htables, hfaults''⟩ := db_registerAddress K ip fqdn ttl hfaults' hkeys'
    rw [hstep, Function.iterate_succ_apply', htables, hdb]
    refine ⟨rfl, hfaults'', ?_⟩
    rw [← hdb]
    exact nodup_reversed (nodup_forwarded hkeys')

/-- The rows after registrations of a host. -/
lemma rowsWithoutIds_registeredTimes (h : registration scope hostname = some (fqdn, ttl))
    (hfaults : s.conn.faults = []) (hkeys : (s.db.records.map DnsRecord.id).Nodup) (n : ℕ) :
    rowsWithoutIds (registeredTimes K scope ip hostname (n + 1) s).db =
      rowsWithoutIds (forwarded ip fqdn ttl s.db) ++
        (List.replicate (n + 1) (ptrRow ip fqdn ttl s.db).toList).flatten := by
  rw [db_registeredTimes h hfaults hkeys]
  exact (registered_iterate n).2.2

/-- A reverse record is written where a row for it is made. -/
lemma registersReverse_iff (h : registration scope hostname = some (fqdn, ttl)) {t : Tables} :
    RegistersReverse t scope ip hostname ↔ ∃ r, ptrRow ip fqdn ttl t = some r := by
  unfold RegistersReverse ptrRow
  rw [h, ← Option.isSome_iff_exists, Option.isSome_map]
  exact and_iff_right rfl

/-- Registrations are repeated without a trace exactly when they write no reverse record. -/
lemma registersOnce_iff (hfaults : s.conn.faults = []) (hkeys : (s.db.records.map DnsRecord.id).Nodup) :
    RegistersOnce K s scope ip hostname ↔ ¬RegistersReverse s.db scope ip hostname := by
  unfold RegistersOnce
  cases h : registration scope hostname with
  | none =>
    refine iff_of_true (fun n _ => ?_) fun hreverse => ?_
    · rw [registeredTimes_of_none h, registeredTimes_of_none h]
    · unfold RegistersReverse at hreverse
      rw [h] at hreverse
      cases hreverse.1
  | some p =>
    obtain ⟨fqdn, ttl⟩ := p
    rw [registersReverse_iff h]
    constructor
    · rintro honce ⟨r, hr⟩
      -- The second registration adds a row.
      have hlength := (honce 2 (by decide)).length_eq
      rw [rowsWithoutIds_registeredTimes h hfaults hkeys 1, rowsWithoutIds_registeredTimes h hfaults hkeys 0,
        hr] at hlength
      simp at hlength
    · intro hnone n hn
      have hrow : ptrRow ip fqdn ttl s.db = none :=
        Option.eq_none_iff_forall_ne_some.mpr fun r hr => hnone ⟨r, hr⟩
      obtain ⟨m, rfl⟩ := Nat.exists_eq_add_of_le' hn
      rw [rowsWithoutIds_registeredTimes h hfaults hkeys m, rowsWithoutIds_registeredTimes h hfaults hkeys 0,
        hrow]
      simp

/-- One PTR record is left exactly when none was there before. -/
lemma leavesOnePtr_iff (hfaults : s.conn.faults = []) (hkeys : (s.db.records.map DnsRecord.id).Nodup)
    (hzones : (s.db.zones.map Zone.id).Nodup) :
    LeavesOnePtr K s scope ip hostname ↔
      (RegistersReverse s.db scope ip hostname → ptrRows s.db ip = []) := by
  unfold LeavesOnePtr
  cases h : registration scope hostname with
  | none =>
    refine iff_of_true (fun fqdn ttl hsome => ?_) fun hreverse => ?_
    · cases hsome
    · unfold RegistersReverse at hreverse
      rw [h] at hreverse
      cases hreverse.1
  | some p =>
    obtain ⟨fqdn, ttl⟩ := p
    obtain ⟨i, hptrs⟩ := ptrRows_registered ip fqdn ttl hkeys hzones
    have hdb : (registeredTimes K scope ip hostname 1 s).db = registered ip fqdn ttl s.db :=
      db_registeredTimes h hfaults hkeys 1
    rw [hdb]
    constructor
    · rintro hleaves hreverse
      obtain ⟨r, hr, -⟩ := hleaves fqdn ttl rfl hreverse.2
      obtain ⟨row, hrow⟩ := (registersReverse_iff h).mp hreverse
      rw [hptrs, hrow, Option.map_some, Option.toList_some] at hr
      have hlength := congrArg List.length hr
      rw [List.length_append, List.length_singleton, List.length_singleton] at hlength
      exact List.eq_nil_of_length_eq_zero (by omega)
    · rintro hbefore fqdn' ttl' hsame hzone
      cases hsame
      have hreverse : RegistersReverse s.db scope ip hostname := ⟨by rw [h]; rfl, hzone⟩
      obtain ⟨row, hrow⟩ := (registersReverse_iff h).mp hreverse
      obtain ⟨q, -, rfl⟩ := Option.map_eq_some_iff.mp hrow
      rw [hptrs, hrow, hbefore hreverse]
      exact ⟨_, rfl, rfl⟩

end Runs

/-- In a database that refuses nothing, registrations with the same arguments can be repeated and leave
one PTR record exactly when they write none: every further one adds another PTR record. One registration
leaves one PTR record exactly when there was none before. -/
theorem registerDns_repeated_iff (K : Crates) {s : AppState} (hfaults : s.conn.faults = [])
    (hrecords : (s.db.records.map DnsRecord.id).Nodup) (hzones : (s.db.zones.map Zone.id).Nodup)
    (scope : DhcpScope) (ip : IpAddr) (hostname : Option Str) :
    (RegistersOnce K s scope ip hostname ∧ LeavesOnePtr K s scope ip hostname ↔
        ¬RegistersReverse s.db scope ip hostname) ∧
      (RegistersOnce K s scope ip hostname ↔ ¬RegistersReverse s.db scope ip hostname) ∧
      (LeavesOnePtr K s scope ip hostname ↔
        (RegistersReverse s.db scope ip hostname → ptrRows s.db ip = [])) := by
  rw [registersOnce_iff hfaults hrecords, leavesOnePtr_iff hfaults hrecords hzones]
  refine ⟨⟨fun h => h.1, fun h => ⟨h, fun hreverse => absurd hreverse h⟩⟩, Iff.rfl, Iff.rfl⟩

/-- A renewal of the registration in the network with a reverse zone adds a row: there are two PTR
records at the reverse name then. -/
theorem not_registersOnce_pi :
    (freshState (homeTablesWith [reverseZone])).conn.faults = [] ∧
      ¬RegistersOnce plainCrates (freshState (homeTablesWith [reverseZone])) registeringScope
        (.v4 0xc0a8010a) (some "pi") ∧
      (ptrRows (registeredTimes plainCrates registeringScope (.v4 0xc0a8010a) (some "pi") 2
        (freshState (homeTablesWith [reverseZone]))).db (.v4 0xc0a8010a)).length = 2 := by
  refine ⟨rfl, fun h => ?_, ?_⟩
  · refine (registersOnce_iff rfl (by decide)).mp h ⟨?_, by decide +kernel⟩
    rw [registration_pi]
    rfl
  · rw [db_registeredTimes registration_pi rfl (by decide)]
    decide +kernel

/-- The registration there. -/
theorem registerDns_repeated_pi :
    (RegistersOnce plainCrates (freshState (homeTablesWith [reverseZone])) registeringScope (.v4 0xc0a8010a)
          (some "pi") ∧
        LeavesOnePtr plainCrates (freshState (homeTablesWith [reverseZone])) registeringScope
          (.v4 0xc0a8010a) (some "pi") ↔
        ¬RegistersReverse (homeTablesWith [reverseZone]) registeringScope (.v4 0xc0a8010a) (some "pi")) ∧
      (RegistersOnce plainCrates (freshState (homeTablesWith [reverseZone])) registeringScope
          (.v4 0xc0a8010a) (some "pi") ↔
        ¬RegistersReverse (homeTablesWith [reverseZone]) registeringScope (.v4 0xc0a8010a) (some "pi")) ∧
      (LeavesOnePtr plainCrates (freshState (homeTablesWith [reverseZone])) registeringScope
          (.v4 0xc0a8010a) (some "pi") ↔
        (RegistersReverse (homeTablesWith [reverseZone]) registeringScope (.v4 0xc0a8010a) (some "pi") →
          ptrRows (homeTablesWith [reverseZone]) (.v4 0xc0a8010a) = [])) :=
  registerDns_repeated_iff plainCrates rfl (by decide) (by decide) registeringScope (.v4 0xc0a8010a)
    (some "pi")

end Nomina
