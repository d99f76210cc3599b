import Nomina.Confinement

/-!
# What a registration can change

A DHCP client chooses its host name, and the server registers it in the zone of the scope. The name is
reduced to one label first, but the zone is then chosen again, by the longest name that the host ends
with. This module says which rows a registration may change, and exactly when every registration of a
host name keeps to them.
-/

namespace Nomina

open Lib Sql EStateM

variable {K : Crates}

/-! ## Safe labels -/

/-- The characters of a safe label: lower-case letters, digits and hyphens. -/
def isSafeChar (c : Char) : Bool :=
  c.isLower || c.isDigit || c == '-'

/-- A safe label: one to 63 safe characters, with no hyphen at either end. -/
def isSafeLabel (label : Str) : Bool :=
  !label.isEmpty && label.length ≤ 63 && label.all isSafeChar && label.head? != some '-' &&
    label.getLast? != some '-'

lemma isSafeChar_iff {c : Char} : isSafeChar c = true ↔
    (97 ≤ c.toNat ∧ c.toNat ≤ 122) ∨ (48 ≤ c.toNat ∧ c.toNat ≤ 57) ∨ c.toNat = 45 := by
  unfold isSafeChar Char.isLower Char.isDigit
  rw [Bool.or_eq_true, Bool.or_eq_true, beq_iff_eq, ← Char.toNat_inj, or_assoc]
  simp only [decide_eq_true_eq, Bool.and_eq_true, ge_iff_le, UInt32.le_iff_toNat_le]
  rfl

/-- The characters that are kept of a host name are safe once they are folded. -/
lemma isSafeChar_toLower {c : Char} (h : (c.isAlphanum || c == '-') = true) :
    isSafeChar c.toLower = true := by
  have hupper : c.isUpper = true ↔ 65 ≤ c.toNat ∧ c.toNat ≤ 90 := by
    unfold Char.isUpper
    simp only [decide_eq_true_eq, ge_iff_le, UInt32.le_iff_toNat_le]
    rfl
  have hcases : c.isUpper = true ∨ isSafeChar c = true := by
    unfold Char.isAlphanum Char.isAlpha at h
    unfold isSafeChar
    simpa [or_assoc] using h
  rw [hupper, isSafeChar_iff] at hcases
  rw [isSafeChar_iff, toNat_toLower]
  split <;> omega

/-- A safe character is folded, and neither a blank nor a dot. -/
lemma isSafeChar_spec {c : Char} (h : isSafeChar c = true) :
    c.toLower = c ∧ isWhitespace c = false ∧ c ≠ '.' := by
  rw [isSafeChar_iff] at h
  refine ⟨?_, ?_, ?_⟩
  · rw [← Char.toNat_inj, toNat_toLower, if_neg (by omega)]
  · unfold isWhitespace
    simp only [Bool.or_eq_false_iff, Bool.and_eq_false_iff, decide_eq_false_iff_not, beq_eq_false_iff_ne]
    omega
  · rintro rfl
    revert h
    decide

/-- What a host name is reduced to is safe. -/
lemma isSafeLabel_of_sanitizeLabel {raw label : Str} (h : sanitizeLabel raw = some label) :
    isSafeLabel label = true := by
  unfold sanitizeLabel at h
  dsimp only at h
  split at h
  · cases h
  · rename_i hne
    obtain rfl := Option.some.inj h
    generalize hkept : ((((split '.' raw).headD raw).filter fun c => c.isAlphanum || c == '-').take 63) = kept
      at hne ⊢
    have hpart : (kept.dropWhile (· == '-')).rdropWhile (· == '-') <:+: kept :=
      (List.rdropWhile_prefix _ _).isInfix.trans (List.dropWhile_suffix _).isInfix
    have hlength : kept.length ≤ 63 := by
      rw [← hkept]
      exact List.length_take_le _ _
    have hchars : ∀ c ∈ kept, isSafeChar c.toLower = true := by
      intro c hc
      rw [← hkept] at hc
      exact isSafeChar_toLower (List.mem_filter.mp (List.mem_of_mem_take hc)).2
    have hfold : ∀ c : Char, c.toLower = '-' → c = '-' := fun c => (toLower_eq_iff (by decide)).mp
    unfold toAsciiLowercase at hne ⊢
    unfold isSafeLabel
    simp only [Bool.and_eq_true, decide_eq_true_eq, bne_iff_ne, List.length_map, List.all_map,
      List.all_eq_true, List.head?_map, List.getLast?_map, Function.comp_apply]
    refine ⟨⟨⟨⟨by simpa using hne, hpart.length_le.trans hlength⟩, ?_⟩, ?_⟩, ?_⟩
    · exact fun c hc => hchars c (hpart.subset hc)
    · intro hhead
      obtain ⟨c, hc, hhyphen⟩ := Option.map_eq_some_iff.mp hhead
      have hkeep := head?_trimmed hc
      rw [hfold c hhyphen] at hkeep
      cases hkeep
    · intro hlast
      obtain ⟨c, hc, hhyphen⟩ := Option.map_eq_some_iff.mp hlast
      have hkeep := getLast?_rdropWhile hc
      rw [hfold c hhyphen] at hkeep
      cases hkeep

section

variable {label dnsZone zone host : Str}

/-- What is known of the characters of a safe label. -/
lemma isSafeLabel_spec (h : isSafeLabel label = true) :
    label ≠ [] ∧ toAsciiLowercase label = label ∧ (∀ c ∈ label, isWhitespace c = false) ∧ '.' ∉ label := by
  unfold isSafeLabel at h
  simp only [Bool.and_eq_true, List.all_eq_true] at h
  obtain ⟨⟨⟨⟨hne, -⟩, hchars⟩, -⟩, -⟩ := h
  refine ⟨by simpa using hne, ?_, fun c hc => (isSafeChar_spec (hchars c hc)).2.1, fun hdot => ?_⟩
  · exact (List.map_congr_left fun c hc => (isSafeChar_spec (hchars c hc)).1).trans (List.map_id _)
  · exact (isSafeChar_spec (hchars _ hdot)).2.2 rfl

/-- The host that is registered is the label and the zone that is named. -/
lemma foldHost_registered (hlabel : isSafeLabel label = true) (hzone : zone ≠ []) (htrim : trim zone = zone)
    (h : Db.foldHost dnsZone = zone) : Db.foldHost (trim (label ++ '.' :: dnsZone)) = label ++ '.' :: zone := by
  obtain ⟨hne, hfold, hblank, -⟩ := isSafeLabel_spec hlabel
  have hdots : trimEndMatches '.' dnsZone ≠ [] := by
    intro hnil
    rw [Db.foldHost, hnil] at h
    exact hzone h.symm
  have hend : dnsZone.rdropWhile isWhitespace = dnsZone := by
    rw [List.rdropWhile_eq_self_iff]
    intro hs hlast
    -- A text that ends with a blank has no dot to trim, so the blank would end the name of the zone.
    have hdot : dnsZone.getLast hs ≠ '.' := by
      intro hdot
      rw [hdot] at hlast
      cases hlast
    have hsame : trimEndMatches '.' dnsZone = dnsZone :=
      List.rdropWhile_eq_self_iff.mpr fun _ => by simpa using hdot
    have hblanks := rdropWhile_of_trim htrim
    rw [← h, Db.foldHost, hsame, List.rdropWhile_eq_self_iff] at hblanks
    refine hblanks (by simpa [toAsciiLowercase] using hs) ?_
    unfold toAsciiLowercase
    rw [List.getLast_map, isWhitespace_toLower]
    exact hlast
  have htrimmed : trim (label ++ '.' :: dnsZone) = label ++ '.' :: dnsZone := by
    have hfront : (label ++ '.' :: dnsZone).dropWhile isWhitespace = label ++ '.' :: dnsZone := by
      obtain ⟨c, rest, rfl⟩ := List.exists_cons_of_ne_nil hne
      rw [List.cons_append, List.dropWhile_cons_of_neg (by simp [hblank c List.mem_cons_self])]
    have hlast : dnsZone.rdropWhile isWhitespace ≠ [] := by
      rw [hend]
      rintro rfl
      exact hdots rfl
    unfold trim
    rw [hfront, List.append_cons, rdropWhile_append _ hlast, hend]
  rw [htrimmed, Db.foldHost, List.append_cons, trimEndMatches, rdropWhile_append _ hdots]
  rw [← h, Db.foldHost, trimEndMatches]
  unfold toAsciiLowercase at hfold ⊢
  rw [List.map_append, List.map_append, hfold]
  simp

/-! ## The zone that is chosen -/

/-- A zone of the table is among the zones by name. -/
lemma mem_zonesByName {t : Tables} {z : Zone} : z ∈ Db.zonesByName t ↔ ∃ w ∈ t.zones, Db.readZone w = z := by
  unfold Db.zonesByName
  rw [List.mem_map]
  exact exists_congr fun w => and_congr_left fun _ => (List.perm_insertionSort _ _).mem_iff

/-- For a label in a zone, that zone is chosen or one that is named as the host. -/
lemma exists_zone_of_label {t : Tables} {z : Zone} (hdot : '.' ∉ label) (hz : z ∈ t.zones)
    (hfold : ∀ w ∈ t.zones, Db.foldHost w.name = w.name) :
    ∃ w ∈ t.zones, Db.longestSuffixZone (fun _ => true) (label ++ '.' :: z.name) (Db.zonesByName t) =
        some (w.id, w.name) ∧
      (w.name = z.name ∧ (∀ w' ∈ t.zones, w'.name ≠ label ++ '.' :: z.name) ∨
        w.name = label ++ '.' :: z.name) := by
  have hlonger : ∀ w ∈ t.zones, Db.covers (fun _ => true) (label ++ '.' :: z.name) w = true →
      ∃ p, Db.longestSuffixZone (fun _ => true) (label ++ '.' :: z.name) (Db.zonesByName t) = some p ∧
        w.name.length ≤ p.2.length := by
    intro w hw hcovers
    have hmem : Db.readZone w ∈ Db.zonesByName t := mem_zonesByName.mpr ⟨w, hw, rfl⟩
    have hread : Db.covers (fun _ => true) (label ++ '.' :: z.name) (Db.readZone w) = true := hcovers
    obtain ⟨p, hp, hlength⟩ := Db.exists_longestSuffixZone hmem hread
    have hname : Db.foldHost (Db.readZone w).name = w.name := hfold w hw
    exact ⟨p, hp, hname ▸ hlength⟩
  have hcovers : Db.covers (fun _ => true) (label ++ '.' :: z.name) z = true := by
    unfold Db.covers
    rw [hfold z hz, Bool.true_and, Bool.or_eq_true, endsWith_iff]
    exact .inr ⟨label, rfl⟩
  obtain ⟨p, hp, hlength⟩ := hlonger z hz hcovers
  obtain ⟨x, hx, hchosen, rfl⟩ := Db.exists_of_longestSuffixZone hp
  obtain ⟨w, hw, rfl⟩ := mem_zonesByName.mp hx
  have hname : Db.foldHost (Db.readZone w).name = w.name := hfold w hw
  rw [hname] at hp hlength
  refine ⟨w, hw, hp, ?_⟩
  unfold Db.covers at hchosen
  rw [hname, Bool.true_and, Bool.or_eq_true, beq_iff_eq, endsWith_iff] at hchosen
  rcases hchosen with hhost | ⟨front, hhost⟩
  · exact .inr hhost.symm
  · rcases dotted_suffix_cases hhost with heq | ⟨x, hx⟩ | ⟨x, hx⟩
    · refine .inl ⟨heq.symm, fun w' hw' hname' => ?_⟩
      -- A zone that is named as the host would be longer.
      have hcovers' : Db.covers (fun _ => true) (label ++ '.' :: z.name) w' = true := by
        unfold Db.covers
        rw [hfold w' hw', hname', beq_self_eq_true]
        rfl
      obtain ⟨p, hp', hlength'⟩ := hlonger w' hw' hcovers'
      obtain rfl := Option.some.inj (hp.symm.trans hp')
      rw [hname', List.length_append, List.length_cons] at hlength'
      dsimp only at hlength'
      rw [← heq] at hlength'
      omega
    · rw [hx, List.length_append, List.length_cons] at hlength
      dsimp only at hlength
      omega
    · have hsplit : label ++ ('.' :: z.name) = (front ++ '.' :: x) ++ ('.' :: z.name) := by
        rw [hhost, hx, List.append_assoc, List.cons_append]
      have hlabel : label = front ++ '.' :: x := List.append_cancel_right hsplit
      refine absurd ?_ hdot
      rw [hlabel]
      simp

/-- The label is the name of the host relative to the zone. -/
lemma relativeTo_label (label zone : Str) : Db.relativeTo (label ++ '.' :: zone) zone = label := by
  have hne : label ++ '.' :: zone ≠ zone := by
    intro h
    have hlength := congrArg List.length h
    rw [List.length_append, List.length_cons] at hlength
    omega
  have htake : (label ++ '.' :: zone).length - zone.length - 1 = label.length := by
    rw [List.length_append, List.length_cons]
    omega
  unfold Db.relativeTo
  rw [if_neg (by simpa using hne), htake, List.take_left]

end

/-! ## The rows of a registration -/

/-- The slot of the forward record of a host name: in the zone, for all views, of the type of the address,
at the label that the name is reduced to, which is safe. -/
def isForwardSlot (z : Zone) (hostname : Option Str) (ip : IpAddr) (slot : Slot) : Bool :=
  slot.zoneId == z.id && slot.viewId == none && slot.rtype == Db.addressType ip &&
    isSafeLabel slot.name && hostname.bind sanitizeLabel == some slot.name

/-- The slots of reverse records: in a reverse zone, for all views. -/
def isReverseSlot (t : Tables) (slot : Slot) : Bool :=
  slot.rtype == "PTR".toList && slot.viewId == none &&
    t.zones.any fun w => w.id == slot.zoneId && isReverseZone (Db.foldHost w.name)

/-- The rows in other slots than those of a registration are as they were. -/
def RegistersWithin (z : Zone) (hostname : Option Str) (ip : IpAddr) (t t' : Tables) : Prop :=
  t'.records.filter (fun r => !(isForwardSlot z hostname ip r.slot || isReverseSlot t r.slot)) =
    t.records.filter fun r => !(isForwardSlot z hostname ip r.slot || isReverseSlot t r.slot)

variable (K) in
/-- Whatever address is granted and whichever statements the database refuses, a registration of the host
name writes its forward record in the zone and changes no row but that one and reverse records. -/
def KeepsToZone (t : Tables) (scope : DhcpScope) (z : Zone) (hostname : Option Str) : Prop :=
  ∀ ip s, s.db = t → RegistersWithin z hostname ip t ((registerDns K scope ip hostname).after s).db

section

variable {t : Tables} {scope : DhcpScope} {z : Zone} {hostname : Option Str} {ip : IpAddr} {fqdn : Str}
  {ttl zoneId : ℕ} {zoneName : Str}

lemma isForwardSlot_iff {slot : Slot} : isForwardSlot z hostname ip slot = true ↔
    slot.zoneId = z.id ∧ slot.viewId = none ∧ slot.rtype = Db.addressType ip ∧
      isSafeLabel slot.name = true ∧ hostname.bind sanitizeLabel = some slot.name := by
  unfold isForwardSlot
  simp only [Bool.and_eq_true, beq_iff_eq, and_assoc]

/-- A row of an address is in no slot of reverse records. -/
lemma isReverseSlot_addressedRow {q : Tables} (t : Tables) (zoneId : ℕ) (name : Str) (ip : IpAddr) (ttl : ℕ) :
    isReverseSlot q (addressedRow t zoneId name ip none ttl).slot = false := by
  obtain ⟨name, -, hslot⟩ := addressedRow_slot t zoneId name ip none ttl
  unfold isReverseSlot
  rw [hslot]
  cases ip <;> rfl

/-- A registration of an address in the reverse zones keeps to their slots. -/
lemma confined_registerPtr {q : Slot → Bool} {i : ℕ} (rev target : Str) (ttl : ℕ)
    (hq : ∀ slot, isReverseSlot t slot = true → q slot = true) :
    Sql.Keeps (Given (ZonesOf t) (Confined q i)) (registerPtr rev target ttl) := by
  intro c hc
  have hstep : Confined q i c.tables ((registerPtr rev target ttl).after c).tables := by
    unfold registerPtr Db.listZones
    refine Frame.select_bind (Q := fun c c' => Confined q i c.tables c'.tables) fun c₁ _ => ?_
    split
    · exact refl_of (Confined q i) _
    · rename_i zoneId zoneName hzone
      rw [after_bind_pure]
      refine confined_createRecord (hq _ ?_) c₁
      rw [Db.longestSuffixZone_congr (f := unserialized) (fun _ => ⟨rfl, rfl⟩) hc.2] at hzone
      obtain ⟨x, hx, hcovers, hp⟩ := Db.exists_of_longestSuffixZone hzone
      obtain ⟨w, hw, rfl⟩ := mem_zonesByName.mp hx
      have hid : w.id = zoneId := congrArg Prod.fst hp
      have hreverse : isReverseZone (Db.foldHost w.name) = true := (Bool.and_eq_true_iff.mp hcovers).1
      unfold isReverseSlot
      simp only [beq_self_eq_true, Bool.true_and, List.any_eq_true, Bool.and_eq_true, beq_iff_eq]
      exact ⟨w, hw, hid, hreverse⟩
  exact ⟨hc.of_confined hstep, hstep⟩

/-- After its forward record, a registration keeps to the slots of reverse records. -/
lemma confined_registerAddress (K : Crates) {q : Slot → Bool} {i : ℕ} (s : AppState) (ip : IpAddr)
    (fqdn : Str) (ttl : ℕ) (hq : ∀ slot, isReverseSlot t slot = true → q slot = true)
    (hzones : ZonesOf t ((tryDb (Db.dyndnsSetAddress fqdn ip none ttl)).after s).db) :
    Confined q i ((tryDb (Db.dyndnsSetAddress fqdn ip none ttl)).after s).db
      ((registerAddress K ip fqdn ttl).after s).db := by
  unfold registerAddress
  rw [EStateM.after_bind, result_tryDb]
  cases (Db.dyndnsSetAddress fqdn ip none ttl).result s.conn with
  | error e => exact refl_of (Confined q i) _
  | ok u =>
    have hrest : KeepsDb (Given (ZonesOf t) (Confined q i)) (do
        reloadStore K
        let _ ← tryDb (registerPtr (reverseName ip) (fqdn ++ ['.']) ttl)
        pure ()) :=
      .bind (.reloadStore K) fun _ => .bind (.tryDb (confined_registerPtr _ _ _ hq)) fun _ => .pure ()
    exact (hrest _ hzones).2

/-- A registration keeps to its slots when its forward record is in its slot. -/
lemma registersWithin_of_forward {s : AppState} (hkeys : (s.db.records.map DnsRecord.id).Nodup)
    (hforward : ∀ zoneId zoneName,
      Db.longestSuffixZone (fun _ => true) (Db.foldHost (trim fqdn)) (Db.zonesByName s.db) =
        some (zoneId, zoneName) →
      isForwardSlot z hostname ip
        (addressedRow s.db zoneId (Db.relativeTo (Db.foldHost (trim fqdn)) zoneName) ip none ttl).slot = true) :
    RegistersWithin z hostname ip s.db ((registerAddress K ip fqdn ttl).after s).db := by
  have hfirst : Confined (fun slot => isForwardSlot z hostname ip slot || isReverseSlot s.db slot) 0 s.db
      ((tryDb (Db.dyndnsSetAddress fqdn ip none ttl)).after s).db := by
    rw [after_tryDb]
    refine confined_dyndnsSetAddress (c := s.conn) hkeys fun zoneId zoneName hzone => ?_
    exact Bool.or_eq_true_iff.mpr (.inl (hforward zoneId zoneName hzone))
  have hzones : ZonesOf s.db ((tryDb (Db.dyndnsSetAddress fqdn ip none ttl)).after s).db :=
    ZonesOf.of_confined ⟨hkeys, rfl⟩ hfirst
  have hrest := confined_registerAddress K (i := 0) s ip fqdn ttl
    (q := fun slot => isForwardSlot z hostname ip slot || isReverseSlot s.db slot)
    (fun slot hslot => Bool.or_eq_true_iff.mpr (.inr hslot)) hzones
  exact (trans_of (Confined _ 0) hfirst hrest).records

/-- A row that is there after the forward record, and in no slot of reverse records, stays there. -/
lemma mem_records_registerDns {t' : Tables} {row : DnsRecord} {s : AppState}
    (hreg : registration scope hostname = some (fqdn, ttl))
    (hfirst : ((tryDb (Db.dyndnsSetAddress fqdn ip none ttl)).after s).db = t')
    (hkeys : (t'.records.map DnsRecord.id).Nodup) (hrow : row ∈ t'.records)
    (hslot : isReverseSlot t' row.slot = false) :
    row ∈ ((registerDns K scope ip hostname).after s).db.records := by
  have hzones : ZonesOf t' ((tryDb (Db.dyndnsSetAddress fqdn ip none ttl)).after s).db := by
    rw [hfirst]
    exact ⟨hkeys, rfl⟩
  have hrest := confined_registerAddress K (q := isReverseSlot t') (i := 0) s ip fqdn ttl (fun _ hq => hq) hzones
  rw [hfirst] at hrest
  have hkept : row ∈ t'.records.filter fun r => !isReverseSlot t' r.slot :=
    List.mem_filter.mpr ⟨hrow, by rw [hslot]; rfl⟩
  rw [← hrest.records] at hkept
  unfold registerDns
  rw [hreg]
  exact (List.mem_filter.mp hkept).1

/-- When every registration of a host name keeps to its slots, so does the row that is set. -/
lemma isForwardSlot_of_keepsToZone (hkeys : (t.records.map DnsRecord.id).Nodup)
    (hreg : registration scope hostname = some (fqdn, ttl))
    (hzone : Db.longestSuffixZone (fun _ => true) (Db.foldHost (trim fqdn)) (Db.zonesByName t) =
      some (zoneId, zoneName)) (h : KeepsToZone K t scope z hostname) (ip : IpAddr) :
    isForwardSlot z hostname ip
      (addressedRow t zoneId (Db.relativeTo (Db.foldHost (trim fqdn)) zoneName) ip none ttl).slot = true := by
  have href : t.viewRefOk none = true := rfl
  obtain ⟨ip', u, t', htype, hevals, hnew, hold⟩ := exists_new_row ip ttl hkeys href hzone
  have hsame : ∀ slot, isForwardSlot z hostname ip slot = isForwardSlot z hostname ip' slot := by
    intro slot
    unfold isForwardSlot
    rw [htype]
  rw [← slot_addressedRow_congr htype, hsame]
  have hwithin := h ip' (freshState t) rfl
  obtain ⟨-, htables, -⟩ := hevals (freshState t).conn rfl rfl
  generalize hrow : addressedRow t zoneId (Db.relativeTo (Db.foldHost (trim fqdn)) zoneName) ip' none ttl = row
    at hnew hold ⊢
  have haddress : ∀ q : Tables, isReverseSlot q row.slot = false := by
    intro q
    rw [← hrow]
    exact isReverseSlot_addressedRow ..
  have hfirst : ((tryDb (Db.dyndnsSetAddress fqdn ip' none ttl)).after (freshState t)).db = t' := by
    rw [after_tryDb]
    exact htables
  have hids : (t'.records.map DnsRecord.id).Nodup := by
    rw [← htables]
    have hany : Confined (fun _ => true) 0 t
        ((Db.dyndnsSetAddress fqdn ip' none ttl).after (freshState t).conn).tables :=
      confined_dyndnsSetAddress (c := (freshState t).conn) hkeys fun _ _ _ => rfl
    exact hany.keys hkeys
  -- The row is still there after the reverse record.
  have hfinal : row ∈ ((registerDns K scope ip' hostname).after (freshState t)).db.records :=
    mem_records_registerDns hreg hfirst hids hnew (haddress t')
  by_contra hout
  refine hold (List.mem_of_mem_filter (p := fun r =>
    !(isForwardSlot z hostname ip' r.slot || isReverseSlot t r.slot)) ?_)
  unfold RegistersWithin at hwithin
  rw [← hwithin]
  refine List.mem_filter.mpr ⟨hfinal, ?_⟩
  rw [haddress, Bool.or_false]
  simpa using hout

/-- The registration of a host name, by the label that it is reduced to. -/
lemma registration_eq {dnsZone : Str} (hscope : scope.dnsZone = some dnsZone) (hostname : Option Str) :
    registration scope hostname = if scope.dnsRegister then
      (hostname.bind sanitizeLabel).map fun label => (label ++ '.' :: dnsZone, max scope.leaseSecs 60)
    else none := by
  unfold registration
  rw [hscope]
  cases scope.dnsRegister <;> cases hostname.bind sanitizeLabel <;> rfl

end

/-! ## Registrations that keep to their zone -/

/-- A label leads to a zone: no zone is named as the host, and the row of an address that is there, if any,
is spelled as the label. -/
structure LeadsToZone (t : Tables) (z : Zone) (label : Str) : Prop where
  unnamed : ∀ w ∈ t.zones, w.name ≠ label ++ '.' :: z.name
  spelled : ∀ ip r, addressRow t z.id label (Db.addressType ip) none = some r → r.name = label

section

variable {t : Tables} {scope : DhcpScope} {z : Zone} {hostname : Option Str} {dnsZone label : Str}
  (hrecords : (t.records.map DnsRecord.id).Nodup)
  (hcanonical : ∀ w ∈ t.zones, canonicalZoneName K w.name = .ok w.name) (hscope : scope.dnsZone = some dnsZone)
  (hz : z ∈ t.zones) (hnamed : Db.foldHost dnsZone = z.name)

include hcanonical hz hnamed in
/-- The label that a host name is reduced to is safe, and is looked for in the zone of the scope. -/
lemma foldHost_of_sanitizeLabel (hlabel : hostname.bind sanitizeLabel = some label) :
    isSafeLabel label = true ∧ Db.foldHost (trim (label ++ '.' :: dnsZone)) = label ++ '.' :: z.name := by
  obtain ⟨raw, -, hraw⟩ := Option.bind_eq_some_iff.mp hlabel
  have hsafe := isSafeLabel_of_sanitizeLabel hraw
  exact ⟨hsafe, foldHost_registered hsafe (canonicalZoneName_spec (hcanonical z hz)).1
    (trim_of_canonicalZoneName (hcanonical z hz)) hnamed⟩

include hcanonical hz in
/-- For a safe label, the zone is chosen or one that is named as the host. -/
lemma exists_zone_of_isSafeLabel (hsafe : isSafeLabel label = true) :
    ∃ w ∈ t.zones, Db.longestSuffixZone (fun _ => true) (label ++ '.' :: z.name) (Db.zonesByName t) =
        some (w.id, w.name) ∧
      (w.name = z.name ∧ (∀ w' ∈ t.zones, w'.name ≠ label ++ '.' :: z.name) ∨
        w.name = label ++ '.' :: z.name) :=
  exists_zone_of_label (isSafeLabel_spec hsafe).2.2.2 hz fun w hw =>
    (canonicalZoneName_spec (hcanonical w hw)).2.1

include hrecords hcanonical hscope hz hnamed

/-- When every registration of a host name keeps to its slots, its label leads to the zone. -/
lemma leadsToZone_of_keepsToZone (hzones : (t.zones.map Zone.id).Nodup) (h : KeepsToZone K t scope z hostname)
    (hon : scope.dnsRegister = true) (hlabel : hostname.bind sanitizeLabel = some label) :
    LeadsToZone t z label := by
  obtain ⟨hsafe, hfqdn⟩ := foldHost_of_sanitizeLabel hcanonical hz hnamed hlabel
  have hreg : registration scope hostname = some (label ++ '.' :: dnsZone, max scope.leaseSecs 60) := by
    rw [registration_eq hscope, hon, hlabel]
    rfl
  obtain ⟨w, hw, hzone, hcases⟩ := exists_zone_of_isSafeLabel hcanonical hz hsafe
  rw [← hfqdn] at hzone
  have hforward := isForwardSlot_of_keepsToZone hrecords hreg hzone h
  rw [hfqdn] at hforward
  -- The row is in the zone, so the zone is the one that is chosen.
  have hid : w.id = z.id := by
    obtain ⟨name, -, hslot⟩ := addressedRow_slot t w.id
      (Db.relativeTo (label ++ '.' :: z.name) w.name) (.v4 0) none (max scope.leaseSecs 60)
    have hslot' := isForwardSlot_iff.mp (hforward (.v4 0))
    rw [hslot] at hslot'
    exact hslot'.1
  obtain rfl := List.inj_on_of_nodup_map hzones hw hz hid
  rcases hcases with ⟨-, hunnamed⟩ | hname
  · refine ⟨hunnamed, fun ip r hrow => ?_⟩
    have hslot := hforward ip
    rw [relativeTo_label, slot_addressedRow hrow] at hslot
    obtain ⟨-, -, -, -, hspelled⟩ := isForwardSlot_iff.mp hslot
    exact (Option.some.inj (hlabel.symm.trans hspelled)).symm
  · have hlength := congrArg List.length hname
    rw [List.length_append, List.length_cons] at hlength
    omega

/-- When the label leads to the zone, every registration of the host name keeps to its slots. -/
lemma keepsToZone_of_leadsToZone (hnames : (t.zones.map Zone.name).Nodup)
    (hleads : ∀ label, scope.dnsRegister = true → hostname.bind sanitizeLabel = some label →
      LeadsToZone t z label) :
    KeepsToZone K t scope z hostname := by
  rintro ip s rfl
  unfold registerDns
  cases hreg : registration scope hostname with
  | none => exact rfl
  | some p =>
    rw [registration_eq hscope, Option.ite_none_right_eq_some] at hreg
    obtain ⟨hon, hreg⟩ := hreg
    obtain ⟨label, hlabel, rfl⟩ := Option.map_eq_some_iff.mp hreg
    obtain ⟨hsafe, hfqdn⟩ := foldHost_of_sanitizeLabel hcanonical hz hnamed hlabel
    obtain ⟨hunnamed, hspelled⟩ := hleads label hon hlabel
    obtain ⟨w, hw, hzone, ⟨hname, -⟩ | hname⟩ := exists_zone_of_isSafeLabel hcanonical hz hsafe
    · obtain rfl := List.inj_on_of_nodup_map hnames hw hz hname
      refine registersWithin_of_forward hrecords fun zoneId zoneName hchosen => ?_
      rw [hfqdn] at hchosen
      obtain ⟨rfl, rfl⟩ := Prod.mk.inj (Option.some.inj (hzone.symm.trans hchosen))
      rw [hfqdn, relativeTo_label]
      have hforward : isForwardSlot w hostname ip ⟨w.id, none, label, Db.addressType ip⟩ = true :=
        isForwardSlot_iff.mpr ⟨rfl, rfl, rfl, hsafe, hlabel⟩
      cases hrow : addressRow s.db w.id label (Db.addressType ip) none with
      | none => rwa [slot_addressedRow_of_none hrow]
      | some r =>
        obtain ⟨-, hid, -, htype, hview⟩ := addressRow_spec hrow
        rwa [slot_addressedRow hrow, DnsRecord.slot, hid, htype, hview, hspelled ip r hrow]
    · exact absurd hname (hunnamed w hw)

end

/-- Every registration of a host name in the zone that the scope names keeps to it exactly when the label
that the name is reduced to leads there. Ids of records and zones are unique, and zones have canonical
names, which are unique too. -/
theorem keepsToZone_iff (K : Crates) (t : Tables) (hrecords : (t.records.map DnsRecord.id).Nodup)
    (hzones : (t.zones.map Zone.id).Nodup) (hnames : (t.zones.map Zone.name).Nodup)
    (hcanonical : ∀ w ∈ t.zones, canonicalZoneName K w.name = .ok w.name) (scope : DhcpScope) (dnsZone : Str)
    (hscope : scope.dnsZone = some dnsZone) (z : Zone) (hz : z ∈ t.zones)
    (hnamed : Db.foldHost dnsZone = z.name) (hostname : Option Str) :
    KeepsToZone K t scope z hostname ↔
      ∀ label, scope.dnsRegister = true → hostname.bind sanitizeLabel = some label → LeadsToZone t z label := by
  constructor
  · intro hkeeps label hon hlabel
    exact leadsToZone_of_keepsToZone hrecords hcanonical hscope hz hnamed hzones hkeeps hon hlabel
  · intro hleads
    exact keepsToZone_of_leadsToZone hrecords hcanonical hscope hz hnamed hnames hleads

/-- The zone of a host in `home.lan`. -/
def nasZone : Zone :=
  ⟨2, "nas.home.lan", true, .defaultFor "nas.home.lan", 300, 1⟩

/-- A host name without a zone of its own is registered in the zone of the scope. -/
theorem keepsToZone_laptop :
    KeepsToZone plainCrates (homeTablesWith [nasZone]) registeringScope homeZone (some "Laptop") := by
  refine (keepsToZone_iff plainCrates _ (by decide) (by decide) (by decide) (by decide +kernel)
    registeringScope "home.lan" rfl homeZone (by decide) (by decide +kernel) _).mpr fun label _ hlabel => ?_
  have hlaptop : (some "Laptop".toList).bind sanitizeLabel = some "laptop".toList := by decide +kernel
  obtain rfl := Option.some.inj (hlaptop.symm.trans hlabel)
  refine ⟨by decide, fun ip r hrow => ?_⟩
  have hnone : addressRow (homeTablesWith [nasZone]) homeZone.id "laptop" (Db.addressType ip) none = none := rfl
  rw [hnone] at hrow
  cases hrow

/-- A host name with a zone of its own is registered at the apex of that zone. -/
theorem not_keepsToZone_nas :
    ((registerDns plainCrates registeringScope (.v4 0xc0a8010a) (some "nas")).after
        (freshState (homeTablesWith [nasZone]))).db.records =
      [⟨1, 2, none, "@", "A", some 3600, "192.168.1.10", true⟩] ∧
    ¬KeepsToZone plainCrates (homeTablesWith [nasZone]) registeringScope homeZone (some "nas") := by
  have hrows : ((registerDns plainCrates registeringScope (.v4 0xc0a8010a) (some "nas")).after
      (freshState (homeTablesWith [nasZone]))).db.records =
        [⟨1, 2, none, "@", "A", some 3600, "192.168.1.10", true⟩] := by decide +kernel
  refine ⟨hrows, fun h => ?_⟩
  have hwithin := h (.v4 0xc0a8010a) (freshState (homeTablesWith [nasZone])) rfl
  unfold RegistersWithin at hwithin
  rw [hrows] at hwithin
  revert hwithin
  decide +kernel

end Nomina
