import Nomina.Dhcp.Server

/-!
# Options of reservations

`merge_options` of `dhcp/server.rs` puts the options of a reservation in the place of the first option
of the scope with the same code, and the loop of `build_v4_reply` sends the last one of a code that can
be encoded. The merged list is given code by code, and from it follows when the value that is sent is
one of the reservation.
-/

namespace Nomina

open Lib

/-! ## The merged list -/

/-- The options of the scope with a code that stay when those of the reservation are merged in: all of
them when the reservation has none of the code, else all but the first. -/
def keptOptions (scopeOpts reservationOpts : List DhcpOption) (code : ℕ) : List DhcpOption :=
  if (withKey DhcpOption.code code reservationOpts).isEmpty then withKey DhcpOption.code code scopeOpts
  else (withKey DhcpOption.code code scopeOpts).tail

/-- An option is the last one of its code in the reservation, or it stays from the scope. -/
def Remains (scopeOpts reservationOpts : List DhcpOption) (opt : DhcpOption) : Prop :=
  (withKey DhcpOption.code opt.code reservationOpts).getLast? = some opt ∨
    opt ∈ keptOptions scopeOpts reservationOpts opt.code

section

variable {scopeOpts reservationOpts : List DhcpOption} {opt : DhcpOption}

/-- A round of the merge puts an option of the reservation into its slot. -/
lemma mergeRound_eq_put (ro : DhcpOption) (out : List DhcpOption) :
    (match out.findIdx? (·.code == ro.code) with
      | some i => out.set i ro
      | none => out ++ [ro]) = put DhcpOption.code ro out := by
  induction out with
  | nil => rfl
  | cons opt out ih =>
    unfold put
    rw [← ih, List.findIdx?_cons]
    by_cases h : opt.code = ro.code
    · rw [if_pos (by simpa using h), if_pos h]
      rfl
    · rw [if_neg (by simpa using h), if_neg h]
      cases out.findIdx? (·.code == ro.code) <;> rfl

/-- The merge puts the options of the reservation into their slots, one after the other. -/
lemma mergeOptions_eq_putAll (scopeOpts reservationOpts : List DhcpOption) :
    mergeOptions scopeOpts reservationOpts = putAll DhcpOption.code reservationOpts scopeOpts := by
  unfold mergeOptions putAll
  congr 1
  funext out ro
  exact mergeRound_eq_put ro out

/-- Of a code that the reservation has, the options after the first stay. -/
lemma keptOptions_eq_tail {code : ℕ} {ro : DhcpOption}
    (h : (withKey DhcpOption.code code reservationOpts).getLast? = some ro) :
    keptOptions scopeOpts reservationOpts code = (withKey DhcpOption.code code scopeOpts).tail := by
  unfold keptOptions
  rw [if_neg]
  intro hempty
  rw [List.isEmpty_iff.mp hempty] at h
  cases h

/-- An option that stays is one of the scope. -/
lemma mem_of_mem_keptOptions {code : ℕ} (h : opt ∈ keptOptions scopeOpts reservationOpts code) :
    opt ∈ scopeOpts := by
  unfold keptOptions at h
  split at h
  · exact (List.mem_filter.mp h).1
  · exact (List.mem_filter.mp (List.mem_of_mem_tail h)).1

/-- The merged options of a code: the last one of the reservation, before those that stay. -/
lemma withKey_mergeOptions (code : ℕ) :
    withKey DhcpOption.code code (mergeOptions scopeOpts reservationOpts) =
      (withKey DhcpOption.code code reservationOpts).getLast?.toList ++
        keptOptions scopeOpts reservationOpts code := by
  rw [mergeOptions_eq_putAll, withKey_putAll]
  cases h : (withKey DhcpOption.code code reservationOpts).getLast? with
  | none =>
    unfold keptOptions
    rw [List.getLast?_eq_none_iff.mp h]
    rfl
  | some ro =>
    rw [keptOptions_eq_tail h]
    rfl

/-- The merged options are those that remain. -/
lemma mem_mergeOptions :
    opt ∈ mergeOptions scopeOpts reservationOpts ↔ Remains scopeOpts reservationOpts opt := by
  have hkey : opt ∈ mergeOptions scopeOpts reservationOpts ↔
      opt ∈ withKey DhcpOption.code opt.code (mergeOptions scopeOpts reservationOpts) := by
    simp [withKey]
  rw [hkey, withKey_mergeOptions, List.mem_append, Option.mem_toList]
  rfl

end

/-! ## The value that is sent -/

/-- The reply carries for a code what an option of the reservation is encoded to. -/
def CarriesOverride (K : Crates) (r : V4Reply) (reservationOpts : List DhcpOption) (code : UInt8) :
    Prop :=
  ∃ bytes m, buildV4Reply K r = .ok bytes ∧ Dhcp4Message.parse bytes = .ok m ∧
    ∃ ro ∈ reservationOpts, ro.code = code.toNat ∧
      ∃ v, encoded? ro = some v ∧ m.option code = some (v.take 255)

/-- The value of the last option of the scope that repeats a code and can be encoded. -/
def repeatedValue (scopeOpts : List DhcpOption) (code : UInt8) : Option Bytes :=
  ((withKey DhcpOption.code code.toNat scopeOpts).tail.filterMap encoded?).getLast?

/-- The scope repeats the code with no value, and the last option of the reservation has one; or the
value that the scope repeats the code with is also one of the reservation. -/
def Prevails (scopeOpts reservationOpts : List DhcpOption) (code : UInt8) : Prop :=
  match repeatedValue scopeOpts code with
  | none => ∃ ro v, (withKey DhcpOption.code code.toNat reservationOpts).getLast? = some ro ∧
      encoded? ro = some v
  | some v => ∃ ro ∈ reservationOpts, ro.code = code.toNat ∧
      ∃ v', encoded? ro = some v' ∧ v'.take 255 = v.take 255

section

variable {scopeOpts reservationOpts : List DhcpOption} {code : UInt8}

/-- For a code that the reservation has, the value that is sent is the one that the scope repeats it
with, else that of the last option of the reservation. -/
lemma sentValue_mergeOptions {ro : DhcpOption}
    (h : (withKey DhcpOption.code code.toNat reservationOpts).getLast? = some ro) :
    sentValue (mergeOptions scopeOpts reservationOpts) code =
      (repeatedValue scopeOpts code).or (encoded? ro) := by
  unfold sentValue repeatedValue
  rw [withKey_mergeOptions, h, keptOptions_eq_tail h, List.filterMap_append, List.getLast?_append]
  congr 1
  rw [Option.toList_some, List.filterMap_cons]
  cases encoded? ro <;> rfl

/-- What the client reads is the value that is sent. -/
lemma carriesOverride_iff_sentValue {K : Crates} {r : V4Reply} (hcode : code ∉ reservedCodes) :
    CarriesOverride K r reservationOpts code ↔
      r.msgType ≠ .Nak ∧ (∀ opt ∈ r.mergedOpts, ¬PanicsInLoop opt) ∧
        ∃ ro ∈ reservationOpts, ro.code = code.toNat ∧ ∃ v, encoded? ro = some v ∧
          (sentValue r.mergedOpts code).map (List.take 255) = some (v.take 255) := by
  constructor
  · rintro ⟨bytes, m, hbuild, hparse, ro, hmem, hro, v, hv, hoption⟩
    obtain rfl := eq_replyMessage hbuild hparse
    -- A NAK has no such option.
    have hnak : r.msgType ≠ .Nak := by
      intro hnak
      have h53 : code ≠ 53 := fun h => hcode (by rw [h]; decide)
      have h54 : code ≠ 54 := fun h => hcode (by rw [h]; decide)
      rw [((answersWith_replyMessage K r).nak hnak).2 code h53 h54] at hoption
      cases hoption
    have hopts := (buildable_of_ok hbuild).resolve_left hnak
    rw [(answersWith_replyMessage K r).others hnak code hcode] at hoption
    exact ⟨hnak, hopts, ro, hmem, hro, v, hv, hoption⟩
  · rintro ⟨hnak, hopts, ro, hmem, hro, v, hv, hsent⟩
    refine ⟨_, _, buildV4Reply_eq (.inr hopts), Dhcp4Message.parse_build_eq _, ro, hmem, hro, v, hv, ?_⟩
    rw [(answersWith_replyMessage K r).others hnak code hcode]
    exact hsent

/-- The value that is sent is one of the reservation when the reservation prevails. -/
lemma sentValue_mergeOptions_iff {last : DhcpOption}
    (hlast : (withKey DhcpOption.code code.toNat reservationOpts).getLast? = some last) :
    (∃ ro ∈ reservationOpts, ro.code = code.toNat ∧ ∃ v, encoded? ro = some v ∧
      (sentValue (mergeOptions scopeOpts reservationOpts) code).map (List.take 255) = some (v.take 255)) ↔
        Prevails scopeOpts reservationOpts code := by
  rw [sentValue_mergeOptions hlast]
  unfold Prevails
  cases repeatedValue scopeOpts code with
  | none =>
    rw [Option.none_or]
    constructor
    · rintro ⟨ro, hmem, hro, v, hv, hsent⟩
      obtain ⟨v', hv', -⟩ := Option.map_eq_some_iff.mp hsent
      exact ⟨last, v', hlast, hv'⟩
    · rintro ⟨ro, v, hro, hv⟩
      obtain rfl := Option.some.inj (hlast.symm.trans hro)
      obtain ⟨hmem, hkey⟩ := List.mem_filter.mp (List.mem_of_getLast? hlast)
      refine ⟨last, hmem, by simpa using hkey, v, hv, ?_⟩
      rw [hv]
      rfl
  | some w =>
    rw [Option.some_or, Option.map_some]
    constructor
    · rintro ⟨ro, hmem, hro, v, hv, hsent⟩
      exact ⟨ro, hmem, hro, v, hv, (Option.some.inj hsent).symm⟩
    · rintro ⟨ro, hmem, hro, v, hv, htake⟩
      exact ⟨ro, hmem, hro, v, hv, congrArg some htake.symm⟩

/-- The reply carries a value of the reservation for a code that the reservation has a value for exactly
when it is no NAK, the loop over the options panics on no option that remains, and the reservation
prevails over what the scope repeats. -/
theorem carriesOverride_iff (K : Crates) (r : V4Reply)
    (hmerged : r.mergedOpts = mergeOptions scopeOpts reservationOpts) (hcode : code ∉ reservedCodes)
    (hvalue : ∃ ro ∈ reservationOpts, ro.code = code.toNat ∧ (encoded? ro).isSome) :
    CarriesOverride K r reservationOpts code ↔
      r.msgType ≠ .Nak ∧ (∀ opt, Remains scopeOpts reservationOpts opt → ¬PanicsInLoop opt) ∧
        Prevails scopeOpts reservationOpts code := by
  obtain ⟨last, hlast⟩ : ∃ last,
      (withKey DhcpOption.code code.toNat reservationOpts).getLast? = some last := by
    obtain ⟨ro, hmem, hro, -⟩ := hvalue
    rw [← Option.isSome_iff_exists, List.getLast?_isSome]
    refine List.ne_nil_of_mem (a := ro) (List.mem_filter.mpr ⟨hmem, ?_⟩)
    simpa using hro
  rw [carriesOverride_iff_sentValue hcode, hmerged, sentValue_mergeOptions_iff hlast]
  simp only [mem_mergeOptions]

end

/-- An address option of a scope or a reservation. -/
def nameServer (ip : Str) : DhcpOption := ⟨6, none, ip, .Ip⟩

/-- A name server of the reservation replaces the one of the scope. -/
theorem carriesOverride_one :
    CarriesOverride plainCrates (offerWith (mergeOptions [nameServer "1.1.1.1"] [nameServer "9.9.9.9"]))
      [nameServer "9.9.9.9"] 6 := by
  have hpanics : ∀ opt ∈ mergeOptions [nameServer "1.1.1.1"] [nameServer "9.9.9.9"], ¬PanicsInLoop opt :=
    not_panicsInLoop (by decide)
  refine (carriesOverride_iff plainCrates (offerWith _) rfl (by decide)
    ⟨_, List.mem_singleton_self _, rfl, by decide +kernel⟩).mpr ⟨by decide, ?_, ?_⟩
  · exact fun opt hopt => hpanics opt (mem_mergeOptions.mpr hopt)
  · exact ⟨nameServer "9.9.9.9", [9, 9, 9, 9], by decide, by decide +kernel⟩

/-- The second name server of the scope is sent in place of the one of the reservation. -/
theorem not_carriesOverride_two :
    ¬CarriesOverride plainCrates
      (offerWith (mergeOptions [nameServer "1.1.1.1", nameServer "8.8.8.8"] [nameServer "9.9.9.9"]))
      [nameServer "9.9.9.9"] 6 := by
  rintro ⟨bytes, m, hbuild, hparse, ro, hmem, -, v, hv, hoption⟩
  rw [buildV4Reply_eq (.inr (not_panicsInLoop (by decide)))] at hbuild
  obtain rfl := Except.ok.inj hbuild
  rw [Dhcp4Message.parse_build_eq] at hparse
  obtain rfl := Except.ok.inj hparse
  obtain rfl := List.mem_singleton.mp hmem
  have hnine : encoded? (nameServer "9.9.9.9") = some [9, 9, 9, 9] := by decide +kernel
  obtain rfl := Option.some.inj (hnine.symm.trans hv)
  exact absurd hoption (by decide +kernel)

end Nomina
