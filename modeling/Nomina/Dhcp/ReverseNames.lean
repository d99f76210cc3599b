import Nomina.Dhcp.Renewal

/-!
# Reverse names

`reverse_name` writes the octets of an IPv4 address, and the nibbles of an IPv6 address, as labels in reverse
order. They are read back here, label by label, as the address.
-/

namespace Nomina

open Lib

/-! ## Reading labels -/

/-- A label of decimal digits, as a number. -/
def readDecimal (label : Str) : Option ℕ :=
  if label.isEmpty then none else (label.mapM (toDigit 10)).map (ofDigitsBE 10)

/-- A label of one hexadecimal digit. -/
def readNibble (label : Str) : Option ℕ :=
  match label with
  | [c] => toDigit 16 c
  | _ => none

/-- The address whose reverse name has the given labels before its domain, read in reverse order. -/
def readReverse (labels : List Str) : Option IpAddr :=
  match labels.reverse with
  | tld :: domain :: rest =>
    if tld ≠ "arpa".toList then none
    else if domain = "in-addr".toList ∧ rest.length = 4 then
      (rest.mapM readDecimal).map fun ds => .v4 (BitVec.ofNat 32 (ofDigitsBE 256 ds))
    else if domain = "ip6".toList ∧ rest.length = 32 then
      (rest.mapM readNibble).map fun ds => .v6 (BitVec.ofNat 128 (ofDigitsBE 16 ds))
    else none
  | _ => none

/-- Four labels below `in-addr.arpa` are octets. -/
lemma readReverse_inAddr {labels : List Str} (h : labels.length = 4) :
    readReverse (labels.reverse ++ ["in-addr".toList, "arpa".toList]) =
      (labels.mapM readDecimal).map fun ds => .v4 (BitVec.ofNat 32 (ofDigitsBE 256 ds)) := by
  have hdomain : ["in-addr".toList, "arpa".toList].reverse = ["arpa".toList, "in-addr".toList] := rfl
  unfold readReverse
  rw [List.reverse_append, List.reverse_reverse, hdomain, List.cons_append, List.cons_append, List.nil_append]
  dsimp only
  rw [if_neg (by simp), if_pos ⟨rfl, h⟩]

/-- 32 labels below `ip6.arpa` are nibbles. -/
lemma readReverse_ip6 {labels : List Str} (h : labels.length = 32) :
    readReverse (labels.reverse ++ ["ip6".toList, "arpa".toList]) =
      (labels.mapM readNibble).map fun ds => .v6 (BitVec.ofNat 128 (ofDigitsBE 16 ds)) := by
  have hdomain : ["ip6".toList, "arpa".toList].reverse = ["arpa".toList, "ip6".toList] := rfl
  unfold readReverse
  rw [List.reverse_append, List.reverse_reverse, hdomain, List.cons_append, List.cons_append, List.nil_append]
  dsimp only
  rw [if_neg (by simp), if_neg (by rw [h]; simp), if_pos ⟨rfl, h⟩]

/-- Labels that are the texts of values are read as the values. -/
lemma mapM_map_eq_some {α β : Type} {read : β → Option α} {text : α → β} {l : List α}
    (h : ∀ a ∈ l, read (text a) = some a) : (l.map text).mapM read = some l := by
  induction l with
  | nil => rfl
  | cons a l ih =>
    obtain ⟨ha, hl⟩ := List.forall_mem_cons.mp h
    rw [List.map_cons, List.mapM_cons, ha, ih hl]
    rfl

/-- Octets are read as they are printed. -/
lemma readDecimal_fmtOctet : ∀ n < 256, readDecimal (fmtOctet n) = some n := by decide +kernel

/-- Nibbles are read as they are printed. -/
lemma readNibble_digitChar : ∀ d < 16, readNibble [d.digitChar] = some d := by decide

/-! ## Labels of reverse names -/

/-- The parts before a dot each, and those of the rest. -/
lemma split_flatMap {α : Type} {text : α → Str} {l : List α} (h : ∀ a ∈ l, '.' ∉ text a) (tail : Str) :
    split '.' ((l.flatMap fun a => text a ++ ['.']) ++ tail) = l.map text ++ split '.' tail := by
  induction l with
  | nil => rfl
  | cons a l ih =>
    obtain ⟨ha, hl⟩ := List.forall_mem_cons.mp h
    rw [List.flatMap_cons, List.append_assoc, List.append_assoc, List.singleton_append]
    rw [split_append_cons, split_eq_singleton ha, ih hl, List.map_cons, List.cons_append]
    rfl

/-- The nibbles of an IPv6 address, the highest one first. -/
def nibbles (a : Ipv6Addr) : List ℕ :=
  (digitsBE 256 16 a.toNat).flatMap fun b => [b / 16, b % 16]

/-- There are 32 nibbles. -/
lemma length_nibbles (a : Ipv6Addr) : (nibbles a).length = 32 := by
  unfold nibbles
  rw [List.length_flatMap]
  simp

/-- Each nibble is a hexadecimal digit. -/
lemma lt_of_mem_nibbles {a : Ipv6Addr} {d : ℕ} (h : d ∈ nibbles a) : d < 16 := by
  obtain ⟨b, hb, hd⟩ := List.mem_flatMap.mp h
  have hlt : b < 256 := lt_of_mem_digitsBE (by decide) hb
  simp only [List.mem_cons, List.not_mem_nil, or_false] at hd
  omega

/-- Two hexadecimal digits for each octet denote the same number. -/
lemma ofDigitsBE_nibbles (bs : List ℕ) :
    ofDigitsBE 16 (bs.flatMap fun b => [b / 16, b % 16]) = ofDigitsBE 256 bs := by
  unfold ofDigitsBE
  rw [List.foldl_flatMap]
  congr
  funext acc b
  simp only [List.foldl_cons, List.foldl_nil]
  omega

/-- The labels of the reverse name of an IPv4 address. -/
lemma split_reverseName_v4 (a : Ipv4Addr) :
    split '.' (reverseName (.v4 a)) =
      (octets a).reverse.map fmtOctet ++ ["in-addr".toList, "arpa".toList] := by
  unfold reverseName
  have hdots : ∀ n ∈ (octets a).reverse, '.' ∉ fmtOctet n := by
    intro n hn
    have hlt : n < 256 := lt_of_mem_digitsBE (by decide) (List.mem_reverse.mp hn)
    exact notMem_of_safe fun c hc => isSafeChar_of_mem_fmtOctet hlt hc
  rw [split_flatMap hdots]
  rfl

/-- The labels of the reverse name of an IPv6 address. -/
lemma split_reverseName_v6 (a : Ipv6Addr) :
    split '.' (reverseName (.v6 a)) =
      (nibbles a).reverse.map (fun d => [d.digitChar]) ++ ["ip6".toList, "arpa".toList] := by
  have htext : reverseName (.v6 a) =
      ((nibbles a).reverse.flatMap fun d => [d.digitChar] ++ ['.']) ++ "ip6.arpa".toList := by
    unfold reverseName nibbles
    refine congrArg (· ++ "ip6.arpa".toList) ?_
    rw [List.reverse_flatMap, List.flatMap_assoc]
    refine List.flatMap_congr fun b hb => ?_
    have hlt : b < 256 := lt_of_mem_digitsBE (by decide) (List.mem_reverse.mp hb)
    rw [nibbles_eq hlt]
    rfl
  have hdots : ∀ d ∈ (nibbles a).reverse, '.' ∉ [d.digitChar] := by
    intro d hd
    refine notMem_of_safe fun c hc => ?_
    rw [List.mem_singleton.mp hc]
    exact isSafeChar_digitChar d (lt_of_mem_nibbles (List.mem_reverse.mp hd))
  rw [htext, split_flatMap hdots]
  rfl

/-- Reverse names are read back as their addresses, so different addresses have different ones; and those of
IPv6 addresses have 32 labels of one hexadecimal digit before their domain. -/
theorem reverseName_spec :
    (∀ ip, readReverse (split '.' (reverseName ip)) = some ip) ∧ Function.Injective reverseName ∧
      ∀ a : Ipv6Addr, ∃ labels, split '.' (reverseName (.v6 a)) = labels ++ ["ip6".toList, "arpa".toList] ∧
        labels.length = 32 ∧ ∀ label ∈ labels, ∃ d < 16, label = [d.digitChar] := by
  have hread : ∀ ip, readReverse (split '.' (reverseName ip)) = some ip := by
    intro ip
    cases ip with
    | v4 a =>
      have hlength : ((octets a).map fmtOctet).length = 4 := by
        rw [List.length_map]
        exact length_digitsBE 256 4 a.toNat
      have hoctets : ((octets a).map fmtOctet).mapM readDecimal = some (octets a) :=
        mapM_map_eq_some fun n hn => readDecimal_fmtOctet n (lt_of_mem_digitsBE (by decide) hn)
      rw [split_reverseName_v4, List.map_reverse, readReverse_inAddr hlength, hoctets, Option.map_some]
      unfold octets
      rw [ofDigitsBE_digitsBE]
      have hlt : a.toNat < 256 ^ 4 := a.isLt
      rw [Nat.mod_eq_of_lt hlt, BitVec.ofNat_toNat, BitVec.setWidth_eq]
    | v6 a =>
      have hlength : ((nibbles a).map fun d => [d.digitChar]).length = 32 := by
        rw [List.length_map, length_nibbles]
      have hnibbles : ((nibbles a).map fun d => [d.digitChar]).mapM readNibble = some (nibbles a) :=
        mapM_map_eq_some fun d hd => readNibble_digitChar d (lt_of_mem_nibbles hd)
      rw [split_reverseName_v6, List.map_reverse, readReverse_ip6 hlength, hnibbles, Option.map_some]
      unfold nibbles
      rw [ofDigitsBE_nibbles, ofDigitsBE_digitsBE]
      have hlt : a.toNat < 256 ^ 16 := a.isLt
      rw [Nat.mod_eq_of_lt hlt, BitVec.ofNat_toNat, BitVec.setWidth_eq]
  refine ⟨hread, ?_, ?_⟩
  · intro ip ip' hsame
    have hip := hread ip
    rw [hsame, hread ip'] at hip
    exact (Option.some.inj hip).symm
  · intro a
    refine ⟨_, split_reverseName_v6 a, ?_, ?_⟩
    · rw [List.length_map, List.length_reverse, length_nibbles]
    · intro label hlabel
      obtain ⟨d, hd, rfl⟩ := List.mem_map.mp hlabel
      exact ⟨d, lt_of_mem_nibbles (List.mem_reverse.mp hd), rfl⟩

end Nomina
