import Mathlib.Data.Finset.Card
import Nomina.Lib.Bytes
import Nomina.Dns.Resolve

/-!
# Multicast DNS

`dns/mdns.rs`: the registry of the hosts that were heard of, and the questions that a heard message leads
to.

An address is fresh for a host when it was heard for it less than its lifetime ago. The registry keeps one
expiry for all addresses of a host, that of the last one heard, so it shows the fresh addresses exactly
where those of each host are fresh or stale together: `showsFresh_iff`.
-/

namespace Nomina

open Lib

/-! ## The registry -/

/-- `MdnsRegistry::insert`, at the time `now`. -/
def MdnsRegistry.insert (m : MdnsRegistry) (host : Str) (ip : IpAddr) (ttl now : ℕ) : MdnsRegistry :=
  let key := toAsciiLowercase host
  let ips := ((m.hosts.lookup key).map Prod.fst).getD []
  ⟨m.hosts.filter (fun e => e.1 != key) ++ [(key, if ips.contains ip then ips else ips ++ [ip], now + ttl)]⟩

/-- `MdnsRegistry::clear`. -/
def MdnsRegistry.clear (_ : MdnsRegistry) : MdnsRegistry :=
  ⟨[]⟩

/-- A call on the registry. -/
inductive RegistryCall
  | insert (host : Str) (ip : IpAddr) (ttl : ℕ)
  | lookup (host : Str) (rtype : RecordType)
  | reverse (ip : IpAddr)
  | clear

/-- The registry after a call at the time `now`. -/
def MdnsRegistry.call (m : MdnsRegistry) (now : ℕ) : RegistryCall → MdnsRegistry
  | .insert host ip ttl => m.insert host ip ttl now
  | .lookup _ _ => m
  | .reverse _ => m
  | .clear => m.clear

/-- The registry after calls at their times, from an empty one on. -/
def MdnsRegistry.after (calls : List (ℕ × RegistryCall)) : MdnsRegistry :=
  calls.foldl (fun m c => m.call c.1 c.2) ⟨[]⟩

/-! ## What was heard -/

/-- An address that was heard for a host. -/
structure Announcement where
  time : ℕ
  host : Str
  ip : IpAddr
  ttl : ℕ

/-- What was heard since the last clear, after one more call. The last is the first of the list. -/
def heardBy (heard : List Announcement) (c : ℕ × RegistryCall) : List Announcement :=
  match c.2 with
  | .insert host ip ttl => ⟨c.1, toAsciiLowercase host, ip, ttl⟩ :: heard
  | .lookup _ _ => heard
  | .reverse _ => heard
  | .clear => []

/-- What was heard since the last clear. -/
def sinceClear (calls : List (ℕ × RegistryCall)) : List Announcement :=
  calls.foldl heardBy []

/-- The address was heard for the host since the last clear. -/
def Announced (calls : List (ℕ × RegistryCall)) (host : Str) (ip : IpAddr) : Prop :=
  ∃ a ∈ sinceClear calls, a.host = toAsciiLowercase host ∧ a.ip = ip

/-- The address was heard for the host since the last clear, the last time less than its lifetime ago. -/
def Fresh (calls : List (ℕ × RegistryCall)) (now : ℕ) (host : Str) (ip : IpAddr) : Prop :=
  ∃ a, (sinceClear calls).find? (fun a => a.host == toAsciiLowercase host && a.ip == ip) = some a ∧
    now < a.time + a.ttl

/-- The family that is asked for by a type. -/
def inFamily (rtype : RecordType) (ip : IpAddr) : Bool :=
  match rtype with
  | .A => isIpv4 ip
  | .AAAA => !isIpv4 ip
  | _ => true

/-- The registry shows the fresh addresses: a lookup gives those of the host and of the family, each once,
and a reverse lookup finds only a host for which the address is fresh, in whatever order the hosts are
iterated. -/
def ShowsFresh (calls : List (ℕ × RegistryCall)) (now : ℕ) : Prop :=
  (∀ host rtype, ((MdnsRegistry.after calls).lookup host rtype now).Nodup ∧
      ∀ ip, ip ∈ (MdnsRegistry.after calls).lookup host rtype now ↔
        inFamily rtype ip = true ∧ Fresh calls now host ip) ∧
    ∀ hosts, hosts.Perm (MdnsRegistry.after calls).hosts → ∀ ip host,
      (MdnsRegistry.mk hosts).reverse ip now = some host → Fresh calls now host ip

/-! ## What the registry keeps of it -/

/-- The last address that was heard for a host is in its lifetime. -/
def HostFresh (heard : List Announcement) (now : ℕ) (key : Str) : Prop :=
  ∃ a, heard.find? (fun a => a.host == key) = some a ∧ now < a.time + a.ttl

/-- An entry has the addresses that were heard for its host, each once, and the expiry of the last one. -/
structure IsEntry (heard : List Announcement) (e : Str × List IpAddr × ℕ) : Prop where
  nodup : e.2.1.Nodup
  mem : ∀ ip, ip ∈ e.2.1 ↔ ∃ a ∈ heard, a.host = e.1 ∧ a.ip = ip
  expiry : ∃ a, heard.find? (fun a => a.host == e.1) = some a ∧ e.2.2 = a.time + a.ttl

/-- The registry has one entry for each host that was heard of. -/
structure Reflects (heard : List Announcement) (m : MdnsRegistry) : Prop where
  keys : (m.hosts.map Prod.fst).Nodup
  entries : ∀ e ∈ m.hosts, IsEntry heard e
  complete : ∀ a ∈ heard, a.host ∈ m.hosts.map Prod.fst

/-- Where the keys differ, a lookup finds the entry of a key. -/
lemma lookup_eq_some_of_nodup {κ ν : Type*} [BEq κ] [LawfulBEq κ] {l : List (κ × ν)}
    (h : (l.map Prod.fst).Nodup) {k : κ} {v : ν} : l.lookup k = some v ↔ (k, v) ∈ l := by
  induction l with
  | nil => simp
  | cons e l ih =>
    obtain ⟨hnotMem, hrest⟩ := List.nodup_cons.mp h
    by_cases hk : k = e.1
    · subst hk
      have hother : (e.1, v) ∉ l := fun hv => hnotMem (List.mem_map.mpr ⟨_, hv, rfl⟩)
      rw [List.lookup_cons, beq_self_eq_true, List.mem_cons]
      simp only [Option.some.injEq, hother, or_false, Prod.ext_iff, true_and]
      exact eq_comm
    · have hne : (k, v) ≠ e := fun he => hk (congrArg Prod.fst he)
      rw [List.lookup_cons, beq_eq_false_iff_ne.mpr hk, List.mem_cons, or_iff_right hne]
      exact ih hrest

/-- The addresses of a host are those that were heard for it, each once. -/
lemma Reflects.ips {heard : List Announcement} {m : MdnsRegistry} (h : Reflects heard m) (key : Str) :
    (((m.hosts.lookup key).map Prod.fst).getD []).Nodup ∧
      ∀ ip, ip ∈ ((m.hosts.lookup key).map Prod.fst).getD [] ↔ ∃ a ∈ heard, a.host = key ∧ a.ip = ip := by
  cases hlookup : m.hosts.lookup key with
  | some v =>
    have hentry := h.entries _ ((lookup_eq_some_of_nodup h.keys).mp hlookup)
    exact ⟨hentry.nodup, hentry.mem⟩
  | none =>
    refine ⟨List.nodup_nil, fun ip => iff_of_false List.not_mem_nil ?_⟩
    rintro ⟨a, ha, rfl, -⟩
    obtain ⟨e, he, hkey⟩ := List.mem_map.mp (h.complete a ha)
    have hfound := (lookup_eq_some_of_nodup h.keys).mpr he
    rw [hkey, hlookup] at hfound
    cases hfound

/-- An entry stays as it is when another host is heard of. -/
lemma IsEntry.cons {heard : List Announcement} {e : Str × List IpAddr × ℕ} (h : IsEntry heard e)
    {a : Announcement} (ha : e.1 ≠ a.host) : IsEntry (a :: heard) e := by
  obtain ⟨b, hb, hexpiry⟩ := h.expiry
  refine ⟨h.nodup, fun ip => ?_, b, ?_, hexpiry⟩
  · rw [h.mem]
    simp [ha.symm]
  · rwa [List.find?_cons_of_neg (by simpa using ha.symm)]

/-- An address takes its place among others, if it has none. -/
lemma mem_added {ips : List IpAddr} {ip ip' : IpAddr} :
    ip' ∈ (if ips.contains ip then ips else ips ++ [ip]) ↔ ip' = ip ∨ ip' ∈ ips := by
  split
  · rename_i hip
    rw [List.contains_iff_mem] at hip
    exact ⟨.inr, fun h => h.elim (fun heq => heq ▸ hip) id⟩
  · rw [List.mem_append, List.mem_singleton]
    exact or_comm

lemma nodup_added {ips : List IpAddr} (h : ips.Nodup) (ip : IpAddr) :
    (if ips.contains ip then ips else ips ++ [ip]).Nodup := by
  split
  · exact h
  · rename_i hip
    rw [List.contains_iff_mem] at hip
    exact List.nodup_append.mpr ⟨h, List.nodup_singleton ip, fun a ha b hb hab => by
      rw [List.mem_singleton] at hb
      exact hip (hb ▸ hab ▸ ha)⟩

/-- An address that is heard for a host takes its place in the entry of the host, and the entries of the
others stay as they are. -/
lemma Reflects.insert {heard : List Announcement} {m : MdnsRegistry} (h : Reflects heard m) (host : Str)
    (ip : IpAddr) (ttl now : ℕ) :
    Reflects (⟨now, toAsciiLowercase host, ip, ttl⟩ :: heard) (m.insert host ip ttl now) := by
  obtain ⟨hnodup, hmem⟩ := h.ips (toAsciiLowercase host)
  unfold MdnsRegistry.insert
  dsimp only
  generalize toAsciiLowercase host = key at *
  generalize ((m.hosts.lookup key).map Prod.fst).getD [] = ips at *
  refine ⟨?_, fun e he => ?_, fun a ha => ?_⟩
  · rw [List.map_append, List.nodup_append]
    refine ⟨h.keys.sublist (List.filter_sublist.map Prod.fst), List.nodup_singleton _, ?_⟩
    rintro k hk _ hkey rfl
    obtain ⟨e, he, rfl⟩ := List.mem_map.mp hk
    rw [List.map_singleton, List.mem_singleton] at hkey
    simp [hkey] at he
  · rcases List.mem_append.mp he with he | he
    · obtain ⟨hold, hkey⟩ := List.mem_filter.mp he
      exact (h.entries e hold).cons (by simpa using hkey)
    · rw [List.mem_singleton] at he
      subst he
      refine ⟨nodup_added hnodup ip, fun ip' => ?_, _, List.find?_cons_of_pos (by simp), rfl⟩
      rw [mem_added, hmem, List.exists_mem_cons_iff]
      simp [eq_comm]
  · rw [List.map_append, List.mem_append]
    by_cases hkey : a.host = key
    · exact .inr (by simp [hkey])
    · have hold : a ∈ heard := (List.mem_cons.mp ha).resolve_left fun hnew => hkey (by rw [hnew])
      obtain ⟨e, he, hhost⟩ := List.mem_map.mp (h.complete a hold)
      exact .inl (List.mem_map.mpr ⟨e, List.mem_filter.mpr ⟨he, by simpa [hhost] using hkey⟩, hhost⟩)

/-- A call keeps the registry and what was heard together. -/
lemma Reflects.call {heard : List Announcement} {m : MdnsRegistry} (h : Reflects heard m)
    (c : ℕ × RegistryCall) : Reflects (heardBy heard c) (m.call c.1 c.2) := by
  obtain ⟨now, call⟩ := c
  cases call with
  | insert host ip ttl => exact h.insert host ip ttl now
  | lookup host rtype => exact h
  | reverse ip => exact h
  | clear =>
    refine ⟨List.nodup_nil, fun e he => ?_, fun a ha => ?_⟩
    · cases he
    · cases ha

/-- The registry reflects what was heard since the last clear. -/
lemma reflects_after (calls : List (ℕ × RegistryCall)) :
    Reflects (sinceClear calls) (MdnsRegistry.after calls) := by
  induction calls using List.reverseRecOn with
  | nil =>
    refine ⟨List.nodup_nil, fun e he => ?_, fun a ha => ?_⟩
    · cases he
    · cases ha
  | append_singleton calls c ih =>
    unfold sinceClear MdnsRegistry.after
    rw [List.foldl_concat, List.foldl_concat]
    exact ih.call c

/-! ## What the registry shows -/

section

variable {calls : List (ℕ × RegistryCall)} {now : ℕ}

/-- A lookup gives the addresses that were heard for the host, as long as the last of them is in its
lifetime. -/
lemma mem_lookup {host : Str} {rtype : RecordType} {ip : IpAddr} :
    ip ∈ (MdnsRegistry.after calls).lookup host rtype now ↔ inFamily rtype ip = true ∧
      Announced calls host ip ∧ HostFresh (sinceClear calls) now (toAsciiLowercase host) := by
  have h := reflects_after calls
  unfold MdnsRegistry.lookup
  cases hlookup : (MdnsRegistry.after calls).hosts.lookup (toAsciiLowercase host) with
  | none =>
    have hips := (h.ips (toAsciiLowercase host)).2 ip
    rw [hlookup] at hips
    exact iff_of_false List.not_mem_nil fun hip => List.not_mem_nil (hips.mpr hip.2.1)
  | some v =>
    obtain ⟨ips, expires⟩ := v
    have hentry := h.entries _ ((lookup_eq_some_of_nodup h.keys).mp hlookup)
    obtain ⟨a, ha, hexpiry⟩ := hentry.expiry
    have hfresh : HostFresh (sinceClear calls) now (toAsciiLowercase host) ↔ now < expires := by
      unfold HostFresh
      rw [ha]
      have hexpires : expires = a.time + a.ttl := hexpiry
      simp only [Option.some.injEq, exists_eq_left']
      rw [hexpires]
    rw [hfresh]
    dsimp only
    split
    · rename_i hnow
      rw [and_iff_left hnow, and_comm]
      exact List.mem_filter.trans (and_congr_left' (hentry.mem ip))
    · rename_i hnow
      exact iff_of_false List.not_mem_nil fun hip => hnow hip.2.2

/-- A lookup gives an address once. -/
lemma nodup_lookup (host : Str) (rtype : RecordType) :
    ((MdnsRegistry.after calls).lookup host rtype now).Nodup := by
  have h := (reflects_after calls).ips (toAsciiLowercase host)
  unfold MdnsRegistry.lookup
  cases hlookup : (MdnsRegistry.after calls).hosts.lookup (toAsciiLowercase host) with
  | none => exact List.nodup_nil
  | some v =>
    rw [hlookup] at h
    dsimp only
    split
    · exact h.1.filter _
    · exact List.nodup_nil

/-- The hosts that were heard of are folded. -/
lemma folded_of_mem_sinceClear {a : Announcement} (h : a ∈ sinceClear calls) :
    toAsciiLowercase a.host = a.host := by
  induction calls using List.reverseRecOn with
  | nil => cases h
  | append_singleton calls c ih =>
    unfold sinceClear at h ih
    rw [List.foldl_concat] at h
    obtain ⟨time, call⟩ := c
    cases call with
    | insert host ip ttl =>
      rcases List.mem_cons.mp h with rfl | h
      · exact toAsciiLowercase_idem host
      · exact ih h
    | lookup host rtype => exact ih h
    | reverse ip => exact ih h
    | clear => cases h

/-- A host that a reverse lookup finds had the address announced, and the last of its addresses is in its
lifetime. -/
lemma of_reverse {hosts : List (Str × List IpAddr × ℕ)}
    (hperm : hosts.Perm (MdnsRegistry.after calls).hosts) {ip : IpAddr} {host : Str}
    (h : (MdnsRegistry.mk hosts).reverse ip now = some host) :
    Announced calls host ip ∧ HostFresh (sinceClear calls) now (toAsciiLowercase host) := by
  obtain ⟨e, he, rfl⟩ := Option.map_eq_some_iff.mp h
  have hentry := (reflects_after calls).entries e (hperm.mem_iff.mp (List.mem_of_find?_eq_some he))
  have hfound := List.find?_some he
  obtain ⟨hnow, hip⟩ := Bool.and_eq_true_iff.mp hfound
  obtain ⟨a, ha, hhost, rfl⟩ := (hentry.mem ip).mp (List.contains_iff_mem.mp hip)
  have hfolded : toAsciiLowercase e.1 = e.1 := hhost ▸ folded_of_mem_sinceClear ha
  obtain ⟨b, hb, hexpiry⟩ := hentry.expiry
  rw [decide_eq_true_eq, hexpiry] at hnow
  refine ⟨⟨a, ha, hhost.trans hfolded.symm, rfl⟩, b, ?_, hnow⟩
  rw [hfolded]
  exact hb

/-- The last address that was heard for a host was last heard then. -/
lemma find?_last {heard : List Announcement} {key : Str} {a : Announcement}
    (h : heard.find? (fun a => a.host == key) = some a) :
    heard.find? (fun b => b.host == key && b.ip == a.ip) = some a := by
  induction heard with
  | nil => cases h
  | cons b heard ih =>
    by_cases hb : b.host = key
    · rw [List.find?_cons_of_pos (by simpa using hb)] at h
      cases h
      exact List.find?_cons_of_pos (by simp [hb])
    · rw [List.find?_cons_of_neg (by simpa using hb)] at h
      rw [List.find?_cons_of_neg (by simp [hb])]
      exact ih h

/-- A host whose last address is in its lifetime has a fresh address. -/
lemma exists_fresh {host : Str} (h : HostFresh (sinceClear calls) now (toAsciiLowercase host)) :
    ∃ ip, Announced calls host ip ∧ Fresh calls now host ip := by
  obtain ⟨a, ha, hnow⟩ := h
  have hhost : a.host = toAsciiLowercase host := by simpa using List.find?_some ha
  exact ⟨a.ip, ⟨a, List.mem_of_find?_eq_some ha, hhost, rfl⟩, a, find?_last ha, hnow⟩

lemma Fresh.announced {host : Str} {ip : IpAddr} (h : Fresh calls now host ip) : Announced calls host ip := by
  obtain ⟨a, ha, -⟩ := h
  have hfound := List.find?_some ha
  rw [Bool.and_eq_true, beq_iff_eq, beq_iff_eq] at hfound
  exact ⟨a, List.mem_of_find?_eq_some ha, hfound⟩

/-- Where the addresses of each host are fresh or stale together, an address is fresh exactly when the last
one of its host is in its lifetime. -/
lemma fresh_iff_of_together
    (htogether : ∀ host ip ip', Announced calls host ip → Announced calls host ip' →
      Fresh calls now host ip → Fresh calls now host ip') {host : Str} {ip : IpAddr} :
    Fresh calls now host ip ↔
      Announced calls host ip ∧ HostFresh (sinceClear calls) now (toAsciiLowercase host) := by
  constructor
  · intro h
    obtain ⟨b, hb, hhost, -⟩ := h.announced
    obtain ⟨a, ha⟩ := Option.isSome_iff_exists.mp (List.find?_isSome.mpr ⟨b, hb, by simpa using hhost⟩ :
      ((sinceClear calls).find? fun a => a.host == toAsciiLowercase host).isSome)
    have hlast : Announced calls host a.ip :=
      ⟨a, List.mem_of_find?_eq_some ha, by simpa using List.find?_some ha, rfl⟩
    obtain ⟨c, hc, hnow⟩ := htogether host ip a.ip h.announced hlast h
    rw [find?_last ha] at hc
    cases hc
    exact ⟨h.announced, a, ha, hnow⟩
  · rintro ⟨hannounced, hhost⟩
    obtain ⟨ip', hannounced', hfresh⟩ := exists_fresh hhost
    exact htogether host ip' ip hannounced' hannounced hfresh

end

/-- At any time after any calls, the registry shows the fresh addresses exactly when no host has both a
fresh and a stale address. -/
theorem showsFresh_iff (calls : List (ℕ × RegistryCall)) (now : ℕ) :
    ShowsFresh calls now ↔ ∀ host ip ip', Announced calls host ip → Announced calls host ip' →
      Fresh calls now host ip → Fresh calls now host ip' := by
  constructor
  · rintro ⟨hlookup, -⟩ host ip ip' - hannounced' hfresh
    have hshown := ((hlookup host .ANY).2 ip).mpr ⟨rfl, hfresh⟩
    have hhost := (mem_lookup.mp hshown).2.2
    exact (((hlookup host .ANY).2 ip').mp (mem_lookup.mpr ⟨rfl, hannounced', hhost⟩)).2
  · intro htogether
    refine ⟨fun host rtype => ⟨nodup_lookup host rtype, fun ip => ?_⟩, fun hosts hperm ip host h => ?_⟩
    · rw [mem_lookup, fresh_iff_of_together htogether]
    · exact (fresh_iff_of_together htogether).mpr (of_reverse hperm h)

/-- A host that is heard of with an address after the lifetime of another one. -/
def revivedCalls : List (ℕ × RegistryCall) :=
  [(0, .insert "nas" (.v4 0x0a000009) 60), (99, .lookup "nas" .A), (100, .insert "NAS" (.v4 0x0a00000a) 60)]

/-- An address that was no longer shown is shown again when its host is heard of with another one. -/
theorem revived_shown :
    (MdnsRegistry.after (revivedCalls.take 1)).lookup "nas" .A 99 = [] ∧
      (MdnsRegistry.after revivedCalls).lookup "nas" .A 101 = [.v4 0x0a000009, .v4 0x0a00000a] ∧
      ¬ShowsFresh revivedCalls 101 := by
  refine ⟨by decide, by decide, ?_⟩
  rintro ⟨hlookup, -⟩
  obtain ⟨a, ha, hnow⟩ := (((hlookup "nas" .A).2 (.v4 0x0a000009)).mp (by decide)).2
  have hfirst : (sinceClear revivedCalls).find?
      (fun a => a.host == toAsciiLowercase "nas".toList && a.ip == .v4 0x0a000009) =
        some ⟨0, "nas".toList, .v4 0x0a000009, 60⟩ := rfl
  rw [hfirst] at ha
  cases ha
  exact absurd hnow (by decide)

/-! ## Messages -/

/-- What is read of a `Message`. -/
structure Message where
  queries : List (Name × RecordType)
  answers : List Record
  additionals : List Record

/-- The records of a message that are looked at. -/
def Message.records (msg : Message) : List Record :=
  msg.answers ++ msg.additionals

/-- What the listener needs of hickory: the parser of messages, and the target of SRV data, by its text. -/
structure MdnsCrates extends Crates where
  fromVec : Bytes → Except Str Message
  srvTarget : Str → Name

variable (X : MdnsCrates)

/-- The label of a name directly under `local`, with its dots at the end. -/
def localLabel (name : Name) : Option Str :=
  stripSuffix (nameKey X.toCrates name) ".local".toList

/-- The host and the address of a record, as `hosts_from_message` takes them. -/
def hostOf (r : Record) : Option (Str × IpAddr) :=
  match (localLabel X r.name).map (trimEndMatches '.') with
  | none => none
  | some label =>
    if label.isEmpty || label.contains '.' then none
    else
      match r.data with
      | .a ip => some (label, .v4 ip)
      | .aaaa ip => some (label, .v6 ip)
      | _ => none

/-- `hosts_from_message`. -/
def hostsFromMessage (msg : Message) : List (Str × IpAddr) :=
  msg.records.filterMap (hostOf X)

/-- `is_lan_addr`. -/
def isLanAddr : IpAddr → Bool
  | .v4 ip =>
    let a := ip.toNat / 2 ^ 24
    let b := ip.toNat / 2 ^ 16 % 256
    a == 10 || (a == 172 && 16 ≤ b && b ≤ 31) || (a == 192 && b == 168) || (a == 169 && b == 254) || a == 127
  | .v6 ip => ip.toNat == 1 || ip.toNat / 2 ^ 121 == 0x7e || ip.toNat / 2 ^ 118 == 0x3fa

/-! ## Follow-up questions -/

/-- `SERVICES_META`. -/
def servicesMeta : Str :=
  "_services._dns-sd._udp.local."

/-- `QUERIED_CAP`. -/
def queriedCap : ℕ := 4096

/-- `is_flat_local`. -/
def isFlatLocal (name : Name) : Bool :=
  match localLabel X name with
  | some label => !label.isEmpty && !label.contains '.'
  | none => false

/-- The name of a question in lowercase, and its type. -/
def foldedQuestion (q : Name × RecordType) : Str × RecordType :=
  (toAsciiLowercase (q.1.toText X.toCrates), q.2)

/-- The key of a question in the set of the questions that were asked. -/
def queriedKey (q : Name × RecordType) : Str :=
  (foldedQuestion X q).1 ++ '|' :: (foldedQuestion X q).2.toText

/-- The questions that a record leads to. -/
def recordWants (r : Record) : List (Name × RecordType) :=
  match r.data with
  | .ptr target => [(target, if nameKey X.toCrates r.name == trimEndMatches '.' servicesMeta then .PTR else .SRV)]
  | .other .SRV text => [(X.srvTarget text, .A), (X.srvTarget text, .AAAA)]
  | _ => []

/-- The questions that a question of another client leads to. -/
def questionWants (q : Name × RecordType) : List (Name × RecordType) :=
  if q.2 = .A ∨ q.2 = .AAAA ∨ q.2 = .ANY then
    if isFlatLocal X q.1 then [(q.1, .A), (q.1, .AAAA)] else []
  else []

/-- `want`: a question that was not asked and for which there is room is asked. -/
def want (s : Finset Str × List (Name × RecordType)) (q : Name × RecordType) :
    Finset Str × List (Name × RecordType) :=
  if s.1.card < queriedCap ∧ queriedKey X q ∉ s.1 then (insert (queriedKey X q) s.1, s.2 ++ [q]) else s

/-- What a message leads to, in the order in which it is wanted. -/
def messageWants (msg : Message) : List (Name × RecordType) :=
  msg.records.flatMap (recordWants X) ++ msg.queries.flatMap (questionWants X)

/-- `follow_up_questions`: the set of the questions that were asked, and the new ones. -/
def followUpQuestions (msg : Message) (queried : Finset Str) : Finset Str × List (Name × RecordType) :=
  (messageWants X msg).foldl (want X) (queried, [])

/-! ## The listener -/

/-- What the listener keeps: the registry, which it shares, and the set of the questions that were asked. -/
structure Listener where
  registry : MdnsRegistry
  queried : Finset Str

/-- The registry after the hosts of a message at the time `now`. TTLs are in seconds, and so are the times of
the registry here. -/
def learn (settings : Settings) (now : ℕ) (msg : Message) (registry : MdnsRegistry) : MdnsRegistry :=
  (hostsFromMessage X msg).foldl (fun reg h =>
    if settings.mdnsPublishPublic || isLanAddr h.2 then reg.insert h.1 h.2 (max settings.mdnsTtl 1) now
    else reg) registry

/-- `learn_and_plan`: the listener after a message, and the questions to ask. -/
def learnAndPlan (settings : Settings) (now : ℕ) (bytes : Bytes) (l : Listener) :
    Listener × List (Name × RecordType) :=
  match X.fromVec bytes with
  | .error _ => (l, [])
  | .ok msg =>
    let (queried, out) := followUpQuestions X msg l.queried
    (⟨learn X settings now msg l.registry, queried⟩, out)

/-- What happens between two clears of the set: a message is received, under the settings of its time, or
the registry is cleared. -/
inductive ListenerEvent
  | received (settings : Settings) (now : ℕ) (bytes : Bytes)
  | registryCleared

/-- The listener after an event, and the questions to ask. -/
def Listener.step (l : Listener) : ListenerEvent → Listener × List (Name × RecordType)
  | .received settings now bytes => learnAndPlan X settings now bytes l
  | .registryCleared => ({ l with registry := l.registry.clear }, [])

/-- The questions of a sequence of events, one after the other. -/
def Listener.asked (l : Listener) : List ListenerEvent → List (Name × RecordType)
  | [] => []
  | e :: events => (l.step X e).2 ++ Listener.asked (l.step X e).1 events

/-! ## What is asked -/

/-- A record or a question of the message leads to the question: the target of a PTR record, which is
browsed when the record enumerates the services and else resolved, the target of an SRV record, or a flat
name under `local` whose address was asked for. -/
inductive Justifies (msg : Message) : Name × RecordType → Prop
  | enumerated {r : Record} {target : Name} : r ∈ msg.records → r.data = .ptr target →
      nameKey X.toCrates r.name = trimEndMatches '.' servicesMeta → Justifies msg (target, .PTR)
  | browsed {r : Record} {target : Name} : r ∈ msg.records → r.data = .ptr target →
      nameKey X.toCrates r.name ≠ trimEndMatches '.' servicesMeta → Justifies msg (target, .SRV)
  | located {r : Record} {text : Str} {t : RecordType} : r ∈ msg.records → r.data = .other .SRV text →
      t = .A ∨ t = .AAAA → Justifies msg (X.srvTarget text, t)
  | overheard {name : Name} {t t' : RecordType} : (name, t) ∈ msg.queries →
      t = .A ∨ t = .AAAA ∨ t = .ANY → isFlatLocal X name = true → t' = .A ∨ t' = .AAAA →
      Justifies msg (name, t')

/-- What was asked makes up the set, with one key each. -/
structure Tracks (queried : Finset Str) (asked : List (Name × RecordType)) : Prop where
  nodup : (asked.map (queriedKey X)).Nodup
  keys : (asked.map (queriedKey X)).toFinset = queried
  capped : queried.card ≤ queriedCap

variable {X}

/-- Where the keys differ, so do the questions. -/
lemma Tracks.foldedQuestions {queried : Finset Str} {asked : List (Name × RecordType)}
    (h : Tracks X queried asked) : (asked.map (foldedQuestion X)).Nodup := by
  have hkeys := h.nodup
  have hmap : asked.map (queriedKey X) =
      (asked.map (foldedQuestion X)).map fun q => q.1 ++ '|' :: q.2.toText := by
    rw [List.map_map]
    rfl
  rw [hmap] at hkeys
  exact hkeys.of_map _

/-- There are as many questions as keys. -/
lemma Tracks.length_le {queried : Finset Str} {asked : List (Name × RecordType)} (h : Tracks X queried asked) :
    asked.length ≤ queriedCap := by
  have hcard := List.toFinset_card_of_nodup h.nodup
  rw [h.keys, List.length_map] at hcard
  exact hcard ▸ h.capped

/-- A question that is wanted is new, or it is dropped. -/
lemma Tracks.want {s : Finset Str × List (Name × RecordType)} {before : List (Name × RecordType)}
    (h : Tracks X s.1 (before ++ s.2)) (q : Name × RecordType) :
    Tracks X (want X s q).1 (before ++ (want X s q).2) := by
  unfold Nomina.want
  split
  · rename_i hnew
    obtain ⟨hroom, hkey⟩ := hnew
    refine ⟨?_, ?_, ?_⟩
    · rw [← List.append_assoc, List.map_append, List.nodup_append]
      refine ⟨h.nodup, List.nodup_singleton _, ?_⟩
      rintro a ha b hb rfl
      rw [List.map_singleton, List.mem_singleton] at hb
      rw [← h.keys, List.mem_toFinset] at hkey
      exact hkey (hb ▸ ha)
    · rw [← List.append_assoc, List.map_append, List.toFinset_append, h.keys, List.map_singleton]
      ext key
      simp [or_comm]
    · rw [Finset.card_insert_of_notMem hkey]
      exact hroom
  · exact h

/-- The questions of a message are new. -/
lemma Tracks.foldl_want {wants : List (Name × RecordType)} {s : Finset Str × List (Name × RecordType)}
    {before : List (Name × RecordType)} (h : Tracks X s.1 (before ++ s.2)) :
    Tracks X (wants.foldl (Nomina.want X) s).1 (before ++ (wants.foldl (Nomina.want X) s).2) := by
  induction wants generalizing s with
  | nil => exact h
  | cons q wants ih => exact ih (h.want q)

/-- Only what is wanted is asked. -/
lemma mem_of_mem_foldl_want {wants : List (Name × RecordType)} {s : Finset Str × List (Name × RecordType)}
    {q : Name × RecordType} (h : q ∈ (wants.foldl (want X) s).2) : q ∈ s.2 ∨ q ∈ wants := by
  induction wants generalizing s with
  | nil => exact .inl h
  | cons p wants ih =>
    rcases ih h with h | h
    · unfold want at h
      split at h
      · rcases List.mem_append.mp h with h | h
        · exact .inl h
        · exact .inr (List.mem_singleton.mp h ▸ List.mem_cons_self)
      · exact .inl h
    · exact .inr (List.mem_cons_of_mem p h)

/-- What is wanted is justified by the message. -/
lemma justifies_of_mem_messageWants {msg : Message} {q : Name × RecordType} (h : q ∈ messageWants X msg) :
    Justifies X msg q := by
  rcases List.mem_append.mp h with h | h
  · obtain ⟨r, hr, hq⟩ := List.mem_flatMap.mp h
    unfold recordWants at hq
    split at hq
    · rename_i target hdata
      rw [List.mem_singleton] at hq
      subst hq
      by_cases howner : nameKey X.toCrates r.name = trimEndMatches '.' servicesMeta
      · rw [if_pos (beq_iff_eq.mpr howner)]
        exact .enumerated hr hdata howner
      · rw [if_neg (by simpa using howner)]
        exact .browsed hr hdata howner
    · rename_i text hdata
      rcases List.mem_cons.mp hq with rfl | hq
      · exact .located hr hdata (.inl rfl)
      · rw [List.mem_singleton] at hq
        exact hq ▸ .located hr hdata (.inr rfl)
    · cases hq
  · obtain ⟨p, hp, hq⟩ := List.mem_flatMap.mp h
    unfold questionWants at hq
    split at hq
    · rename_i htype
      split at hq
      · rename_i hflat
        rcases List.mem_cons.mp hq with rfl | hq
        · exact .overheard hp htype hflat (.inl rfl)
        · rw [List.mem_singleton] at hq
          exact hq ▸ .overheard hp htype hflat (.inr rfl)
      · cases hq
    · cases hq

/-- An event asks new questions. -/
lemma Tracks.step {l : Listener} {before : List (Name × RecordType)} (h : Tracks X l.queried before)
    (e : ListenerEvent) : Tracks X (l.step X e).1.queried (before ++ (l.step X e).2) := by
  cases e with
  | registryCleared =>
    change Tracks X l.queried (before ++ [])
    rwa [List.append_nil]
  | received settings now bytes =>
    change Tracks X (learnAndPlan X settings now bytes l).1.queried
      (before ++ (learnAndPlan X settings now bytes l).2)
    unfold learnAndPlan
    split
    · rwa [List.append_nil]
    · exact Tracks.foldl_want (s := (l.queried, [])) (by rwa [List.append_nil])

/-- A sequence of events asks new questions. -/
lemma Tracks.asked {l : Listener} {before : List (Name × RecordType)} (h : Tracks X l.queried before)
    (events : List ListenerEvent) : ∃ queried, Tracks X queried (before ++ l.asked X events) := by
  induction events generalizing l before with
  | nil => exact ⟨l.queried, by rwa [Listener.asked, List.append_nil]⟩
  | cons e events ih =>
    rw [Listener.asked, ← List.append_assoc]
    exact ih (h.step e)

/-- A message of the sequence justifies a question. -/
lemma justified_of_mem_asked {l : Listener} {events : List ListenerEvent} {q : Name × RecordType}
    (h : q ∈ l.asked X events) : ∃ settings now bytes msg,
      .received settings now bytes ∈ events ∧ X.fromVec bytes = .ok msg ∧ Justifies X msg q := by
  induction events generalizing l with
  | nil => cases h
  | cons e events ih =>
    rcases List.mem_append.mp h with h | h
    · cases e with
      | registryCleared => cases h
      | received settings now bytes =>
        change q ∈ (learnAndPlan X settings now bytes l).2 at h
        unfold learnAndPlan at h
        split at h
        · cases h
        · rename_i msg hparse
          have hwanted := (mem_of_mem_foldl_want h).resolve_left List.not_mem_nil
          exact ⟨settings, now, bytes, msg, List.mem_cons_self, hparse, justifies_of_mem_messageWants hwanted⟩
    · obtain ⟨settings, now, bytes, msg, hmem, hmsg⟩ := ih h
      exact ⟨settings, now, bytes, msg, List.mem_cons_of_mem e hmem, hmsg⟩

/-- Between two clears of the set, whatever is received, the questions differ in their names in lowercase or
in their types, there are 4096 of them at most, and a message that was received justifies each. -/
theorem asked_spec (X : MdnsCrates) (registry : MdnsRegistry) (events : List ListenerEvent) :
    (((Listener.mk registry ∅).asked X events).map (foldedQuestion X)).Nodup ∧
      ((Listener.mk registry ∅).asked X events).length ≤ 4096 ∧
      ∀ q ∈ (Listener.mk registry ∅).asked X events, ∃ settings now bytes msg,
        .received settings now bytes ∈ events ∧ X.fromVec bytes = .ok msg ∧ Justifies X msg q := by
  have hstart : Tracks X (∅ : Finset Str) [] := ⟨List.nodup_nil, rfl, Nat.zero_le _⟩
  obtain ⟨queried, htracks⟩ := Tracks.asked (l := Listener.mk registry ∅) hstart events
  exact ⟨htracks.foldedQuestions, htracks.length_le, fun q hq => justified_of_mem_asked hq⟩

end Nomina
