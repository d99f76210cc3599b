import Mathlib.Data.List.Count
import Nomina.Stats

/-!
# The rate of queries

The series of `stats.rs` keeps the counts of the last 300 seconds in a ring, which is cleared as the seconds
go by. Here it is run with the checks that the program makes, of every subtraction and of every index, and
compared with the log of all seconds at which a query was counted: what is returned for the last minute is
what the log says, whatever the gaps.
-/

namespace Nomina

open Lib

/-- Seconds that are returned for the chart. -/
abbrev seriesOutput : ℕ := 60

/-- `buckets[i] = n`: nothing where the index is out of range. -/
def setBucket (buckets : List ℕ) (i n : ℕ) : Option (List ℕ) :=
  if i < buckets.length then some (buckets.set i n) else none

namespace Series

/-- The buckets with those of the skipped seconds cleared, and nothing where the subtraction underflows or an
index is out of range. -/
def clearChecked (s : Series) (sec : ℕ) : Option (List ℕ) :=
  if sec = s.lastSec then some s.buckets
  else if sec < s.lastSec then none
  else
    (List.range' 1 (min (sec - s.lastSec) seriesWindow)).foldlM
      (fun b i => setBucket b ((s.lastSec + i) % seriesWindow) 0) s.buckets

/-- `Series::bump`, with nothing where it would panic. -/
def bumpChecked (s : Series) (sec : ℕ) : Option Series := do
  let buckets ← s.clearChecked sec
  let n ← buckets[sec % seriesWindow]?
  let buckets ← setBucket buckets (sec % seriesWindow) (n + 1)
  return ⟨buckets, sec⟩

/-- The seconds up to `now` that are returned. -/
def shown (now : ℕ) : List ℕ :=
  let start := now - (seriesOutput - 1)
  List.range' start (now + 1 - start)

/-- `Series::recent`, with nothing where an index is out of range. -/
def recent (s : Series) (now : ℕ) : Option (List ℕ) :=
  (shown now).mapM fun sec =>
    if s.lastSec < sec then some 0 else s.buckets[sec % seriesWindow]?

/-! ## The ring and the log -/

/-- The ring agrees with the log of the seconds that were counted: each second that it still covers has its
number of entries. -/
structure Follows (log : List ℕ) (s : Series) : Prop where
  length : s.buckets.length = seriesWindow
  past : ∀ sec ∈ log, sec ≤ s.lastSec
  counts : ∀ sec, sec ≤ s.lastSec → s.lastSec < sec + seriesWindow →
    s.buckets[sec % seriesWindow]? = some (log.count sec)

/-- The empty ring. -/
lemma follows_new : Follows [] new := by
  refine ⟨List.length_replicate, fun _ h => absurd h List.not_mem_nil, ?_⟩
  intro sec hle _
  obtain rfl : sec = 0 := Nat.le_zero.mp hle
  rfl

/-- The buckets after those of some seconds are cleared. -/
lemma clear_spec (buckets : List ℕ) (hlength : buckets.length = seriesWindow) (last k n : ℕ) :
    ∃ cleared, (List.range' k n).foldlM (fun b i => setBucket b ((last + i) % seriesWindow) 0) buckets =
        some cleared ∧
      (List.range' k n).foldl (fun b i => b.set ((last + i) % seriesWindow) 0) buckets = cleared ∧
      cleared.length = seriesWindow ∧
      (∀ i, k ≤ i → i < k + n → cleared[(last + i) % seriesWindow]? = some 0) ∧
      ∀ j, (∀ i, k ≤ i → i < k + n → (last + i) % seriesWindow ≠ j) → cleared[j]? = buckets[j]? := by
  induction n generalizing k buckets with
  | zero =>
    refine ⟨buckets, rfl, rfl, hlength, fun i hk hi => ?_, fun j _ => rfl⟩
    omega
  | succ n ih =>
    have hindex : (last + k) % seriesWindow < buckets.length := by
      rw [hlength]
      exact Nat.mod_lt _ (by decide)
    obtain ⟨cleared, hchecked, hplain, hlen, hzero, hkept⟩ :=
      ih (buckets.set ((last + k) % seriesWindow) 0) (by rw [List.length_set, hlength]) (k + 1)
    refine ⟨cleared, ?_, ?_, hlen, ?_, ?_⟩
    · rw [List.range'_succ, List.foldlM_cons]
      unfold setBucket at hchecked ⊢
      rw [if_pos hindex]
      exact hchecked
    · rw [List.range'_succ, List.foldl_cons, hplain]
    · intro i hk hi
      by_cases hlater : ∃ i', k + 1 ≤ i' ∧ i' < k + 1 + n ∧ (last + i') % seriesWindow = (last + i) % seriesWindow
      · obtain ⟨i', hk', hi', hmod⟩ := hlater
        rw [← hmod]
        exact hzero i' hk' hi'
      · -- It is the first one, and it is not cleared again.
        obtain rfl : i = k := by
          by_contra hne
          exact hlater ⟨i, by omega, by omega, rfl⟩
        rw [hkept _ fun i' hk' hi' hmod => hlater ⟨i', hk', hi', hmod⟩, List.getElem?_set_self hindex]
    · intro j hj
      rw [hkept j fun i hk hi => hj i (by omega) (by omega), List.getElem?_set_ne (hj k (by omega) (by omega))]

/-- The bucket of a skipped second is cleared, perhaps for one of another round. -/
lemma exists_cleared {last t sec : ℕ} (hnew : last < t) (ht : t ≤ sec) :
    ∃ i, 1 ≤ i ∧ i < 1 + min (sec - last) seriesWindow ∧ (last + i) % seriesWindow = t % seriesWindow := by
  have hlt : (t - last - 1) % 300 < 300 := Nat.mod_lt _ (by decide)
  have hle : (t - last - 1) % 300 ≤ t - last - 1 := Nat.mod_le _ _
  refine ⟨(t - last - 1) % 300 + 1, by omega, ?_, ?_⟩
  · change _ < 1 + min (sec - last) 300
    omega
  · change (last + ((t - last - 1) % 300 + 1)) % 300 = t % 300
    omega

/-- The bucket of a second that stays covered is not cleared. -/
lemma mod_ne_of_covered {last t sec i : ℕ} (ht : t ≤ last) (hcovered : sec < t + seriesWindow) (hpos : 1 ≤ i)
    (hi : i < 1 + min (sec - last) seriesWindow) : (last + i) % seriesWindow ≠ t % seriesWindow := by
  change sec < t + 300 at hcovered
  change i < 1 + min (sec - last) 300 at hi
  change (last + i) % 300 ≠ t % 300
  omega

variable {log : List ℕ} {s : Series}

/-- The buckets with the skipped seconds cleared: no index is out of range, and each second that the ring
covers then has its number of entries. -/
lemma Follows.clear (h : Follows log s) {sec : ℕ} (hle : s.lastSec ≤ sec) :
    ∃ buckets, s.clearChecked sec = some buckets ∧
      (if sec = s.lastSec then s.buckets
        else (List.range' 1 (min (sec - s.lastSec) seriesWindow)).foldl
          (fun b i => b.set ((s.lastSec + i) % seriesWindow) 0) s.buckets) = buckets ∧
      buckets.length = seriesWindow ∧
      ∀ t, t ≤ sec → sec < t + seriesWindow → buckets[t % seriesWindow]? = some (log.count t) := by
  unfold clearChecked
  by_cases hsame : sec = s.lastSec
  · rw [if_pos hsame, if_pos hsame, hsame]
    exact ⟨s.buckets, rfl, rfl, h.length, h.counts⟩
  · obtain ⟨buckets, hchecked, hplain, hlength, hzero, hkept⟩ :=
      clear_spec s.buckets h.length s.lastSec 1 (min (sec - s.lastSec) seriesWindow)
    rw [if_neg hsame, if_neg hsame, if_neg (by omega)]
    refine ⟨buckets, hchecked, hplain, hlength, fun t ht hcovered => ?_⟩
    by_cases hnew : s.lastSec < t
    · -- A second that was skipped: its bucket is one of those that are cleared, perhaps of an earlier round.
      have hnone : log.count t = 0 := List.count_eq_zero.mpr fun hmem => by
        have := h.past t hmem
        omega
      obtain ⟨i, hpos, hi, hmod⟩ := exists_cleared hnew ht
      rw [hnone, ← hmod]
      exact hzero i hpos hi
    · rw [hkept, h.counts t (by omega) (by omega)]
      exact fun i hpos hi => mod_ne_of_covered (by omega) hcovered hpos hi

/-- A count keeps the ring in agreement with the log. -/
lemma Follows.bump (h : Follows log s) {sec : ℕ} (hle : s.lastSec ≤ sec) :
    s.bumpChecked sec = some (s.bump sec) ∧ Follows (log ++ [sec]) (s.bump sec) := by
  obtain ⟨buckets, hchecked, hplain, hlength, hcounts⟩ := h.clear hle
  have hindex : sec % seriesWindow < buckets.length := by
    rw [hlength]
    exact Nat.mod_lt _ (by decide)
  have hcount : buckets[sec % seriesWindow]? = some (log.count sec) := hcounts sec le_rfl (by omega)
  have hbump : s.bump sec = ⟨buckets.set (sec % seriesWindow) (log.count sec + 1), sec⟩ := by
    unfold Series.bump
    dsimp only
    rw [hplain, List.modify_eq_set_getElem?, hcount]
    rfl
  constructor
  · unfold bumpChecked
    rw [hchecked, hbump]
    change (buckets[sec % seriesWindow]?).bind _ = _
    rw [hcount]
    change (setBucket buckets (sec % seriesWindow) (log.count sec + 1)).bind _ = _
    unfold setBucket
    rw [if_pos hindex]
    rfl
  · rw [hbump]
    refine ⟨?_, ?_, ?_⟩
    · rw [List.length_set, hlength]
    · intro t ht
      rcases List.mem_append.mp ht with ht | ht
      · exact (h.past t ht).trans hle
      · exact (List.mem_singleton.mp ht).le
    · intro t ht hcovered
      rw [List.count_append, List.count_singleton]
      by_cases hsec : t = sec
      · rw [hsec, List.getElem?_set_self hindex, beq_self_eq_true, if_pos rfl]
      · have hne : sec % seriesWindow ≠ t % seriesWindow := by
          change t ≤ sec at ht
          change sec < t + 300 at hcovered
          change sec % 300 ≠ t % 300
          omega
        rw [List.getElem?_set_ne hne, hcounts t ht hcovered, if_neg (by simpa using Ne.symm hsec), Nat.add_zero]

/-- What is read of a ring that agrees with the log. -/
lemma Follows.recent (h : Follows log s) {now : ℕ} (hle : s.lastSec ≤ now) :
    s.recent now = some ((shown now).map fun sec => log.count sec) := by
  have hread : ∀ secs : List ℕ, (∀ sec ∈ secs, now < sec + seriesWindow) →
      secs.mapM (fun sec => if s.lastSec < sec then some 0 else s.buckets[sec % seriesWindow]?) =
        some (secs.map fun sec => log.count sec) := by
    intro secs hsecs
    induction secs with
    | nil => rfl
    | cons sec secs ih =>
      obtain ⟨hsec, hrest⟩ := List.forall_mem_cons.mp hsecs
      have hvalue : (if s.lastSec < sec then some 0 else s.buckets[sec % seriesWindow]?) =
          some (log.count sec) := by
        split
        · rename_i hlater
          rw [List.count_eq_zero.mpr fun hmem => ?_]
          have := h.past sec hmem
          omega
        · exact h.counts sec (by omega) (lt_of_le_of_lt hle hsec)
      rw [List.mapM_cons, hvalue, ih hrest]
      rfl
  refine hread (shown now) fun sec hsec => ?_
  unfold shown at hsec
  obtain ⟨hstart, -⟩ := List.mem_range'_1.mp hsec
  change now - 59 ≤ sec at hstart
  change now < sec + 300
  omega

/-- Counts at seconds that do not go back keep the ring in agreement with the log. -/
lemma follows_run {secs : List ℕ} (hsorted : secs.Pairwise (· ≤ ·)) :
    secs.foldlM bumpChecked new = some (secs.foldl Series.bump new) ∧
      Follows secs (secs.foldl Series.bump new) ∧
      ∀ now, (∀ sec ∈ secs, sec ≤ now) → (secs.foldl Series.bump new).lastSec ≤ now := by
  induction secs using List.reverseRecOn with
  | nil => exact ⟨rfl, follows_new, fun now _ => Nat.zero_le now⟩
  | append_singleton secs sec ih =>
    obtain ⟨hpast, -, hlast⟩ := List.pairwise_append.mp hsorted
    obtain ⟨hchecked, hfollows, hle⟩ := ih hpast
    have hforward := hle sec fun t ht => hlast t ht sec (List.mem_singleton_self sec)
    obtain ⟨hbump, hnext⟩ := hfollows.bump hforward
    refine ⟨?_, ?_, ?_⟩
    · rw [List.foldlM_append, hchecked, List.foldl_append]
      change ([sec].foldlM bumpChecked (secs.foldl Series.bump new)) = _
      rw [List.foldlM_cons, hbump]
      rfl
    · rw [List.foldl_append]
      exact hnext
    · intro now hnow
      rw [List.foldl_append]
      exact hnow sec (List.mem_append_right _ (List.mem_singleton_self sec))

/-- After every sequence of counts at seconds that do not go back, no subtraction has underflowed and no index
was out of range, and what is returned at any later second are the numbers of counts of each second of the last
minute, in order. -/
theorem recent_spec (secs : List ℕ) (hsorted : secs.Pairwise (· ≤ ·)) (now : ℕ) (hnow : ∀ sec ∈ secs, sec ≤ now) :
    secs.foldlM bumpChecked new = some (secs.foldl Series.bump new) ∧
      (secs.foldl Series.bump new).recent now =
        some ((List.range' (now - 59) (now + 1 - (now - 59))).map fun sec => secs.count sec) := by
  obtain ⟨hchecked, hfollows, hle⟩ := follows_run hsorted
  exact ⟨hchecked, hfollows.recent (hle now hnow)⟩

/-- Counts before and after a gap of more than 300 seconds. -/
theorem recent_gap :
    [3, 3, 400, 401].foldlM bumpChecked new = some ([3, 3, 400, 401].foldl Series.bump new) ∧
      ([3, 3, 400, 401].foldl Series.bump new).recent 402 =
        some (List.replicate 57 0 ++ [1, 1, 0]) :=
  recent_spec [3, 3, 400, 401] (by decide) 402 (by decide)

end Series

end Nomina
