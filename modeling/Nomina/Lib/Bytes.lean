import Nomina.Lib.IpText

/-!
# Bytes

Byte strings, fixed-size byte arrays and big-endian numbers, and readers that may fail. A reader
that indexes or slices past the end of its buffer panics, and this is kept apart from an error that
the reader reports, so that "never out of range" is a statement about the reader.

The rules at the end say what a read finds in a buffer that is put together from parts, and that a
buffer that is long enough is put together from parts.
-/

namespace Lib

/-- A byte string. -/
abbrev Bytes := List UInt8

/-- What holds of the 256 values holds of every byte. -/
lemma forall_byte {P : UInt8 → Prop} (h : ∀ n < 256, P (UInt8.ofNat n)) (b : UInt8) : P b := by
  have hb := h b.toNat b.toNat_lt
  rwa [UInt8.ofNat_toNat] at hb

/-- An array of `n` bytes. -/
abbrev Octets (n : ℕ) := {b : Bytes // b.length = n}

/-- An array of `n` equal bytes. -/
def Octets.replicate (n : ℕ) (b : UInt8) : Octets n :=
  ⟨List.replicate n b, List.length_replicate⟩

/-- How a reader ends without a value: an index was out of range, or the reader reports an error. -/
inductive ReadError
  | panic
  | error (message : Str)
deriving DecidableEq

/-- The result of a reader. -/
abbrev Reader := Except ReadError

/-- An error that a reader reports. -/
def Reader.fail {α : Type} (message : Str) : Reader α :=
  .error (.error message)

/-- `Result::ok`: a reported error is dropped, a panic is not. -/
def Reader.discard {α : Type} : Reader α → Reader (Option α)
  | .ok a => .ok (some a)
  | .error (.error _) => .ok none
  | .error .panic => .error .panic

section

variable {α β : Type} {r : Reader α}

/-- A sequence panics only where one of its parts does. -/
lemma Reader.bind_ne_panic {f : α → Reader β} (hr : r ≠ .error .panic)
    (hf : ∀ a, f a ≠ .error .panic) : (r >>= f) ≠ .error .panic := by
  cases r with
  | ok a => exact hf a
  | error e =>
    intro h
    cases h
    exact hr rfl

/-- Changing a result is no panic. -/
lemma Reader.map_ne_panic {f : α → β} (hr : r ≠ .error .panic) : r.map f ≠ .error .panic := by
  cases r with
  | ok a => simp [Except.map]
  | error e => simpa [Except.map] using hr

/-- Reading a list panics only where reading one of its elements does. -/
lemma Reader.mapM_ne_panic {f : α → Reader β} (h : ∀ a, f a ≠ .error .panic) (l : List α) :
    l.mapM f ≠ .error .panic := by
  induction l with
  | nil => simp [pure, Except.pure]
  | cons a l ih =>
    rw [List.mapM_cons]
    refine Reader.bind_ne_panic (h a) fun b => Reader.bind_ne_panic ih fun bs => ?_
    simp [pure, Except.pure]

end

/-- A round of a loop panics on some elements; on the others it applies what it writes, if anything. -/
structure Reader.Rounds {σ α β : Type} (round : σ → α → Reader σ) (panics : α → Prop)
    (written : α → Option β) (apply : σ → β → σ) : Prop where
  panic : ∀ a s, panics a → round s a = .error .panic
  ok : ∀ a s, ¬panics a → round s a = .ok ((written a).elim s (apply s))

section

variable {σ α β : Type} {round : σ → α → Reader σ} {panics : α → Prop} {written : α → Option β}
  {apply : σ → β → σ} {l : List α}

/-- A loop that panics on no element applies what it writes, in order. -/
lemma Reader.Rounds.foldlM_eq_ok (h : Reader.Rounds round panics written apply)
    (hl : ∀ a ∈ l, ¬panics a) (s : σ) :
    l.foldlM round s = .ok ((l.filterMap written).foldl apply s) := by
  induction l generalizing s with
  | nil => rfl
  | cons a l ih =>
    rw [List.forall_mem_cons] at hl
    rw [List.foldlM_cons, h.ok a s hl.1]
    refine (ih hl.2 _).trans ?_
    rw [List.filterMap_cons]
    cases written a <;> rfl

/-- A loop panics at the first element on which it does. -/
lemma Reader.Rounds.foldlM_eq_panic (h : Reader.Rounds round panics written apply)
    (hl : ∃ a ∈ l, panics a) (s : σ) : l.foldlM round s = .error .panic := by
  induction l generalizing s with
  | nil => simp at hl
  | cons a l ih =>
    rw [List.foldlM_cons]
    by_cases ha : panics a
    · rw [h.panic a s ha]
      rfl
    · rw [h.ok a s ha]
      refine ih ?_ _
      obtain ⟨b, hmem, hb⟩ := hl
      rcases List.mem_cons.mp hmem with rfl | hmem
      · exact absurd hb ha
      · exact ⟨b, hmem, hb⟩

end

/-- `buf[i]`. -/
def index (buf : Bytes) (i : ℕ) : Reader UInt8 :=
  match buf[i]? with
  | some b => .ok b
  | none => .error .panic

/-- `&buf[i..j]`. -/
def slice (buf : Bytes) (i j : ℕ) : Reader Bytes :=
  if i ≤ j ∧ j ≤ buf.length then .ok ((buf.drop i).take (j - i)) else .error .panic

/-- `&buf[i..]`. -/
def sliceFrom (buf : Bytes) (i : ℕ) : Reader Bytes :=
  slice buf i buf.length

/-- `copy_from_slice` into an array of `n` bytes. -/
def copyFromSlice (n : ℕ) (src : Bytes) : Reader (Octets n) :=
  if h : src.length = n then .ok ⟨src, h⟩ else .error .panic

/-- The array `[buf[i], .., buf[i + k - 1]]`. -/
def bytesAt (buf : Bytes) (i k : ℕ) : Reader Bytes :=
  (List.range' i k).mapM (index buf)

/-! ## Big-endian numbers -/

/-- `to_be_bytes` of a number of `k` bytes. -/
def toBeBytes (k n : ℕ) : Bytes :=
  (digitsBE 256 k n).map UInt8.ofNat

/-- `from_be_bytes`. -/
def ofBeBytes (b : Bytes) : ℕ :=
  ofDigitsBE 256 (b.map UInt8.toNat)

/-- A number of `k` bytes has `k` bytes. -/
@[simp] lemma length_toBeBytes (k n : ℕ) : (toBeBytes k n).length = k := by
  simp [toBeBytes]

/-- The last byte is the lowest one. -/
lemma toBeBytes_succ (k n : ℕ) :
    toBeBytes (k + 1) n = toBeBytes k (n / 256) ++ [UInt8.ofNat n] := by
  have hlast : UInt8.ofNat (n % 256) = UInt8.ofNat n := by
    apply UInt8.toNat_inj.mp
    simp
  simp [toBeBytes, digitsBE, hlast]

/-- The value of a byte string with one more byte at its end. -/
lemma ofBeBytes_concat (b : Bytes) (x : UInt8) :
    ofBeBytes (b ++ [x]) = ofBeBytes b * 256 + x.toNat := by
  simp [ofBeBytes, ofDigitsBE]

/-- The bytes of a number denote the number modulo the range they cover. -/
lemma ofBeBytes_toBeBytes (k n : ℕ) : ofBeBytes (toBeBytes k n) = n % 256 ^ k := by
  have hdigits : (toBeBytes k n).map UInt8.toNat = digitsBE 256 k n := by
    unfold toBeBytes
    rw [List.map_map]
    refine (List.map_congr_left fun d hd => ?_).trans (List.map_id _)
    have hlt : d < 256 := lt_of_mem_digitsBE (by decide) hd
    simp only [Function.comp_apply, UInt8.toNat_ofNat', id_eq]
    omega
  unfold ofBeBytes
  rw [hdigits, ofDigitsBE_digitsBE]

/-- A number that fits is read back. -/
lemma ofBeBytes_toBeBytes_of_lt {k n : ℕ} (h : n < 256 ^ k) : ofBeBytes (toBeBytes k n) = n := by
  rw [ofBeBytes_toBeBytes, Nat.mod_eq_of_lt h]

/-- A byte string is the big-endian form of its value. -/
lemma toBeBytes_ofBeBytes {b : Bytes} {k : ℕ} (h : b.length = k) : toBeBytes k (ofBeBytes b) = b := by
  subst h
  induction b using List.reverseRecOn with
  | nil => rfl
  | append_singleton b x ih =>
    have hx : x.toNat < 256 := x.toNat_lt
    have hdiv : ofBeBytes (b ++ [x]) / 256 = ofBeBytes b := by
      rw [ofBeBytes_concat]
      omega
    have hmod : UInt8.ofNat (ofBeBytes (b ++ [x])) = x := by
      apply UInt8.toNat_inj.mp
      rw [ofBeBytes_concat]
      simp only [UInt8.toNat_ofNat']
      omega
    rw [List.length_append, List.length_singleton, toBeBytes_succ, hdiv, hmod, ih]

/-- The value of `k` bytes is a number of `8 * k` bits. -/
lemma ofBeBytes_lt {b : Bytes} {k : ℕ} (h : b.length = k) : ofBeBytes b < 2 ^ (8 * k) := by
  rw [← toBeBytes_ofBeBytes h, ofBeBytes_toBeBytes, pow_mul]
  exact Nat.mod_lt _ (Nat.pow_pos (by decide))

/-- A word read from its bytes is the word. -/
@[simp] lemma u16_ofBeBytes_toBeBytes (x : UInt16) :
    UInt16.ofNat (ofBeBytes (toBeBytes 2 x.toNat)) = x := by
  rw [ofBeBytes_toBeBytes_of_lt (by simpa using x.toNat_lt), UInt16.ofNat_toNat]

/-- A double word read from its bytes is the double word. -/
@[simp] lemma u32_ofBeBytes_toBeBytes (x : UInt32) :
    UInt32.ofNat (ofBeBytes (toBeBytes 4 x.toNat)) = x := by
  rw [ofBeBytes_toBeBytes_of_lt (by simpa using x.toNat_lt), UInt32.ofNat_toNat]

/-- A vector of `8 * k` bits read from its bytes is the vector. -/
lemma bitVec_ofBeBytes_toBeBytes {k : ℕ} (x : BitVec (8 * k)) :
    BitVec.ofNat (8 * k) (ofBeBytes (toBeBytes k x.toNat)) = x := by
  have hlt : x.toNat < 256 ^ k := by
    have h := x.isLt
    rwa [pow_mul] at h
  rw [ofBeBytes_toBeBytes_of_lt hlt, BitVec.ofNat_toNat, BitVec.setWidth_eq]

/-! ## Reading a buffer put together from parts -/

variable {a b buf : Bytes} {i j k n : ℕ}

/-- An index within the buffer is not out of range. -/
lemma index_of_lt (h : i < buf.length) : index buf i = .ok buf[i] := by
  unfold index
  rw [List.getElem?_eq_getElem h]

/-- An index within the first part. -/
lemma index_append_left (h : i < a.length) : index (a ++ b) i = index a i := by
  unfold index
  rw [List.getElem?_append_left h]

/-- An index past the first part. -/
lemma index_append_right (h : a.length ≤ i) : index (a ++ b) i = index b (i - a.length) := by
  unfold index
  rw [List.getElem?_append_right h]

/-- The first byte. -/
@[simp] lemma index_cons_zero (x : UInt8) : index (x :: a) 0 = .ok x := rfl

/-- A range within the buffer is not out of range. -/
lemma slice_of_le (hij : i ≤ j) (hj : j ≤ buf.length) :
    slice buf i j = .ok ((buf.drop i).take (j - i)) := by
  unfold slice
  rw [if_pos ⟨hij, hj⟩]

/-- The rest of a buffer. -/
lemma sliceFrom_of_le (h : i ≤ buf.length) : sliceFrom buf i = .ok (buf.drop i) := by
  unfold sliceFrom
  rw [slice_of_le h le_rfl, List.take_of_length_le (by simp)]

/-- A range past the first part. -/
lemma slice_append_right (hi : a.length ≤ i) (hij : i ≤ j) :
    slice (a ++ b) i j = slice b (i - a.length) (j - a.length) := by
  have hguard : (i ≤ j ∧ j ≤ (a ++ b).length) ↔
      i - a.length ≤ j - a.length ∧ j - a.length ≤ b.length := by
    rw [List.length_append]
    omega
  have hdrop : (a ++ b).drop i = b.drop (i - a.length) := by
    rw [List.drop_append, List.drop_eq_nil_of_le hi, List.nil_append]
  unfold slice
  simp only [hguard, hdrop, show j - a.length - (i - a.length) = j - i by omega]

/-- The first part as a range. -/
lemma slice_append_left (hj : a.length = j) : slice (a ++ b) 0 j = .ok a := by
  rw [slice_of_le (by omega) (by simp; omega), List.drop_zero, Nat.sub_zero, List.take_left' hj]

/-- The rest of a buffer after its first part. -/
lemma sliceFrom_append (pre : Bytes) (hi : pre.length = i) : sliceFrom (pre ++ a) i = .ok a := by
  rw [sliceFrom_of_le (by simp; omega), List.drop_left' hi]

/-- An array is copied from a slice of its length. -/
lemma copyFromSlice_of_length (h : a.length = n) : copyFromSlice n a = .ok ⟨a, h⟩ := by
  unfold copyFromSlice
  rw [dif_pos h]

/-- An array is copied from itself. -/
@[simp] lemma copyFromSlice_val (x : Octets n) : copyFromSlice n x.val = .ok x :=
  copyFromSlice_of_length x.property

/-- Bytes within a buffer are the slice. -/
lemma bytesAt_of_le (h : i + k ≤ buf.length) : bytesAt buf i k = .ok ((buf.drop i).take k) := by
  unfold bytesAt
  induction k generalizing i with
  | zero => rfl
  | succ k ih =>
    have hi : i < buf.length := by omega
    rw [List.range'_succ, List.mapM_cons, index_of_lt hi, ih (by omega),
      List.drop_eq_getElem_cons hi, List.take_succ_cons]
    rfl

/-- Bytes past the first part. -/
lemma bytesAt_append_right (h : a.length ≤ i) :
    bytesAt (a ++ b) i k = bytesAt b (i - a.length) k := by
  unfold bytesAt
  induction k generalizing i with
  | zero => rfl
  | succ k ih =>
    rw [List.range'_succ, List.range'_succ, List.mapM_cons, List.mapM_cons, index_append_right h,
      ih (by omega), show i + 1 - a.length = i - a.length + 1 by omega]

/-- The bytes of the first part. -/
lemma bytesAt_append_left (hk : a.length = k) : bytesAt (a ++ b) 0 k = .ok a := by
  rw [bytesAt_of_le (by simp; omega), List.drop_zero, List.take_left' hk]

/-! ## Taking a buffer apart -/

/-- A buffer that is not empty has a first byte. -/
lemma exists_byte_append (h : n + 1 ≤ buf.length) :
    ∃ (x : UInt8) (rest : Bytes), buf = [x] ++ rest ∧ n ≤ rest.length := by
  match buf, h with
  | x :: rest, h => exact ⟨x, rest, rfl, by simpa using h⟩

/-- A long enough buffer starts with an array of `k` bytes. -/
lemma exists_octets_append (k : ℕ) (h : n + k ≤ buf.length) :
    ∃ (x : Octets k) (rest : Bytes), buf = x.val ++ rest ∧ n ≤ rest.length := by
  refine ⟨⟨buf.take k, by rw [List.length_take]; omega⟩, buf.drop k, ?_, ?_⟩
  · exact (List.take_append_drop k buf).symm
  · rw [List.length_drop]
    omega

/-- An array of two bytes is a word. -/
lemma exists_u16_append (h : n + 2 ≤ buf.length) :
    ∃ (x : UInt16) (rest : Bytes), buf = toBeBytes 2 x.toNat ++ rest ∧ n ≤ rest.length := by
  obtain ⟨⟨b, hb⟩, rest, rfl, hrest⟩ := exists_octets_append 2 h
  refine ⟨UInt16.ofNat (ofBeBytes b), rest, ?_, hrest⟩
  rw [UInt16.toNat_ofNat', Nat.mod_eq_of_lt (ofBeBytes_lt hb), toBeBytes_ofBeBytes hb]

/-- An array of four bytes is a double word. -/
lemma exists_u32_append (h : n + 4 ≤ buf.length) :
    ∃ (x : UInt32) (rest : Bytes), buf = toBeBytes 4 x.toNat ++ rest ∧ n ≤ rest.length := by
  obtain ⟨⟨b, hb⟩, rest, rfl, hrest⟩ := exists_octets_append 4 h
  refine ⟨UInt32.ofNat (ofBeBytes b), rest, ?_, hrest⟩
  rw [UInt32.toNat_ofNat', Nat.mod_eq_of_lt (ofBeBytes_lt hb), toBeBytes_ofBeBytes hb]

/-- An array of `k` bytes is a vector of `8 * k` bits. -/
lemma exists_bitVec_append (k : ℕ) (h : n + k ≤ buf.length) :
    ∃ (x : BitVec (8 * k)) (rest : Bytes), buf = toBeBytes k x.toNat ++ rest ∧ n ≤ rest.length := by
  obtain ⟨⟨b, hb⟩, rest, rfl, hrest⟩ := exists_octets_append k h
  refine ⟨BitVec.ofNat (8 * k) (ofBeBytes b), rest, ?_, hrest⟩
  rw [BitVec.toNat_ofNat, Nat.mod_eq_of_lt (ofBeBytes_lt hb), toBeBytes_ofBeBytes hb]

end Lib
