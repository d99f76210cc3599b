import Nomina.Lib.IpText
import Mathlib.Data.Nat.Find

/-!
# Instants as RFC 3339 texts

Instants in UTC with the calendar date they fall on, their Unix time, and the text that is printed for
them: fields of fixed width, a fraction of the second without trailing zeros, and `Z`. Years outside
0 to 9999 have no text.

Texts are compared character by character, instants by their time. The two orders agree up to the
second (`stamp_lt_iff`). Within a second they need not: the `Z` that follows the fraction comes after
the digits and the point, so a text whose fraction goes on comes before one whose fraction has ended
(`lt_fractionText_iff`).
-/

namespace Lib

/-! ## Digits -/

/-- A number as a text of `w` digits. -/
def pad : ℕ → ℕ → List Char
  | 0, _ => []
  | w + 1, n => (n / 10 ^ w).digitChar :: pad w (n % 10 ^ w)

/-- The digits of the fraction `n / 10 ^ w`, without trailing zeros. -/
def fractionDigits : ℕ → ℕ → List Char
  | 0, _ => []
  | w + 1, n => if n = 0 then [] else (n / 10 ^ w).digitChar :: fractionDigits w (n % 10 ^ w)

lemma digitChar_lt_iff : ∀ a < 10, ∀ b < 10, a.digitChar < b.digitChar ↔ a < b := by decide

lemma digitChar_inj : ∀ a < 10, ∀ b < 10, a.digitChar = b.digitChar ↔ a = b := by decide

lemma digitChar_lt_Z : ∀ a < 10, a.digitChar < 'Z' := by decide

/-- The leading digit of a number below `10 ^ (w + 1)`. -/
lemma div_pow_lt_ten {w n : ℕ} (h : n < 10 ^ (w + 1)) : n / 10 ^ w < 10 :=
  Nat.div_lt_of_lt_mul (by rwa [pow_succ] at h)

/-- Numbers are compared by their leading digits first. -/
lemma lt_iff_div_mod (w a b : ℕ) :
    a < b ↔ a / 10 ^ w < b / 10 ^ w ∨ a / 10 ^ w = b / 10 ^ w ∧ a % 10 ^ w < b % 10 ^ w := by
  have ha := Nat.div_add_mod a (10 ^ w)
  have hb := Nat.div_add_mod b (10 ^ w)
  have hra := Nat.mod_lt a (Nat.pow_pos (n := w) (by decide : 0 < 10))
  have hrb := Nat.mod_lt b (Nat.pow_pos (n := w) (by decide : 0 < 10))
  constructor
  · intro h
    rcases Nat.lt_trichotomy (a / 10 ^ w) (b / 10 ^ w) with hlt | heq | hgt
    · exact .inl hlt
    · refine .inr ⟨heq, ?_⟩
      rw [heq] at ha
      omega
    · have hmul : 10 ^ w * (b / 10 ^ w + 1) ≤ 10 ^ w * (a / 10 ^ w) := Nat.mul_le_mul_left _ hgt
      rw [Nat.mul_add] at hmul
      omega
  · rintro (hlt | ⟨heq, hlt⟩)
    · have hmul : 10 ^ w * (a / 10 ^ w + 1) ≤ 10 ^ w * (b / 10 ^ w) := Nat.mul_le_mul_left _ hlt
      rw [Nat.mul_add] at hmul
      omega
    · rw [heq] at ha
      omega

@[simp] lemma length_pad (w n : ℕ) : (pad w n).length = w := by
  induction w generalizing n with
  | zero => rfl
  | succ w ih => rw [pad, List.length_cons, ih]

/-- Texts of one width are ordered as their numbers. -/
lemma pad_lt_iff {w a b : ℕ} (ha : a < 10 ^ w) (hb : b < 10 ^ w) : pad w a < pad w b ↔ a < b := by
  induction w generalizing a b with
  | zero =>
    have hsame : ¬ a < b := by
      rw [pow_zero] at hb
      omega
    exact iff_of_false (List.not_lt_nil _) hsame
  | succ w ih =>
    have hpos : 0 < 10 ^ w := Nat.pow_pos (by decide)
    rw [pad, pad, List.cons_lt_cons_iff, digitChar_lt_iff _ (div_pow_lt_ten ha) _ (div_pow_lt_ten hb),
      digitChar_inj _ (div_pow_lt_ten ha) _ (div_pow_lt_ten hb),
      ih (Nat.mod_lt _ hpos) (Nat.mod_lt _ hpos), ← lt_iff_div_mod]

lemma pad_inj {w a b : ℕ} (ha : a < 10 ^ w) (hb : b < 10 ^ w) : pad w a = pad w b ↔ a = b := by
  refine ⟨fun h => ?_, fun h => h ▸ rfl⟩
  have hab : ¬ a < b := by
    rw [← pad_lt_iff ha hb, h]
    exact lt_irrefl _
  have hba : ¬ b < a := by
    rw [← pad_lt_iff hb ha, h]
    exact lt_irrefl _
  omega

/-- Texts that begin with parts of one length are compared by these first. -/
lemma append_lt_append_iff {p q s t : List Char} (h : p.length = q.length) :
    p ++ s < q ++ t ↔ p < q ∨ p = q ∧ s < t := by
  induction p generalizing q with
  | nil =>
    have hq : q = [] := List.length_eq_zero_iff.mp h.symm
    subst hq
    simp
  | cons a p ih =>
    cases q with
    | nil => cases h
    | cons b q =>
      rw [List.cons_append, List.cons_append, List.cons_lt_cons_iff, List.cons_lt_cons_iff,
        ih (Nat.succ.inj h), List.cons.injEq]
      tauto

/-- Texts that begin in the same way. -/
lemma append_lt_append_left_iff {p s t : List Char} : p ++ s < p ++ t ↔ s < t := by
  rw [append_lt_append_iff rfl]
  simp

/-- A fraction whose text comes before that of a smaller or equal one: its digits go on where those of
the other end. -/
lemma fractionDigits_lt_iff {w a b : ℕ} (ha : a < 10 ^ w) (hb : b < 10 ^ w) :
    fractionDigits w a ++ ['Z'] < fractionDigits w b ++ ['Z'] ∧ b ≤ a ↔
      fractionDigits w b <+: fractionDigits w a ∧ fractionDigits w b ≠ fractionDigits w a := by
  induction w generalizing a b with
  | zero => simp [fractionDigits]
  | succ w ih =>
    have hpos : 0 < 10 ^ w := Nat.pow_pos (by decide)
    have hda := div_pow_lt_ten ha
    have hdb := div_pow_lt_ten hb
    unfold fractionDigits
    by_cases ha0 : a = 0
    · by_cases hb0 : b = 0
      · simp [ha0, hb0]
      · simp [ha0, hb0]
    · by_cases hb0 : b = 0
      · have hlt : (a / 10 ^ w).digitChar < 'Z' := digitChar_lt_Z _ hda
        simp [ha0, hb0, List.cons_lt_cons_iff, hlt]
      · have hih := ih (Nat.mod_lt a hpos) (Nat.mod_lt b hpos)
        have hle : b ≤ a ↔ ¬ a < b := Nat.not_lt.symm
        rw [if_neg ha0, if_neg hb0, List.cons_append, List.cons_append, List.cons_lt_cons_iff,
          List.cons_prefix_cons, digitChar_lt_iff _ hda _ hdb, digitChar_inj _ hda _ hdb,
          digitChar_inj _ hdb _ hda, hle, lt_iff_div_mod w a b]
        constructor
        · rintro ⟨hlt | ⟨heq, hlt⟩, hnot⟩
          · exact absurd (.inl hlt) hnot
          · have hmod : b % 10 ^ w ≤ a % 10 ^ w :=
              Nat.not_lt.mp fun hmod => hnot (.inr ⟨heq, hmod⟩)
            obtain ⟨hpre, hne⟩ := hih.mp ⟨hlt, hmod⟩
            exact ⟨⟨heq.symm, hpre⟩, fun hcons => hne (List.cons.inj hcons).2⟩
        · rintro ⟨⟨heq, hpre⟩, hne⟩
          have hne' : fractionDigits w (b % 10 ^ w) ≠ fractionDigits w (a % 10 ^ w) :=
            fun hsame => hne (by rw [heq, hsame])
          obtain ⟨hlt, hmod⟩ := hih.mpr ⟨hpre, hne'⟩
          refine ⟨.inr ⟨heq.symm, hlt⟩, ?_⟩
          rintro (hdiv | ⟨-, hmod'⟩)
          · omega
          · exact absurd hmod' (Nat.not_lt.mpr hmod)

/-! ## The calendar -/

/-- Whether a year has a leap day. -/
def isLeapYear (y : ℤ) : Bool :=
  y % 4 = 0 ∧ (y % 100 ≠ 0 ∨ y % 400 = 0)

/-- The days of the years before `y`, counted from the year 0. -/
def daysBeforeYear (y : ℤ) : ℤ :=
  365 * y + (y + 3) / 4 - (y + 99) / 100 + (y + 399) / 400

/-- The days of a month. -/
def daysInMonth (y : ℤ) : ℕ → ℕ
  | 2 => if isLeapYear y then 29 else 28
  | 4 | 6 | 9 | 11 => 30
  | _ => 31

/-- The days of the months before the month `m`. -/
def daysBeforeMonth (y : ℤ) : ℕ → ℕ
  | 0 => 0
  | m + 1 => daysBeforeMonth y m + if m = 0 then 0 else daysInMonth y m

/-- The days from the first day of the year 0 to the first day of 1970. -/
def epochDays : ℤ := 719528

/-- An instant in UTC. -/
structure DateTime where
  year : ℤ
  month : ℕ
  day : ℕ
  hour : ℕ
  minute : ℕ
  second : ℕ
  nanosecond : ℕ
  month_pos : 1 ≤ month
  month_le : month ≤ 12
  day_pos : 1 ≤ day
  day_le : day ≤ daysInMonth year month
  hour_lt : hour < 24
  minute_lt : minute < 60
  second_lt : second < 60
  nanosecond_lt : nanosecond < 10 ^ 9
deriving DecidableEq

namespace DateTime

/-- The days from the first day of the year 0. -/
def dayNumber (t : DateTime) : ℤ :=
  daysBeforeYear t.year + daysBeforeMonth t.year t.month + (t.day - 1)

/-- The Unix time: the seconds since the beginning of 1970. -/
def unix (t : DateTime) : ℤ :=
  (t.dayNumber - epochDays) * 86400 + (t.hour * 3600 + t.minute * 60 + t.second : ℕ)

/-- Whether an instant is before another one. -/
def Before (t u : DateTime) : Prop :=
  t.unix < u.unix ∨ t.unix = u.unix ∧ t.nanosecond < u.nanosecond

instance (t u : DateTime) : Decidable (t.Before u) :=
  inferInstanceAs (Decidable (_ ∨ _))

/-- The beginning of 1970. -/
def epoch : DateTime :=
  ⟨1970, 1, 1, 0, 0, 0, 0, by decide, by decide, by decide, by decide, by decide, by decide, by decide,
    by decide⟩

example : epoch.unix = 0 := by decide

/-- The moment so many nanoseconds into the first minute of a year. -/
def firstMinute (year : ℤ) (nanos : ℕ) : DateTime :=
  ⟨year, 1, 1, 0, 0, nanos / 10 ^ 9 % 60, nanos % 10 ^ 9, by decide, by decide, by decide,
    Nat.le_add_left 1 30, by decide, by decide, Nat.mod_lt _ (by decide), Nat.mod_lt _ (by decide)⟩

/-- The years that have a text. -/
def InRange (t : DateTime) : Prop :=
  0 ≤ t.year ∧ t.year < 10000

instance (t : DateTime) : Decidable t.InRange :=
  inferInstanceAs (Decidable (_ ∧ _))

end DateTime

/-- A year is as long as its months. -/
lemma daysBeforeYear_succ (y : ℤ) :
    daysBeforeYear (y + 1) = daysBeforeYear y + (daysBeforeMonth y 12 + daysInMonth y 12 : ℕ) := by
  cases hleap : isLeapYear y with
  | true =>
    have hlength : daysBeforeMonth y 12 + daysInMonth y 12 = 366 := by
      simp only [daysBeforeMonth, daysInMonth, hleap]
      rfl
    unfold isLeapYear at hleap
    rw [decide_eq_true_eq] at hleap
    rw [hlength]
    unfold daysBeforeYear
    omega
  | false =>
    have hlength : daysBeforeMonth y 12 + daysInMonth y 12 = 365 := by
      simp only [daysBeforeMonth, daysInMonth, hleap]
      rfl
    unfold isLeapYear at hleap
    rw [decide_eq_false_iff_not] at hleap
    rw [hlength]
    unfold daysBeforeYear
    omega

/-- Later years begin later. -/
lemma daysBeforeYear_mono {y y' : ℤ} (h : y ≤ y') : daysBeforeYear y ≤ daysBeforeYear y' := by
  unfold daysBeforeYear
  omega

/-- Later months begin when the earlier ones are over. -/
lemma daysBeforeMonth_add_le (y : ℤ) {m m' : ℕ} (hm : 1 ≤ m) (h : m < m') :
    daysBeforeMonth y m + daysInMonth y m ≤ daysBeforeMonth y m' := by
  induction m' with
  | zero => cases h
  | succ m' ih =>
    rw [daysBeforeMonth]
    rcases Nat.lt_succ_iff_lt_or_eq.mp h with hlt | rfl
    · exact (ih hlt).trans (Nat.le_add_right _ _)
    · rw [if_neg (by omega)]

namespace DateTime

variable {t u : DateTime}

/-- The order of dates. -/
def DateLt (t u : DateTime) : Prop :=
  t.year < u.year ∨ t.year = u.year ∧ (t.month < u.month ∨ t.month = u.month ∧ t.day < u.day)

/-- The first day of a year is not after its days. -/
lemma daysBeforeYear_le (t : DateTime) : daysBeforeYear t.year ≤ t.dayNumber := by
  have hday := t.day_pos
  unfold dayNumber
  omega

/-- A day is before the next year. -/
lemma dayNumber_lt_daysBeforeYear (t : DateTime) : t.dayNumber < daysBeforeYear (t.year + 1) := by
  have hday := t.day_le
  have hnext := daysBeforeYear_succ t.year
  have hin : daysBeforeMonth t.year t.month + t.day ≤
      daysBeforeMonth t.year 12 + daysInMonth t.year 12 := by
    rcases Nat.lt_or_eq_of_le t.month_le with hlt | heq
    · have hover := daysBeforeMonth_add_le t.year t.month_pos hlt
      omega
    · rw [heq] at hday ⊢
      omega
  unfold dayNumber
  omega

/-- Days are numbered in the order of dates. -/
lemma dayNumber_lt (h : t.DateLt u) : t.dayNumber < u.dayNumber := by
  rcases h with hyear | ⟨hyear, hmonth | ⟨hmonth, hday⟩⟩
  · calc t.dayNumber < daysBeforeYear (t.year + 1) := t.dayNumber_lt_daysBeforeYear
      _ ≤ daysBeforeYear u.year := daysBeforeYear_mono hyear
      _ ≤ u.dayNumber := u.daysBeforeYear_le
  · have hover := daysBeforeMonth_add_le t.year t.month_pos hmonth
    have htday := t.day_le
    have huday := u.day_pos
    unfold dayNumber
    rw [← hyear]
    omega
  · unfold dayNumber
    rw [← hyear, ← hmonth]
    omega

/-- The order of dates and times, to the second. -/
def StampLt (t u : DateTime) : Prop :=
  t.DateLt u ∨ (t.year = u.year ∧ t.month = u.month ∧ t.day = u.day) ∧
    (t.hour < u.hour ∨ t.hour = u.hour ∧ (t.minute < u.minute ∨
      t.minute = u.minute ∧ t.second < u.second))

/-- The same date and time, to the second. -/
def SameStamp (t u : DateTime) : Prop :=
  (t.year = u.year ∧ t.month = u.month ∧ t.day = u.day) ∧
    t.hour = u.hour ∧ t.minute = u.minute ∧ t.second = u.second

lemma dateLt_trichotomy (t u : DateTime) :
    t.DateLt u ∨ (t.year = u.year ∧ t.month = u.month ∧ t.day = u.day) ∨ u.DateLt t := by
  unfold DateLt
  omega

lemma stampLt_trichotomy (t u : DateTime) : t.StampLt u ∨ t.SameStamp u ∨ u.StampLt t := by
  rcases dateLt_trichotomy t u with hlt | hsame | hgt
  · exact .inl (.inl hlt)
  · -- On one day the times decide.
    unfold StampLt SameStamp
    rcases lt_trichotomy t.hour u.hour with hhour | hhour | hhour <;> omega
  · exact .inr (.inr (.inl hgt))

lemma unix_lt_of_stampLt (h : t.StampLt u) : t.unix < u.unix := by
  have hth := t.hour_lt
  have htm := t.minute_lt
  have hts := t.second_lt
  have huh := u.hour_lt
  have hum := u.minute_lt
  have hus := u.second_lt
  unfold unix
  rcases h with hdate | ⟨⟨hyear, hmonth, hday⟩, htime⟩
  · have hlt := dayNumber_lt hdate
    omega
  · have hsame : t.dayNumber = u.dayNumber := by
      unfold dayNumber
      rw [hyear, hmonth, hday]
    omega

lemma unix_eq_of_sameStamp (h : t.SameStamp u) : t.unix = u.unix := by
  obtain ⟨⟨hyear, hmonth, hday⟩, hhour, hminute, hsecond⟩ := h
  unfold unix dayNumber
  rw [hyear, hmonth, hday, hhour, hminute, hsecond]

/-- The order of dates and times is that of the Unix time. -/
lemma stampLt_iff : t.StampLt u ↔ t.unix < u.unix := by
  refine ⟨unix_lt_of_stampLt, fun h => ?_⟩
  rcases stampLt_trichotomy t u with hlt | hsame | hgt
  · exact hlt
  · have heq := unix_eq_of_sameStamp hsame
    omega
  · have hrev := unix_lt_of_stampLt hgt
    omega

lemma sameStamp_iff : t.SameStamp u ↔ t.unix = u.unix := by
  refine ⟨unix_eq_of_sameStamp, fun h => ?_⟩
  rcases stampLt_trichotomy t u with hlt | hsame | hgt
  · have hlt' := unix_lt_of_stampLt hlt
    omega
  · exact hsame
  · have hgt' := unix_lt_of_stampLt hgt
    omega

/-! ## Texts -/

/-- The date and the time, to the second. -/
def stamp (t : DateTime) : List Char :=
  pad 4 t.year.toNat ++ ['-'] ++ pad 2 t.month ++ ['-'] ++ pad 2 t.day ++ ['T'] ++ pad 2 t.hour ++
    [':'] ++ pad 2 t.minute ++ [':'] ++ pad 2 t.second

/-- The fraction of the second, and the zone. -/
def fractionText (t : DateTime) : List Char :=
  (if t.nanosecond = 0 then [] else '.' :: fractionDigits 9 t.nanosecond) ++ ['Z']

/-- The text of an instant in the years 0 to 9999. -/
def text (t : DateTime) : List Char :=
  t.stamp ++ t.fractionText

/-- The text that is printed; nothing for years that have no text. -/
def printed (t : DateTime) : List Char :=
  if t.InRange then t.text else []

lemma daysInMonth_le (y : ℤ) (m : ℕ) : daysInMonth y m ≤ 31 := by
  unfold daysInMonth
  split
  · split <;> omega
  · omega
  · omega
  · omega
  · omega
  · omega

@[simp] lemma length_stamp (t : DateTime) : t.stamp.length = 19 := by
  simp [stamp]

/-- The stamps of instants are ordered as their Unix times. -/
lemma stamp_lt_iff (ht : t.InRange) (hu : u.InRange) : t.stamp < u.stamp ↔ t.unix < u.unix := by
  have hyear : pad 4 t.year.toNat < pad 4 u.year.toNat ↔ t.year < u.year := by
    rw [pad_lt_iff (by unfold InRange at ht; omega) (by unfold InRange at hu; omega)]
    unfold InRange at ht hu
    omega
  have hyear' : pad 4 t.year.toNat = pad 4 u.year.toNat ↔ t.year = u.year := by
    rw [pad_inj (by unfold InRange at ht; omega) (by unfold InRange at hu; omega)]
    unfold InRange at ht hu
    omega
  have htday := t.day_le.trans (daysInMonth_le _ _)
  have huday := u.day_le.trans (daysInMonth_le _ _)
  have htmonth := t.month_le
  have humonth := u.month_le
  have hth := t.hour_lt
  have htm := t.minute_lt
  have hts := t.second_lt
  have huh := u.hour_lt
  have hum := u.minute_lt
  have hus := u.second_lt
  rw [← stampLt_iff]
  unfold stamp StampLt DateLt
  simp only [List.append_assoc]
  rw [append_lt_append_iff (by simp), append_lt_append_left_iff, append_lt_append_iff (by simp),
    append_lt_append_left_iff, append_lt_append_iff (by simp), append_lt_append_left_iff,
    append_lt_append_iff (by simp), append_lt_append_left_iff, append_lt_append_iff (by simp),
    append_lt_append_left_iff, hyear, hyear', pad_lt_iff (by omega) (by omega),
    pad_lt_iff (by omega) (by omega), pad_lt_iff (by omega) (by omega),
    pad_lt_iff (by omega) (by omega), pad_lt_iff (by omega) (by omega),
    pad_inj (by omega) (by omega), pad_inj (by omega) (by omega), pad_inj (by omega) (by omega),
    pad_inj (by omega) (by omega)]
  omega

/-- The stamps of instants of one second are the same. -/
lemma stamp_inj (ht : t.InRange) (hu : u.InRange) : t.stamp = u.stamp ↔ t.unix = u.unix := by
  constructor
  · intro h
    have hlt : ¬ t.unix < u.unix := by
      rw [← stamp_lt_iff ht hu, h]
      exact lt_irrefl _
    have hgt : ¬ u.unix < t.unix := by
      rw [← stamp_lt_iff hu ht, h]
      exact lt_irrefl _
    omega
  · intro h
    obtain ⟨⟨hyear, hmonth, hday⟩, hhour, hminute, hsecond⟩ := sameStamp_iff.mpr h
    unfold stamp
    rw [hyear, hmonth, hday, hhour, hminute, hsecond]

/-- Texts are compared by the second first. -/
lemma text_lt_iff (ht : t.InRange) (hu : u.InRange) : t.text < u.text ↔
    t.unix < u.unix ∨ t.unix = u.unix ∧ t.fractionText < u.fractionText := by
  unfold text
  rw [append_lt_append_iff (by simp), stamp_lt_iff ht hu, stamp_inj ht hu]

/-- The text of a whole second does not come before the others of that second. -/
lemma not_lt_fractionText (ht : t.nanosecond = 0) (u : DateTime) :
    ¬ t.fractionText < u.fractionText := by
  unfold fractionText
  rw [if_pos ht]
  split
  · exact lt_irrefl _
  · intro h
    rcases List.cons_lt_cons_iff.mp h with hlt | ⟨heq, -⟩
    · exact absurd hlt (by decide)
    · exact absurd heq (by decide)

/-- A text comes before that of an instant which is not later, in the same second, exactly when its
fraction goes on where the fraction of the other one ends. -/
lemma lt_fractionText_iff (t u : DateTime) :
    t.fractionText < u.fractionText ∧ u.nanosecond ≤ t.nanosecond ↔
      fractionDigits 9 u.nanosecond <+: fractionDigits 9 t.nanosecond ∧
        fractionDigits 9 u.nanosecond ≠ fractionDigits 9 t.nanosecond := by
  rw [← fractionDigits_lt_iff t.nanosecond_lt u.nanosecond_lt]
  refine and_congr_left fun hle => ?_
  unfold fractionText
  by_cases ht : t.nanosecond = 0
  · have hu : u.nanosecond = 0 := by omega
    simp [ht, hu]
  · by_cases hu : u.nanosecond = 0
    · have hdigit := digitChar_lt_Z _ (div_pow_lt_ten (w := 8) t.nanosecond_lt)
      have hpoint : '.' < 'Z' := by decide
      simp [ht, hu, fractionDigits, List.cons_lt_cons_iff, hpoint]
      exact hdigit
    · rw [if_neg ht, if_neg hu, List.cons_append, List.cons_append, List.cons_lt_cons_iff]
      simp

/-- An instant that is not earlier than another one, with a text that comes before the other's. -/
theorem text_lt_and_not_before_iff (ht : t.InRange) (hu : u.InRange) :
    t.text < u.text ∧ ¬ t.Before u ↔ t.unix = u.unix ∧
      fractionDigits 9 u.nanosecond <+: fractionDigits 9 t.nanosecond ∧
        fractionDigits 9 u.nanosecond ≠ fractionDigits 9 t.nanosecond := by
  rw [← lt_fractionText_iff, text_lt_iff ht hu]
  unfold Before
  constructor
  · rintro ⟨hlt | ⟨heq, hlt⟩, hnot⟩
    · exact absurd (.inl hlt) hnot
    · exact ⟨heq, hlt, Nat.not_lt.mp fun hnano => hnot (.inr ⟨heq, hnano⟩)⟩
  · rintro ⟨heq, hlt, hle⟩
    refine ⟨.inr ⟨heq, hlt⟩, ?_⟩
    rintro (hbefore | ⟨-, hnano⟩)
    · omega
    · omega

/-- A whole second whose text comes before that of an instant is over then. -/
theorem unix_lt_of_text_lt (ht : t.InRange) (hu : u.InRange) (hwhole : t.nanosecond = 0)
    (h : t.text < u.text) : t.unix < u.unix := by
  rcases (text_lt_iff ht hu).mp h with hlt | ⟨-, hlt⟩
  · exact hlt
  · exact absurd hlt (not_lt_fractionText hwhole u)

end DateTime

/-! ## Reading texts -/

/-- The number of a text of digits. -/
def readPad : List Char → ℕ
  | [] => 0
  | c :: s => (toDigit 10 c).getD 0 * 10 ^ s.length + readPad s

/-- The fraction of a text of digits, in units of `10 ^ -w`. -/
def readFraction : ℕ → List Char → ℕ
  | 0, _ => 0
  | _ + 1, [] => 0
  | w + 1, c :: s => (toDigit 10 c).getD 0 * 10 ^ w + readFraction w s

/-- A number is read back. -/
lemma readPad_pad {w n : ℕ} (h : n < 10 ^ w) : readPad (pad w n) = n := by
  induction w generalizing n with
  | zero =>
    rw [pow_zero] at h
    have hzero : n = 0 := by omega
    rw [hzero]
    rfl
  | succ w ih =>
    have hpos : 0 < 10 ^ w := Nat.pow_pos (by decide)
    rw [pad, readPad, ih (Nat.mod_lt _ hpos), toDigit_digitChar_ten _ (div_pow_lt_ten h), length_pad,
      Option.getD_some, Nat.mul_comm]
    exact Nat.div_add_mod n (10 ^ w)

lemma readFraction_fractionDigits {w n : ℕ} (h : n < 10 ^ w) :
    readFraction w (fractionDigits w n) = n := by
  induction w generalizing n with
  | zero =>
    rw [pow_zero] at h
    have hzero : n = 0 := by omega
    rw [hzero]
    rfl
  | succ w ih =>
    have hpos : 0 < 10 ^ w := Nat.pow_pos (by decide)
    rw [fractionDigits]
    split
    · rename_i hzero
      rw [hzero]
      rfl
    · rw [readFraction, ih (Nat.mod_lt _ hpos), toDigit_digitChar_ten _ (div_pow_lt_ten h),
        Option.getD_some, Nat.mul_comm]
      exact Nat.div_add_mod n (10 ^ w)

namespace DateTime

/-- The instant with some fields, if they are those of a date and a time. -/
def ofFields (year : ℤ) (month day hour minute second nanosecond : ℕ) : Option DateTime :=
  if h : (1 ≤ month ∧ month ≤ 12 ∧ 1 ≤ day ∧ day ≤ daysInMonth year month) ∧
      hour < 24 ∧ minute < 60 ∧ second < 60 ∧ nanosecond < 10 ^ 9 then
    some ⟨year, month, day, hour, minute, second, nanosecond, h.1.1, h.1.2.1, h.1.2.2.1, h.1.2.2.2,
      h.2.1, h.2.2.1, h.2.2.2.1, h.2.2.2.2⟩
  else none

lemma ofFields_self (t : DateTime) :
    ofFields t.year t.month t.day t.hour t.minute t.second t.nanosecond = some t :=
  dif_pos ⟨⟨t.month_pos, t.month_le, t.day_pos, t.day_le⟩, t.hour_lt, t.minute_lt, t.second_lt,
    t.nanosecond_lt⟩

/-- The instant of a text. -/
def parse (s : List Char) : Option DateTime :=
  (ofFields (readPad (s.take 4)) (readPad ((s.drop 5).take 2)) (readPad ((s.drop 8).take 2))
    (readPad ((s.drop 11).take 2)) (readPad ((s.drop 14).take 2))
    (readPad ((s.drop 17).take 2)) (readFraction 9 ((s.drop 20).takeWhile (· != 'Z')))).filter
    fun t => t.text = s

lemma drop_pad {w n i : ℕ} (h : w ≤ i) : (pad w n).drop i = [] :=
  List.drop_eq_nil_of_le (by rw [length_pad]; exact h)

/-- The fraction of a second is read back. -/
lemma readFraction_fractionText (t : DateTime) :
    readFraction 9 (t.fractionText.tail.takeWhile (· != 'Z')) = t.nanosecond := by
  have hdigits : ∀ w n, n < 10 ^ w → ∀ c ∈ fractionDigits w n, (c != 'Z') = true := by
    intro w
    induction w with
    | zero => exact fun n _ c hc => nomatch hc
    | succ w ih =>
      intro n hn c hc
      rw [fractionDigits] at hc
      split at hc
      · cases hc
      · rcases List.mem_cons.mp hc with rfl | hrest
        · exact bne_iff_ne.mpr (digitChar_lt_Z _ (div_pow_lt_ten hn)).ne
        · exact ih _ (Nat.mod_lt _ (Nat.pow_pos (by decide))) c hrest
  unfold fractionText
  split
  · rename_i hzero
    rw [hzero]
    rfl
  · rw [List.cons_append, List.tail_cons,
      List.takeWhile_append_of_pos (hdigits 9 _ t.nanosecond_lt)]
    simp only [List.takeWhile_cons, bne_self_eq_false, Bool.false_eq_true, if_false, List.append_nil]
    exact readFraction_fractionDigits t.nanosecond_lt

/-- A text is read back. -/
lemma parse_text {t : DateTime} (ht : t.InRange) : parse t.text = some t := by
  have hday31 := t.day_le.trans (daysInMonth_le _ _)
  have hmonth12 := t.month_le
  have hhour24 := t.hour_lt
  have hminute60 := t.minute_lt
  have hsecond60 := t.second_lt
  have hyear : (readPad (t.text.take 4) : ℤ) = t.year := by
    unfold InRange at ht
    have hread : readPad (t.text.take 4) = t.year.toNat := by
      simp [text, stamp, readPad_pad (show t.year.toNat < 10 ^ 4 by omega)]
    omega
  have hmonth : readPad ((t.text.drop 5).take 2) = t.month := by
    simp [text, stamp, List.drop_append, drop_pad, readPad_pad (show t.month < 10 ^ 2 by omega)]
  have hday : readPad ((t.text.drop 8).take 2) = t.day := by
    simp [text, stamp, List.drop_append, drop_pad, readPad_pad (show t.day < 10 ^ 2 by omega)]
  have hhour : readPad ((t.text.drop 11).take 2) = t.hour := by
    simp [text, stamp, List.drop_append, drop_pad, readPad_pad (show t.hour < 10 ^ 2 by omega)]
  have hminute : readPad ((t.text.drop 14).take 2) = t.minute := by
    simp [text, stamp, List.drop_append, drop_pad, readPad_pad (show t.minute < 10 ^ 2 by omega)]
  have hsecond : readPad ((t.text.drop 17).take 2) = t.second := by
    simp [text, stamp, List.drop_append, drop_pad, readPad_pad (show t.second < 10 ^ 2 by omega)]
  have hfraction : readFraction 9 ((t.text.drop 20).takeWhile (· != 'Z')) = t.nanosecond := by
    have hrest : t.text.drop 20 = t.fractionText.tail := by
      simp [text, stamp, List.drop_append, drop_pad]
    rw [hrest]
    exact readFraction_fractionText t
  unfold parse
  rw [hyear, hmonth, hday, hhour, hminute, hsecond, hfraction, ofFields_self]
  simp

/-! ## Instants of Unix times -/

/-- The whole second of a Unix time in the years 0 to 9999. -/
def ofUnix (n : ℤ) : Option DateTime :=
  let days := n / 86400 + epochDays
  let secs := (n % 86400).toNat
  let year := Nat.findGreatest (fun y => daysBeforeYear y ≤ days) 9999
  let rest := (days - daysBeforeYear year).toNat
  let month := Nat.findGreatest (fun m => daysBeforeMonth year m ≤ rest) 12
  ofFields year month (rest - daysBeforeMonth year month + 1) (secs / 3600) (secs / 60 % 60)
    (secs % 60) 0

/-- A whole second is found from its Unix time. -/
lemma ofUnix_unix {t : DateTime} (ht : t.InRange) (hwhole : t.nanosecond = 0) :
    ofUnix t.unix = some t := by
  have hh := t.hour_lt
  have hm := t.minute_lt
  have hs := t.second_lt
  have hdays : t.unix / 86400 + epochDays = t.dayNumber := by
    unfold unix
    omega
  have hsecs : (t.unix % 86400).toNat = t.hour * 3600 + t.minute * 60 + t.second := by
    unfold unix
    omega
  have hyear : Nat.findGreatest (fun y => daysBeforeYear y ≤ t.dayNumber) 9999 = t.year.toNat := by
    unfold InRange at ht
    refine Nat.findGreatest_eq_iff.mpr ⟨by omega, fun _ => ?_, fun y hlt _ hle => ?_⟩
    · rw [Int.toNat_of_nonneg ht.1]
      exact t.daysBeforeYear_le
    · have hmono := daysBeforeYear_mono (show t.year + 1 ≤ (y : ℤ) by omega)
      have hnext := t.dayNumber_lt_daysBeforeYear
      omega
  have hcast : ((t.year.toNat : ℕ) : ℤ) = t.year := Int.toNat_of_nonneg ht.1
  have hrest : (t.dayNumber - daysBeforeYear t.year).toNat =
      daysBeforeMonth t.year t.month + (t.day - 1) := by
    have hday := t.day_pos
    unfold dayNumber
    omega
  have hmonth : Nat.findGreatest (fun m => daysBeforeMonth t.year m ≤
      daysBeforeMonth t.year t.month + (t.day - 1)) 12 = t.month := by
    refine Nat.findGreatest_eq_iff.mpr ⟨t.month_le, fun _ => Nat.le_add_right _ _,
      fun m hlt _ hle => ?_⟩
    have hover := daysBeforeMonth_add_le t.year t.month_pos hlt
    have hday := t.day_pos
    have hday' := t.day_le
    omega
  have hself := t.ofFields_self
  rw [hwhole] at hself
  have hday := t.day_pos
  unfold ofUnix
  simp only [hdays, hsecs, hyear, hcast, hrest, hmonth]
  rw [← hself]
  congr 1 <;> omega

end DateTime

end Lib
