import Mathlib.Order.Basic
import Opsia.Lib.PyText

/-!
# Instants

An aware `datetime` in UTC: its fields, the order of the fields, the microseconds it counts
and the text that `isoformat` prints. The text determines the instant, and it has two
colons.
-/

/-- An aware `datetime`, after `astimezone(UTC)`. -/
@[ext] structure UtcTime : Type where
  year : Fin 10000
  month : Fin 13
  day : Fin 32
  hour : Fin 24
  minute : Fin 60
  second : Fin 60
  microsecond : Fin 1000000
  deriving DecidableEq, Repr

namespace UtcTime

/-! ## Order -/

/-- The fields as the digits of one number. -/
def rank (t : UtcTime) : ℕ :=
  (((((t.year.val * 13 + t.month.val) * 32 + t.day.val) * 24 + t.hour.val) * 60 +
    t.minute.val) * 60 + t.second.val) * 1000000 + t.microsecond.val

theorem digit_inj {base : ℕ} {a b : ℕ} {r s : Fin base}
    (h : a * base + r.val = b * base + s.val) : a = b ∧ r = s := by
  have hlast : r.val = s.val := by
    have hmod := congrArg (· % base) h
    simpa [Nat.mul_add_mod', Nat.mod_eq_of_lt r.isLt, Nat.mod_eq_of_lt s.isLt] using hmod
  have hbase : 0 < base := Nat.zero_lt_of_lt r.isLt
  rw [hlast] at h
  exact ⟨Nat.eq_of_mul_eq_mul_right hbase (Nat.add_right_cancel h), Fin.ext hlast⟩

theorem rank_injective : Function.Injective rank := by
  rintro ⟨y, mo, d, h, mi, s, us⟩ ⟨y', mo', d', h', mi', s', us'⟩ heq
  obtain ⟨heq, rfl⟩ := digit_inj heq
  obtain ⟨heq, rfl⟩ := digit_inj heq
  obtain ⟨heq, rfl⟩ := digit_inj heq
  obtain ⟨heq, rfl⟩ := digit_inj heq
  obtain ⟨heq, rfl⟩ := digit_inj heq
  obtain ⟨heq, rfl⟩ := digit_inj heq
  obtain rfl := Fin.ext heq
  rfl

/-- Instants are compared field by field. -/
instance : LinearOrder UtcTime := LinearOrder.lift' rank rank_injective

/-! ## Counting -/

/-- `calendar.isleap`. -/
def isLeap (year : ℕ) : Bool := year % 4 = 0 && (year % 100 ≠ 0 || year % 400 = 0)

/-- The days of the months of a year. -/
def monthDays (year : ℕ) : List ℕ :=
  [31, if isLeap year then 29 else 28, 31, 30, 31, 30, 31, 31, 30, 31, 30, 31]

/-- `datetime.toordinal`. -/
def toOrdinal (t : UtcTime) : ℕ :=
  let before := t.year.val - 1
  365 * before + before / 4 - before / 100 + before / 400 +
    ((monthDays t.year.val).take (t.month.val - 1)).foldl (· + ·) 0 + t.day.val

/-- The microseconds since the day before the first of the calendar. -/
def toMicroseconds (t : UtcTime) : ℤ :=
  (((t.toOrdinal * 24 + t.hour.val) * 60 + t.minute.val) * 60 + t.second.val : ℕ) * 1000000 +
    t.microsecond.val

/-- The month and the day of the month of a day of the year. -/
def splitMonths (month : ℕ) : List ℕ → ℕ → ℕ × ℕ
  | [], day => (month, day + 1)
  | days :: rest, day =>
    if day < days then (month, day + 1) else splitMonths (month + 1) rest (day - days)

/-- `date.fromordinal`: the year, the month and the day. -/
def ofOrdinal (ordinal : ℕ) : ℕ × ℕ × ℕ :=
  let n := ordinal - 1
  let (n400, n) := (n / 146097, n % 146097)
  let (n100, n) := (n / 36524, n % 36524)
  let (n4, n) := (n / 1461, n % 1461)
  let (n1, n) := (n / 365, n % 365)
  let year := n400 * 400 + n100 * 100 + n4 * 4 + n1 + 1
  if n1 = 4 ∨ n100 = 4 then (year - 1, 12, 31) else (year, splitMonths 1 (monthDays year) n)

/-- The time of these numbers, each reduced to its range. -/
def ofNumbers (year month day hour minute second : ℕ) : UtcTime :=
  ⟨Fin.ofNat (9999 + 1) year, Fin.ofNat (12 + 1) month, Fin.ofNat (31 + 1) day,
    Fin.ofNat (23 + 1) hour, Fin.ofNat (59 + 1) minute, Fin.ofNat (59 + 1) second, 0⟩

/-- `datetime.fromtimestamp(seconds, UTC)`; `none` outside the years one to 9999. -/
def fromTimestamp (seconds : ℤ) : Option UtcTime :=
  let ordinal := seconds / 86400 + 719163
  let rest := (seconds % 86400).toNat
  if 1 ≤ ordinal ∧ ordinal ≤ 3652059 then
    let (year, month, day) := ofOrdinal ordinal.toNat
    some (ofNumbers year month day (rest / 3600) (rest / 60 % 60) (rest % 60))
  else none

/-- The last second of a leap year, counted from 1970. -/
example : fromTimestamp 1735689599 = some ⟨2024, 12, 31, 23, 59, 59, 0⟩ := by decide +kernel

/-! ## Text -/

/-- The fraction of a second, which `isoformat` leaves out when it is zero. -/
def fraction (microsecond : Fin 1000000) : List Char :=
  if microsecond.val = 0 then [] else '.' :: PyText.fixedDigits 6 microsecond.val

/-- The date and the hour, up to the first colon. -/
def dateHour (t : UtcTime) : List Char :=
  PyText.fixedDigits 4 t.year.val ++ '-' :: (PyText.fixedDigits 2 t.month.val ++
    '-' :: (PyText.fixedDigits 2 t.day.val ++ 'T' :: PyText.fixedDigits 2 t.hour.val))

/-- The seconds, after the last colon. -/
def secondZ (t : UtcTime) : List Char :=
  PyText.fixedDigits 2 t.second.val ++ (fraction t.microsecond ++ ['Z'])

/-- `isoformat().replace("+00:00", "Z")`. -/
def isoformatZ (t : UtcTime) : String :=
  String.ofList (t.dateHour ++ ':' :: (PyText.fixedDigits 2 t.minute.val ++ ':' :: t.secondZ))

def isoformat (t : UtcTime) : String :=
  String.ofList (t.dateHour ++ ':' :: (PyText.fixedDigits 2 t.minute.val ++ ':' ::
    (PyText.fixedDigits 2 t.second.val ++ (fraction t.microsecond ++ "+00:00".toList))))

theorem fraction_inj {m n : Fin 1000000} (h : fraction m = fraction n) : m = n := by
  have hone : ∀ k : Fin 1000000, fraction k = [] ↔ k.val = 0 := by
    intro k
    rw [fraction]
    split <;> simp_all
  by_cases hm : m.val = 0
  · have hn : n.val = 0 := (hone n).mp (h.symm.trans ((hone m).mpr hm))
    exact Fin.ext (hm.trans hn.symm)
  · have hn : n.val ≠ 0 := fun hn => hm ((hone m).mp (h.trans ((hone n).mpr hn)))
    rw [fraction, fraction, if_neg hm, if_neg hn] at h
    exact Fin.ext (PyText.fixedDigits_inj m.isLt n.isLt (List.cons.inj h).2)

theorem not_mem_dateHour (t : UtcTime) : ':' ∉ t.dateHour := by
  have hdigits := fun width n => PyText.not_mem_fixedDigits (c := ':') rfl width n
  simp [dateHour, hdigits]

theorem not_mem_secondZ (t : UtcTime) : ':' ∉ t.secondZ := by
  have hdigits := fun width n => PyText.not_mem_fixedDigits (c := ':') rfl width n
  have hfraction : ':' ∉ fraction t.microsecond := by
    rw [fraction]
    split
    · exact List.not_mem_nil
    · simp [hdigits]
  simp [secondZ, hdigits, hfraction]

theorem not_mem_minute (t : UtcTime) : ':' ∉ PyText.fixedDigits 2 t.minute.val :=
  PyText.not_mem_fixedDigits rfl 2 _

theorem digits_append_inj {width m n : ℕ} {x y : List Char} (hm : m < 10 ^ width)
    (hn : n < 10 ^ width)
    (h : PyText.fixedDigits width m ++ x = PyText.fixedDigits width n ++ y) : m = n ∧ x = y := by
  obtain ⟨hdigits, hrest⟩ := List.append_inj h
    ((PyText.length_fixedDigits width m).trans (PyText.length_fixedDigits width n).symm)
  exact ⟨PyText.fixedDigits_inj hm hn hdigits, hrest⟩

theorem ext_of_parts {t u : UtcTime} (hdate : t.dateHour = u.dateHour)
    (hminute : PyText.fixedDigits 2 t.minute.val = PyText.fixedDigits 2 u.minute.val)
    (hsecond : t.secondZ = u.secondZ) : t = u := by
  obtain ⟨hyear, hdate⟩ := digits_append_inj (by omega) (by omega) hdate
  obtain ⟨hmonth, hdate⟩ := digits_append_inj (by omega) (by omega) (List.cons.inj hdate).2
  obtain ⟨hday, hdate⟩ := digits_append_inj (by omega) (by omega) (List.cons.inj hdate).2
  have hhour := PyText.fixedDigits_inj (by omega) (by omega) (List.cons.inj hdate).2
  have hmin := PyText.fixedDigits_inj (by omega) (by omega) hminute
  obtain ⟨hsec, hsecond⟩ := digits_append_inj (by omega) (by omega) hsecond
  have hmicro := fraction_inj (List.append_cancel_right hsecond)
  exact UtcTime.ext (Fin.ext hyear) (Fin.ext hmonth) (Fin.ext hday) (Fin.ext hhour)
    (Fin.ext hmin) (Fin.ext hsec) hmicro

/-- **A text that ends in an instant determines it**, and what stands before the colon in
front of it. -/
theorem append_isoformatZ_inj {a b : List Char} {t u : UtcTime}
    (h : a ++ ':' :: t.isoformatZ.toList = b ++ ':' :: u.isoformatZ.toList) : a = b ∧ t = u := by
  simp only [isoformatZ, String.toList_ofList] at h
  have hassoc : ∀ (l : List Char) (v : UtcTime),
      l ++ ':' :: (v.dateHour ++ ':' :: (PyText.fixedDigits 2 v.minute.val ++ ':' :: v.secondZ)) =
        ((l ++ ':' :: v.dateHour) ++ ':' :: PyText.fixedDigits 2 v.minute.val) ++
          ':' :: v.secondZ := by
    intro l v
    simp
  rw [hassoc, hassoc] at h
  -- the last colon first
  obtain ⟨h, hsecond⟩ := PyText.append_cons_inj_right (not_mem_secondZ t) (not_mem_secondZ u) h
  obtain ⟨h, hminute⟩ := PyText.append_cons_inj_right (not_mem_minute t) (not_mem_minute u) h
  obtain ⟨h, hdate⟩ := PyText.append_cons_inj_right (not_mem_dateHour t) (not_mem_dateHour u) h
  exact ⟨h, ext_of_parts hdate hminute hsecond⟩

/-- The last second of a leap year. -/
example : isoformatZ ⟨2024, 12, 31, 23, 59, 59, 0⟩ = "2024-12-31T23:59:59Z" := by decide +kernel

end UtcTime
