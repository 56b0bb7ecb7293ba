import Mathlib.Algebra.Order.Ring.Nat
import Ngs3fs.S3.Texts

/-!
# Dates

`utc_time` finds the days since 1970 by the eras of 400 years. That is the number of days counted
over the years and months before, and the two parsers agree where both accept. -/

namespace Ngs3fs.S3
open List

/-- `leap_year`. -/
def leapYear (y : Nat) : Bool := y % 4 == 0 && (y % 100 != 0 || y % 400 == 0)

def monthDays : List Nat := [31, 28, 31, 30, 31, 30, 31, 31, 30, 31, 30, 31]

def daysOf (leap : Bool) (m : Nat) : Nat := monthDays.getD (m - 1) 0 + (m == 2 && leap).toNat

/-- `days_from_civil`. -/
def daysFromCivil (y m d : Nat) : Int :=
  let year : Int := y - if m ≤ 2 then 1 else 0
  let era : Int := (if 0 ≤ year then year else year - 399).tdiv 400
  let yearOfEra := (year - era * 400).toNat
  let shiftedMonth := if 2 < m then m - 3 else m + 9
  let dayOfYear := (153 * shiftedMonth + 2) / 5 + d - 1
  let dayOfEra := yearOfEra * 365 + yearOfEra / 4 - yearOfEra / 100 + dayOfYear
  era * 146097 + dayOfEra - 719468

/-- `utc_time`, with a `time_t` of 64 bits. -/
def utcTime (y m d h n z : Nat) : Option Int :=
  if m = 0 ∨ 12 < m ∨ d = 0 ∨ daysOf (leapYear y) m < d ∨ 23 < h ∨ 59 < n ∨ 59 < z then none
  else
    let adjustedYear : Int := y - (decide (m ≤ 2)).toNat
    let era : Int := (if 0 ≤ adjustedYear then adjustedYear else adjustedYear - 399).tdiv 400
    let yearOfEra := (adjustedYear - era * 400).toNat
    let adjustedMonth := if 2 < m then m - 3 else m + 9
    let dayOfYear := (153 * adjustedMonth + 2) / 5 + d - 1
    let dayOfEra := yearOfEra * 365 + yearOfEra / 4 - yearOfEra / 100 + dayOfYear
    let days := era * 146097 + dayOfEra - 719468
    let seconds := days * 86400 + (h * 3600 + n * 60 + z : Nat)
    if seconds < -2 ^ 63 ∨ 2 ^ 63 - 1 < seconds then none else some seconds

/-- `fixed_decimal`. -/
def fixedDecimal (s : Text) (p n : Nat) : Option Nat :=
  let digits := (s.drop p).take n
  if p + n ≤ s.length ∧ digits.all Char.isDigit then some (decimal digits) else none

/-- The fraction and the zone of a modification time. -/
def mtimeZone (s : Text) : Bool :=
  if s[19]? = some '.' then
    s.getLast? == some 'Z' && s.length != 21 && (s.drop 20).dropLast.all Char.isDigit
  else s.length == 20 && s[19]? == some 'Z'

/-- `parse_s3_mtime`. -/
def parseS3Mtime (s : Text) : Option Int := do
  guard (20 ≤ s.length ∧ s[4]? = some '-' ∧ s[7]? = some '-' ∧ s[10]? = some 'T' ∧
    s[13]? = some ':' ∧ s[16]? = some ':')
  guard (mtimeZone s)
  utcTime (← fixedDecimal s 0 4) (← fixedDecimal s 5 2) (← fixedDecimal s 8 2)
    (← fixedDecimal s 11 2) (← fixedDecimal s 14 2) (← fixedDecimal s 17 2)

/-- The lambda `number` of `parse_expiration`. -/
def number (s : Text) (start length : Nat) : Option Nat :=
  parseAll (2 ^ 32) ((s.drop start).take length)

/-- What is left behind a fraction. -/
def skipFraction : Text → Option Text
  | '.' :: fraction =>
    if fraction.takeWhile Char.isDigit = [] then none else some (fraction.dropWhile Char.isDigit)
  | rest => some rest

/-- `parse_expiration`. -/
def parseExpiration (s : Text) : Option Int := do
  guard (20 ≤ s.length ∧ s[4]? = some '-' ∧ s[7]? = some '-' ∧
    (s[10]? = some 'T' ∨ s[10]? = some 't') ∧ s[13]? = some ':' ∧ s[16]? = some ':')
  let year ← number s 0 4
  let month ← number s 5 2
  let day ← number s 8 2
  let hour ← number s 11 2
  let minute ← number s 14 2
  let second ← number s 17 2
  guard (1970 ≤ year ∧ month ≠ 0 ∧ month ≤ 12 ∧ day ≠ 0 ∧ day ≤ daysOf (leapYear year) month ∧
    hour ≤ 23 ∧ minute ≤ 59 ∧ second ≤ 60)
  let zone ← skipFraction (s.drop 19)
  guard (zone = ['Z'] ∨ zone = ['z'])
  some (daysFromCivil year month day * 86400 + hour * 3600 + minute * 60 + second)

/-! ### Counting -/

/-- What the first `k` of some periods take up. -/
def before (length : Nat → Nat) (k : Nat) : Nat := ((range k).map length).sum

/-- The days of the first months of a year. -/
def monthsBefore (leap : Bool) (k : Nat) : Nat := before (fun i => daysOf leap (i + 1)) k

def yearsBefore (y : Nat) : Nat := before (fun y => monthsBefore (leapYear y) 12) y

/-- The days before a date, from the first of January of year 0. -/
def daysBefore (y m d : Nat) : Nat := yearsBefore y + (monthsBefore (leapYear y) (m - 1) + (d - 1))

structure CivilTime where
  (year month day hour minute second : Nat)
  year_le : year ≤ 9999
  month_pos : 0 < month
  month_le : month ≤ 12
  day_pos : 0 < day
  day_le : day ≤ daysOf (leapYear year) month
  hour_le : hour ≤ 23
  minute_le : minute ≤ 59
  second_le : second ≤ 59

/-- The seconds since 1970-01-01, day by day. -/
def CivilTime.seconds (t : CivilTime) : Int :=
  (daysBefore t.year t.month t.day - daysBefore 1970 1 1 : Int) * 86400 +
    (t.hour * 3600 + t.minute * 60 + t.second : Nat)

def CivilTime.fields (t : CivilTime) : List Nat :=
  [t.year, t.month, t.day, t.hour, t.minute, t.second]

lemma before_succ (length : Nat → Nat) (k : Nat) :
    before length (k + 1) = before length k + length k := by
  rw [before, range_succ, map_append, sum_append, map_singleton, sum_singleton, before]

lemma before_lt {length k k' d} (order : k < k') (inside : d < length k) :
    before length k + d < before length k' := by
  induction order with
  | refl =>
    rw [before_succ]
    exact Nat.add_lt_add_left inside _
  | step _ ih =>
    rw [before_succ]
    exact Nat.lt_add_right _ ih

lemma monthsBefore_eq : ∀ leap, ∀ m : Fin 13, m.val ≠ 0 →
    if 2 < m.val then monthsBefore leap (m - 1) = (153 * (m - 3) + 2) / 5 + 59 + leap.toNat
    else monthsBefore leap (m - 1) + 306 = (153 * (m + 9) + 2) / 5 := by decide

lemma yearDays_eq (y : Nat) : monthsBefore (leapYear y) 12 = 365 + (leapYear y).toNat := by
  cases leapYear y with
  | false => rfl
  | true => rfl

lemma leapYear_eq (y : Nat) : (leapYear y).toNat =
    if y % 4 = 0 ∧ (y % 100 ≠ 0 ∨ y % 400 = 0) then 1 else 0 := by
  simp [leapYear, Bool.toNat, Bool.cond_eq_ite]

lemma yearsBefore_eq (y : Nat) :
    yearsBefore y + (y + 99) / 100 = 365 * y + (y + 3) / 4 + (y + 399) / 400 := by
  induction y with
  | zero => rfl
  | succ y ih =>
    rw [yearsBefore, before_succ, yearDays_eq, leapYear_eq]
    rw [yearsBefore] at ih
    split <;> omega

lemma era_eq (year : Int) : (if 0 ≤ year then year else year - 399).tdiv 400 = year / 400 := by
  rw [Int.tdiv_eq_ediv, show Int.sign 400 = 1 from rfl]
  split <;> split <;> omega

lemma daysBefore_epoch : daysBefore 1970 1 1 = 719528 := by
  have years := yearsBefore_eq 1970
  rw [daysBefore, show monthsBefore (leapYear 1970) (1 - 1) = 0 from rfl]
  omega

lemma daysFromCivil_eq (y d : Nat) {m} (pos : 0 < m) (le : m ≤ 12) (day : 0 < d) :
    daysFromCivil y m d = daysBefore y m d - daysBefore 1970 1 1 := by
  have months := monthsBefore_eq (leapYear y) ⟨m, by omega⟩ (by dsimp only; omega)
  have years := yearsBefore_eq y
  rw [leapYear_eq] at months
  rw [daysBefore_epoch, daysFromCivil, daysBefore]
  simp only [era_eq]
  dsimp only at months
  split at months
  · rw [if_neg (by omega), if_pos (by omega)]
    split at months <;> omega
  · rw [if_pos (by omega), if_neg (by omega)]
    omega

/-- `utc_time` writes out what `days_from_civil` computes. -/
lemma utcTime_days (y m d h n z : Nat) : utcTime y m d h n z =
    if m = 0 ∨ 12 < m ∨ d = 0 ∨ daysOf (leapYear y) m < d ∨ 23 < h ∨ 59 < n ∨ 59 < z then none
    else
      let seconds := daysFromCivil y m d * 86400 + (h * 3600 + n * 60 + z : Nat)
      if seconds < -2 ^ 63 ∨ 2 ^ 63 - 1 < seconds then none else some seconds := by
  have year : ((decide (m ≤ 2)).toNat : Int) = if m ≤ 2 then 1 else 0 := by
    by_cases early : m ≤ 2
    · rw [if_pos early, decide_eq_true early]
      rfl
    · rw [if_neg early, decide_eq_false early]
      rfl
  rw [utcTime, year]
  rfl

namespace CivilTime
variable {t t' : CivilTime}

lemma month_lt {leap m m' d} (order : m - 1 < m') (pos : 0 < m) (day : 0 < d)
    (inside : d ≤ daysOf leap m) : monthsBefore leap (m - 1) + (d - 1) < monthsBefore leap m' := by
  refine before_lt order ?_
  rw [Nat.sub_add_cancel pos]
  omega

lemma inside_year (t : CivilTime) : monthsBefore (leapYear t.year) (t.month - 1) + (t.day - 1) <
    monthsBefore (leapYear t.year) 12 :=
  month_lt (Nat.lt_of_lt_of_le (Nat.sub_one_lt (Nat.ne_of_gt t.month_pos)) t.month_le) t.month_pos
    t.day_pos t.day_le

lemma utcTime_eq (t : CivilTime) :
    utcTime t.year t.month t.day t.hour t.minute t.second = some t.seconds := by
  have inside := t.inside_year
  have years := yearsBefore_eq t.year
  have short := Bool.toNat_le (leapYear t.year)
  have := t.year_le
  have := t.month_le
  have := t.day_le
  have := t.hour_le
  have := t.minute_le
  have := t.second_le
  rw [yearDays_eq] at inside
  rw [utcTime_days, if_neg (by have := t.month_pos; have := t.day_pos; omega),
    daysFromCivil_eq _ _ t.month_pos t.month_le t.day_pos]
  refine if_neg ?_
  rw [daysBefore_epoch, daysBefore]
  omega

lemma daysBefore_lt (order : t.year < t'.year ∨ t.year = t'.year ∧ (t.month < t'.month ∨
      t.month = t'.month ∧ t.day < t'.day)) :
    daysBefore t.year t.month t.day < daysBefore t'.year t'.month t'.day := by
  have first := t.month_pos
  have day := t.day_pos
  rw [daysBefore, daysBefore]
  obtain year | ⟨year, month | ⟨month, later⟩⟩ := order
  · exact Nat.lt_add_right _ (before_lt year t.inside_year)
  · have earlier := month_lt (Nat.sub_lt_sub_right first month) first day t.day_le
    rw [year] at earlier ⊢
    omega
  · rw [year, month]
    omega

lemma seconds_lt (order : t.fields < t'.fields) : t.seconds < t'.seconds := by
  simp only [fields, cons_lt_cons_iff, lt_irrefl, and_false, or_false] at order
  have hour := t.hour_le
  have minute := t.minute_le
  have second := t.second_le
  rw [seconds, seconds]
  -- A later date is a day later at least, and the clock is compared on the same date only.
  obtain year | ⟨year, month | ⟨month, day | ⟨day, clock⟩⟩⟩ := order
  · have days := daysBefore_lt (.inl year)
    omega
  · have days := daysBefore_lt (.inr ⟨year, .inl month⟩)
    omega
  · have days := daysBefore_lt (.inr ⟨year, .inr ⟨month, day⟩⟩)
    omega
  · have minute' := t'.minute_le
    have second' := t'.second_le
    rw [year, month, day]
    omega

end CivilTime

lemma fixedDecimal_number {s p n v v'} (fixed : fixedDecimal s p n = some v)
    (parsed : number s p n = some v') : v = v' := by
  rw [fixedDecimal] at fixed
  split at fixed
  · cases fixed
    exact (parseAll_iff.1 parsed).value
  · cases fixed

lemma utcTime_some {y m d h n z a} (accepted : utcTime y m d h n z = some a) :
    a = daysFromCivil y m d * 86400 + h * 3600 + n * 60 + z := by
  rw [utcTime_days] at accepted
  split at accepted
  · cases accepted
  · dsimp only at accepted
    split at accepted
    · cases accepted
    · cases accepted
      omega

lemma parsers_agree {s a b} (mtime : parseS3Mtime s = some a)
    (expiration : parseExpiration s = some b) : a = b := by
  simp only [parseS3Mtime, Option.bind_eq_bind, Option.bind_eq_some_iff] at mtime
  obtain ⟨-, -, -, -, y, year, m, month, d, day, h, hour, n, minute, z, second, time⟩ := mtime
  simp only [parseExpiration, Option.bind_eq_bind, Option.bind_eq_some_iff] at expiration
  obtain ⟨-, -, y', year', m', month', d', day', h', hour', n', minute', z', second', -, -, -, -,
    -, -, time'⟩ := expiration
  cases fixedDecimal_number year year'
  cases fixedDecimal_number month month'
  cases fixedDecimal_number day day'
  cases fixedDecimal_number hour hour'
  cases fixedDecimal_number minute minute'
  cases fixedDecimal_number second second'
  cases time'
  exact utcTime_some time

theorem utcTime_counts (t t' : CivilTime) (s : Text) :
    utcTime t.year t.month t.day t.hour t.minute t.second = some t.seconds ∧
    (t.fields < t'.fields → t.seconds < t'.seconds) ∧
    ∀ a b, parseS3Mtime s = some a → parseExpiration s = some b → a = b :=
  ⟨t.utcTime_eq, CivilTime.seconds_lt, fun _ _ => parsers_agree⟩

/-- The last second of a leap day. -/
def leapDay : CivilTime :=
  ⟨2024, 2, 29, 23, 59, 59, by decide, by decide, by decide, by decide, by decide, by decide,
    by decide, by decide⟩

def leapDayText : Text := "2024-02-29T23:59:59.5Z".toList

theorem utcTime_counts_leapDay : utcTime 2024 2 29 23 59 59 = some leapDay.seconds ∧
    ∃ a, parseS3Mtime leapDayText = some a ∧ parseExpiration leapDayText = some a := by
  have counts := utcTime_counts leapDay leapDay leapDayText
  have mtime : parseS3Mtime leapDayText = some 1709251199 := by decide +kernel
  have expiration : parseExpiration leapDayText = some 1709251199 := by decide +kernel
  exact ⟨counts.1, _, mtime, counts.2.2 _ _ mtime expiration ▸ expiration⟩

end Ngs3fs.S3
