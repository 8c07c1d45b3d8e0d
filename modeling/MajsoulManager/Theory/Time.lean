/-
# Theory.Time — instants, the civil calendar, and their printed form

An instant is a number of seconds since the Unix epoch and a number of
nanoseconds, which exceeds a whole second only inside a leap second, and that
only in the last second of a minute.  The civil date is the proleptic Gregorian one, and an instant exists only for the years
from -262143 to 262142.
-/
import MajsoulManager.Theory.Text

namespace MajsoulManager.Theory

set_option autoImplicit false

/-! ## The civil calendar -/

structure CivilDate where
  year : Int
  month : Int
  day : Int
  deriving DecidableEq, Repr

/-- The year of a 400 year era that a day of it falls in. -/
def yearOfEra (dayOfEra : Int) : Int :=
  (dayOfEra - dayOfEra / 1460 + dayOfEra / 36524 - dayOfEra / 146096) / 365

/-- The first day of a year of an era. -/
def yearStart (year : Int) : Int := 365 * year + year / 4 - year / 100

/-- The civil date of a day of a year that starts in March. -/
def civilOfYear (era year dayOfYear : Int) : CivilDate :=
  let shifted := (5 * dayOfYear + 2) / 153
  let month := if shifted < 10 then shifted + 3 else shifted - 9
  { year := year + era * 400 + (if month ≤ 2 then 1 else 0)
    month := month
    day := dayOfYear - (153 * shifted + 2) / 5 + 1 }

/-- The civil date of a day counted from 1970-01-01.  Years are counted from
March inside 400 year eras, so that the leap day is the last day of its year. -/
def civilFromDays (days : Int) : CivilDate :=
  let dayOfEra := (days + 719468) % 146097
  civilOfYear ((days + 719468) / 146097) (yearOfEra dayOfEra)
    (dayOfEra - yearStart (yearOfEra dayOfEra))

/-- The day of a civil date, counted from 1970-01-01. -/
def daysFromCivil (date : CivilDate) : Int :=
  let year := if date.month ≤ 2 then date.year - 1 else date.year
  let shifted := if 2 < date.month then date.month - 3 else date.month + 9
  year / 400 * 146097 + yearStart (year % 400) + (153 * shifted + 2) / 5 + date.day - 1 - 719468

theorem yearOfEra_bounds {dayOfEra : Int} (low : 0 ≤ dayOfEra) (high : dayOfEra < 146097) :
    0 ≤ yearOfEra dayOfEra ∧ yearOfEra dayOfEra < 400 ∧
      0 ≤ dayOfEra - yearStart (yearOfEra dayOfEra) ∧
      dayOfEra - yearStart (yearOfEra dayOfEra) ≤ 365 := by
  unfold yearStart yearOfEra
  generalize quadsDef : dayOfEra / 1460 = quads
  generalize centuriesDef : dayOfEra / 36524 = centuries
  generalize lastDef : dayOfEra / 146096 = last
  generalize yearsDef : (dayOfEra - quads + centuries - last) / 365 = years
  -- the year is one of the four of its cycle, or the one before it
  have inCycle : years = 4 * quads - 1 ∨ years = 4 * quads ∨ years = 4 * quads + 1 ∨
      years = 4 * quads + 2 ∨ years = 4 * quads + 3 := by omega
  have inEra : centuries = 0 ∨ centuries = 1 ∨ centuries = 2 ∨ centuries = 3 ∨
      centuries = 4 := by omega
  have inCentury : 100 * (centuries - last) ≤ years ∧ years < 100 * (centuries - last) + 100 := by
    rcases inEra with rfl | rfl | rfl | rfl | rfl <;> omega
  rcases inCycle with rfl | rfl | rfl | rfl | rfl <;> omega

theorem civilOfYear_bounds {era year dayOfYear : Int} (low : 0 ≤ dayOfYear)
    (high : dayOfYear ≤ 365) :
    1 ≤ (civilOfYear era year dayOfYear).month ∧ (civilOfYear era year dayOfYear).month ≤ 12 ∧
      1 ≤ (civilOfYear era year dayOfYear).day ∧ (civilOfYear era year dayOfYear).day ≤ 31 := by
  simp only [civilOfYear]
  split <;> omega

theorem daysFromCivil_civilOfYear {era year dayOfYear : Int} (yearLow : 0 ≤ year)
    (yearHigh : year < 400) (low : 0 ≤ dayOfYear) (high : dayOfYear ≤ 365) :
    daysFromCivil (civilOfYear era year dayOfYear) =
      era * 146097 + yearStart year + dayOfYear - 719468 := by
  simp only [daysFromCivil, civilOfYear]
  have eras : (year + era * 400) / 400 = era := by omega
  have years : (year + era * 400) % 400 = year := by omega
  by_cases early : (5 * dayOfYear + 2) / 153 < 10
  · have later : ¬ (5 * dayOfYear + 2) / 153 + 3 ≤ 2 := by omega
    have after : 2 < (5 * dayOfYear + 2) / 153 + 3 := by omega
    simp only [early, if_true, later, if_false, after, add_zero, eras, years]
    omega
  · have later : (5 * dayOfYear + 2) / 153 - 9 ≤ 2 := by omega
    have after : ¬ 2 < (5 * dayOfYear + 2) / 153 - 9 := by omega
    simp only [early, if_true, later, if_false, after, add_sub_cancel_right, eras, years]
    omega

/-- The calendar loses no day. -/
theorem daysFromCivil_civilFromDays (days : Int) : daysFromCivil (civilFromDays days) = days := by
  have low : 0 ≤ (days + 719468) % 146097 := Int.emod_nonneg _ (by norm_num)
  have high : (days + 719468) % 146097 < 146097 := Int.emod_lt_of_pos _ (by norm_num)
  obtain ⟨yearLow, yearHigh, dayLow, dayHigh⟩ := yearOfEra_bounds low high
  rw [civilFromDays, daysFromCivil_civilOfYear yearLow yearHigh dayLow dayHigh]
  omega

theorem civilFromDays_bounds (days : Int) :
    1 ≤ (civilFromDays days).month ∧ (civilFromDays days).month ≤ 12 ∧
      1 ≤ (civilFromDays days).day ∧ (civilFromDays days).day ≤ 31 := by
  have low : 0 ≤ (days + 719468) % 146097 := Int.emod_nonneg _ (by norm_num)
  have high : (days + 719468) % 146097 < 146097 := Int.emod_lt_of_pos _ (by norm_num)
  obtain ⟨-, -, dayLow, dayHigh⟩ := yearOfEra_bounds low high
  exact civilOfYear_bounds dayLow dayHigh

def civilOfSeconds (seconds : Int) : CivilDate := civilFromDays (seconds / 86400)

example : civilOfSeconds 1784207242 = ⟨2026, 7, 16⟩ := by decide

/-! ## Instants -/

/-- An instant of the proleptic Gregorian calendar. -/
structure DateTime where
  secs : Int
  nanos : Nat
  nanos_lt : nanos < 2000000000
  leap_second : 1000000000 ≤ nanos → secs % 60 = 59
  year_ge : -262143 ≤ (civilOfSeconds secs).year
  year_le : (civilOfSeconds secs).year ≤ 262142
  deriving DecidableEq, Repr

namespace DateTime

def year (t : DateTime) : Int := (civilOfSeconds t.secs).year

def month (t : DateTime) : Int := (civilOfSeconds t.secs).month

/-- `none` outside the calendar's years. -/
def fromTimestamp (secs : Int) (nanos : Nat) : Option DateTime :=
  if h : nanos < 2000000000 ∧ (1000000000 ≤ nanos → secs % 60 = 59) ∧
      -262143 ≤ (civilOfSeconds secs).year ∧ (civilOfSeconds secs).year ≤ 262142 then
    some ⟨secs, nanos, h.1, h.2.1, h.2.2.1, h.2.2.2⟩
  else none

def inRange (secs : Int) (nanos : Nat) : Bool :=
  (nanos < 2000000000 && decide (1000000000 ≤ nanos → secs % 60 = 59)) &&
    (-262143 ≤ (civilOfSeconds secs).year && (civilOfSeconds secs).year ≤ 262142)

theorem inRange_iff {secs : Int} {nanos : Nat} :
    inRange secs nanos = true ↔
      (nanos < 2000000000 ∧ (1000000000 ≤ nanos → secs % 60 = 59)) ∧
        -262143 ≤ (civilOfSeconds secs).year ∧ (civilOfSeconds secs).year ≤ 262142 := by
  simp only [inRange, Bool.and_eq_true, decide_eq_true_eq]

/-- An instant written out, which evaluation finds to be one. -/
@[reducible] def ofParts (secs : Int) (nanos : Nat) (fits : true = inRange secs nanos) :
    DateTime :=
  have parts := inRange_iff.mp fits.symm
  ⟨secs, nanos, parts.1.1, parts.1.2, parts.2.1, parts.2.2⟩

/-- Seconds that fit in 32 bits are an instant. -/
theorem fromTimestamp_u32 {secs : Int} (low : 0 ≤ secs) (high : secs < 2 ^ 32) :
    ∃ t, fromTimestamp secs 0 = some t ∧ t.secs = secs ∧ t.nanos = 0 := by
  have days : 0 ≤ secs / 86400 ∧ secs / 86400 < 49711 := by omega
  obtain ⟨yearLow, yearHigh, -, -⟩ := yearOfEra_bounds
    (show 0 ≤ (secs / 86400 + 719468) % 146097 by omega) (by omega)
  have years : -262143 ≤ (civilOfSeconds secs).year ∧ (civilOfSeconds secs).year ≤ 262142 := by
    simp only [civilOfSeconds, civilFromDays, civilOfYear]
    split <;> split <;> omega
  have inside : 0 < 2000000000 ∧ (1000000000 ≤ 0 → secs % 60 = 59) ∧
      -262143 ≤ (civilOfSeconds secs).year ∧ (civilOfSeconds secs).year ≤ 262142 :=
    ⟨by omega, by omega, years⟩
  exact ⟨_, dif_pos inside, rfl, rfl⟩

/-- Truncate to the millisecond. -/
def truncMillis (t : DateTime) : DateTime :=
  { t with
    nanos := t.nanos - t.nanos % 1000000
    nanos_lt := Nat.lt_of_le_of_lt (Nat.sub_le _ _) t.nanos_lt
    leap_second := fun leap => t.leap_second (Nat.le_trans leap (Nat.sub_le _ _)) }

@[simp] theorem year_truncMillis (t : DateTime) : t.truncMillis.year = t.year := rfl

@[simp] theorem truncMillis_truncMillis (t : DateTime) :
    t.truncMillis.truncMillis = t.truncMillis := by
  have same : t.nanos - t.nanos % 1000000 - (t.nanos - t.nanos % 1000000) % 1000000 =
      t.nanos - t.nanos % 1000000 := by omega
  simp only [truncMillis, same]

end DateTime

/-! ## Printing -/

def digit (n : Nat) : Char := Char.ofNat (48 + n % 10)

def pad2 (n : Nat) : List Char := [digit (n / 10), digit n]

def pad3 (n : Nat) : List Char := [digit (n / 100), digit (n / 10), digit n]

def pad4 (n : Nat) : List Char := [digit (n / 1000), digit (n / 100), digit (n / 10), digit n]

/-- A year prints with four digits from 0 to 9999 and with a sign outside. -/
def yearText (year : Int) : List Char :=
  if 0 ≤ year ∧ year ≤ 9999 then pad4 year.toNat
  else
    let sign := if year < 0 then '-' else '+'
    let size := year.natAbs
    sign :: (if size ≤ 9999 then pad4 size else (toString size).toList)

/-- The format `%Y-%m-%d %H:%M:%S%.3f`. -/
def DateTime.formatMillis (t : DateTime) : List Char :=
  let date := civilOfSeconds t.secs
  let second := (t.secs % 86400).toNat
  yearText date.year ++ '-' :: pad2 date.month.toNat ++ '-' :: pad2 date.day.toNat ++
    ' ' :: pad2 (second / 3600) ++ ':' :: pad2 (second / 60 % 60) ++
    ':' :: pad2 (second % 60 + t.nanos / 1000000000) ++
    '.' :: pad3 (t.nanos % 1000000000 / 1000000)

end MajsoulManager.Theory
