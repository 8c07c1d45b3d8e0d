/-
# Theory.Clock — the order of instants, their Unix time, and arithmetic on them

Instants are ordered by the calendar: second, then nanosecond.  Unix time has no
leap second, so an instant inside one shares its Unix time with an instant of the
second after it, and the two orders disagree there and nowhere else.

A stamp is what the clock computes with.  Setting the minute or the second of an
instant inside a leap second keeps its nanoseconds, so a stamp may stand inside a
leap second at any second of the day.
-/
import MajsoulManager.Theory.Time

namespace MajsoulManager.Theory

set_option autoImplicit false

namespace DateTime

/-- The calendar's order. -/
def Precedes (a b : DateTime) : Prop := a.secs < b.secs ∨ (a.secs = b.secs ∧ a.nanos < b.nanos)

instance : DecidableRel Precedes := fun a b =>
  inferInstanceAs (Decidable (a.secs < b.secs ∨ (a.secs = b.secs ∧ a.nanos < b.nanos)))

def IsLeap (t : DateTime) : Prop := 1000000000 ≤ t.nanos

instance (t : DateTime) : Decidable t.IsLeap := inferInstanceAs (Decidable (1000000000 ≤ t.nanos))

/-- Nanoseconds since the epoch, leap seconds not counted. -/
def unixNanos (t : DateTime) : Int := t.secs * 1000000000 + t.nanos

/-- **The two orders agree outside leap seconds.** -/
theorem precedes_iff_unixNanos {a b : DateTime} (left : ¬ a.IsLeap) (right : ¬ b.IsLeap) :
    a.Precedes b ↔ a.unixNanos < b.unixNanos := by
  unfold Precedes unixNanos
  unfold IsLeap at left right
  omega

end DateTime

/-! ## Stamps -/

/-- A calendar second and its nanoseconds. -/
structure Stamp where
  secs : Int
  nanos : Nat
  deriving DecidableEq, Repr

def DateTime.stamp (t : DateTime) : Stamp := ⟨t.secs, t.nanos⟩

namespace Stamp

def withMinute (s : Stamp) (minute : Int) : Stamp :=
  ⟨s.secs - s.secs % 3600 + minute * 60 + s.secs % 60, s.nanos⟩

def withSecond (s : Stamp) (second : Int) : Stamp := ⟨s.secs - s.secs % 60 + second, s.nanos⟩

/-- Down to the whole second; inside a leap second, down to its start. -/
def truncSubsecs (s : Stamp) : Stamp := ⟨s.secs, s.nanos - s.nanos % 1000000000⟩

/-- The start of the day. -/
def midnight (s : Stamp) : Stamp := ⟨s.secs - s.secs % 86400, 0⟩

/-- Whole seconds later.  A leap second is left behind: forwards it is not
counted, backwards it is. -/
def shift (s : Stamp) (seconds : Int) : Stamp :=
  if s.nanos < 1000000000 ∨ seconds = 0 then ⟨s.secs + seconds, s.nanos⟩
  else ⟨(if seconds < 0 then s.secs + 1 else s.secs) + seconds, s.nanos - 1000000000⟩

def InCalendar (s : Stamp) : Prop :=
  -262143 ≤ (civilOfSeconds s.secs).year ∧ (civilOfSeconds s.secs).year ≤ 262142

instance (s : Stamp) : Decidable s.InCalendar :=
  inferInstanceAs (Decidable (_ ∧ _))

/-- `none` is a panic: the sum is outside the calendar. -/
def plus (s : Stamp) (seconds : Int) : Option Stamp :=
  if (s.shift seconds).InCalendar then some (s.shift seconds) else none

/-- Whole seconds from `b` to `a`.  Which of the two may be inside a leap second
that has yet to be counted is told from the times of day. -/
def secondsSince (a b : Stamp) : Int :=
  let adjust : Int :=
    if b.secs % 86400 < a.secs % 86400 then if 1000000000 ≤ b.nanos then 1 else 0
    else if a.secs % 86400 < b.secs % 86400 then if 1000000000 ≤ a.nanos then -1 else 0
    else 0
  ((a.secs - b.secs + adjust) * 1000000000 + ((a.nanos : Int) - b.nanos)).tdiv 1000000000

@[simp] theorem shift_zero (s : Stamp) : s.shift 0 = s := by
  simp [shift]

@[simp] theorem shift_plain (secs seconds : Int) :
    (Stamp.mk secs 0).shift seconds = ⟨secs + seconds, 0⟩ := by
  simp [shift]

theorem plus_plain (secs seconds : Int) :
    (Stamp.mk secs 0).plus seconds =
      if InCalendar ⟨secs + seconds, 0⟩ then some ⟨secs + seconds, 0⟩ else none := by
  simp [plus]

end Stamp

/-! ## Years -/

/-- The day a year that starts in March begins, in days of the calendar. -/
def marchStart (year : Int) : Int := 365 * year + year / 4 - year / 100 + year / 400

/-- A later year begins at least 365 days later. -/
theorem marchStart_lt {year later : Int} (before : year < later) :
    marchStart year + 365 ≤ marchStart later := by
  -- of the fourth years, every twenty-fifth is no leap year unless it is a hundredth
  have centuries : ∀ n : Int, n / 100 = n / 4 / 25 := fun n => by omega
  have fourths : year / 4 ≤ later / 4 := by omega
  have skipped : year / 4 - year / 4 / 25 ≤ later / 4 - later / 4 / 25 := by omega
  have eras : year / 400 ≤ later / 400 := by omega
  unfold marchStart
  rw [centuries year, centuries later]
  omega

/-- A day, by the year it falls in counted from March, and the days since. -/
theorem civilFromDays_year (days : Int) :
    ∃ year dayOfYear : Int, 0 ≤ dayOfYear ∧ dayOfYear ≤ 365 ∧
      days + 719468 = marchStart year + dayOfYear ∧
      (civilFromDays days).year = year + if 306 ≤ dayOfYear then 1 else 0 := by
  have low : 0 ≤ (days + 719468) % 146097 := Int.emod_nonneg _ (by norm_num)
  have high : (days + 719468) % 146097 < 146097 := Int.emod_lt_of_pos _ (by norm_num)
  obtain ⟨yearLow, yearHigh, dayLow, dayHigh⟩ := yearOfEra_bounds low high
  generalize eras : (days + 719468) / 146097 = era at *
  have counted : days + 719468 = era * 146097 + (days + 719468) % 146097 := by omega
  refine ⟨yearOfEra ((days + 719468) % 146097) + era * 400,
    (days + 719468) % 146097 - yearStart (yearOfEra ((days + 719468) % 146097)), dayLow, dayHigh,
    ?_, ?_⟩
  · generalize yearOfEra ((days + 719468) % 146097) = year at *
    have start : marchStart (year + era * 400) = era * 146097 + yearStart year := by
      have fourths : (year + era * 400) / 4 = year / 4 + era * 100 := by omega
      have hundredths : (year + era * 400) / 100 = year / 100 + era * 4 := by omega
      have whole : (year + era * 400) / 400 = era := by omega
      rw [marchStart, fourths, hundredths, whole, yearStart]
      ring
    rw [start]
    omega
  · simp only [civilFromDays, civilOfYear, eras]
    generalize (days + 719468) % 146097 - yearStart (yearOfEra ((days + 719468) % 146097)) =
      day at *
    by_cases late : 306 ≤ day
    · have shifted : ¬ (5 * day + 2) / 153 < 10 := by omega
      have month : (5 * day + 2) / 153 - 9 ≤ 2 := by omega
      simp [late, shifted, month]
    · have shifted : (5 * day + 2) / 153 < 10 := by omega
      have month : ¬ (5 * day + 2) / 153 + 3 ≤ 2 := by omega
      simp [late, shifted, month]

theorem civilFromDays_year_mono {first second : Int} (ordered : first ≤ second) :
    (civilFromDays first).year ≤ (civilFromDays second).year := by
  obtain ⟨year, day, dayLow, dayHigh, counted, shown⟩ := civilFromDays_year first
  obtain ⟨year', day', dayLow', dayHigh', counted', shown'⟩ := civilFromDays_year second
  rcases Int.lt_trichotomy year year' with earlier | rfl | later
  · rw [shown, shown']
    split <;> split <;> omega
  · rw [shown, shown']
    split <;> split <;> omega
  · -- the other way round there is room for one day only
    have apart := marchStart_lt later
    have same : first = second := by omega
    rw [same]

/-- A later second falls in the same year or a later one. -/
theorem civilOfSeconds_year_mono {first second : Int} (ordered : first ≤ second) :
    (civilOfSeconds first).year ≤ (civilOfSeconds second).year :=
  civilFromDays_year_mono (by omega)

end MajsoulManager.Theory
