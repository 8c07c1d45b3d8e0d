/-
# Theory.Instants — instants as a linear order

The calendar's order, as one the library's `max` and `≤` are of.  `between` says that a
second between two instants is one itself, since the civil year does not go back, so the
calendar has no gaps; `millis_of_near` and `secs_of_far` read a distance in whole seconds
back as one in milliseconds and in seconds.
-/
import MajsoulManager.Theory.Clock

namespace MajsoulManager.Theory

set_option autoImplicit false

namespace DateTime

/-- Where an instant stands: no second holds two thousand million nanoseconds. -/
def position (t : DateTime) : Int := t.secs * 2000000000 + t.nanos

theorem position_injective : Function.Injective position := by
  intro a b same
  have ltA := a.nanos_lt
  have ltB := b.nanos_lt
  unfold position at same
  obtain ⟨secsA, nanosA, _, _, _, _⟩ := a
  obtain ⟨secsB, nanosB, _, _, _, _⟩ := b
  obtain rfl : secsA = secsB := by dsimp only at *; omega
  obtain rfl : nanosA = nanosB := by dsimp only at *; omega
  rfl

instance : LinearOrder DateTime := LinearOrder.lift' position position_injective

theorem le_def {a b : DateTime} : a ≤ b ↔ a.position ≤ b.position := Iff.rfl

theorem lt_def {a b : DateTime} : a < b ↔ a.position < b.position := Iff.rfl

/-- `timestamp_millis`. -/
def millis (t : DateTime) : Int := t.secs * 1000 + (t.nanos / 1000000 : Nat)

theorem fromTimestamp_eq_some {secs : Int} {nanos : Nat} {t : DateTime} :
    fromTimestamp secs nanos = some t ↔ t.secs = secs ∧ t.nanos = nanos := by
  unfold fromTimestamp
  constructor
  · intro found
    split at found
    · cases found
      exact ⟨rfl, rfl⟩
    · cases found
  · rintro ⟨rfl, rfl⟩
    exact dif_pos ⟨t.nanos_lt, t.leap_second, t.year_ge, t.year_le⟩

/-- **A second between two instants is one**, with any part of it behind. -/
theorem between {a b : DateTime} {secs : Int} (low : a.secs ≤ secs) (high : secs ≤ b.secs)
    {nanos : Nat} (part : nanos < 1000000000) :
    ∃ t, fromTimestamp secs nanos = some t ∧ t.secs = secs ∧ t.nanos = nanos := by
  have yearLow : -262143 ≤ (civilOfSeconds secs).year :=
    a.year_ge.trans (civilOfSeconds_year_mono low)
  have yearHigh : (civilOfSeconds secs).year ≤ 262142 :=
    (civilOfSeconds_year_mono high).trans b.year_le
  refine ⟨⟨secs, nanos, by omega, by omega, yearLow, yearHigh⟩, ?_, rfl, rfl⟩
  exact fromTimestamp_eq_some.mpr ⟨rfl, rfl⟩

/-- The last second of the calendar. -/
def lastSecond : Int := 8210266876799

theorem secs_le_last (t : DateTime) : t.secs ≤ lastSecond := by
  by_contra late
  have year : (civilOfSeconds (lastSecond + 1)).year = 262143 := by decide
  have mono := civilOfSeconds_year_mono (show lastSecond + 1 ≤ t.secs by omega)
  have last := t.year_le
  omega

/-! ## Seconds between two, and later -/

/-- `num_seconds` of a difference. -/
def numSeconds (until_ from_ : DateTime) : Int := Stamp.secondsSince until_.stamp from_.stamp

/-- `+ TimeDelta::seconds`; `none` outside the calendar's years. -/
def addSeconds (t : DateTime) (seconds : Int) : Option DateTime :=
  fromTimestamp (t.stamp.shift seconds).secs (t.stamp.shift seconds).nanos

theorem addSeconds_one {t last : DateTime} (room : t.secs + 1 ≤ last.secs) :
    ∃ next, t.addSeconds 1 = some next ∧ next.secs = t.secs + 1 ∧
      next.nanos = if t.nanos < 1000000000 then t.nanos else t.nanos - 1000000000 := by
  have lt := t.nanos_lt
  have shifted : t.stamp.shift 1 = ⟨t.secs + 1,
      if t.nanos < 1000000000 then t.nanos else t.nanos - 1000000000⟩ := by
    unfold Stamp.shift stamp
    split <;> simp_all
  have few : (if t.nanos < 1000000000 then t.nanos else t.nanos - 1000000000) < 1000000000 := by
    split <;> omega
  unfold addSeconds
  rw [shifted]
  exact between (a := t) (b := last) (by omega) room few

theorem tdiv_lt_ten {n : Int} : n.tdiv 1000000000 < 10 ↔ n < 10000000000 := by
  rcases le_or_gt 0 n with positive | negative
  · rw [Int.tdiv_eq_ediv_of_nonneg positive]
    omega
  · have small : n.tdiv 1000000000 = -((-n) / 1000000000) := by
      rw [← Int.tdiv_eq_ediv_of_nonneg (by omega), Int.neg_tdiv, neg_neg]
    omega

/-- Less than ten seconds is no more than ten thousand milliseconds. -/
theorem millis_of_near {until_ from_ : DateTime} (near : numSeconds until_ from_ < 10) :
    until_.millis ≤ from_.millis + 10000 := by
  have leap := until_.leap_second
  have leap' := from_.leap_second
  have lt := until_.nanos_lt
  have lt' := from_.nanos_lt
  unfold numSeconds Stamp.secondsSince stamp at near
  rw [tdiv_lt_ten] at near
  dsimp only at near
  unfold millis
  -- where a leap second counts against the distance, the times of day are far apart
  split at near <;> split at near
  · omega
  · omega
  · split at near <;> omega
  · omega

theorem secs_of_far {until_ from_ : DateTime} (far : ¬ numSeconds until_ from_ < 10) :
    from_.secs + 1 ≤ until_.secs := by
  have lt := until_.nanos_lt
  unfold numSeconds Stamp.secondsSince stamp at far
  rw [tdiv_lt_ten] at far
  dsimp only at far
  split at far <;> split at far
  · omega
  · omega
  · split at far <;> omega
  · omega

end DateTime

end MajsoulManager.Theory
