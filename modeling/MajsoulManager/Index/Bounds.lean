/-
# Index.Bounds — time bounds over rows that keep milliseconds

A row keeps its times truncated to the millisecond, and `page` sends its bounds as
epoch milliseconds: the lower one floored, the upper one rounded up.

* `bounds_round_outwards`: a row whose instant is inside `[from, to)` is matched, and
  one whose whole millisecond is outside is not.  Both compare Unix time, and
  the range is not empty.
* `bounds_leap_and_empty`: the two places where less is shown, or more, than the
  calendar's order says.
-/
import MajsoulManager.Theory.Clock
import MajsoulManager.Index.Pages

namespace MajsoulManager.Index

open MajsoulManager.Theory
open MajsoulManager.Store

set_option autoImplicit false

/-- The two columns that can be bounded. -/
inductive TimeColumn where
  | receivedAt
  | playedAt
  deriving DecidableEq, Repr

namespace TimeColumn

/-- A record with this time in the column. -/
def put : TimeColumn → Store.Record → DateTime → Store.Record
  | receivedAt, record, t => { record with receivedAt := t }
  | playedAt, record, t => { record with playedAt := some t }

/-- The filter that bounds the column and nothing else. -/
def within : TimeColumn → DateTime → DateTime → RecordFilter
  | receivedAt, from_, to_ => { receivedFrom := some from_, receivedTo := some to_ }
  | playedAt, from_, to_ => { playedFrom := some from_, playedTo := some to_ }

/-- Whether the bounds match the row of a record with this time. -/
def shows (column : TimeColumn) (record : Store.Record) (from_ to_ t : DateTime) : Bool :=
  (column.within from_ to_).matches (column.put record t).stored

end TimeColumn

/-- The instants that are stored as one millisecond. -/
def SameMillis (t other : DateTime) : Prop := timestampMillis other = timestampMillis t

/-- Inside `[from, to)`, by Unix time. -/
def UnixWithin (from_ to_ t : DateTime) : Prop :=
  from_.unixNanos ≤ t.unixNanos ∧ t.unixNanos < to_.unixNanos

/-- Inside `[from, to)`, by the calendar. -/
def CalendarWithin (from_ to_ t : DateTime) : Prop := ¬ t.Precedes from_ ∧ t.Precedes to_

instance (from_ to_ t : DateTime) : Decidable (CalendarWithin from_ to_ t) :=
  inferInstanceAs (Decidable (¬ t.Precedes from_ ∧ t.Precedes to_))

/-! ## Milliseconds -/

theorem timestampMillis_eq (t : DateTime) : timestampMillis t = t.unixNanos / 1000000 := by
  unfold timestampMillis DateTime.unixNanos
  omega

theorem ceilMillis_eq (t : DateTime) : ceilMillis t = (t.unixNanos + 999999) / 1000000 := by
  unfold ceilMillis timestampMillis DateTime.unixNanos
  split <;> omega

theorem unixNanos_truncMillis (t : DateTime) :
    t.truncMillis.unixNanos = timestampMillis t * 1000000 := by
  unfold timestampMillis DateTime.unixNanos DateTime.truncMillis
  simp only
  omega

@[simp] theorem timestampMillis_truncMillis (t : DateTime) :
    timestampMillis t.truncMillis = timestampMillis t := by
  rw [timestampMillis_eq, unixNanos_truncMillis]
  omega

theorem shows_iff (column : TimeColumn) (record : Store.Record) (from_ to_ t : DateTime) :
    column.shows record from_ to_ t = true ↔
      timestampMillis from_ ≤ timestampMillis t ∧ timestampMillis t < ceilMillis to_ := by
  cases column <;>
    simp [TimeColumn.shows, TimeColumn.within, TimeColumn.put, RecordFilter.matches,
      Store.Record.stored]

/-! ## The bounds -/

section Bounds

variable {column : TimeColumn} {record : Store.Record} {from_ to_ t : DateTime}

theorem shows_of_within (inside : UnixWithin from_ to_ t) :
    column.shows record from_ to_ t = true := by
  obtain ⟨low, high⟩ := inside
  rw [shows_iff, ceilMillis_eq, timestampMillis_eq, timestampMillis_eq]
  omega

/-- A matched row's millisecond begins before the upper bound. -/
theorem truncMillis_lt_of_shows (shown : column.shows record from_ to_ t = true) :
    t.truncMillis.unixNanos < to_.unixNanos := by
  rw [shows_iff, ceilMillis_eq] at shown
  rw [unixNanos_truncMillis]
  omega

/-- A matched row's millisecond has an instant at or after the lower bound: the
bound itself where it falls inside, else its own first one. -/
theorem reaches_of_shows (shown : column.shows record from_ to_ t = true) :
    SameMillis t from_ ∨ from_.unixNanos ≤ t.truncMillis.unixNanos := by
  have low := ((shows_iff column record from_ to_ t).mp shown).1
  rw [SameMillis, unixNanos_truncMillis]
  rw [timestampMillis_eq from_] at low ⊢
  omega

theorem not_shows_of_before (before : ∀ other, SameMillis t other → other.unixNanos < from_.unixNanos) :
    column.shows record from_ to_ t = false := by
  rw [← Bool.not_eq_true]
  intro shown
  rcases reaches_of_shows shown with inside | reached
  · exact lt_irrefl _ (before from_ inside)
  · exact absurd (before t.truncMillis (timestampMillis_truncMillis t)) (not_lt.mpr reached)

theorem not_shows_of_after (after : ∀ other, SameMillis t other → to_.unixNanos ≤ other.unixNanos) :
    column.shows record from_ to_ t = false := by
  rw [← Bool.not_eq_true]
  intro shown
  have first := after t.truncMillis (timestampMillis_truncMillis t)
  exact absurd (truncMillis_lt_of_shows shown) (not_lt.mpr first)

/-- In a range that is not empty the two ways of being outside are all there are. -/
theorem not_shows_of_outside (range : from_.unixNanos < to_.unixNanos)
    (outside : ∀ other, SameMillis t other → ¬ UnixWithin from_ to_ other) :
    column.shows record from_ to_ t = false := by
  rw [← Bool.not_eq_true]
  intro shown
  rcases reaches_of_shows shown with inside | reached
  · exact outside from_ inside ⟨le_rfl, range⟩
  · exact outside t.truncMillis (timestampMillis_truncMillis t)
      ⟨reached, truncMillis_lt_of_shows shown⟩

end Bounds

/-- **Bounds round outwards, and no further than their millisecond.** -/
theorem bounds_round_outwards (column : TimeColumn) (record : Store.Record)
    (from_ to_ t : DateTime) :
    (UnixWithin from_ to_ t → column.shows record from_ to_ t = true) ∧
      (from_.unixNanos < to_.unixNanos →
        (∀ other, SameMillis t other → ¬ UnixWithin from_ to_ other) →
          column.shows record from_ to_ t = false) ∧
      ((∀ other, SameMillis t other → other.unixNanos < from_.unixNanos) ∨
        (∀ other, SameMillis t other → to_.unixNanos ≤ other.unixNanos) →
          column.shows record from_ to_ t = false) ∧
      (¬ from_.IsLeap → ¬ to_.IsLeap → ¬ t.IsLeap →
        (UnixWithin from_ to_ t ↔ CalendarWithin from_ to_ t)) := by
  refine ⟨shows_of_within, not_shows_of_outside, ?_, ?_⟩
  · rintro (before | after)
    · exact not_shows_of_before before
    · exact not_shows_of_after after
  · intro fromPlain toPlain plain
    rw [CalendarWithin, UnixWithin, DateTime.precedes_iff_unixNanos plain fromPlain,
      DateTime.precedes_iff_unixNanos plain toPlain, not_lt]

/-! ## Where the calendar's order says otherwise -/

def someRecord : Store.Record where
  id := 1
  source := "majsoul"
  sha256 := ""
  receivedAt := .ofParts 1483228800 200000000 rfl
  playedAt := none
  players := []
  rule := none
  eventCount := 1
  storage := ⟨"pack", 0, 1, 1, .zstd⟩
  majsoulPb := none

/-- `2016-12-31T23:59:60.5Z`. -/
def insideLeapSecond : DateTime :=
  (.ofParts 1483228799 1500000000 rfl)

/-- `2017-01-01T00:00:01Z`. -/
def secondAfter : DateTime := .ofParts 1483228801 0 rfl

/-- `2017-01-01T00:00:00.2000005Z`. -/
def insideMillisecond : DateTime :=
  (.ofParts 1483228800 200000500 rfl)

/-- From inside a leap second, the start of the second after it is missed; and a range
that ends where it begins, inside a millisecond, still shows that millisecond. -/
theorem bounds_leap_and_empty :
    (CalendarWithin insideLeapSecond secondAfter someRecord.receivedAt ∧
      TimeColumn.receivedAt.shows someRecord insideLeapSecond secondAfter
        someRecord.receivedAt = false) ∧
    ((∀ other, SameMillis someRecord.receivedAt other →
        ¬ CalendarWithin insideMillisecond insideMillisecond other) ∧
      TimeColumn.receivedAt.shows someRecord insideMillisecond insideMillisecond
        someRecord.receivedAt = true) := by
  refine ⟨⟨by decide, by decide⟩, ?_, by decide⟩
  rintro other - ⟨notBefore, before⟩
  exact notBefore before

end MajsoulManager.Index
