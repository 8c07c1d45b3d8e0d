/-
# Index.Series — the buckets of a trend chart, and the rows they are joined with

`SeriesWindow::between` turns a range into hours or days, and `series` asks the
index for the rows of each bucket, prints every bucket's key itself, and joins
the two by that text.  `Charted` says what a chart should be, `Chartable` for
which ranges it is.

Truncating to the hour keeps a leap second.  `spanOf_eq_charted_iff` says when one
at the start of the range costs a bucket, and `between_plain` what the window is
when there is none at its end.
-/
import MajsoulManager.Theory.Clock
import MajsoulManager.Store.Columns

namespace MajsoulManager.Index

open MajsoulManager.Theory
open MajsoulManager.Store

set_option autoImplicit false

/-! ## Units -/

inductive SeriesUnit where
  | hour
  | day
  deriving DecidableEq, Repr

def maxTrendHours : Nat := 168

def maxTrendDays : Nat := 365

/-- `%Y-%m-%d`. -/
def chronoDate (at_ : Stamp) : List Char :=
  let date := civilOfSeconds at_.secs
  yearText date.year ++ '-' :: pad2 date.month.toNat ++ '-' :: pad2 date.day.toNat

/-- `%H:%M:%S`.  A leap second counts as a second more. -/
def chronoTime (at_ : Stamp) : List Char :=
  let second := (at_.secs % 86400).toNat
  pad2 (second / 3600) ++ ':' :: pad2 (second / 60 % 60) ++
    ':' :: pad2 (second % 60 + at_.nanos / 1000000000)

namespace SeriesUnit

def maxSpan : SeriesUnit → Nat
  | hour => maxTrendHours
  | day => maxTrendDays

def step : SeriesUnit → Int
  | hour => 3600
  | day => 86400

/-- The start of the bucket an instant falls in. -/
def truncate (unit : SeriesUnit) (at_ : Stamp) : Stamp :=
  match unit with
  | hour => ((at_.withMinute 0).withSecond 0).truncSubsecs
  | day => at_.midnight.truncSubsecs

/-- What the join is on. -/
def key (unit : SeriesUnit) (at_ : Stamp) : String :=
  match unit with
  | hour => String.ofList (chronoDate at_ ++ ' ' :: chronoTime at_)
  | day => String.ofList (chronoDate at_)

/-- What the console is handed. -/
def label (unit : SeriesUnit) (at_ : Stamp) : String :=
  match unit with
  | hour => String.ofList (chronoDate at_ ++ 'T' :: chronoTime at_ ++ ['Z'])
  | day => String.ofList (chronoDate at_)

end SeriesUnit

/-! ## Windows -/

structure SeriesWindow where
  unit : SeriesUnit
  first : Stamp
  span : Nat

/-- Why there is no window or no series.  Outside the calendar the request
panics. -/
inductive SeriesError where
  | rangeInverted
  | outOfCalendar
  | index (message : String)
  deriving DecidableEq

namespace SeriesWindow

/-- Whole buckets from the one `from_` falls in to the one `to_` falls in, toward
zero, and one more. -/
def wanted (unit : SeriesUnit) (from_ to_ : DateTime) : Int :=
  ((unit.truncate to_.stamp).secondsSince (unit.truncate from_.stamp)).tdiv unit.step + 1

/-- The ceiling keeps the end of a range and loses its start. -/
def spanOf (unit : SeriesUnit) (from_ to_ : DateTime) : Nat :=
  (max 1 (min (wanted unit from_ to_) unit.maxSpan)).toNat

def between (unit : SeriesUnit) (from_ to_ : DateTime) : Except SeriesError SeriesWindow :=
  if to_.Precedes from_ then .error .rangeInverted
  else
    let span := spanOf unit from_ to_
    match (unit.truncate to_.stamp).plus (-(unit.step * ((span : Int) - 1))) with
    | none => .error .outOfCalendar
    | some first => .ok ⟨unit, first, span⟩

/-- The start of a bucket. -/
def bucket (window : SeriesWindow) (offset : Nat) : Option Stamp :=
  window.first.plus (window.unit.step * offset)

/-- One past the last bucket. -/
def end_ (window : SeriesWindow) : Option Stamp := window.bucket window.span

end SeriesWindow

/-! ## The series -/

structure ReceivedBucket where
  bucket : String
  records : Nat
  rawBytes : Nat
  compressedBytes : Nat
  deriving DecidableEq

structure PlayedBucket where
  bucket : String
  games : Nat
  deriving DecidableEq

structure RuleCount where
  rule : String
  games : Nat
  deriving DecidableEq

/-- What the index answers: `GROUP BY` gives one row a bucket. -/
structure SeriesAnswers where
  received : List ReceivedBucket
  played : List PlayedBucket
  rules : List RuleCount
  oneReceived : (received.map (·.bucket)).Nodup
  onePlayed : (played.map (·.bucket)).Nodup

structure SeriesPoint where
  at_ : String
  records : Nat
  rawBytes : Nat
  compressedBytes : Nat
  games : Nat
  deriving DecidableEq

structure Series where
  unit : SeriesUnit
  points : List SeriesPoint
  rules : List RuleCount

/-- A map collected from rows keeps the last one of a key. -/
def lastOf {Row : Type} (bucketOf : Row → String) (rows : List Row) (key : String) : Option Row :=
  rows.reverse.find? fun row => bucketOf row == key

namespace SeriesWindow

def point (unit : SeriesUnit) (answers : SeriesAnswers) (at_ : Stamp) : SeriesPoint :=
  let key := unit.key at_
  let bucket := lastOf (·.bucket) answers.received key
  { at_ := unit.label at_
    records := bucket.elim 0 (·.records)
    rawBytes := bucket.elim 0 (·.rawBytes)
    compressedBytes := bucket.elim 0 (·.compressedBytes)
    games := (lastOf (·.bucket) answers.played key).elim 0 (·.games) }

/-- One point a bucket, in order. -/
def points (window : SeriesWindow) (answers : SeriesAnswers) : Option (List SeriesPoint) :=
  (List.range window.span).mapM fun offset =>
    (window.bucket offset).map (point window.unit answers)

/-- `ask` is the index, given the two bounds as texts. -/
def series (window : SeriesWindow) (ask : String → String → Except String SeriesAnswers) :
    Except SeriesError Series :=
  window.end_.elim (.error .outOfCalendar) fun end_ =>
    match ask (window.unit.key window.first) (window.unit.key end_) with
    | .error message => .error (.index message)
    | .ok answers =>
        (window.points answers).elim (.error .outOfCalendar) fun points =>
          .ok ⟨window.unit, points, answers.rules⟩

end SeriesWindow

/-! ## The index's own buckets -/

/-- The text of a `Date`. -/
def clickhouseDate (secs : Int) : List Char :=
  let date := civilOfSeconds secs
  pad4 date.year.toNat ++ '-' :: pad2 date.month.toNat ++ '-' :: pad2 date.day.toNat

/-- The time of day of a `DateTime`, as text. -/
def clickhouseTime (secs : Int) : List Char :=
  let second := (secs % 86400).toNat
  pad2 (second / 3600) ++ ':' :: pad2 (second / 60 % 60) ++ ':' :: pad2 (second % 60)

/-- `toStartOfHour` and `toDate` of a stored millisecond.  Both round down; the
first gives a `DateTime`, the second a `Date`, whatever the column holds. -/
structure Bucketing where
  toStartOfHour : Int → Int
  toDate : Int → Int
  hour_type : ∀ millis, 0 ≤ toStartOfHour millis ∧ toStartOfHour millis < 2 ^ 32
  hour_rounds : ∀ millis, 0 ≤ millis / 1000 - millis / 1000 % 3600 →
    millis / 1000 - millis / 1000 % 3600 < 2 ^ 32 →
    toStartOfHour millis = millis / 1000 - millis / 1000 % 3600
  date_type : ∀ millis, 0 ≤ toDate millis ∧ toDate millis < 2 ^ 16
  date_rounds : ∀ millis, 0 ≤ millis / 86400000 → millis / 86400000 < 2 ^ 16 →
    toDate millis = millis / 86400000

/-- `toString` of a bucket's start. -/
def SeriesUnit.clickhouseText (unit : SeriesUnit) (secs : Int) : String :=
  match unit with
  | hour => String.ofList (clickhouseDate secs ++ ' ' :: clickhouseTime secs)
  | day => String.ofList (clickhouseDate secs)

/-- The start of the bucket the index puts a stored millisecond in. -/
def Bucketing.start (bucketing : Bucketing) (unit : SeriesUnit) (millis : Int) : Int :=
  match unit with
  | .hour => bucketing.toStartOfHour millis
  | .day => bucketing.toDate millis * 86400

/-- `toString({bucket}(column))`. -/
def Bucketing.key (bucketing : Bucketing) (unit : SeriesUnit) (millis : Int) : String :=
  unit.clickhouseText (bucketing.start unit millis)

/-- The seconds the result of the bucketing function can hold. -/
def SeriesUnit.limit : SeriesUnit → Int
  | .hour => 2 ^ 32
  | .day => 2 ^ 16 * 86400

/-- A year the index's columns hold. -/
def IndexedYear (secs : Int) : Prop :=
  1900 ≤ (civilOfSeconds secs).year ∧ (civilOfSeconds secs).year ≤ 2299

instance (secs : Int) : Decidable (IndexedYear secs) := inferInstanceAs (Decidable (_ ∧ _))

/-! ## What a chart should be -/

/-- The start of the bucket of a second. -/
def SeriesUnit.floor (unit : SeriesUnit) (secs : Int) : Int := secs - secs % unit.step

/-- How many buckets a range touches. -/
def touched (unit : SeriesUnit) (from_ to_ : DateTime) : Nat :=
  (to_.secs / unit.step - from_.secs / unit.step).toNat + 1

/-- How many buckets the chart should have. -/
def charted (unit : SeriesUnit) (from_ to_ : DateTime) : Nat :=
  min (touched unit from_ to_) unit.maxSpan

/-- The chart's buckets, counted back from the last. -/
def bucketBefore (unit : SeriesUnit) (to_ : DateTime) (back : Nat) : Int :=
  unit.floor to_.secs - unit.step * back

/-- A stored millisecond in the bucket that starts at this second. -/
def InBucket (unit : SeriesUnit) (start millis : Int) : Prop :=
  start * 1000 ≤ millis ∧ millis < (start + unit.step) * 1000

/-- The point of a bucket: its label, the values of its row, and zero where there
is none. -/
structure Reports (unit : SeriesUnit) (answers : SeriesAnswers) (start : Int)
    (point : SeriesPoint) : Prop where
  at_ : point.at_ = unit.label ⟨start, 0⟩
  received : ∀ row ∈ answers.received, row.bucket = unit.key ⟨start, 0⟩ →
    point.records = row.records ∧ point.rawBytes = row.rawBytes ∧
      point.compressedBytes = row.compressedBytes
  noneReceived : (∀ row ∈ answers.received, row.bucket ≠ unit.key ⟨start, 0⟩) →
    point.records = 0 ∧ point.rawBytes = 0 ∧ point.compressedBytes = 0
  played : ∀ row ∈ answers.played, row.bucket = unit.key ⟨start, 0⟩ → point.games = row.games
  nonePlayed : (∀ row ∈ answers.played, row.bucket ≠ unit.key ⟨start, 0⟩) → point.games = 0

/-- A window whose buckets begin at these seconds. -/
structure Charts (bucketing : Bucketing) (from_ to_ : DateTime) (window : SeriesWindow)
    (starts : Nat → Int) : Prop where
  stamps : ∀ k < window.span, window.bucket k = some ⟨starts k, 0⟩
  aligned : ∀ k < window.span, starts k % window.unit.step = 0
  consecutive : ∀ k, k + 1 < window.span → starts (k + 1) = starts k + window.unit.step
  increasing : ∀ j k, j < k → k < window.span → starts j < starts k
  last : starts (window.span - 1) ≤ to_.secs ∧
    to_.secs < starts (window.span - 1) + window.unit.step
  counted : window.span = charted window.unit from_ to_
  keyed : ∀ millis, IndexedYear (millis / 1000) → starts 0 * 1000 ≤ millis →
    millis < (starts (window.span - 1) + window.unit.step) * 1000 →
    ∃ k < window.span, ∀ j < window.span,
      (InBucket window.unit (starts j) millis ↔ j = k) ∧
        (window.unit.key ⟨starts j, 0⟩ = bucketing.key window.unit millis ↔ j = k)
  joined : ∀ answers, ∃ series, window.series (fun _ _ => .ok answers) = .ok series ∧
    series.points.length = window.span ∧
    ∀ k < window.span, ∃ point, series.points[k]? = some point ∧
      Reports window.unit answers (starts k) point

/-- The range is charted as it should be. -/
def Charted (bucketing : Bucketing) (unit : SeriesUnit) (from_ to_ : DateTime) : Prop :=
  ∃ window starts, SeriesWindow.between unit from_ to_ = .ok window ∧ window.unit = unit ∧
    Charts bucketing from_ to_ window starts

/-- Hours of the day. -/
def hourOfDay (t : DateTime) : Int := t.secs % 86400 / 3600

/-- The ranges that are charted as they should be. -/
structure Chartable (unit : SeriesUnit) (from_ to_ : DateTime) : Prop where
  /-- There is a bucket after the last. -/
  next : (civilOfSeconds (unit.floor to_.secs + unit.step)).year ≤ 262142
  /-- Hours do not end inside a leap second. -/
  plainEnd : unit = .hour → ¬ to_.IsLeap
  /-- Hours that begin inside a leap second end in a later hour of the day, or in
  the same hour of the calendar, or are cut at the ceiling. -/
  plainStart : unit = .hour → from_.IsLeap → hourOfDay from_ < hourOfDay to_ ∨
    touched unit from_ to_ = 1 ∨ maxTrendHours < touched unit from_ to_
  /-- A bucket the index has rows for is one it can name. -/
  typed : ∀ back < charted unit from_ to_, IndexedYear (bucketBefore unit to_ back) →
    0 ≤ bucketBefore unit to_ back ∧ bucketBefore unit to_ back < unit.limit

/-! ## Truncation -/

/-- The unit does not see a leap second the instant is in. -/
def Plain (unit : SeriesUnit) (t : DateTime) : Prop := unit = .hour → ¬ t.IsLeap

theorem step_pos (unit : SeriesUnit) : 0 < unit.step := by
  cases unit <;> decide

theorem truncate_hour (t : DateTime) :
    SeriesUnit.hour.truncate t.stamp =
      ⟨SeriesUnit.hour.floor t.secs, t.nanos - t.nanos % 1000000000⟩ := by
  simp only [SeriesUnit.truncate, Stamp.withMinute, Stamp.withSecond, Stamp.truncSubsecs,
    DateTime.stamp, SeriesUnit.floor, SeriesUnit.step, Stamp.mk.injEq, and_true]
  omega

theorem truncate_plain {unit : SeriesUnit} {t : DateTime} (plain : Plain unit t) :
    unit.truncate t.stamp = ⟨unit.floor t.secs, 0⟩ := by
  cases unit with
  | hour =>
      have small : ¬ 1000000000 ≤ t.nanos := plain rfl
      rw [truncate_hour, Nat.mod_eq_of_lt (by omega), Nat.sub_self]
  | day => rfl

theorem truncate_leap {t : DateTime} (leap : t.IsLeap) :
    SeriesUnit.hour.truncate t.stamp = ⟨SeriesUnit.hour.floor t.secs, 1000000000⟩ := by
  have large : 1000000000 ≤ t.nanos := leap
  have bound := t.nanos_lt
  have start : t.nanos - t.nanos % 1000000000 = 1000000000 := by omega
  rw [truncate_hour, start]

/-! ## How many buckets -/

theorem floor_sub_floor (unit : SeriesUnit) {from_ to_ : DateTime}
    (ordered : from_.secs ≤ to_.secs) :
    unit.floor to_.secs - unit.floor from_.secs =
      unit.step * ((touched unit from_ to_ : Int) - 1) := by
  have quotients : from_.secs / unit.step ≤ to_.secs / unit.step :=
    Int.ediv_le_ediv (step_pos unit) ordered
  have count : ((touched unit from_ to_ : Nat) : Int) - 1 =
      to_.secs / unit.step - from_.secs / unit.step := by
    unfold touched
    omega
  have low := Int.mul_ediv_add_emod from_.secs unit.step
  have high := Int.mul_ediv_add_emod to_.secs unit.step
  rw [count, Int.mul_sub]
  unfold SeriesUnit.floor
  omega

theorem secs_le_of_not_precedes {from_ to_ : DateTime} (ordered : ¬ to_.Precedes from_) :
    from_.secs ≤ to_.secs := by
  unfold DateTime.Precedes at ordered
  omega

/-- Without a leap second the count is the number of buckets touched. -/
theorem wanted_plain {unit : SeriesUnit} {from_ to_ : DateTime}
    (ordered : from_.secs ≤ to_.secs) (first : Plain unit from_) (last : Plain unit to_) :
    SeriesWindow.wanted unit from_ to_ = touched unit from_ to_ := by
  have apart : (Stamp.mk (unit.floor to_.secs) 0).secondsSince ⟨unit.floor from_.secs, 0⟩ =
      unit.step * ((touched unit from_ to_ : Int) - 1) := by
    rw [← floor_sub_floor unit ordered]
    simp [Stamp.secondsSince]
  rw [SeriesWindow.wanted, truncate_plain first, truncate_plain last, apart,
    Int.mul_tdiv_cancel_left _ (step_pos unit).ne']
  omega

theorem hour_floor_mod (t : DateTime) :
    SeriesUnit.hour.floor t.secs % 86400 = hourOfDay t * 3600 := by
  show (t.secs - t.secs % 3600) % 86400 = t.secs % 86400 / 3600 * 3600
  omega

/-- From inside a leap second, an hour that is not later in the day is one bucket
short. -/
theorem wanted_from_leap {from_ to_ : DateTime} (ordered : from_.secs ≤ to_.secs)
    (leap : from_.IsLeap) (plain : Plain .hour to_) :
    SeriesWindow.wanted .hour from_ to_ =
      if hourOfDay from_ < hourOfDay to_ ∨ touched .hour from_ to_ = 1 then
        (touched .hour from_ to_ : Int)
      else touched .hour from_ to_ - 1 := by
  have apart : (Stamp.mk (SeriesUnit.hour.floor to_.secs) 0).secondsSince
      ⟨SeriesUnit.hour.floor from_.secs, 1000000000⟩ =
        3600 * ((touched .hour from_ to_ : Int) - 1) +
          if hourOfDay from_ < hourOfDay to_ then 0 else -1 := by
    have gap : SeriesUnit.hour.floor to_.secs - SeriesUnit.hour.floor from_.secs =
        3600 * ((touched .hour from_ to_ : Int) - 1) := floor_sub_floor .hour ordered
    have later : SeriesUnit.hour.floor from_.secs % 86400 < SeriesUnit.hour.floor to_.secs % 86400 ↔
        hourOfDay from_ < hourOfDay to_ := by
      rw [hour_floor_mod, hour_floor_mod]
      omega
    have whole : ∀ n : Int, (n * 1000000000 + ((0 : Nat) - (1000000000 : Nat) : Int)).tdiv 1000000000 =
        n - 1 := by
      intro n
      rw [show n * 1000000000 + ((0 : Nat) - (1000000000 : Nat) : Int) = 1000000000 * (n - 1) by
        push_cast; ring]
      exact Int.mul_tdiv_cancel_left _ (by norm_num)
    simp only [Stamp.secondsSince, later, le_refl, if_true]
    rw [whole, gap]
    split <;> simp
    omega
  have positive : 1 ≤ touched .hour from_ to_ := by
    unfold touched
    omega
  rw [SeriesWindow.wanted, truncate_leap leap, truncate_plain plain, apart]
  show (_ : Int).tdiv 3600 + 1 = _
  by_cases later : hourOfDay from_ < hourOfDay to_
  · simp only [later, if_true, add_zero, true_or]
    rw [Int.mul_tdiv_cancel_left _ (by norm_num)]
    omega
  · by_cases one : touched .hour from_ to_ = 1
    · simp [later, one]
    · simp only [later, one, if_false, or_self]
      rw [Int.tdiv_eq_ediv_of_nonneg (by omega)]
      omega

theorem touched_pos (unit : SeriesUnit) (from_ to_ : DateTime) : 0 < touched unit from_ to_ := by
  unfold touched
  omega

theorem maxSpan_pos (unit : SeriesUnit) : 0 < unit.maxSpan := by
  cases unit <;> decide

theorem charted_pos (unit : SeriesUnit) (from_ to_ : DateTime) : 0 < charted unit from_ to_ :=
  lt_min (touched_pos unit from_ to_) (maxSpan_pos unit)

/-- What a leap second at the start can cost. -/
theorem wanted_cases {unit : SeriesUnit} {from_ to_ : DateTime} (ordered : from_.secs ≤ to_.secs)
    (last : Plain unit to_) :
    (SeriesWindow.wanted unit from_ to_ = touched unit from_ to_ ∧
      (unit = .hour → from_.IsLeap →
        hourOfDay from_ < hourOfDay to_ ∨ touched unit from_ to_ = 1)) ∨
    (unit = .hour ∧ from_.IsLeap ∧
      ¬ (hourOfDay from_ < hourOfDay to_ ∨ touched unit from_ to_ = 1) ∧
      SeriesWindow.wanted unit from_ to_ = touched unit from_ to_ - 1) := by
  by_cases first : Plain unit from_
  · exact .inl ⟨wanted_plain ordered first last, fun hourly leap => absurd leap (first hourly)⟩
  · obtain ⟨rfl, leap⟩ : unit = .hour ∧ from_.IsLeap := by
      simpa [Plain] using first
    have wanted := wanted_from_leap ordered leap last
    by_cases whole : hourOfDay from_ < hourOfDay to_ ∨ touched .hour from_ to_ = 1
    · rw [if_pos whole] at wanted
      exact .inl ⟨wanted, fun _ _ => whole⟩
    · rw [if_neg whole] at wanted
      exact .inr ⟨rfl, leap, whole, wanted⟩

/-- The window has as many buckets as it should exactly when nothing is lost to a
leap second at its start. -/
theorem spanOf_eq_charted_iff {unit : SeriesUnit} {from_ to_ : DateTime}
    (ordered : from_.secs ≤ to_.secs) (last : Plain unit to_) :
    SeriesWindow.spanOf unit from_ to_ = charted unit from_ to_ ↔
      (unit = .hour → from_.IsLeap → hourOfDay from_ < hourOfDay to_ ∨
        touched unit from_ to_ = 1 ∨ maxTrendHours < touched unit from_ to_) := by
  have positive := touched_pos unit from_ to_
  have ceiling := maxSpan_pos unit
  rcases wanted_cases ordered last with ⟨wanted, whole⟩ | ⟨rfl, leap, lost, wanted⟩
  · refine iff_of_true ?_ fun hourly leap => ?_
    · unfold SeriesWindow.spanOf charted
      omega
    · rcases whole hourly leap with later | one
      · exact .inl later
      · exact .inr (.inl one)
  · have most : SeriesUnit.hour.maxSpan = maxTrendHours := rfl
    obtain ⟨early, several⟩ := not_or.mp lost
    simp only [true_implies, leap, early, several, false_or]
    unfold SeriesWindow.spanOf charted
    rw [wanted, most]
    omega

/-- It never has more buckets than the range touches. -/
theorem spanOf_le_touched {unit : SeriesUnit} {from_ to_ : DateTime}
    (ordered : from_.secs ≤ to_.secs) (last : Plain unit to_) :
    SeriesWindow.spanOf unit from_ to_ ≤ touched unit from_ to_ := by
  have positive := touched_pos unit from_ to_
  unfold SeriesWindow.spanOf
  rcases wanted_cases ordered last with ⟨wanted, -⟩ | ⟨-, -, -, wanted⟩ <;> omega

theorem spanOf_pos (unit : SeriesUnit) (from_ to_ : DateTime) :
    0 < SeriesWindow.spanOf unit from_ to_ := by
  unfold SeriesWindow.spanOf
  omega

/-! ## The window -/

theorem floor_le (unit : SeriesUnit) (secs : Int) : unit.floor secs ≤ secs := by
  have low := Int.emod_nonneg secs (step_pos unit).ne'
  unfold SeriesUnit.floor
  omega

theorem lt_floor_add (unit : SeriesUnit) (secs : Int) : secs < unit.floor secs + unit.step := by
  have high := Int.emod_lt_of_pos secs (step_pos unit)
  unfold SeriesUnit.floor
  omega

theorem floor_mod (unit : SeriesUnit) (secs : Int) : unit.floor secs % unit.step = 0 := by
  unfold SeriesUnit.floor
  exact Int.emod_eq_zero_of_dvd (Int.dvd_self_sub_emod)

/-- A bucket does not cross midnight. -/
theorem civilOfSeconds_floor (unit : SeriesUnit) (secs : Int) :
    civilOfSeconds (unit.floor secs) = civilOfSeconds secs := by
  have day : unit.floor secs / 86400 = secs / 86400 := by
    cases unit with
    | hour =>
        show (secs - secs % 3600) / 86400 = secs / 86400
        omega
    | day =>
        show (secs - secs % 86400) / 86400 = secs / 86400
        omega
  rw [civilOfSeconds, day, civilOfSeconds]

/-- The start of a bucket of the window. -/
def startOf (unit : SeriesUnit) (to_ : DateTime) (span k : Nat) : Int :=
  unit.floor to_.secs - unit.step * ((span : Int) - 1) + unit.step * k

/-- From the first bucket of the range to the last, every start is in the
calendar. -/
theorem inCalendar_startOf {unit : SeriesUnit} {from_ to_ : DateTime}
    (ordered : from_.secs ≤ to_.secs) {span k : Nat} (fits : span ≤ touched unit from_ to_)
    (upper : (civilOfSeconds (startOf unit to_ span k)).year ≤ 262142) :
    Stamp.InCalendar ⟨startOf unit to_ span k, 0⟩ := by
  have gap := floor_sub_floor unit ordered
  have early : unit.floor from_.secs ≤ startOf unit to_ span k := by
    have less : unit.step * ((span : Int) - 1) ≤
        unit.step * ((touched unit from_ to_ : Int) - 1) :=
      mul_le_mul_of_nonneg_left (by omega) (step_pos unit).le
    have more : 0 ≤ unit.step * (k : Int) := mul_nonneg (step_pos unit).le (by omega)
    unfold startOf
    omega
  have years := civilOfSeconds_year_mono early
  rw [civilOfSeconds_floor] at years
  exact ⟨le_trans from_.year_ge years, upper⟩

theorem startOf_le {unit : SeriesUnit} {to_ : DateTime} {span k : Nat} (inside : k < span) :
    startOf unit to_ span k ≤ to_.secs := by
  have less : unit.step * (k : Int) ≤ unit.step * ((span : Int) - 1) :=
    mul_le_mul_of_nonneg_left (by omega) (step_pos unit).le
  have low := floor_le unit to_.secs
  unfold startOf
  omega

theorem startOf_year_le {unit : SeriesUnit} {to_ : DateTime} {span k : Nat} (inside : k < span) :
    (civilOfSeconds (startOf unit to_ span k)).year ≤ 262142 :=
  le_trans (civilOfSeconds_year_mono (startOf_le inside)) to_.year_le

theorem between_plain {unit : SeriesUnit} {from_ to_ : DateTime} (ordered : ¬ to_.Precedes from_)
    (last : Plain unit to_) :
    SeriesWindow.between unit from_ to_ =
      .ok ⟨unit, ⟨startOf unit to_ (SeriesWindow.spanOf unit from_ to_) 0, 0⟩,
        SeriesWindow.spanOf unit from_ to_⟩ := by
  have secs := secs_le_of_not_precedes ordered
  have first : startOf unit to_ (SeriesWindow.spanOf unit from_ to_) 0 =
      unit.floor to_.secs + -(unit.step * (((SeriesWindow.spanOf unit from_ to_ : Nat) : Int) - 1)) := by
    unfold startOf
    simp
    ring
  have inside : Stamp.InCalendar ⟨startOf unit to_ (SeriesWindow.spanOf unit from_ to_) 0, 0⟩ :=
    inCalendar_startOf secs (spanOf_le_touched secs last)
      (startOf_year_le (spanOf_pos unit from_ to_))
  rw [SeriesWindow.between, if_neg ordered, truncate_plain last]
  dsimp only
  rw [Stamp.plus_plain, ← first, if_pos inside]

theorem bucket_startOf {unit : SeriesUnit} {from_ to_ : DateTime} (ordered : from_.secs ≤ to_.secs)
    {span k : Nat} (fits : span ≤ touched unit from_ to_)
    (upper : (civilOfSeconds (startOf unit to_ span k)).year ≤ 262142) :
    SeriesWindow.bucket ⟨unit, ⟨startOf unit to_ span 0, 0⟩, span⟩ k =
      some ⟨startOf unit to_ span k, 0⟩ := by
  have moved : startOf unit to_ span 0 + unit.step * k = startOf unit to_ span k := by
    unfold startOf
    simp
  rw [SeriesWindow.bucket, Stamp.plus_plain, moved, if_pos (inCalendar_startOf ordered fits upper)]

end MajsoulManager.Index
