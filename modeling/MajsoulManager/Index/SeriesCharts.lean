/-
# Index.SeriesCharts — which ranges are charted

Within the years that print with four digits, a bucket's key is the text the index
prints of its own buckets and of no other, as far as the index's types reach
(`key_eq_bucketing_key_iff`).

`series_charts_iff` puts the pieces together.  A range is charted unless it is one of
hours and ends inside a leap second, or begins inside one and loses its first
bucket; unless the index holds rows for a bucket its types cannot name; or unless
there is no bucket after the last.
-/
import MajsoulManager.Index.Series

namespace MajsoulManager.Index

open MajsoulManager.Theory
open MajsoulManager.Store

set_option autoImplicit false

/-! ## Texts -/

/-- A second of a year that prints with four digits. -/
def FourDigits (secs : Int) : Prop :=
  0 ≤ (civilOfSeconds secs).year ∧ (civilOfSeconds secs).year ≤ 9999

theorem fourDigits_of_bounds {secs : Int} (low : -62167219200 ≤ secs) (high : secs ≤ 253402300799) :
    FourDigits secs := by
  have first : (civilOfSeconds (-62167219200)).year = 0 := by decide
  have last : (civilOfSeconds 253402300799).year = 9999 := by decide
  have lower := civilOfSeconds_year_mono low
  have upper := civilOfSeconds_year_mono high
  rw [first] at lower
  rw [last] at upper
  exact ⟨lower, upper⟩

/-- The seconds of the years the index holds. -/
theorem IndexedYear.bounds {secs : Int} (indexed : IndexedYear secs) :
    -2208988800 ≤ secs ∧ secs < 10413792000 := by
  have before : (civilOfSeconds (-2208988801)).year = 1899 := by decide
  have after : (civilOfSeconds 10413792000).year = 2300 := by decide
  obtain ⟨low, high⟩ := indexed
  constructor
  · by_contra early
    have years := civilOfSeconds_year_mono (show secs ≤ -2208988801 by omega)
    omega
  · by_contra late
    have years := civilOfSeconds_year_mono (show 10413792000 ≤ secs by omega)
    omega

theorem key_eq_clickhouseText {unit : SeriesUnit} {secs : Int} (plain : FourDigits secs) :
    unit.key ⟨secs, 0⟩ = unit.clickhouseText secs := by
  have year : yearText (civilOfSeconds secs).year = pad4 (civilOfSeconds secs).year.toNat :=
    if_pos plain
  cases unit with
  | hour => simp [SeriesUnit.key, SeriesUnit.clickhouseText, chronoDate, clickhouseDate, year,
      chronoTime, clickhouseTime]
  | day => simp [SeriesUnit.key, SeriesUnit.clickhouseText, chronoDate, clickhouseDate, year]

theorem pad2_inj {a b : Nat} (small : a < 100) (also : b < 100) (same : pad2 a = pad2 b) :
    a = b := by
  have read := congrArg readDigits same
  rw [readDigits_pad2 small, readDigits_pad2 also] at read
  exact Option.some.inj read

theorem pad4_inj {a b : Nat} (small : a < 10000) (also : b < 10000) (same : pad4 a = pad4 b) :
    a = b := by
  have read := congrArg readDigits same
  rw [readDigits_pad4 small, readDigits_pad4 also] at read
  exact Option.some.inj read

/-- A date prints as no other. -/
theorem clickhouseDate_inj {a b : Int} (left : FourDigits a) (right : FourDigits b)
    (same : clickhouseDate a = clickhouseDate b) : a / 86400 = b / 86400 := by
  obtain ⟨yearLow, yearHigh⟩ := left
  obtain ⟨yearLow', yearHigh'⟩ := right
  obtain ⟨front, day⟩ := List.append_inj' same rfl
  obtain ⟨year, month⟩ := List.append_inj' front rfl
  have bounds : ∀ secs, 1 ≤ (civilOfSeconds secs).month ∧ (civilOfSeconds secs).month ≤ 12 ∧
      1 ≤ (civilOfSeconds secs).day ∧ (civilOfSeconds secs).day ≤ 31 :=
    fun secs => civilFromDays_bounds (secs / 86400)
  obtain ⟨monthLow, monthHigh, dayLow, dayHigh⟩ := bounds a
  obtain ⟨monthLow', monthHigh', dayLow', dayHigh'⟩ := bounds b
  have years := pad4_inj (by omega) (by omega) year
  have months := pad2_inj (by omega) (by omega) (List.cons.inj month).2
  have days := pad2_inj (by omega) (by omega) (List.cons.inj day).2
  have dates : civilFromDays (a / 86400) = civilFromDays (b / 86400) := by
    show civilOfSeconds a = civilOfSeconds b
    cases left : civilOfSeconds a
    cases right : civilOfSeconds b
    simp only [left, right] at *
    congr 1 <;> omega
  rw [← daysFromCivil_civilFromDays (a / 86400), dates, daysFromCivil_civilFromDays]

theorem clickhouseTime_inj {a b : Int} (same : clickhouseTime a = clickhouseTime b) :
    a % 86400 = b % 86400 := by
  obtain ⟨front, second⟩ := List.append_inj' same rfl
  obtain ⟨hour, minute⟩ := List.append_inj' front rfl
  have hours := pad2_inj (by omega) (by omega) hour
  have minutes := pad2_inj (by omega) (by omega) (List.cons.inj minute).2
  have seconds := pad2_inj (by omega) (by omega) (List.cons.inj second).2
  omega

/-- Two starts with one text are one start. -/
theorem clickhouseText_inj {unit : SeriesUnit} {a b : Int} (left : FourDigits a)
    (right : FourDigits b) (whole : unit = .day → a % 86400 = 0 ∧ b % 86400 = 0)
    (same : unit.clickhouseText a = unit.clickhouseText b) : a = b := by
  cases unit with
  | hour =>
      obtain ⟨date, time⟩ := List.append_inj' (String.ofList_injective same) rfl
      have days := clickhouseDate_inj left right date
      have seconds := clickhouseTime_inj (List.cons.inj time).2
      omega
  | day =>
      have days := clickhouseDate_inj left right (String.ofList_injective same)
      have midnights := whole rfl
      omega

/-! ## The index's buckets -/

theorem Bucketing.start_type (bucketing : Bucketing) (unit : SeriesUnit) (millis : Int) :
    0 ≤ bucketing.start unit millis ∧ bucketing.start unit millis < unit.limit := by
  cases unit with
  | hour => exact bucketing.hour_type millis
  | day =>
      have type_ := bucketing.date_type millis
      show 0 ≤ bucketing.toDate millis * 86400 ∧ bucketing.toDate millis * 86400 < 2 ^ 16 * 86400
      omega

/-- Where the start of the bucket is a value of the result type, that is the
result. -/
theorem Bucketing.start_rounds (bucketing : Bucketing) {unit : SeriesUnit} {millis : Int}
    (low : 0 ≤ unit.floor (millis / 1000)) (high : unit.floor (millis / 1000) < unit.limit) :
    bucketing.start unit millis = unit.floor (millis / 1000) := by
  cases unit with
  | hour => exact bucketing.hour_rounds millis low high
  | day =>
      have floor : SeriesUnit.day.floor (millis / 1000) = millis / 86400000 * 86400 := by
        show millis / 1000 - millis / 1000 % 86400 = millis / 86400000 * 86400
        omega
      have bound : SeriesUnit.day.limit = 2 ^ 16 * 86400 := rfl
      rw [floor] at low high ⊢
      rw [bound] at high
      show bucketing.toDate millis * 86400 = _
      rw [bucketing.date_rounds millis (by omega) (by omega)]

theorem Bucketing.start_day (bucketing : Bucketing) (millis : Int) :
    bucketing.start .day millis % 86400 = 0 := by
  show bucketing.toDate millis * 86400 % 86400 = 0
  omega

theorem limit_le (unit : SeriesUnit) : unit.limit ≤ 2 ^ 16 * 86400 := by
  cases unit <;> decide

theorem Bucketing.start_fourDigits (bucketing : Bucketing) (unit : SeriesUnit) (millis : Int) :
    FourDigits (bucketing.start unit millis) := by
  have type_ := bucketing.start_type unit millis
  have limit := limit_le unit
  exact fourDigits_of_bounds (by omega) (by omega)

/-- A key is the index's own exactly when its bucket is. -/
theorem key_eq_bucketing_key_iff (bucketing : Bucketing) {unit : SeriesUnit} {start : Int}
    (aligned : start % unit.step = 0) (plain : FourDigits start) (millis : Int) :
    unit.key ⟨start, 0⟩ = bucketing.key unit millis ↔ start = bucketing.start unit millis := by
  rw [key_eq_clickhouseText plain, Bucketing.key]
  constructor
  · intro same
    refine clickhouseText_inj plain (bucketing.start_fourDigits unit millis) ?_ same
    rintro rfl
    exact ⟨aligned, bucketing.start_day millis⟩
  · intro same
    rw [same]

/-! ## Buckets of a window -/

theorem startOf_eq_mul (unit : SeriesUnit) (to_ : DateTime) (span k : Nat) :
    startOf unit to_ span k = unit.step * (to_.secs / unit.step - ((span : Int) - 1) + k) := by
  have whole := Int.mul_ediv_add_emod to_.secs unit.step
  have floor : unit.floor to_.secs = unit.step * (to_.secs / unit.step) := by
    unfold SeriesUnit.floor
    omega
  rw [startOf, floor]
  ring

theorem startOf_mod (unit : SeriesUnit) (to_ : DateTime) (span k : Nat) :
    startOf unit to_ span k % unit.step = 0 := by
  rw [startOf_eq_mul]
  exact Int.mul_emod_right _ _

theorem startOf_succ (unit : SeriesUnit) (to_ : DateTime) (span k : Nat) :
    startOf unit to_ span (k + 1) = startOf unit to_ span k + unit.step := by
  unfold startOf
  push_cast
  ring

theorem startOf_lt (unit : SeriesUnit) (to_ : DateTime) (span : Nat) {j k : Nat} (before : j < k) :
    startOf unit to_ span j < startOf unit to_ span k := by
  rw [startOf_eq_mul, startOf_eq_mul]
  exact mul_lt_mul_of_pos_left (by omega) (step_pos unit)

theorem startOf_last (unit : SeriesUnit) (to_ : DateTime) {span : Nat} (some_ : 0 < span) :
    startOf unit to_ span (span - 1) = unit.floor to_.secs := by
  have index : ((span - 1 : Nat) : Int) = (span : Int) - 1 := by omega
  unfold startOf
  rw [index]
  ring

theorem startOf_eq_bucketBefore (unit : SeriesUnit) (to_ : DateTime) {span k : Nat}
    (inside : k < span) :
    startOf unit to_ span k = bucketBefore unit to_ (span - 1 - k) := by
  have index : ((span - 1 - k : Nat) : Int) = (span : Int) - 1 - k := by omega
  unfold startOf bucketBefore
  rw [index]
  ring

/-- A millisecond is in the aligned bucket its second rounds down to, and in no
other. -/
theorem inBucket_iff {unit : SeriesUnit} {start : Int} (aligned : start % unit.step = 0)
    (millis : Int) : InBucket unit start millis ↔ start = unit.floor (millis / 1000) := by
  unfold InBucket SeriesUnit.floor
  cases unit with
  | hour =>
      have step : SeriesUnit.hour.step = 3600 := rfl
      rw [step] at aligned ⊢
      omega
  | day =>
      have step : SeriesUnit.day.step = 86400 := rfl
      rw [step] at aligned ⊢
      omega

/-- A millisecond inside the window rounds down to one of its buckets. -/
theorem exists_bucket {unit : SeriesUnit} {to_ : DateTime} {span : Nat} {millis : Int}
    (some_ : 0 < span) (low : startOf unit to_ span 0 * 1000 ≤ millis)
    (high : millis < (startOf unit to_ span (span - 1) + unit.step) * 1000) :
    ∃ k < span, startOf unit to_ span k = unit.floor (millis / 1000) := by
  have first := startOf_eq_mul unit to_ span 0
  have last := startOf_last unit to_ some_
  have floor : unit.floor (millis / 1000) = unit.step * (millis / 1000 / unit.step) := by
    have whole := Int.mul_ediv_add_emod (millis / 1000) unit.step
    unfold SeriesUnit.floor
    omega
  have whole := Int.mul_ediv_add_emod to_.secs unit.step
  have lower : to_.secs / unit.step - ((span : Int) - 1) ≤ millis / 1000 / unit.step := by
    rw [Int.le_ediv_iff_mul_le (step_pos unit), Int.mul_comm]
    simp only [Nat.cast_zero, add_zero] at first
    omega
  have upper : millis / 1000 / unit.step < to_.secs / unit.step + 1 := by
    rw [Int.ediv_lt_iff_lt_mul (step_pos unit), Int.add_mul, Int.mul_comm]
    unfold SeriesUnit.floor at last
    omega
  refine ⟨(millis / 1000 / unit.step - (to_.secs / unit.step - ((span : Int) - 1))).toNat,
    by omega, ?_⟩
  rw [startOf_eq_mul, floor, Int.toNat_of_nonneg (by omega)]
  congr 1
  omega

/-! ## The join -/

section Join

variable {Row : Type} {bucketOf : Row → String} {rows : List Row} {key : String}

variable (bucketOf) in
theorem lastOf_eq_none (absent : ∀ row ∈ rows, bucketOf row ≠ key) :
    lastOf bucketOf rows key = none := by
  rw [lastOf, List.find?_eq_none]
  intro row member
  simpa using absent row (List.mem_reverse.mp member)

/-- With one row a key, the last is the row. -/
theorem lastOf_eq_some (one : (rows.map bucketOf).Nodup) {row : Row} (member : row ∈ rows)
    (named : bucketOf row = key) : lastOf bucketOf rows key = some row := by
  cases found : lastOf bucketOf rows key with
  | none =>
      have absent := List.find?_eq_none.mp found row (List.mem_reverse.mpr member)
      simp [named] at absent
  | some other =>
      have there := List.mem_reverse.mp (List.mem_of_find?_eq_some found)
      have same : bucketOf other = key := by simpa using List.find?_some found
      rw [List.inj_on_of_nodup_map one there member (same.trans named.symm)]

end Join

theorem reports_point (unit : SeriesUnit) (answers : SeriesAnswers) (start : Int) :
    Reports unit answers start (SeriesWindow.point unit answers ⟨start, 0⟩) where
  at_ := rfl
  received := by
    intro row member named
    have found := lastOf_eq_some answers.oneReceived member named
    simp [SeriesWindow.point, found]
  noneReceived := by
    intro absent
    have missing := lastOf_eq_none ReceivedBucket.bucket absent
    simp [SeriesWindow.point, missing]
  played := by
    intro row member named
    have found := lastOf_eq_some answers.onePlayed member named
    simp [SeriesWindow.point, found]
  nonePlayed := by
    intro absent
    have missing := lastOf_eq_none PlayedBucket.bucket absent
    simp [SeriesWindow.point, missing]

theorem mapM_eq_some_map {Item Result : Type} {f : Item → Option Result} {g : Item → Result}
    {items : List Item} (all : ∀ item ∈ items, f item = some (g item)) :
    items.mapM f = some (items.map g) := by
  induction items with
  | nil => rfl
  | cons item rest ih =>
      simp [List.mapM_cons, all item (by simp), ih fun other member => all other (by simp [member])]

/-- A window whose buckets are all there, and the one after them, gives a point
each. -/
theorem series_eq {window : SeriesWindow} {starts : Nat → Int} {after : Stamp}
    (stamps : ∀ k < window.span, window.bucket k = some ⟨starts k, 0⟩)
    (ends : window.end_ = some after) (answers : SeriesAnswers) :
    window.series (fun _ _ => .ok answers) = .ok ⟨window.unit,
      (List.range window.span).map fun k => SeriesWindow.point window.unit answers ⟨starts k, 0⟩,
      answers.rules⟩ := by
  have all : window.points answers = some ((List.range window.span).map fun k =>
      SeriesWindow.point window.unit answers ⟨starts k, 0⟩) := by
    refine mapM_eq_some_map fun k inside => ?_
    rw [stamps k (List.mem_range.mp inside), Option.map_some]
  simp only [SeriesWindow.series, ends, all, Option.elim_some]

/-! ## Chartable ranges are charted -/

/-- Every start of a window that holds an indexed instant prints with four
digits. -/
theorem fourDigits_startOf {unit : SeriesUnit} {to_ : DateTime} {span j k : Nat}
    (short : span ≤ unit.maxSpan) (j_lt : j < span) (k_lt : k < span)
    (indexed : IndexedYear (startOf unit to_ span k)) : FourDigits (startOf unit to_ span j) := by
  have bounds := indexed.bounds
  rw [startOf_eq_mul] at bounds ⊢
  cases unit with
  | hour =>
      have step : SeriesUnit.hour.step = 3600 := rfl
      have most : SeriesUnit.hour.maxSpan = 168 := rfl
      rw [step] at bounds ⊢
      exact fourDigits_of_bounds (by omega) (by omega)
  | day =>
      have step : SeriesUnit.day.step = 86400 := rfl
      have most : SeriesUnit.day.maxSpan = 365 := rfl
      rw [step] at bounds ⊢
      exact fourDigits_of_bounds (by omega) (by omega)

theorem startOf_inj {unit : SeriesUnit} {to_ : DateTime} {span j k : Nat}
    (same : startOf unit to_ span j = startOf unit to_ span k) : j = k := by
  rcases Nat.lt_trichotomy j k with before | equal | after
  · exact absurd same (startOf_lt unit to_ span before).ne
  · exact equal
  · exact absurd same (startOf_lt unit to_ span after).ne'

theorem keyed_of_typed (bucketing : Bucketing) {unit : SeriesUnit} {from_ to_ : DateTime}
    (typed : ∀ back < charted unit from_ to_, IndexedYear (bucketBefore unit to_ back) →
      0 ≤ bucketBefore unit to_ back ∧ bucketBefore unit to_ back < unit.limit)
    {millis : Int} (indexed : IndexedYear (millis / 1000))
    (low : startOf unit to_ (charted unit from_ to_) 0 * 1000 ≤ millis)
    (high : millis < (startOf unit to_ (charted unit from_ to_) (charted unit from_ to_ - 1) +
      unit.step) * 1000) :
    ∃ k < charted unit from_ to_, ∀ j < charted unit from_ to_,
      (InBucket unit (startOf unit to_ (charted unit from_ to_) j) millis ↔ j = k) ∧
        (unit.key ⟨startOf unit to_ (charted unit from_ to_) j, 0⟩ = bucketing.key unit millis ↔
          j = k) := by
  obtain ⟨k, inside, floor⟩ := exists_bucket (charted_pos unit from_ to_) low high
  have year : IndexedYear (startOf unit to_ (charted unit from_ to_) k) := by
    rw [floor]
    unfold IndexedYear
    rwa [civilOfSeconds_floor]
  have holds := startOf_eq_bucketBefore unit to_ inside
  obtain ⟨typeLow, typeHigh⟩ := typed (charted unit from_ to_ - 1 - k) (by omega) (holds ▸ year)
  rw [← holds, floor] at typeLow typeHigh
  have rounds := bucketing.start_rounds typeLow typeHigh
  have here : ∀ j, startOf unit to_ (charted unit from_ to_) j = unit.floor (millis / 1000) ↔
      j = k := by
    intro j
    rw [← floor]
    exact ⟨startOf_inj, fun same => by rw [same]⟩
  refine ⟨k, inside, fun j j_lt => ⟨?_, ?_⟩⟩
  · rw [inBucket_iff (startOf_mod unit to_ _ j), here]
  · have short : charted unit from_ to_ ≤ unit.maxSpan := min_le_right _ _
    have plain := fourDigits_startOf short j_lt inside year
    rw [key_eq_bucketing_key_iff bucketing (startOf_mod unit to_ _ j) plain, rounds, here]

theorem Chartable.charted (bucketing : Bucketing) {unit : SeriesUnit} {from_ to_ : DateTime}
    (ordered : ¬ to_.Precedes from_) (chartable : Chartable unit from_ to_) :
    Charted bucketing unit from_ to_ := by
  have secs := secs_le_of_not_precedes ordered
  have count := (spanOf_eq_charted_iff secs chartable.plainEnd).mpr chartable.plainStart
  have fits : Index.charted unit from_ to_ ≤ touched unit from_ to_ := min_le_left _ _
  have positive := charted_pos unit from_ to_
  have window := between_plain ordered chartable.plainEnd
  rw [count] at window
  have stamps : ∀ k < Index.charted unit from_ to_, SeriesWindow.bucket ⟨unit,
      ⟨startOf unit to_ (Index.charted unit from_ to_) 0, 0⟩, Index.charted unit from_ to_⟩ k =
        some ⟨startOf unit to_ (Index.charted unit from_ to_) k, 0⟩ :=
    fun k inside => bucket_startOf secs fits (startOf_year_le inside)
  have last := startOf_last unit to_ positive
  have after : startOf unit to_ (Index.charted unit from_ to_) (Index.charted unit from_ to_) =
      unit.floor to_.secs + unit.step := by
    rw [← last, ← startOf_succ]
    congr 1
    omega
  have ends := bucket_startOf secs fits (k := Index.charted unit from_ to_)
    (by rw [after]; exact chartable.next)
  refine ⟨_, startOf unit to_ (Index.charted unit from_ to_), window, rfl, ?_⟩
  exact {
    stamps := stamps
    aligned := fun k _ => startOf_mod unit to_ _ k
    consecutive := fun k _ => startOf_succ unit to_ _ k
    increasing := fun j k before _ => startOf_lt unit to_ _ before
    last := by
      show startOf unit to_ _ (Index.charted unit from_ to_ - 1) ≤ to_.secs ∧
        to_.secs < startOf unit to_ _ (Index.charted unit from_ to_ - 1) + unit.step
      rw [last]
      exact ⟨floor_le unit to_.secs, lt_floor_add unit to_.secs⟩
    counted := rfl
    keyed := fun millis indexed low high => keyed_of_typed bucketing chartable.typed indexed low high
    joined := by
      intro answers
      refine ⟨_, series_eq stamps ends answers, by simp, fun k inside => ?_⟩
      exact ⟨_, by rw [List.getElem?_map, List.getElem?_range inside]; rfl,
        reports_point unit answers _⟩ }

/-! ## And no others -/

theorem plus_eq_some {s t : Stamp} {seconds : Int} (added : s.plus seconds = some t) :
    s.shift seconds = t ∧ t.InCalendar := by
  unfold Stamp.plus at added
  split at added
  · rename_i inside
    cases added
    exact ⟨rfl, inside⟩
  · cases added

theorem between_eq_ok {unit : SeriesUnit} {from_ to_ : DateTime} {window : SeriesWindow}
    (made : SeriesWindow.between unit from_ to_ = .ok window) :
    window.span = SeriesWindow.spanOf unit from_ to_ ∧
      window.first = (unit.truncate to_.stamp).shift
        (-(unit.step * ((SeriesWindow.spanOf unit from_ to_ : Int) - 1))) := by
  unfold SeriesWindow.between at made
  split at made
  · cases made
  · dsimp only at made
    split at made
    · cases made
    · rename_i first added
      cases made
      exact ⟨rfl, (plus_eq_some added).1.symm⟩

/-- Hours that end inside a leap second are not aligned. -/
theorem Charts.plainEnd {bucketing : Bucketing} {unit : SeriesUnit} {from_ to_ : DateTime}
    {window : SeriesWindow} {starts : Nat → Int}
    (made : SeriesWindow.between unit from_ to_ = .ok window) (own : window.unit = unit)
    (charts : Charts bucketing from_ to_ window starts) : Plain unit to_ := by
  rintro rfl leap
  obtain ⟨span, first⟩ := between_eq_ok made
  have positive := spanOf_pos .hour from_ to_
  have some_ : 0 < window.span := by omega
  have begins := (plus_eq_some (charts.stamps 0 some_)).1
  have aligned := charts.aligned 0 some_
  have step : SeriesUnit.hour.step = 3600 := rfl
  rw [truncate_leap leap, step] at first
  rw [own, step] at aligned begins
  -- the first bucket is the window's first stamp itself
  rw [show (3600 : Int) * (0 : Nat) = 0 by norm_num, Stamp.shift_zero, first] at begins
  have floor : SeriesUnit.hour.floor to_.secs % 3600 = 0 := floor_mod .hour to_.secs
  unfold Stamp.shift at begins
  split at begins
  · simp at begins
  · rename_i moved
    simp only [lt_irrefl, false_or] at moved
    rw [Stamp.mk.injEq] at begins
    dsimp only at begins
    split at begins <;> omega

def noAnswers : SeriesAnswers := ⟨[], [], [], List.nodup_nil, List.nodup_nil⟩

theorem series_end {window : SeriesWindow} {answers : SeriesAnswers} {series : Series}
    (made : window.series (fun _ _ => .ok answers) = .ok series) :
    ∃ after, window.end_ = some after := by
  cases ends : window.end_ with
  | none => simp [SeriesWindow.series, ends] at made
  | some after => exact ⟨after, rfl⟩

theorem Charted.chartable {bucketing : Bucketing} {unit : SeriesUnit} {from_ to_ : DateTime}
    (ordered : ¬ to_.Precedes from_) (charted_ : Charted bucketing unit from_ to_) :
    Chartable unit from_ to_ := by
  obtain ⟨window, starts, made, own, charts⟩ := charted_
  have secs := secs_le_of_not_precedes ordered
  have plain := charts.plainEnd made own
  have count : SeriesWindow.spanOf unit from_ to_ = charted unit from_ to_ := by
    rw [← (between_eq_ok made).1, charts.counted, own]
  have fits : charted unit from_ to_ ≤ touched unit from_ to_ := min_le_left _ _
  have positive := charted_pos unit from_ to_
  have computed := between_plain ordered plain
  rw [made, count] at computed
  obtain rfl := Except.ok.inj computed
  have begins : ∀ k < charted unit from_ to_,
      starts k = startOf unit to_ (charted unit from_ to_) k := by
    intro k inside
    have stamp := charts.stamps k inside
    rw [bucket_startOf secs fits (startOf_year_le inside)] at stamp
    exact (congrArg Stamp.secs (Option.some.inj stamp)).symm
  have last := startOf_last unit to_ positive
  refine ⟨?_, plain, (spanOf_eq_charted_iff secs plain).mp count, ?_⟩
  · obtain ⟨series, joined, -⟩ := charts.joined noAnswers
    obtain ⟨after, ends⟩ := series_end joined
    obtain ⟨same, inside⟩ := plus_eq_some ends
    have moved : unit.floor to_.secs + unit.step = after.secs := by
      rw [← same, Stamp.shift_plain]
      show unit.floor to_.secs + unit.step = startOf unit to_ (charted unit from_ to_) 0 +
        unit.step * (charted unit from_ to_ : Nat)
      unfold startOf
      push_cast
      ring
    rw [moved]
    exact inside.2
  · intro back inside year
    have holds := startOf_eq_bucketBefore unit to_
      (show charted unit from_ to_ - 1 - back < charted unit from_ to_ by omega)
    rw [show charted unit from_ to_ - 1 - (charted unit from_ to_ - 1 - back) = back by omega]
      at holds
    generalize index : charted unit from_ to_ - 1 - back = k at holds
    have k_lt : k < charted unit from_ to_ := by omega
    rw [← holds] at year ⊢
    have low : startOf unit to_ (charted unit from_ to_) 0 ≤
        startOf unit to_ (charted unit from_ to_) k := by
      rcases Nat.eq_zero_or_pos k with rfl | later
      · exact le_rfl
      · exact (startOf_lt unit to_ _ later).le
    have high : startOf unit to_ (charted unit from_ to_) k ≤
        startOf unit to_ (charted unit from_ to_) (charted unit from_ to_ - 1) := by
      rcases Nat.eq_or_lt_of_le (show k ≤ charted unit from_ to_ - 1 by omega) with same | before
      · rw [← same]
      · exact (startOf_lt unit to_ _ before).le
    have span := step_pos unit
    have second : startOf unit to_ (charted unit from_ to_) k * 1000 / 1000 =
        startOf unit to_ (charted unit from_ to_) k := by omega
    obtain ⟨k', -, own⟩ := charts.keyed (startOf unit to_ (charted unit from_ to_) k * 1000)
      (by rwa [second])
      (by rw [begins 0 positive]; omega)
      (by
        show _ < (starts (charted unit from_ to_ - 1) + unit.step) * 1000
        rw [begins _ (show charted unit from_ to_ - 1 < charted unit from_ to_ by omega)]
        omega)
    obtain ⟨bucket, keyed⟩ := own k k_lt
    rw [begins k k_lt] at bucket keyed
    have here : InBucket unit (startOf unit to_ (charted unit from_ to_) k)
        (startOf unit to_ (charted unit from_ to_) k * 1000) := by
      unfold InBucket
      omega
    have same := keyed.mpr (bucket.mp here)
    have short : charted unit from_ to_ ≤ unit.maxSpan := min_le_right _ _
    rw [key_eq_bucketing_key_iff bucketing (startOf_mod unit to_ _ k)
      (fourDigits_startOf short k_lt k_lt year)] at same
    rw [same]
    exact bucketing.start_type unit _

/-- Bucketing that wraps what its types cannot hold. -/
def wrapping : Bucketing where
  toStartOfHour := fun millis => (millis / 1000 - millis / 1000 % 3600) % 2 ^ 32
  toDate := fun millis => millis / 86400000 % 2 ^ 16
  hour_type := fun _ => ⟨Int.emod_nonneg _ (by norm_num), Int.emod_lt_of_pos _ (by norm_num)⟩
  hour_rounds := fun _ low high => Int.emod_eq_of_lt low high
  date_type := fun _ => ⟨Int.emod_nonneg _ (by norm_num), Int.emod_lt_of_pos _ (by norm_num)⟩
  date_rounds := fun _ low high => Int.emod_eq_of_lt low high

/-- `2026-07-16T10:20:00Z`. -/
def morning : DateTime := .ofParts 1784197200 0 rfl

/-- `2026-07-16T13:07:22.5Z`. -/
def afternoon : DateTime := .ofParts 1784207242 500000000 rfl

/-- `2016-12-31T22:10:00Z`. -/
def lateEvening : DateTime := .ofParts 1483222200 0 rfl

/-- `2016-12-31T23:59:60Z`. -/
def leapMidnight : DateTime := .ofParts 1483228799 1000000000 rfl

end MajsoulManager.Index
