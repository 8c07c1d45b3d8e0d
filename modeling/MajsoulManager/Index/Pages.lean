/-
# Index.Pages — the search and the export, page by page

`Catalog::page` over the rows `FINAL` leaves, with its filter.  Rows are ordered by
ingest time and, within a millisecond, by the server's own order on uuids: `collation`
is any such order, and the `WHERE` and the `ORDER BY` share it.  The cursor travels as
text between two pages.

`pages_exact`: whoever follows the cursors reads every matching row once, in order.
-/
import MajsoulManager.Theory.Keyset
import MajsoulManager.Index.Records
import MajsoulManager.Store.Columns
import MajsoulManager.Store.Reference

namespace MajsoulManager.Index

open MajsoulManager.Theory
open MajsoulManager.Store

set_option autoImplicit false

/-! ## The filter -/

structure RecordFilter where
  source : Option String := none
  player : Option String := none
  rule : Option String := none
  receivedFrom : Option DateTime := none
  receivedTo : Option DateTime := none
  playedFrom : Option DateTime := none
  playedTo : Option DateTime := none
  missingPb : Bool := false
  storedPb : Bool := false

/-- The smallest whole millisecond at or after an instant. -/
def ceilMillis (t : DateTime) : Int :=
  if t.nanos % 1000000 = 0 then timestampMillis t else timestampMillis t + 1

/-- The `pb_size` column. -/
def pbSize (row : Store.Record) : UInt32 := (row.majsoulPb.map (·.rawSize)).getD 0

/-- The `WHERE` clauses of the filter.  A lower bound is floored onto its millisecond
and an upper bound reaches past it; a row without `played_at` fails both bounds on it. -/
def RecordFilter.matches (filter : RecordFilter) (row : Store.Record) : Bool :=
  filter.source.all (· == row.source) &&
  filter.player.all (row.players.contains ·) &&
  filter.rule.all (· == row.rule.getD "") &&
  (!filter.missingPb || pbSize row == 0) &&
  (!filter.storedPb || 0 < pbSize row) &&
  filter.receivedFrom.all (fun bound => timestampMillis bound ≤ timestampMillis row.receivedAt) &&
  filter.playedFrom.all (fun bound => row.playedAt.any fun t =>
    timestampMillis bound ≤ timestampMillis t) &&
  filter.receivedTo.all (fun bound => timestampMillis row.receivedAt < ceilMillis bound) &&
  filter.playedTo.all fun bound => row.playedAt.any fun t => timestampMillis t < ceilMillis bound

/-! ## The cursor as text -/

/-- `DateTime::from_timestamp_millis`. -/
def fromTimestampMillis (millis : Int) : Option DateTime :=
  DateTime.fromTimestamp (millis / 1000) (millis % 1000 * 1000000).toNat

section Text

variable (uuid : UuidText)

def Cursor.toText (cursor : Cursor) : String :=
  toString (timestampMillis cursor.receivedAt) ++ "_" ++ uuid.toText cursor.recordId

def Cursor.fromText (text : String) : Except String Cursor :=
  match Text.splitOnce text '_' with
  | none => .error "malformed cursor"
  | some (millis, recordId) =>
      match (Text.parseI64 millis).bind fromTimestampMillis with
      | none => .error "malformed cursor timestamp"
      | some receivedAt =>
          match uuid.parseStr recordId with
          | none => .error "malformed cursor id"
          | some recordId => .ok ⟨receivedAt, recordId⟩

/-- The next request carries the cursor as its text. -/
def Cursor.carried (cursor : Cursor) : Option Cursor := (Cursor.fromText uuid (cursor.toText uuid)).toOption

end Text

/-! ## The page -/

section Page

variable (collation : Uuid → Nat)

/-- `(received_at, record_id) < (…, …)` on the server. -/
def tupleLess (at_ : DateTime) (id : Uuid) (otherAt : DateTime) (other : Uuid) : Bool :=
  timestampMillis at_ < timestampMillis otherAt ||
    (timestampMillis at_ == timestampMillis otherAt && collation id < collation other)

/-- `RECORDS_BEFORE`. -/
def recordsBefore (cursor : Cursor) (row : Store.Record) : Bool :=
  timestampMillis row.receivedAt ≤ timestampMillis cursor.receivedAt &&
    tupleLess collation row.receivedAt row.id cursor.receivedAt cursor.recordId

/-- `ORDER BY received_at DESC, record_id DESC`. -/
def OrderedBy (a b : Store.Record) : Prop :=
  tupleLess collation a.receivedAt a.id b.receivedAt b.id = false

instance : DecidableRel (OrderedBy collation) := fun a b =>
  inferInstanceAs (Decidable (tupleLess collation a.receivedAt a.id b.receivedAt b.id = false))

/-- `Catalog::page`: one row more than the limit is read, and tells whether more
follow. -/
def catalogPage (rows : List Store.Record) (filter : RecordFilter) (cursor : Option Cursor)
    (limit : Nat) : List Store.Record × Option Cursor :=
  let matched := rows.filter fun row =>
    filter.matches row && cursor.all fun c => recordsBefore collation c row
  let records := (matched.insertionSort (OrderedBy collation)).take (limit + 1)
  if limit < records.length then
    let records := records.take limit
    (records, records[limit - 1]?.map fun last => ⟨last.receivedAt, last.id⟩)
  else (records, none)

/-- Search: follow `next_cursor` until it is absent, at most `fuel` pages.  The filter
is the one `page` is called with, its window filled in. -/
def searchAll (uuid : UuidText) (rows : List Store.Record) (filter : RecordFilter) (limit : Nat) :
    Nat → Option Cursor → Option (List Store.Record) :=
  Keyset.walk (fun cursor => catalogPage collation rows filter cursor limit) (Cursor.carried uuid)

/-- The loop of `write_export`, which keeps the cursor as it is. -/
def exportAll (rows : List Store.Record) (filter : RecordFilter) (limit : Nat) :
    Nat → Option Cursor → Option (List Store.Record) :=
  Keyset.walk (fun cursor => catalogPage collation rows filter cursor limit) some

end Page

/-! ## Keys -/

section Keys

variable {collation : Uuid → Nat}

/-- Where a row stands: its millisecond, then the server's order on uuids. -/
def placeOf (collation : Uuid → Nat) (at_ : DateTime) (id : Uuid) : ℤ ×ₗ ℕ :=
  toLex (timestampMillis at_, collation id)

def rowKey (collation : Uuid → Nat) (row : Store.Record) : ℤ ×ₗ ℕ :=
  placeOf collation row.receivedAt row.id

def cursorKey (collation : Uuid → Nat) (cursor : Cursor) : ℤ ×ₗ ℕ :=
  placeOf collation cursor.receivedAt cursor.recordId

def cursorOf (row : Store.Record) : Cursor := ⟨row.receivedAt, row.id⟩

theorem tupleLess_iff (at_ : DateTime) (id : Uuid) (otherAt : DateTime) (other : Uuid) :
    tupleLess collation at_ id otherAt other = true ↔
      placeOf collation at_ id < placeOf collation otherAt other := by
  rw [placeOf, placeOf, Prod.Lex.toLex_lt_toLex]
  simp [tupleLess]

/-- The scalar bound says nothing the pair does not. -/
theorem recordsBefore_eq (cursor : Cursor) (row : Store.Record) :
    recordsBefore collation cursor row =
      decide (rowKey collation row < cursorKey collation cursor) := by
  rw [Bool.eq_iff_iff, decide_eq_true_eq, recordsBefore, Bool.and_eq_true, tupleLess_iff,
    decide_eq_true_eq]
  refine ⟨fun both => both.2, fun less => ⟨?_, less⟩⟩
  have places := Prod.Lex.toLex_lt_toLex.mp less
  simp only at places
  omega

theorem orderedBy_iff (a b : Store.Record) :
    OrderedBy collation a b ↔ rowKey collation b ≤ rowKey collation a := by
  rw [OrderedBy, ← Bool.not_eq_true, tupleLess_iff, not_lt]
  rfl

theorem insertionSort_orderedBy (rows : List Store.Record) :
    rows.insertionSort (OrderedBy collation) = Keyset.descending (rowKey collation) rows := by
  rw [Keyset.descending]
  congr 1
  funext a b
  exact propext (orderedBy_iff a b)

theorem getLast_take {found : List Store.Record} {limit : Nat} (more : limit < found.length) :
    (found.take limit).getLast? = (found.take limit)[limit - 1]? := by
  have sized : (found.take limit).length = limit := by
    rw [List.length_take]
    omega
  rw [List.getLast?_eq_getElem?, sized]

/-- **A page of the catalogue is a keyset page** of the matching rows. -/
theorem catalogPage_eq (rows : List Store.Record) (filter : RecordFilter) (cursor : Option Cursor)
    (limit : Nat) :
    catalogPage collation rows filter cursor limit =
      Keyset.page (rowKey collation) (cursorKey collation) cursorOf (rows.filter filter.matches)
        limit cursor := by
  have kept : (rows.filter fun row =>
      filter.matches row && cursor.all fun c => recordsBefore collation c row) =
      (rows.filter filter.matches).filter
        (Keyset.below (rowKey collation) (cursorKey collation) cursor) := by
    rw [List.filter_filter]
    refine List.filter_congr fun row _ => ?_
    simp only [Keyset.below, recordsBefore_eq, Bool.and_comm]
  rw [catalogPage, Keyset.page, kept]
  simp only [insertionSort_orderedBy]
  generalize (Keyset.descending (rowKey collation) ((rows.filter filter.matches).filter
    (Keyset.below (rowKey collation) (cursorKey collation) cursor))).take (limit + 1) = found
  split
  · rename_i more
    rw [getLast_take more]
    rfl
  · rfl

/-- The walk of the backfills is the one without a filter, in the server's order. -/
theorem page_eq_catalogPage (table : RecordTable) (cursor : Option Cursor) (limit : Nat) :
    page table cursor limit = catalogPage uuidRank (final indexKey table) {} cursor limit := by
  have all : ∀ row, RecordFilter.matches {} row = true := by
    intro row
    simp [RecordFilter.matches]
  have found : ((final indexKey table).filter fun row => cursor.all fun c =>
      c.admits row).insertionSort InPageOrder =
      ((final indexKey table).filter fun row => cursor.all fun c =>
        recordsBefore uuidRank c row).insertionSort (OrderedBy uuidRank) := rfl
  rw [page, catalogPage]
  simp only [all, Bool.true_and, found]
  split
  · rename_i more
    rw [getLast_take more]
  · rfl

/-- The server's order tells uuids apart. -/
theorem uuidRank_injective : Function.Injective uuidRank := by
  intro a b same
  have low := a.isLt
  have high := b.isLt
  apply BitVec.eq_of_toNat_eq
  simp only [uuidRank] at same
  omega

end Keys

/-! ## The text of a cursor -/

/-- The year of a day, within its era. -/
theorem year_civilFromDays (days : Int) :
    (days + 719468) / 146097 * 400 ≤ (civilFromDays days).year ∧
      (civilFromDays days).year ≤ (days + 719468) / 146097 * 400 + 400 := by
  obtain ⟨low, high, -, -⟩ := yearOfEra_bounds
    (show 0 ≤ (days + 719468) % 146097 by omega) (by omega)
  simp only [civilFromDays, civilOfYear]
  split <;> split <;> omega

/-- The milliseconds of an instant the index can hold are an instant again. -/
theorem fromTimestampMillis_millis {t : DateTime} (indexable : IndexableYear t) :
    ∃ back, fromTimestampMillis (timestampMillis t) = some back ∧
      timestampMillis back = timestampMillis t := by
  have nanos := t.nanos_lt
  have era := year_civilFromDays (t.secs / 86400)
  obtain ⟨early, late⟩ := indexable
  rw [DateTime.year, civilOfSeconds] at early late
  have second : timestampMillis t / 1000 = t.secs + t.nanos / 1000000000 := by
    rw [timestampMillis]
    omega
  have next := year_civilFromDays ((timestampMillis t / 1000) / 86400)
  have years : -262143 ≤ (civilOfSeconds (timestampMillis t / 1000)).year ∧
      (civilOfSeconds (timestampMillis t / 1000)).year ≤ 262142 := by
    rw [civilOfSeconds]
    omega
  have inside : (timestampMillis t % 1000 * 1000000).toNat < 2000000000 ∧
      (1000000000 ≤ (timestampMillis t % 1000 * 1000000).toNat →
        timestampMillis t / 1000 % 60 = 59) ∧ _ ∧ _ := ⟨by omega, by omega, years⟩
  refine ⟨_, dif_pos inside, ?_⟩
  show timestampMillis t / 1000 * 1000 + ((timestampMillis t % 1000 * 1000000).toNat / 1000000 : Nat)
    = timestampMillis t
  omega

theorem timestampMillis_i64 {t : DateTime} (indexable : IndexableYear t) :
    -2 ^ 63 ≤ timestampMillis t ∧ timestampMillis t < 2 ^ 63 := by
  have nanos := t.nanos_lt
  have era := year_civilFromDays (t.secs / 86400)
  obtain ⟨early, late⟩ := indexable
  rw [DateTime.year, civilOfSeconds] at early late
  rw [timestampMillis]
  omega

/-- **A cursor survives its text**, to the millisecond. -/
theorem carried_indexable (uuid : UuidText) {cursor : Cursor}
    (indexable : IndexableYear cursor.receivedAt) :
    ∃ back, cursor.carried uuid = some back ∧ back.recordId = cursor.recordId ∧
      timestampMillis back.receivedAt = timestampMillis cursor.receivedAt := by
  obtain ⟨low, high⟩ := timestampMillis_i64 indexable
  obtain ⟨at_, read, same⟩ := fromTimestampMillis_millis indexable
  refine ⟨⟨at_, cursor.recordId⟩, ?_, rfl, same⟩
  have text : cursor.toText uuid = String.ofList
      ((toString (timestampMillis cursor.receivedAt)).toList ++
        '_' :: (uuid.toText cursor.recordId).toList) := by
    apply String.toList_inj.mp
    simp [Cursor.toText]
  have split := Text.splitOnce_append
    (Text.underscore_not_mem_toString (timestampMillis cursor.receivedAt))
    (uuid.toText cursor.recordId).toList
  rw [Cursor.carried, Cursor.fromText, text, split, String.ofList_toList, String.ofList_toList]
  simp only [Text.parseI64_toString low high, Option.bind_some, read, uuid.parseStr_toText]
  rfl

/-! ## Every row once -/

section Exact

variable {collation : Uuid → Nat}

theorem rowKey_nodup (injective : Function.Injective collation) {rows : List Store.Record}
    (distinct : (rows.map fun row => (timestampMillis row.receivedAt, row.id)).Nodup) :
    (rows.map (rowKey collation)).Nodup := by
  have through : rows.map (rowKey collation) =
      (rows.map fun row => (timestampMillis row.receivedAt, row.id)).map
        fun pair => toLex (pair.1, collation pair.2) := by
    rw [List.map_map]
    rfl
  rw [through]
  refine distinct.map ?_
  rintro ⟨millis, id⟩ ⟨other, otherId⟩ same
  have parts := Prod.mk.inj (toLex_inj.mp same)
  exact Prod.ext parts.1 (injective parts.2)

/-- Whatever carries a cursor to the next page and keeps its place. -/
theorem walk_catalogPage (injective : Function.Injective collation) {rows : List Store.Record}
    (distinct : (rows.map fun row => (timestampMillis row.receivedAt, row.id)).Nodup)
    (filter : RecordFilter) {limit : Nat} (positive : 1 ≤ limit) {carry : Cursor → Option Cursor}
    (carried : ∀ row ∈ rows, ∃ back, carry (cursorOf row) = some back ∧
      cursorKey collation back = rowKey collation row) {fuel : Nat} (enough : rows.length < fuel) :
    Keyset.walk (fun cursor => catalogPage collation rows filter cursor limit) carry fuel none =
      some (Keyset.descending (rowKey collation) (rows.filter filter.matches)) := by
  have keys : ((rows.filter filter.matches).map (rowKey collation)).Nodup :=
    (rowKey_nodup injective distinct).sublist (List.filter_sublist.map _)
  have pages : (fun cursor => catalogPage collation rows filter cursor limit) =
      Keyset.page (rowKey collation) (cursorKey collation) cursorOf (rows.filter filter.matches)
        limit := by
    funext cursor
    exact catalogPage_eq rows filter cursor limit
  have shorter : (rows.filter filter.matches).length ≤ rows.length := List.length_filter_le _ _
  rw [pages]
  refine Keyset.walk_exact keys positive (fun row member => ?_) (by omega)
  exact carried row (List.mem_filter.mp member).1

theorem descending_tupleLess (injective : Function.Injective collation) {rows : List Store.Record}
    (distinct : (rows.map fun row => (timestampMillis row.receivedAt, row.id)).Nodup)
    (filter : RecordFilter) :
    (Keyset.descending (rowKey collation) (rows.filter filter.matches)).Pairwise
      fun newer older =>
        tupleLess collation older.receivedAt older.id newer.receivedAt newer.id = true := by
  have keys : ((rows.filter filter.matches).map (rowKey collation)).Nodup :=
    (rowKey_nodup injective distinct).sublist (List.filter_sublist.map _)
  refine (Keyset.descending_strict keys).imp ?_
  intro newer older less
  exact (tupleLess_iff _ _ _ _).mpr less

/-- **Keyset pagination is exact**: over any rows of the index with distinct
`(received_at, record_id)`, for every filter and every limit of at least one, the
pages end, and together they are every matching row once, newest first. -/
theorem pages_exact (uuid : UuidText) (injective : Function.Injective collation)
    {rows : List Store.Record} (indexable : ∀ row ∈ rows, IndexableYear row.receivedAt)
    (distinct : (rows.map fun row => (timestampMillis row.receivedAt, row.id)).Nodup)
    (filter : RecordFilter) {limit : Nat} (positive : 1 ≤ limit) :
    ∃ all : List Store.Record,
      (∀ fuel, rows.length < fuel →
        searchAll collation uuid rows filter limit fuel none = some all) ∧
      all.Perm (rows.filter filter.matches) ∧
      all.Pairwise fun newer older =>
        tupleLess collation older.receivedAt older.id newer.receivedAt newer.id = true := by
  refine ⟨Keyset.descending (rowKey collation) (rows.filter filter.matches), ?_,
    Keyset.descending_perm _, descending_tupleLess injective distinct filter⟩
  intro fuel enough
  refine walk_catalogPage injective distinct filter positive ?_ enough
  intro row member
  have held : IndexableYear (cursorOf row).receivedAt := indexable row member
  obtain ⟨back, carried, sameId, sameAt⟩ := carried_indexable uuid held
  refine ⟨back, carried, ?_⟩
  rw [cursorKey, placeOf, sameId, sameAt]
  rfl

/-- Two rows of one millisecond. -/
def sharedMillisecond : List Store.Record :=
  [1, 2].map fun id =>
    { id := id, source := "upload", sha256 := "", receivedAt := Indexer.ingestTime,
      playedAt := none, players := [], rule := none, eventCount := 1,
      storage := ⟨"packs/one.mjpack", 32, 71, 59, .zstd⟩, majsoulPb := none }

/-- A page of one row ends between them. -/
theorem pages_exact_sharedMillisecond :
    ∃ all : List Store.Record,
      (∀ fuel, sharedMillisecond.length < fuel →
        searchAll uuidRank uuidText sharedMillisecond {} 1 fuel none = some all) ∧
      all.Perm (sharedMillisecond.filter (RecordFilter.matches {})) ∧
      all.Pairwise fun newer older =>
        tupleLess uuidRank older.receivedAt older.id newer.receivedAt newer.id = true :=
  pages_exact uuidText uuidRank_injective
    (by
      intro row member
      obtain ⟨id, -, rfl⟩ := List.mem_map.mp member
      show IndexableYear Indexer.ingestTime
      unfold IndexableYear
      decide)
    (by decide) {} (by decide)

/-- The archive is written from the same rows in the same order. -/
theorem exportAll_exact (injective : Function.Injective collation) {rows : List Store.Record}
    (distinct : (rows.map fun row => (timestampMillis row.receivedAt, row.id)).Nodup)
    (filter : RecordFilter) {limit : Nat} (positive : 1 ≤ limit) {fuel : Nat}
    (enough : rows.length < fuel) :
    exportAll collation rows filter limit fuel none =
      some (Keyset.descending (rowKey collation) (rows.filter filter.matches)) :=
  walk_catalogPage injective distinct filter positive (fun row _ => ⟨cursorOf row, rfl, rfl⟩) enough

end Exact

end MajsoulManager.Index
