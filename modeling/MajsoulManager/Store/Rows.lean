/-
# Store.Rows — a record, out to its row and back

`insert_batch` writes a record through `record_json`; `get` and `page` select
`RECORD_COLUMNS` and read them through `RecordRow`.  The two halves share
nothing but the column names.

* `readBack_stored`: what comes back is the record `settled`: milliseconds, a
  count clamped to its column, no empty rule, and no protobuf of size or offset
  zero.
* `settled_settled`: a second trip changes nothing.
-/
import MajsoulManager.Store.Columns

namespace MajsoulManager.Store

open MajsoulManager.Theory
open MajsoulManager.Record

set_option autoImplicit false

/-! ## What the reader relies on of third-party code -/

/-- `NaiveDateTime::parse_from_str` under `%Y-%m-%d %H:%M:%S%.f`. -/
structure NaiveText where
  parse : String → Option DateTime
  parse_format : ∀ t, 0 ≤ t.year → t.year ≤ 9999 →
    parse (clickhouseTimestamp t) = some t.truncMillis

/-! ## The row -/

/-- `RECORD_COLUMNS`: the codec is not among them. -/
def recordColumns : List String :=
  ["record_id", "source", "sha256", "received_at", "played_at", "players", "rule", "event_count",
    "pack_key", "pack_offset", "compressed_size", "raw_size", "pb_offset", "pb_compressed_size",
    "pb_size"]

/-- The selected columns of a row, as the store was given them. -/
def selectColumns (row : List (String × Value)) : Value :=
  .object (recordColumns.filterMap fun name => (row.lookup name).map fun value => (name, value))

structure RecordRow where
  recordId : Uuid
  source : String
  sha256 : String
  receivedAt : DateTime
  playedAt : Option DateTime
  players : List String
  rule : String
  eventCount : UInt32
  packKey : String
  packOffset : UInt64
  compressedSize : UInt32
  rawSize : UInt32
  pbOffset : UInt64
  pbCompressedSize : UInt32
  pbSize : UInt32

/-- A `u32` field. -/
def asU32 (value : Value) : Option UInt32 :=
  (value.asU64.filter fun n => n.toNat < 2 ^ 32).map UInt64.toUInt32

/-- A `Vec<String>` field. -/
def asStrings (value : Value) : Option (List String) :=
  value.asArray.bind fun items => items.mapM Value.asStr

section Read

variable (uuid : UuidText) (naive : NaiveText)

def parseClickhouseTimestamp (value : Value) : Option DateTime :=
  value.asStr.bind naive.parse

/-- `null` is an absent time; anything else has to be one. -/
def parseOptionalClickhouseTimestamp : Value → Option (Option DateTime)
  | .null => some none
  | value => (parseClickhouseTimestamp naive value).map some

def RecordRow.read (value : Value) : Option RecordRow := do
  let recordId ← ((value.get "record_id").bind Value.asStr).bind uuid.parseStr
  let source ← (value.get "source").bind Value.asStr
  let sha256 ← (value.get "sha256").bind Value.asStr
  let receivedAt ← (value.get "received_at").bind (parseClickhouseTimestamp naive)
  let playedAt ← (value.get "played_at").bind (parseOptionalClickhouseTimestamp naive)
  let players ← (value.get "players").bind asStrings
  let rule ← (value.get "rule").bind Value.asStr
  let eventCount ← (value.get "event_count").bind asU32
  let packKey ← (value.get "pack_key").bind Value.asStr
  let packOffset ← (value.get "pack_offset").bind Value.asU64
  let compressedSize ← (value.get "compressed_size").bind asU32
  let rawSize ← (value.get "raw_size").bind asU32
  let pbOffset ← (value.get "pb_offset").bind Value.asU64
  let pbCompressedSize ← (value.get "pb_compressed_size").bind asU32
  let pbSize ← (value.get "pb_size").bind asU32
  some { recordId, source, sha256, receivedAt, playedAt, players, rule, eventCount, packKey,
         packOffset, compressedSize, rawSize, pbOffset, pbCompressedSize, pbSize }

/-- The all-zero columns of an old row say that there is no protobuf. -/
def PbLocation.fromColumns (offset : UInt64) (compressedSize rawSize : UInt32) :
    Option PbLocation :=
  if 0 < rawSize ∧ 0 < offset then some ⟨offset.toNat, compressedSize, rawSize⟩ else none

def Record.ofRow (row : RecordRow) : Record where
  id := row.recordId
  source := row.source
  sha256 := row.sha256
  receivedAt := row.receivedAt
  playedAt := row.playedAt
  players := row.players
  rule := if row.rule = "" then none else some row.rule
  eventCount := row.eventCount
  storage :=
    { packKey := row.packKey
      offset := row.packOffset.toNat
      compressedSize := row.compressedSize
      rawSize := row.rawSize
      codec := .zstd }
  majsoulPb := PbLocation.fromColumns row.pbOffset row.pbCompressedSize row.pbSize

/-- Written by `insert_batch`, kept as it is, and read again. -/
def Record.readBack (record : Record) : Option Record :=
  (RecordRow.read uuid naive (selectColumns (recordJson uuid record.stored))).map Record.ofRow

end Read

/-! ## What comes back -/

/-- A protobuf that the columns can tell from an absent one. -/
def PbLocation.isStored (pb : PbLocation) : Bool := 0 < pb.rawSize && 0 < pb.offset

/-- The record as the index keeps it. -/
def Record.settled (record : Record) : Record :=
  { record.stored with
    rule := record.rule.filter (· ≠ "")
    eventCount := UInt32.ofNat (min record.eventCount.toNat 65535)
    majsoulPb := record.majsoulPb.filter PbLocation.isStored }

/-- Offsets are 64 bits wide. -/
def Record.OffsetsFit (record : Record) : Prop :=
  record.storage.offset < 2 ^ 64 ∧ ∀ pb, record.majsoulPb = some pb → pb.offset < 2 ^ 64

/-- Every time is one the columns hold. -/
def Record.Indexable (record : Record) : Prop :=
  IndexableYear record.receivedAt ∧ ∀ at_, record.playedAt = some at_ → IndexableYear at_

theorem asU32_nat (n : UInt32) : asU32 (.nat n.toNat) = some n := by
  have small := n.toNat_lt
  have word : (UInt64.ofNat n.toNat).toNat = n.toNat := by
    rw [UInt64.toNat_ofNat']
    omega
  have fits : decide ((UInt64.ofNat n.toNat).toNat < 2 ^ 32) = true := by
    rw [word]
    exact decide_eq_true small
  have back : (UInt64.ofNat n.toNat).toUInt32 = n := by
    apply UInt32.toNat_inj.mp
    rw [UInt64.toNat_toUInt32, word]
    omega
  simp only [asU32, Value.nat, Value.asU64, Option.filter_some, fits, if_true, Option.map_some,
    back]

theorem asU32_of_lt {n : Nat} (small : n < 2 ^ 32) : asU32 (.nat n) = some (UInt32.ofNat n) := by
  have read := asU32_nat (UInt32.ofNat n)
  rwa [UInt32.toNat_ofNat', Nat.mod_eq_of_lt small] at read

theorem asU64_nat (n : Nat) : (Value.nat n).asU64 = some (UInt64.ofNat n) := rfl

theorem asStrings_map (items : List String) :
    asStrings (.array (items.map Value.string)) = some items := by
  show (items.map Value.string).mapM Value.asStr = some items
  induction items with
  | nil => rfl
  | cons item rest ih => simp [List.mapM_cons, Value.asStr, ih]

section Read

variable {uuid : UuidText} {naive : NaiveText}

theorem parse_stored {t : DateTime} (indexable : IndexableYear t) :
    naive.parse (clickhouseTimestamp t.truncMillis) = some t.truncMillis := by
  obtain ⟨low, high⟩ := indexable
  have read := naive.parse_format t.truncMillis (by rw [DateTime.year_truncMillis]; omega)
    (by rw [DateTime.year_truncMillis]; omega)
  rwa [DateTime.truncMillis_truncMillis] at read

theorem fromColumns_stored {majsoulPb : Option PbLocation}
    (fits : ∀ pb, majsoulPb = some pb → pb.offset < 2 ^ 64) :
    PbLocation.fromColumns (UInt64.ofNat ((majsoulPb.map PbLocation.offset).getD 0))
        (UInt32.ofNat ((majsoulPb.map fun pb => pb.compressedSize.toNat).getD 0))
        (UInt32.ofNat ((majsoulPb.map fun pb => pb.rawSize.toNat).getD 0)) =
      majsoulPb.filter PbLocation.isStored := by
  cases majsoulPb with
  | none => rfl
  | some pb =>
      have small := fits pb rfl
      have word : (UInt64.ofNat pb.offset).toNat = pb.offset := by
        rw [UInt64.toNat_ofNat']
        omega
      have positive : 0 < UInt64.ofNat pb.offset ↔ 0 < pb.offset := by
        rw [UInt64.lt_iff_toNat_lt, word]
        rfl
      simp only [PbLocation.fromColumns, Option.map_some, Option.getD_some, UInt32.ofNat_toNat,
        positive, word, Option.filter_some, PbLocation.isStored, Bool.and_eq_true,
        decide_eq_true_eq]

/-- The selected columns, one by one. -/
theorem get_selectColumns (uuid : UuidText) (record : Record) (row : Value)
    (selected : row = selectColumns (recordJson uuid record)) :
    row.get "record_id" = some (.string (uuid.toText record.id)) ∧
      row.get "source" = some (.string record.source) ∧
      row.get "sha256" = some (.string record.sha256) ∧
      row.get "received_at" = some (.string (clickhouseTimestamp record.receivedAt)) ∧
      row.get "played_at" = some ((record.playedAt.map fun at_ =>
        Value.string (clickhouseTimestamp at_)).getD .null) ∧
      row.get "players" = some (.array (record.players.map Value.string)) ∧
      row.get "rule" = some (.string (record.rule.getD "")) ∧
      row.get "event_count" = some (.nat (min record.eventCount.toNat 65535)) ∧
      row.get "pack_key" = some (.string record.storage.packKey) ∧
      row.get "pack_offset" = some (.nat record.storage.offset) ∧
      row.get "compressed_size" = some (.nat record.storage.compressedSize.toNat) ∧
      row.get "raw_size" = some (.nat record.storage.rawSize.toNat) ∧
      row.get "pb_offset" = some (.nat ((record.majsoulPb.map PbLocation.offset).getD 0)) ∧
      row.get "pb_compressed_size" =
        some (.nat ((record.majsoulPb.map fun pb => pb.compressedSize.toNat).getD 0)) ∧
      row.get "pb_size" = some (.nat ((record.majsoulPb.map fun pb => pb.rawSize.toNat).getD 0)) := by
  subst selected
  exact ⟨rfl, rfl, rfl, rfl, rfl, rfl, rfl, rfl, rfl, rfl, rfl, rfl, rfl, rfl, rfl⟩

theorem rule_stored (rule : Option String) :
    (if rule.getD "" = "" then none else some (rule.getD "")) = rule.filter (· ≠ "") := by
  cases rule with
  | none => rfl
  | some text =>
      by_cases empty : text = ""
      · simp [empty, Option.filter_some]
      · simp [empty, Option.filter_some]

theorem storage_stored (location : PackLocation) (small : location.offset < 2 ^ 64) :
    (⟨location.packKey, (UInt64.ofNat location.offset).toNat, location.compressedSize,
      location.rawSize, .zstd⟩ : PackLocation) = location := by
  obtain ⟨packKey, offset, compressedSize, rawSize, codec⟩ := location
  cases codec
  rw [UInt64.toNat_ofNat', Nat.mod_eq_of_lt small]

/-- **Out and back**: the record as the index keeps it. -/
theorem readBack_stored {record : Record} (indexable : record.Indexable)
    (fits : record.OffsetsFit) : record.readBack uuid naive = some record.settled := by
  obtain ⟨received, played⟩ := indexable
  have receivedAt : naive.parse (clickhouseTimestamp record.stored.receivedAt) =
      some record.stored.receivedAt := parse_stored received
  have playedAt : parseOptionalClickhouseTimestamp naive ((record.stored.playedAt.map fun at_ =>
      Value.string (clickhouseTimestamp at_)).getD .null) = some record.stored.playedAt := by
    cases absent : record.playedAt with
    | none => simp [Record.stored, absent, parseOptionalClickhouseTimestamp]
    | some at_ =>
        simp [Record.stored, absent, parseOptionalClickhouseTimestamp, parseClickhouseTimestamp,
          Value.asStr, parse_stored (played at_ absent)]
  have count : min record.stored.eventCount.toNat 65535 < 2 ^ 32 := by omega
  have pbCompressed :
      ((record.stored.majsoulPb.map fun pb => pb.compressedSize.toNat).getD 0) < 2 ^ 32 := by
    cases record.stored.majsoulPb with
    | none => decide
    | some pb => exact pb.compressedSize.toNat_lt
  have pbRaw : ((record.stored.majsoulPb.map fun pb => pb.rawSize.toNat).getD 0) < 2 ^ 32 := by
    cases record.stored.majsoulPb with
    | none => decide
    | some pb => exact pb.rawSize.toNat_lt
  obtain ⟨idColumn, sourceColumn, shaColumn, receivedColumn, playedColumn, playersColumn, ruleColumn,
    countColumn, keyColumn, offsetColumn, compressedColumn, rawColumn, pbOffsetColumn,
    pbCompressedColumn, pbColumn⟩ := get_selectColumns uuid record.stored _ rfl
  simp only [Record.readBack, RecordRow.read, idColumn, sourceColumn, shaColumn, receivedColumn,
    playedColumn, playersColumn, ruleColumn, countColumn, keyColumn, offsetColumn, compressedColumn,
    rawColumn, pbOffsetColumn, pbCompressedColumn, pbColumn, Option.bind_some, Option.bind_eq_bind,
    Value.asStr, uuid.parseStr_toText, playedAt, parseClickhouseTimestamp, receivedAt,
    asStrings_map, asU64_nat, asU32_nat, asU32_of_lt count, asU32_of_lt pbCompressed,
    asU32_of_lt pbRaw, Option.map_some, Record.ofRow, rule_stored,
    storage_stored record.stored.storage fits.1, fromColumns_stored (show ∀ pb,
      record.stored.majsoulPb = some pb → pb.offset < 2 ^ 64 from fits.2)]
  rfl

/-- **A second trip changes nothing.** -/
theorem settled_settled (record : Record) : record.settled.settled = record.settled := by
  have rule : (record.rule.filter (· ≠ "")).filter (· ≠ "") = record.rule.filter (· ≠ "") := by
    simp [Option.filter_filter]
  have pb : (record.majsoulPb.filter PbLocation.isStored).filter PbLocation.isStored =
      record.majsoulPb.filter PbLocation.isStored := by
    simp [Option.filter_filter]
  have count : UInt32.ofNat (min (UInt32.ofNat (min record.eventCount.toNat 65535)).toNat 65535) =
      UInt32.ofNat (min record.eventCount.toNat 65535) := by
    rw [UInt32.toNat_ofNat']
    congr 1
    omega
  have played : (record.playedAt.map DateTime.truncMillis).map DateTime.truncMillis =
      record.playedAt.map DateTime.truncMillis := by
    simp [Function.comp_def]
  simp only [Record.settled, Record.stored, rule, pb, count, played,
    DateTime.truncMillis_truncMillis]

theorem settled_indexable {record : Record} (indexable : record.Indexable) :
    record.settled.Indexable := by
  refine ⟨indexable.1, ?_⟩
  intro at_ kept
  obtain ⟨given, present, rfl⟩ := Option.map_eq_some_iff.mp kept
  exact indexable.2 given present

theorem settled_offsetsFit {record : Record} (fits : record.OffsetsFit) :
    record.settled.OffsetsFit := by
  refine ⟨fits.1, ?_⟩
  intro pb kept
  exact fits.2 pb (Option.filter_eq_some_iff.mp kept).1

/-- **The row codec.** -/
theorem record_round_trip {record : Record} (indexable : record.Indexable)
    (fits : record.OffsetsFit) :
    record.readBack uuid naive = some record.settled ∧
      record.settled.readBack uuid naive = some record.settled := by
  refine ⟨readBack_stored indexable fits, ?_⟩
  rw [readBack_stored (settled_indexable indexable) (settled_offsetsFit fits), settled_settled]

end Read

/-! ## A reader of timestamps -/

def readNaive : List Char → Option DateTime
  | y₁ :: y₂ :: y₃ :: y₄ :: '-' :: m₁ :: m₂ :: '-' :: d₁ :: d₂ :: ' ' :: h₁ :: h₂ :: ':' ::
      n₁ :: n₂ :: ':' :: s₁ :: s₂ :: '.' :: fraction => do
      let year ← readDigits [y₁, y₂, y₃, y₄]
      let month ← readDigits [m₁, m₂]
      let day ← readDigits [d₁, d₂]
      let hour ← readDigits [h₁, h₂]
      let minute ← readDigits [n₁, n₂]
      let second ← readDigits [s₁, s₂]
      let millis ← if fraction.length = 3 then readDigits fraction else none
      instantOf year month day hour minute second (millis * 1000000)
  | _ => none

theorem readDigits_pad3 {n : Nat} (small : n < 1000) : readDigits (pad3 n) = some n := by
  simp [readDigits, pad3, digitValue_digit, List.mapM_cons]
  omega

theorem readNaive_format (t : DateTime) (low : 0 ≤ t.year) (high : t.year ≤ 9999) :
    readNaive (clickhouseTimestamp t).toList = some t.truncMillis := by
  obtain ⟨monthLow, monthHigh, dayLow, dayHigh⟩ := civilFromDays_bounds (t.secs / 86400)
  have plain : yearText (civilOfSeconds t.secs).year = pad4 t.year.toNat :=
    if_pos ⟨low, high⟩
  have year := readDigits_pad4 (n := t.year.toNat) (by omega)
  have month := readDigits_pad2 (n := (civilOfSeconds t.secs).month.toNat)
    (by unfold civilOfSeconds; omega)
  have day := readDigits_pad2 (n := (civilOfSeconds t.secs).day.toNat)
    (by unfold civilOfSeconds; omega)
  have hour := readDigits_pad2 (n := (t.secs % 86400).toNat / 3600) (by omega)
  have minute := readDigits_pad2 (n := (t.secs % 86400).toNat / 60 % 60) (by omega)
  have nanosLt := t.nanos_lt
  have second := readDigits_pad2 (n := (t.secs % 86400).toNat % 60 + t.nanos / 1000000000)
    (by omega)
  have millis := readDigits_pad3 (n := t.nanos % 1000000000 / 1000000) (by omega)
  have fields := instantOf_fields t.truncMillis low
  have whole : (t.nanos - t.nanos % 1000000) / 1000000000 = t.nanos / 1000000000 := by omega
  have part : (t.nanos - t.nanos % 1000000) % 1000000000 =
      t.nanos % 1000000000 / 1000000 * 1000000 := by omega
  simp only [DateTime.truncMillis, whole, part] at fields
  simp only [pad2, pad3, pad4] at year month day hour minute second millis
  simp only [clickhouseTimestamp, DateTime.formatMillis, String.toList_ofList, plain, pad2, pad3,
    pad4, List.cons_append, List.nil_append, readNaive, year, month, day, hour, minute, second,
    millis, List.length_cons, List.length_nil, if_true, Option.bind_eq_bind, Option.bind_some]
  exact fields

/-- The timestamps of the table, milliseconds and all. -/
def naiveText : NaiveText where
  parse := fun text => readNaive text.toList
  parse_format := readNaive_format

/-! ## A protobuf at offset zero -/

/-- Settled, were only the size of a protobuf looked at. -/
def Record.settledBySize (record : Record) : Record :=
  { record.settled with majsoulPb := record.majsoulPb.filter fun pb => 0 < pb.rawSize }

def playedAtNoon : Record where
  id := 7
  source := "majsoul"
  sha256 := "9f86d0"
  receivedAt := .ofParts 1784207242 123456789 rfl
  playedAt := some (.ofParts 1784203200 0 rfl)
  players := ["\"東\\", "b"]
  rule := some ""
  eventCount := 70000
  storage := ⟨"packs/1", 12, 34, 56, .zstd⟩
  majsoulPb := some ⟨0, 10, 20⟩

theorem playedAtNoon_indexable : playedAtNoon.Indexable := by
  refine ⟨⟨by decide, by decide⟩, ?_⟩
  intro at_ present
  cases present
  exact ⟨by decide, by decide⟩

theorem playedAtNoon_fits : playedAtNoon.OffsetsFit := by
  refine ⟨by decide, ?_⟩
  intro pb present
  cases present
  decide

theorem record_round_trip_at_noon :
    playedAtNoon.readBack uuidText naiveText = some playedAtNoon.settled :=
  (record_round_trip playedAtNoon_indexable playedAtNoon_fits).1

/-- A protobuf of twenty bytes at offset zero is gone. -/
theorem protobuf_at_zero_lost :
    playedAtNoon.readBack uuidText naiveText ≠ some playedAtNoon.settledBySize := by
  rw [readBack_stored playedAtNoon_indexable playedAtNoon_fits]
  intro same
  have pb := congrArg Record.majsoulPb (Option.some.inj same)
  revert pb
  decide

end MajsoulManager.Store
