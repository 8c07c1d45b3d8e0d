/-
# Store.Columns — the columns of the index and the rows inserted into them

The two `CREATE TABLE` statements as lists of columns, the JSON a row is sent as
(`record_json`, `player_game_json`), and what a column can represent
(`Column.fits`).  A timestamp column reads a four digit year from 1900 to 2299.

* `fits_timestamp_iff`: what `clickhouse_timestamp` prints is readable exactly
  when the instant's year is in that range.
* `playerGameJson_fits_iff`, `recordJson_fits_iff`: a row fits its table exactly
  when its timestamps do: every other value is as wide as its column.
-/
import MajsoulManager.Store.Reference

namespace MajsoulManager.Store

open MajsoulManager.Theory
open MajsoulManager.Record

set_option autoImplicit false

inductive Column where
  | uuid
  | string
  | fixedString (bytes : Nat)
  | dateTime64
  | nullableDateTime64
  | arrayOfString
  | uint (bits : Nat)
  | int (bits : Nat)
  | enum (names : List String)
  deriving DecidableEq, Repr

/-- The year a timestamp's text starts with: exactly four digits. -/
def textYear (text : String) : Option Nat :=
  match text.toList with
  | a :: b :: c :: d :: '-' :: _ => readDigits [a, b, c, d]
  | _ => none

def readableTimestamp (text : String) : Bool :=
  (textYear text).any fun year => 1900 ≤ year && year ≤ 2299

/-- Whether a column can represent a value. -/
def Column.fits : Column → Value → Bool
  | uuid, .string _ => true
  | string, .string _ => true
  | fixedString bytes, .string text => text.utf8ByteSize ≤ bytes
  | dateTime64, .string text => readableTimestamp text
  | nullableDateTime64, .null => true
  | nullableDateTime64, .string text => readableTimestamp text
  | arrayOfString, .array items => items.all fun item => item.asStr.isSome
  | uint bits, .number (.posInt n) => n.toNat < 2 ^ bits
  | int bits, .number (.posInt n) => n.toNat < 2 ^ (bits - 1)
  | int bits, .number (.negInt n) => -(2 ^ (bits - 1) : Int) ≤ n.toInt
  | enum names, .string text => names.contains text
  | _, _ => false

/-- Every column of the table finds a value it can represent under its name. -/
def fitsTable (columns : List (String × Column)) (row : List (String × Value)) : Bool :=
  columns.all fun (name, column) => (row.lookup name).any column.fits

/-! ## The tables -/

/-- `mjai.records`, the defaulted `indexed_at` apart. -/
def recordsColumns : List (String × Column) :=
  [("record_id", .uuid), ("source", .string), ("sha256", .fixedString 64),
    ("received_at", .dateTime64), ("played_at", .nullableDateTime64),
    ("players", .arrayOfString), ("rule", .string), ("event_count", .uint 16),
    ("pack_key", .string), ("pack_offset", .uint 64), ("compressed_size", .uint 32),
    ("raw_size", .uint 32), ("codec", .enum ["zstd"]), ("pb_offset", .uint 64),
    ("pb_compressed_size", .uint 32), ("pb_size", .uint 32)]

/-- `mjai.player_games`, the defaulted `indexed_at` apart. -/
def playerGamesColumns : List (String × Column) :=
  [("record_id", .uuid), ("seat", .uint 8), ("player", .string), ("played_at", .dateTime64),
    ("rule", .string), ("seats", .uint 8), ("detailed", .uint 8), ("placement", .uint 8),
    ("final_score", .int 32), ("settled_point", .int 32), ("grading_score", .int 32),
    ("level_id", .uint 32), ("busted", .uint 8), ("hands", .uint 16),
    ("hands_as_dealer", .uint 16), ("max_dealer_streak", .uint 16), ("net_points", .int 32),
    ("wins", .uint 16), ("wins_tsumo", .uint 16), ("win_points", .int 32),
    ("win_turns", .uint 32), ("deal_ins", .uint 16), ("deal_in_points", .int 32),
    ("riichi", .uint 16), ("riichi_wins", .uint 16), ("riichi_deal_ins", .uint 16),
    ("riichi_turns", .uint 32), ("riichi_first", .uint 16), ("riichi_chasing", .uint 16),
    ("riichi_chased", .uint 16), ("riichi_net", .int 32), ("called", .uint 16),
    ("called_wins", .uint 16), ("draws", .uint 16), ("draws_tenpai", .uint 16),
    ("riichi_ippatsu", .uint 16), ("riichi_ura_hits", .uint 16), ("yakuman", .uint 16),
    ("max_han", .uint 16)]

/-! ## The rows -/

def clickhouseTimestamp (t : DateTime) : String := String.ofList t.formatMillis

def Codec.name : Codec → String
  | .zstd => "zstd"

variable (uuid : UuidText)

def recordJson (record : Record) : List (String × Value) :=
  [("record_id", .string (uuid.toText record.id)), ("source", .string record.source),
    ("sha256", .string record.sha256),
    ("received_at", .string (clickhouseTimestamp record.receivedAt)),
    ("played_at", (record.playedAt.map fun at_ => Value.string (clickhouseTimestamp at_)).getD .null),
    ("players", .array (record.players.map Value.string)),
    ("rule", .string (record.rule.getD "")),
    -- a wrong count beats failing the whole insert batch
    ("event_count", .nat (min record.eventCount.toNat 65535)),
    ("pack_key", .string record.storage.packKey), ("pack_offset", .nat record.storage.offset),
    ("compressed_size", .nat record.storage.compressedSize.toNat),
    ("raw_size", .nat record.storage.rawSize.toNat),
    ("codec", .string record.storage.codec.name),
    ("pb_offset", .nat ((record.majsoulPb.map PbLocation.offset).getD 0)),
    ("pb_compressed_size",
      .nat ((record.majsoulPb.map fun pb => pb.compressedSize.toNat).getD 0)),
    ("pb_size", .nat ((record.majsoulPb.map fun pb => pb.rawSize.toNat).getD 0))]

def playerGameJson (game : PlayerGame) : List (String × Value) :=
  let stats := game.stats
  [("record_id", .string (uuid.toText game.recordId)), ("seat", .nat stats.seat.toNat),
    ("player", .string stats.player), ("played_at", .string (clickhouseTimestamp game.playedAt)),
    ("rule", .string (game.rule.getD "")), ("seats", .nat game.seats.toNat),
    ("detailed", .nat game.detailed.toNat), ("placement", .nat stats.placement.toNat),
    ("final_score", .int stats.finalScore), ("settled_point", .int stats.settledPoint),
    ("grading_score", .int stats.gradingScore), ("level_id", .nat stats.levelId.toNat),
    ("busted", .nat stats.busted.toNat), ("hands", .nat stats.hands.toNat),
    ("hands_as_dealer", .nat stats.handsAsDealer.toNat),
    ("max_dealer_streak", .nat stats.maxDealerStreak.toNat),
    ("net_points", .int stats.netPoints), ("wins", .nat stats.wins.toNat),
    ("wins_tsumo", .nat stats.winsTsumo.toNat), ("win_points", .int stats.winPoints),
    ("win_turns", .nat stats.winTurns.toNat), ("deal_ins", .nat stats.dealIns.toNat),
    ("deal_in_points", .int stats.dealInPoints), ("riichi", .nat stats.riichi.toNat),
    ("riichi_wins", .nat stats.riichiWins.toNat),
    ("riichi_deal_ins", .nat stats.riichiDealIns.toNat),
    ("riichi_turns", .nat stats.riichiTurns.toNat),
    ("riichi_first", .nat stats.riichiFirst.toNat),
    ("riichi_chasing", .nat stats.riichiChasing.toNat),
    ("riichi_chased", .nat stats.riichiChased.toNat), ("riichi_net", .int stats.riichiNet),
    ("called", .nat stats.called.toNat), ("called_wins", .nat stats.calledWins.toNat),
    ("draws", .nat stats.draws.toNat), ("draws_tenpai", .nat stats.drawsTenpai.toNat),
    ("riichi_ippatsu", .nat stats.riichiIppatsu.toNat),
    ("riichi_ura_hits", .nat stats.riichiUraHits.toNat), ("yakuman", .nat stats.yakuman.toNat),
    ("max_han", .nat stats.maxHan.toNat)]

variable {uuid}

/-! ## Timestamps -/

/-- The years a `DateTime64` column holds. -/
def IndexableYear (t : DateTime) : Prop := 1900 ≤ t.year ∧ t.year ≤ 2299

/-- A text that starts with a sign has no four digits to read. -/
theorem textYear_signed {sign : Char} (notDigit : digitValue sign = none) (rest : List Char) :
    textYear (String.ofList (sign :: rest)) = none := by
  unfold textYear
  split
  · rename_i same
    simp only [String.toList_ofList, List.cons.injEq] at same
    obtain ⟨rfl, -⟩ := same
    simp [readDigits, List.mapM_cons, notDigit]
  · rfl

theorem fits_timestamp_iff (t : DateTime) :
    readableTimestamp (clickhouseTimestamp t) = true ↔ IndexableYear t := by
  have year : (civilOfSeconds t.secs).year = t.year := rfl
  by_cases plain : 0 ≤ t.year ∧ t.year ≤ 9999
  · have read := readDigits_pad4 (n := t.year.toNat) (by omega)
    simp only [pad4] at read
    simp only [readableTimestamp, clickhouseTimestamp, DateTime.formatMillis, textYear,
      String.toList_ofList, year, yearText, if_pos plain, pad4, List.cons_append,
      List.nil_append, read, Option.any_some, Bool.and_eq_true, decide_eq_true_eq, IndexableYear]
    omega
  · have outside : ¬ IndexableYear t := by
      unfold IndexableYear
      omega
    have sign : digitValue (if t.year < 0 then '-' else '+') = none := by
      split <;> decide
    simp only [readableTimestamp, clickhouseTimestamp, DateTime.formatMillis, year, yearText,
      if_neg plain, List.cons_append, textYear_signed sign, outside, Option.any_none,
      Bool.false_eq_true]

/-! ## Every other value is as wide as its column -/

theorem fits_nat {bits n : Nat} (wide : bits ≤ 64) (small : n < 2 ^ bits) :
    (Column.uint bits).fits (.nat n) = true := by
  have bound : n < 2 ^ 64 := Nat.lt_of_lt_of_le small (Nat.pow_le_pow_right (by norm_num) wide)
  simp only [Column.fits, Value.nat, UInt64.toNat_ofNat', decide_eq_true_eq]
  rwa [Nat.mod_eq_of_lt bound]

theorem fits_int (n : Int32) : (Column.int 32).fits (.int n) = true := by
  have low := Int32.le_toInt n
  have high := Int32.toInt_lt n
  unfold Value.int
  split
  · simp only [Column.fits, decide_eq_true_eq, Int32.toInt_toInt64]
    omega
  · rename_i nonneg
    simp only [Column.fits, UInt64.toNat_ofNat', decide_eq_true_eq, Int32.toNatClampNeg]
    omega

theorem fits_uuid (text : String) : Column.uuid.fits (.string text) = true := rfl

theorem fits_string (text : String) : Column.string.fits (.string text) = true := rfl

theorem fits_dateTime64 (text : String) :
    Column.dateTime64.fits (.string text) = readableTimestamp text := rfl

theorem fits_uint8 (n : UInt8) : (Column.uint 8).fits (.nat n.toNat) = true :=
  fits_nat (by norm_num) n.toNat_lt

theorem fits_uint16 (n : UInt16) : (Column.uint 16).fits (.nat n.toNat) = true :=
  fits_nat (by norm_num) n.toNat_lt

theorem fits_uint32 (n : UInt32) : (Column.uint 32).fits (.nat n.toNat) = true :=
  fits_nat (by norm_num) n.toNat_lt

theorem fits_bool (b : Bool) : (Column.uint 8).fits (.nat b.toNat) = true := by
  cases b <;> decide

/-- A machine word is printed as it is. -/
theorem fits_word (n : Nat) : (Column.uint 64).fits (.nat n) = true := by
  simp only [Column.fits, Value.nat, decide_eq_true_eq]
  exact UInt64.toNat_lt _

theorem fits_clamped (n : Nat) : (Column.uint 16).fits (.nat (min n 65535)) = true :=
  fits_nat (by norm_num) (by omega)

/-- A row that names the columns of its table in their order is checked column by
column. -/
theorem fitsTable_of_names {columns : List (String × Column)} {row : List (String × Value)}
    (names : row.map Prod.fst = columns.map Prod.fst) (distinct : (columns.map Prod.fst).Nodup) :
    fitsTable columns row = (columns.zip row).all fun (column, value) => column.2.fits value.2 := by
  induction columns generalizing row with
  | nil => rfl
  | cons column rest ih =>
      cases row with
      | nil => simp at names
      | cons value others =>
          obtain ⟨name, kind⟩ := column
          obtain ⟨valueName, item⟩ := value
          simp only [List.map_cons, List.cons.injEq, List.nodup_cons] at names distinct
          obtain ⟨rfl, names⟩ := names
          have later : ∀ column ∈ rest,
              List.lookup column.1 ((valueName, item) :: others) = others.lookup column.1 := by
            intro column member
            have other : column.1 ≠ valueName := fun same =>
              distinct.1 (same ▸ List.mem_map_of_mem member)
            simp [List.lookup, beq_eq_false_iff_ne.mpr other]
          have rows : fitsTable rest ((valueName, item) :: others) = fitsTable rest others := by
            rw [Bool.eq_iff_iff]
            simp only [fitsTable, List.all_eq_true]
            refine forall₂_congr fun column member => ?_
            rw [later column member]
          have first : List.lookup valueName ((valueName, item) :: others) = some item := by
            simp [List.lookup]
          rw [List.zip_cons_cons, List.all_cons, ← ih names distinct.2, ← rows]
          simp only [fitsTable, List.all_cons, first, Option.any_some]

theorem playerGameJson_fits_iff (game : PlayerGame) :
    fitsTable playerGamesColumns (playerGameJson uuid game) = true ↔
      IndexableYear game.playedAt := by
  rw [fitsTable_of_names rfl (by decide)]
  simp only [playerGamesColumns, playerGameJson, List.zip_cons_cons, List.zip_nil_right,
    List.all_cons, List.all_nil, fits_uuid, fits_string, fits_dateTime64, fits_uint8,
    fits_uint16, fits_uint32, fits_int, fits_bool, Bool.true_and, Bool.and_true,
    fits_timestamp_iff]

theorem hexDigit_utf8Size {n : Nat} (small : n < 16) : (hexDigit n).utf8Size = 1 := by
  have all : ∀ n : Fin 16, (hexDigit n).utf8Size = 1 := by decide
  exact all ⟨n, small⟩

theorem hexEncode_utf8ByteSize (bytes : Bytes) :
    (hexEncode bytes).utf8ByteSize = 2 * bytes.length := by
  rw [hexEncode, String.utf8ByteSize_ofList]
  induction bytes with
  | nil => rfl
  | cons b rest ih =>
      have high := hexDigit_utf8Size (n := b.toNat / 16) (by have := b.toNat_lt; omega)
      have low := hexDigit_utf8Size (n := b.toNat % 16) (by omega)
      simp only [List.flatMap_cons, List.cons_append, List.nil_append, String.utf8Len_cons, ih,
        high, low, List.length_cons]
      omega

/-- A digest is always 64 hexadecimal characters. -/
theorem digest_utf8ByteSize (crates : Crates) (raw : Bytes) :
    (crates.digest raw).utf8ByteSize = 64 := by
  rw [Crates.digest, hexEncode_utf8ByteSize, Vector.length_toList]

/-- A record's row, its digest apart, has only its timestamps to get wrong. -/
theorem recordJson_fits_iff (record : Record) (hashed : record.sha256.utf8ByteSize ≤ 64) :
    fitsTable recordsColumns (recordJson uuid record) = true ↔
      IndexableYear record.receivedAt ∧ ∀ at_, record.playedAt = some at_ → IndexableYear at_ := by
  have digest : (Column.fixedString 64).fits (.string record.sha256) = true := by
    simpa [Column.fits] using hashed
  have players : Column.arrayOfString.fits (.array (record.players.map Value.string)) = true := by
    simp [Column.fits, Value.asStr]
  have codec : (Column.enum ["zstd"]).fits (.string record.storage.codec.name) = true := by
    cases record.storage.codec
    decide
  have pbCompressed : (Column.uint 32).fits
      (.nat ((record.majsoulPb.map fun pb => pb.compressedSize.toNat).getD 0)) = true := by
    cases record.majsoulPb with
    | none => decide
    | some pb => exact fits_uint32 _
  have pbRaw : (Column.uint 32).fits
      (.nat ((record.majsoulPb.map fun pb => pb.rawSize.toNat).getD 0)) = true := by
    cases record.majsoulPb with
    | none => decide
    | some pb => exact fits_uint32 _
  have played : Column.nullableDateTime64.fits
      ((record.playedAt.map fun at_ => Value.string (clickhouseTimestamp at_)).getD .null) = true ↔
        ∀ at_, record.playedAt = some at_ → IndexableYear at_ := by
    cases record.playedAt with
    | none => simp [Column.fits]
    | some at_ => simp [Column.fits, fits_timestamp_iff]
  rw [fitsTable_of_names rfl (by decide)]
  simp only [recordsColumns, recordJson, List.zip_cons_cons, List.zip_nil_right, List.all_cons,
    List.all_nil, fits_uuid, fits_string, fits_dateTime64, fits_uint32, fits_word, fits_clamped,
    digest, players, codec, pbCompressed, pbRaw, Bool.true_and, Bool.and_true, Bool.and_eq_true,
    fits_timestamp_iff, played]

end MajsoulManager.Store
