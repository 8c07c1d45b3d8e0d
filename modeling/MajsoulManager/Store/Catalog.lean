/-
# Store.Catalog — the rows of the index

The two tables a sealed pack writes: one row a record (`mjai.records`) and one
row a named seat (`mjai.player_games`).  A record's sorting key is its source,
its ingest time and its id, so that a row written twice converges.
-/
import MajsoulManager.Store.Message

namespace MajsoulManager.Store

open MajsoulManager.Theory
open MajsoulManager.Record

set_option autoImplicit false

/-! ## Digests -/

def hexDigit (n : Nat) : Char := if n < 10 then Char.ofNat (48 + n) else Char.ofNat (87 + n)

def hexEncode (bytes : Bytes) : String :=
  String.ofList (bytes.flatMap fun b => [hexDigit (b.toNat / 16), hexDigit (b.toNat % 16)])

/-- The third-party code the pipeline calls. -/
structure Crates where
  serde : Serde
  uuid : UuidText
  rfc3339 : Rfc3339
  zstd : Zstd
  sha256 : Bytes → Vector UInt8 32

def Crates.digest (crates : Crates) (raw : Bytes) : String :=
  hexEncode (crates.sha256 raw).toList

/-! ## Rows -/

/-- The protobuf half of a record, in the record's own pack. -/
structure PbLocation where
  offset : Nat
  compressedSize : UInt32
  rawSize : UInt32
  deriving DecidableEq, Repr

structure Record where
  id : Uuid
  source : String
  sha256 : String
  receivedAt : DateTime
  playedAt : Option DateTime
  players : List String
  rule : Option String
  eventCount : UInt32
  storage : PackLocation
  majsoulPb : Option PbLocation
  deriving DecidableEq

/-- What the insert writes: the table keeps milliseconds. -/
def Record.stored (record : Record) : Record :=
  { record with
    receivedAt := record.receivedAt.truncMillis
    playedAt := record.playedAt.map DateTime.truncMillis }

/-- `ORDER BY (toDate(received_at), source, received_at, record_id)`: the date is
the ingest time's own. -/
def Record.sortingKey (record : Record) : String × DateTime × Uuid :=
  (record.source, record.receivedAt, record.id)

structure PlayerGame where
  recordId : Uuid
  playedAt : DateTime
  rule : Option String
  seats : UInt8
  detailed : Bool
  stats : SeatStats
  deriving DecidableEq

/-- Every named seat of one game, under the time it was played or, failing that,
ingested. -/
def PlayerGame.of (record : Record) (game : GameStats) : List PlayerGame :=
  (game.players.filter fun stats => stats.player != "").map fun stats =>
    { recordId := record.id
      playedAt := (record.playedAt.getD record.receivedAt).truncMillis
      rule := record.rule
      seats := game.seats
      detailed := game.detailed
      stats }

end MajsoulManager.Store
