/-
# Indexer.Acknowledged — what an acknowledged record can do to its partition

The API acknowledges a record once `parse_metadata` accepts its bytes.  The pack
worker then replays it and inserts its rows with those of the whole pack.

* `appendBatch_panic_free_iff` says exactly which batches the replay survives;
  `acknowledged_ura_panics` is an acknowledged record that it does not.
* `consumed_fits_iff` says exactly which records leave the pack's rows
  insertable; `far_future_start_poisons` is one that does not.
-/
import MajsoulManager.Indexer.AppendBatch
import MajsoulManager.Store.Columns

namespace MajsoulManager.Indexer

open MajsoulManager.Theory
open MajsoulManager.Record
open MajsoulManager.Store

set_option autoImplicit false

/-- **Which batches are safe.**  Whatever the disk does and whatever the worker
already holds, a batch never panics exactly when no message of it that is reached
carries a hazard. -/
theorem appendBatch_panic_free_iff (crates : Crates) (heap : Heap)
    (messages : List IngestMessage) :
    (∀ disk now held, ¬ (appendBatch crates heap disk now held messages).Panics) ↔
      ¬ BatchHazard crates heap messages := by
  constructor
  · intro safe hazard
    have somewhere : ∃ disk, (appendBatch crates heap disk 0 ⟨PackWriter.create "", [], []⟩
        messages).Panics := appendBatch_panics.mpr hazard
    obtain ⟨disk, panics⟩ := somewhere
    exact safe _ _ _ panics
  · intro safe disk now held panics
    exact safe (appendBatch_panics.mp ⟨disk, panics⟩)

/-! ## A riichi win with an empty ura indicator -/

def ingestTime : DateTime := .ofParts 1700000000 0 rfl

def emptyPack : Held := ⟨PackWriter.create "packs/2023/11/14/0-0.mjpack", [], []⟩

/-- A four player game in which seat 0 declares riichi and wins with an empty ura
indicator. -/
def emptyUraText : String :=
  "[\x7b\"type\":\"start_game\",\"names\":[\"a\",\"b\",\"c\",\"d\"]\x7d," ++
  "\x7b\"type\":\"start_kyoku\",\"oya\":0\x7d," ++
  "\x7b\"type\":\"reach_accepted\",\"actor\":0\x7d," ++
  "\x7b\"type\":\"hora\",\"actor\":0,\"uradora_markers\":[\"\"]\x7d]"

def emptyUraEvents : List Value :=
  [.object [("type", .string "start_game"),
      ("names", .array [.string "a", .string "b", .string "c", .string "d"])],
    .object [("type", .string "start_kyoku"), ("oya", .nat 0)],
    .object [("type", .string "reach_accepted"), ("actor", .nat 0)],
    .object [("type", .string "hora"), ("actor", .nat 0),
      ("uradora_markers", .array [.string ""])]]

/-- A JSON reader, as far as it reads that text. -/
def emptyUraSerde : Serde where
  fromStr := fun _ => .error "expected value at line 1 column 1"
  fromStrVec := fun text =>
    if text = emptyUraText then .ok emptyUraEvents
    else .error "expected value at line 1 column 1"
  print := fun _ => ""

def emptyUraMessage : IngestMessage :=
  IngestMessage.new ingestTime 1 "upload" none (utf8 emptyUraText) none

/-- The record is acknowledged, and the worker that consumes it panics. -/
theorem acknowledged_ura_panics :
    parseable (reference emptyUraSerde) emptyUraMessage = true ∧
      (appendBatch (reference emptyUraSerde) ⟨1024, by decide⟩ (fun _ => true) 0 emptyPack
        [emptyUraMessage]).Panics := by
  decide +kernel

/-! ## Rows the index cannot read -/

/-- Everything the worker is about to insert can be represented by its columns. -/
def BatchFits (uuid : UuidText) (held : Held) : Prop :=
  (∀ row ∈ held.rows, fitsTable recordsColumns (recordJson uuid row.stored) = true) ∧
    ∀ game ∈ held.playerGames, fitsTable playerGamesColumns (playerGameJson uuid game) = true

instance (uuid : UuidText) (held : Held) : Decidable (BatchFits uuid held) :=
  inferInstanceAs (Decidable (_ ∧ _))

/-- When the record says its game started. -/
def headerStart (serde : Serde) (payload : Bytes) : Option DateTime :=
  match parseMetadata serde payload with
  | .ok metadata => metadata.playedAt
  | .error _ => none

/-- The time a record is indexed under: the caller's override where it survives
the topic, else the record's own. -/
def effectivePlayedAt (serde : Serde) (override : Option DateTime) (payload : Bytes) :
    Option DateTime :=
  (override.filter fourDigitYear).or (headerStart serde payload)

theorem indexableYear_truncMillis (t : DateTime) :
    IndexableYear t.truncMillis ↔ IndexableYear t := Iff.rfl

/-- Every seat row of a record stands under the record's own time. -/
theorem playerGame_of_playedAt {row : Store.Record} {game : Option GameStats} {seat : PlayerGame}
    (member : seat ∈ (game.map (PlayerGame.of row)).getD []) :
    seat.playedAt = (row.playedAt.getD row.receivedAt).truncMillis := by
  cases game with
  | none => simp at member
  | some game =>
      obtain ⟨stats, -, rfl⟩ := List.mem_map.mp member
      rfl

/-- The row a worker builds has only its two times to get wrong. -/
theorem rowOf_fits_iff (crates : Crates) (message : IngestMessage) (metadata : Metadata)
    (storage : PackLocation) (placed : Option PbLocation) :
    fitsTable recordsColumns
        (recordJson crates.uuid (rowOf crates message metadata storage placed).stored) = true ↔
      IndexableYear message.receivedAt ∧
        ∀ at_, (message.playedAt.or metadata.playedAt).map DateTime.truncMillis = some at_ →
          IndexableYear at_ :=
  recordJson_fits_iff _ (Nat.le_of_eq (digest_utf8ByteSize crates message.raw))

/-- Seat rows stand under the record's time or, without one, its ingest time. -/
theorem seats_fit {crates : Crates} {row : Store.Record} {game : Option GameStats}
    (received : IndexableYear row.receivedAt)
    (played : ∀ at_, row.playedAt.map DateTime.truncMillis = some at_ → IndexableYear at_) :
    ∀ seat ∈ (game.map (PlayerGame.of row)).getD [],
      fitsTable playerGamesColumns (playerGameJson crates.uuid seat) = true := by
  intro seat member
  rw [playerGameJson_fits_iff, playerGame_of_playedAt member]
  cases own : row.playedAt with
  | none => exact received
  | some at_ => exact played at_.truncMillis (by rw [own]; rfl)

/-- The row's own time is indexable exactly when the effective one is: only the
year matters, and truncation keeps it. -/
theorem storedPlayedAt_indexable {serde : Serde} (override : Option DateTime) {payload : Bytes}
    {metadata : Metadata} (parsed : parseMetadata serde payload = .ok metadata) :
    (∀ at_, ((((override.map DateTime.truncMillis).filter fourDigitYear).or
        metadata.playedAt).map DateTime.truncMillis) = some at_ → IndexableYear at_) ↔
      ∀ at_, effectivePlayedAt serde override payload = some at_ → IndexableYear at_ := by
  have header : headerStart serde payload = metadata.playedAt := by simp [headerStart, parsed]
  have sameYear : ∀ t : DateTime, fourDigitYear t.truncMillis = fourDigitYear t := fun _ => rfl
  unfold effectivePlayedAt
  rw [header]
  cases override with
  | none => cases metadata.playedAt <;> simp [indexableYear_truncMillis]
  | some t =>
      cases plain : fourDigitYear t
      · cases metadata.playedAt <;>
          simp [Option.filter, sameYear, plain, indexableYear_truncMillis]
      · simp [Option.filter, sameYear, plain, indexableYear_truncMillis]

/-- **Which records poison a pack.**  A record that was acknowledged, travelled
through the topic and was appended to a pack leaves the pack's rows insertable
exactly when they were so before, it was ingested in an indexable year, and the
time it is indexed under, if any, is in an indexable year too. -/
theorem consumed_fits_iff (crates : Crates) (heap : Heap) (disk : Nat → Bool) (clock : Nat)
    (now : DateTime) (id : Uuid) (source : String) (override : Option DateTime)
    (payload : Bytes) (majsoulPb : Option Bytes) (delivered : IngestMessage) (held next : Held)
    (acknowledged : (parseMetadata crates.serde payload).isOk = true)
    (arrived : IngestMessage.fromRecord crates.uuid crates.rfc3339
      ((IngestMessage.new now id source override payload majsoulPb).intoRecord crates.uuid
        crates.rfc3339) = .ok delivered)
    (appended : appendBatch crates heap disk clock held [delivered] = .ok next) :
    BatchFits crates.uuid next ↔
      BatchFits crates.uuid held ∧ IndexableYear now ∧
        ∀ at_, effectivePlayedAt crates.serde override payload = some at_ → IndexableYear at_ := by
  rw [fromRecord_intoRecord] at arrived
  cases arrived
  cases parsed : parseMetadata crates.serde payload with
  | error reason => simp [parsed, Except.isOk, Except.toBool] at acknowledged
  | ok metadata =>
      obtain ⟨middle, stepped, done⟩ := Outcome.bind_eq_ok.mp appended
      cases done
      obtain ⟨storage, placed, game, rows, seats⟩ := appendMessage_rows parsed stepped
      have row := rowOf_fits_iff crates ⟨id, source,
        (override.map DateTime.truncMillis).filter fourDigitYear, payload, majsoulPb,
        now.truncMillis⟩ metadata storage placed
      have played := storedPlayedAt_indexable override parsed
      unfold BatchFits
      rw [rows, seats]
      simp only [List.forall_mem_append, List.forall_mem_singleton]
      constructor
      · rintro ⟨⟨earlier, here⟩, earlierSeats, -⟩
        obtain ⟨received, own⟩ := row.mp here
        exact ⟨⟨earlier, earlierSeats⟩, received, played.mp own⟩
      · rintro ⟨⟨earlier, earlierSeats⟩, received, own⟩
        exact ⟨⟨earlier, row.mpr ⟨received, played.mpr own⟩⟩, earlierSeats,
          seats_fit received (played.mpr own)⟩

/-! ## A record of one event, at a given time -/

/-- A header with nothing but a `start_time`. -/
def startText (startTime : Nat) : String :=
  "[\x7b\"type\":\"start_game\",\"majsoul\":\x7b\"start_time\":" ++ toString startTime ++ "\x7d\x7d]"

/-- A JSON reader, as far as it reads that text. -/
def startSerde (startTime : Nat) : Serde where
  fromStr := fun _ => .error "expected value at line 1 column 1"
  fromStrVec := fun text =>
    if text = startText startTime then
      .ok [.object [("type", .string "start_game"),
        ("majsoul", .object [("start_time", .nat startTime)])]]
    else .error "expected value at line 1 column 1"
  print := fun _ => ""

/-- A game of 2023 leaves an empty pack insertable. -/
theorem consumed_fits_of_2023 :
    ∃ delivered next, appendBatch (reference (startSerde 1699999000)) ⟨1024, by decide⟩
        (fun _ => true) 0 emptyPack [delivered] = .ok next ∧
      (BatchFits uuidText next ↔
        BatchFits uuidText emptyPack ∧ IndexableYear ingestTime ∧
          ∀ at_, effectivePlayedAt (startSerde 1699999000) none (utf8 (startText 1699999000)) =
            some at_ → IndexableYear at_) := by
  have appended : (appendBatch (reference (startSerde 1699999000)) ⟨1024, by decide⟩
      (fun _ => true) 0 emptyPack
      [IngestMessage.new ingestTime 1 "upload" none (utf8 (startText 1699999000)) none]).Yields
      fun _ => True := by
    decide +kernel
  obtain ⟨next, appended, -⟩ := appended
  exact ⟨_, next, appended, consumed_fits_iff (reference (startSerde 1699999000)) _ _ 0
    ingestTime 1 "upload" none (utf8 (startText 1699999000)) none _ emptyPack next
    (by decide +kernel) (fromRecord_intoRecord _) appended⟩

/-- A record of the year 3000 is acknowledged and consumed, and its row cannot be
inserted. -/
theorem far_future_start_poisons :
    (parseMetadata (startSerde 32503680000) (utf8 (startText 32503680000))).isOk = true ∧
      ∃ delivered, IngestMessage.fromRecord uuidText rfc3339
          ((IngestMessage.new ingestTime 1 "upload" none (utf8 (startText 32503680000))
            none).intoRecord uuidText rfc3339) = .ok delivered ∧
        (appendBatch (reference (startSerde 32503680000)) ⟨1024, by decide⟩ (fun _ => true) 0
          emptyPack [delivered]).Yields fun next => ¬ BatchFits uuidText next :=
  ⟨by decide +kernel, _, fromRecord_intoRecord _, by decide +kernel⟩

end MajsoulManager.Indexer
