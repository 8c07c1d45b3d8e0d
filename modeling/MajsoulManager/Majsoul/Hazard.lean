/-
# Majsoul.Hazard — when converting a record panics

A record comes off the network as bytes.  Converting it panics exactly when the
walk over its messages reaches one of two things (`convertRecordBytes_panics`): a
length-delimited field whose length, added to its position, passes the word size
and lands before that position, or a tile spelled as one character of several
bytes.  The converter proper adds none of its own.

Poles: `wrappedRecord` is a length that wraps, `loneTileRecord` a tile of one
stray byte, which reads as the replacement character.
-/
import MajsoulManager.Majsoul.Convert

namespace MajsoulManager.Majsoul

open MajsoulManager.Theory
open MajsoulManager.Store

set_option autoImplicit false

/-- Some action of the record panics its parser, the ones before it parsed. -/
def actionsHazard (actions : List RecordAction) : Prop :=
  firstHazard (fun action => parseRecordAction action.name action.data)
    (fun action => eventHazard action.name action.data) actions

/-- The walk over the messages of `raw` reaches a length that wraps or a tile of
one character of several bytes. -/
def ConvertHazard (raw : Bytes) : Prop :=
  20 ≤ raw.length ∧
    (recordHazard raw ∨ ∃ record, decodeGameRecord raw = .ok record ∧ actionsHazard record.records)

theorem timedEvent_panics (action : RecordAction) :
    (timedEvent action).Panics ↔ eventHazard action.name action.data :=
  Outcome.map_panics.trans (parseRecordAction_panics action.name action.data)

theorem parseActions_panics (actions : List RecordAction) :
    (parseActions actions).Panics ↔ actionsHazard actions := by
  rw [parseActions, Outcome.bind_panics, mapM_panics_first timedEvent_panics]
  simp [actionsHazard, firstHazard, timedEvent, Outcome.map_returns]

theorem emitEvents_panics (record : GameRecord) (metadata : Option GameMetadata) :
    (emitEvents record metadata).Panics ↔ actionsHazard record.records := by
  unfold emitEvents
  split
  · rename_i empty
    simp [empty, actionsHazard, firstHazard]
  · rw [Outcome.bind_panics, parseActions_panics]
    refine or_iff_left ?_
    rintro ⟨events, parsed, impossible⟩
    exact (eventsToMjai_returns record _ (parseActions_safe parsed)).not_panics impossible

/-- **When converting a record panics.** -/
theorem convertRecordBytes_panics (output : Output) (raw : Bytes) (metadata : Option GameMetadata) :
    (convertRecordBytes output raw metadata).Panics ↔ ConvertHazard raw := by
  unfold convertRecordBytes ConvertHazard
  split
  · rename_i short
    simp
    omega
  · rename_i long
    have enough : 20 ≤ raw.length := by omega
    simp only [enough, true_and, Outcome.bind_panics, Outcome.mapErr_panics, Outcome.mapErr_eq_ok,
      decodeGameRecord_panics, emitEvents_panics, Outcome.ok_panics, and_false, exists_false,
      or_false]

/-- **Converting a record returns or fails, and does not panic, exactly when no
hazard is reached.** -/
theorem convertRecordBytes_total_iff (output : Output) (raw : Bytes)
    (metadata : Option GameMetadata) :
    (¬ (convertRecordBytes output raw metadata).Panics) ↔ ¬ ConvertHazard raw :=
  not_congr (convertRecordBytes_panics output raw metadata)

/-- An error field whose length is the largest there is. -/
def wrappedRecord : Bytes :=
  [0x0a, 0xff, 0xff, 0xff, 0xff, 0xff, 0xff, 0xff, 0xff, 0xff, 0x01] ++ List.replicate 9 0

/-- One draw whose tile is the byte `ff`. -/
def loneTileRecord : Bytes :=
  [0x22, 0x1f, 0x12, 0x1d, 0x1a, 0x1b, 0x1a, 0x19, 0x0a, 0x12,
   0x2e, 0x6c, 0x71, 0x2e, 0x52, 0x65, 0x63, 0x6f, 0x72, 0x64,
   0x44, 0x65, 0x61, 0x6c, 0x54, 0x69, 0x6c, 0x65, 0x12, 0x03, 0x12, 0x01, 0xff]

/-- Both records panic, whatever the caller says about the game. -/
theorem convertRecordBytes_panics_on_bytes :
    (∀ output metadata, (convertRecordBytes output wrappedRecord metadata).Panics) ∧
      ∀ output metadata, (convertRecordBytes output loneTileRecord metadata).Panics := by
  have wrapped : (decodeGameRecord wrappedRecord).Panics := by decide +kernel
  have decoded : (decodeGameRecord loneTileRecord).Yields fun record =>
      record.records ≠ [] ∧ (parseActions record.records).Panics := by decide +kernel
  constructor
  · intro output metadata
    rw [convertRecordBytes, if_neg (by decide),
      show decodeGameRecord wrappedRecord = .panic from wrapped]
    rfl
  · intro output metadata
    obtain ⟨record, decoded, listed, panics⟩ := decoded
    have emitted : emitEvents record metadata = .panic := by
      rw [emitEvents, if_neg listed, show parseActions record.records = .panic from panics]
      rfl
    rw [convertRecordBytes, if_neg (by decide), decoded]
    simp [Outcome.mapErr, emitted]

end MajsoulManager.Majsoul
