/-
# Indexer.Frames — where a batch puts its bytes

`append_batch` writes one frame for a record and a second one for the protobuf it
was converted from, into one writer.  `Filled` is what a batch has done so far,
over the entries the pack already held; `appendMessage_filled` is one message and
`appendBatch_filled` the batch.

`appendBatch_exact` reads off the rows: one per parseable message, in order, each
pointing at its own bytes, in frames that never meet.
-/
import MajsoulManager.Indexer.Acknowledged
import MajsoulManager.Store.Scan

namespace MajsoulManager.Indexer

open MajsoulManager.Theory
open MajsoulManager.Record
open MajsoulManager.Store

set_option autoImplicit false

/-- The location a pack read wants, borrowing the record's own pack key. -/
def inPack (packKey : String) (stored : PbLocation) : PackLocation :=
  ⟨packKey, stored.offset, stored.compressedSize, stored.rawSize, .zstd⟩

/-- The entry of a protobuf, where there is one. -/
def pbEntry (id : Uuid) (packKey : String) : Option Bytes → Option PbLocation → List Entry
  | some pb, some stored => [⟨id, pb, inPack packKey stored⟩]
  | _, _ => []

/-- The entries of the pack that a message's row points at. -/
def entriesOf (message : IngestMessage) (row : Store.Record) : List Entry :=
  ⟨message.recordId, message.raw, row.storage⟩ ::
    pbEntry message.recordId row.storage.packKey message.majsoulPb row.majsoulPb

/-- The row was built from the message, and reads back from the file as its bytes
and, exactly if it carried one, its protobuf. -/
structure StoredAs (crates : Crates) (key : String) (file : Bytes) (message : IngestMessage)
    (row : Store.Record) : Prop where
  built : RowFor crates message row
  packKey : row.storage.packKey = key
  raw : readFrame crates.zstd file row.storage = some message.raw
  majsoulPb : row.majsoulPb.map (fun stored =>
    readFrame crates.zstd file (inPack row.storage.packKey stored)) = message.majsoulPb.map some

/-- What a batch has done so far: the messages it kept, each with its row. -/
structure Filled (crates : Crates) (key : String) (entries : List Entry) (rows : List Store.Record)
    (stored : List (IngestMessage × Store.Record)) (held : Held) : Prop where
  rows : held.rows = rows ++ stored.map Prod.snd
  pack : Appended crates.zstd key held.writer
    (entries ++ stored.flatMap fun kept => entriesOf kept.1 kept.2)
  built : ∀ kept ∈ stored, RowFor crates kept.1 kept.2 ∧ kept.2.storage.packKey = key ∧
    kept.2.majsoulPb.isSome = kept.1.majsoulPb.isSome

section Batch

variable {crates : Crates} {heap : Heap} {disk : Nat → Bool} {now : Nat} {key : String}
  {entries : List Entry} {rows : List Store.Record}
  {stored : List (IngestMessage × Store.Record)}

/-- The protobuf's entry follows the record's, if there is one. -/
theorem appendPb_appended {writer next : PackWriter} {message : IngestMessage}
    {placed : Option PbLocation} {before : List Entry} (pack : Appended crates.zstd key writer before)
    (appended : appendPb crates disk now writer message = .ok (next, placed)) :
    placed.isSome = message.majsoulPb.isSome ∧
      Appended crates.zstd key next
        (before ++ pbEntry message.recordId key message.majsoulPb placed) := by
  unfold appendPb at appended
  cases carried : message.majsoulPb with
  | none =>
      simp only [carried, Outcome.ok.injEq, Prod.mk.injEq] at appended
      obtain ⟨rfl, rfl⟩ := appended
      exact ⟨rfl, by simpa [pbEntry] using pack⟩
  | some pb =>
      rw [carried] at appended
      obtain ⟨⟨grown, location⟩, wrote, rest⟩ := Outcome.bind_eq_ok.mp appended
      simp only [Outcome.ok.injEq, Prod.mk.injEq] at rest
      obtain ⟨rfl, rfl⟩ := rest
      have same : location = inPack key ⟨location.offset, location.compressedSize, location.rawSize⟩ := by
        obtain ⟨frame, -, -, -, -, -, rfl⟩ := PackWriter.append_eq_ok wrote
        rw [pack.whole.2]
        rfl
      refine ⟨rfl, ?_⟩
      have longer := Appended.append pack wrote
      rwa [same] at longer

/-- **One message.**  One that parses is kept, with its row; any other leaves
everything as it was. -/
theorem appendMessage_filled {held next : Held} {message : IngestMessage}
    (filled : Filled crates key entries rows stored held)
    (appended : appendMessage crates heap disk now held message = .ok next) :
    ∃ more, more.map Prod.fst = [message].filter (parseable crates) ∧
      Filled crates key entries rows (stored ++ more) next := by
  obtain ⟨dropped, rfl⟩ | ⟨metadata, first, location, second, placed, game, parsed, wrote, wrotePb,
    rfl⟩ := appendMessage_cases appended
  · exact ⟨[], by simp [dropped], by simpa using filled⟩
  · have kept := parseable_of_parsed parsed
    have record := Appended.append filled.pack wrote
    obtain ⟨carried, both⟩ := appendPb_appended record wrotePb
    have packKey : location.packKey = key := by
      obtain ⟨-, -, -, named, -⟩ := PackWriter.append_spec filled.pack.whole.1 wrote
      exact named.trans filled.pack.whole.2
    refine ⟨[(message, rowOf crates message metadata location placed)], by simp [kept], ?_⟩
    constructor
    · show held.rows ++ [rowOf crates message metadata location placed] = _
      rw [filled.rows, List.map_append, List.append_assoc]
      rfl
    · rw [List.flatMap_append, ← List.append_assoc]
      simpa [entriesOf, rowOf, packKey, List.append_assoc] using both
    · intro each member
      rcases List.mem_append.mp member with old | new
      · exact filled.built each old
      · rw [List.mem_singleton] at new
        subst new
        exact ⟨⟨metadata, location, placed, parsed, rfl⟩, packKey, carried⟩

theorem appendBatch_filled {held next : Held} {messages : List IngestMessage}
    (filled : Filled crates key entries rows stored held)
    (appended : appendBatch crates heap disk now held messages = .ok next) :
    ∃ more, more.map Prod.fst = messages.filter (parseable crates) ∧
      Filled crates key entries rows (stored ++ more) next := by
  induction messages generalizing held stored with
  | nil =>
      cases appended
      exact ⟨[], rfl, by simpa using filled⟩
  | cons message rest ih =>
      rw [appendBatch, List.foldlM_cons] at appended
      obtain ⟨middle, here, later⟩ := Outcome.bind_eq_ok.mp appended
      obtain ⟨first, kept, filled⟩ := appendMessage_filled filled here
      obtain ⟨more, keptMore, filled⟩ := ih filled later
      refine ⟨first ++ more, ?_, by rwa [List.append_assoc] at filled⟩
      rw [List.map_append, kept, keptMore, ← List.filter_append, List.singleton_append]

/-- A row reads back from the pack it was filled into. -/
theorem Filled.storedAs {held : Held} (filled : Filled crates key entries rows stored held)
    {kept : IngestMessage × Store.Record} (member : kept ∈ stored) :
    StoredAs crates key held.writer.file kept.1 kept.2 := by
  obtain ⟨built, packKey, carried⟩ := filled.built kept member
  have reads : ∀ entry ∈ entriesOf kept.1 kept.2,
      readFrame crates.zstd held.writer.file entry.location = some entry.raw := by
    intro entry inside
    apply filled.pack.reads
    exact List.mem_append_right _ (List.mem_flatMap.mpr ⟨kept, member, inside⟩)
  refine ⟨built, packKey, reads _ List.mem_cons_self, ?_⟩
  cases pb : kept.1.majsoulPb with
  | none =>
      rw [pb] at carried
      cases placed : kept.2.majsoulPb with
      | none => rfl
      | some at_ => simp [placed] at carried
  | some bytes =>
      rw [pb] at carried
      cases placed : kept.2.majsoulPb with
      | none => simp [placed] at carried
      | some at_ =>
          have read := reads ⟨kept.1.recordId, bytes, inPack kept.2.storage.packKey at_⟩
            (by simp [entriesOf, pbEntry, pb, placed])
          simpa using read

/-- With a disk that takes everything, messages that fit and do not make the replay
panic go through. -/
theorem appendBatch_returns {messages : List IngestMessage} (held : Held)
    (fit : ∀ message ∈ messages, parseable crates message = true →
      MessageStorable crates message ∧ ¬ StreamHazard heap (eventsOf crates message)) :
    (appendBatch crates heap (fun _ => true) now held messages).Returns := by
  induction messages generalizing held with
  | nil => exact ⟨held, rfl⟩
  | cons message rest ih =>
      obtain ⟨here, later⟩ := List.forall_mem_cons.mp fit
      have went : (appendMessage crates heap (fun _ => true) now held message).Returns := by
        by_cases parses : parseable crates message = true
        · obtain ⟨storable, harmless⟩ := here parses
          exact (appendMessage_of_storable heap now held parses storable).2 harmless
        · cases parsed : parseMetadata crates.serde message.raw with
          | error reason => exact ⟨held, by simp [appendMessage, parsed]⟩
          | ok metadata => simp [parseable, parsed] at parses
      obtain ⟨middle, went⟩ := went
      obtain ⟨next, rest⟩ := ih middle later
      refine ⟨next, ?_⟩
      rw [appendBatch, List.foldlM_cons, went]
      exact rest

end Batch

/-- Two frames of one pack that do not overlap, the first one in front. -/
def Disjoint (left right : Entry) : Prop := left.location.stop ≤ right.location.offset

/-- **A batch, exactly.**  The rows added are one for each parseable message, in
message order, and each reads back as its own bytes and protobuf; all frames of the
pack, old and new, are disjoint and inside the file; what could be read before
still reads the same.  And a batch whose parseable messages fit the format and are
no hazard to the replay goes through. -/
theorem appendBatch_exact (crates : Crates) (heap : Heap) (now : Nat) {key : String}
    {writer : PackWriter} {entries : List Entry} (pack : Appended crates.zstd key writer entries)
    (rows : List Store.Record) (games : List PlayerGame) (messages : List IngestMessage) :
    (∀ disk next, appendBatch crates heap disk now ⟨writer, rows, games⟩ messages = .ok next →
      ∃ stored : List (IngestMessage × Store.Record),
        stored.map Prod.fst = messages.filter (parseable crates) ∧
        next.rows = rows ++ stored.map Prod.snd ∧
        (∀ kept ∈ stored, StoredAs crates key next.writer.file kept.1 kept.2) ∧
        (entries ++ stored.flatMap fun kept => entriesOf kept.1 kept.2).Pairwise Disjoint ∧
        (∀ entry ∈ entries ++ stored.flatMap fun kept => entriesOf kept.1 kept.2,
          entry.location.stop ≤ next.writer.file.length) ∧
        ∀ location raw, readFrame crates.zstd writer.file location = some raw →
          readFrame crates.zstd next.writer.file location = some raw) ∧
    ((∀ message ∈ messages, parseable crates message = true →
        MessageStorable crates message ∧ ¬ StreamHazard heap (eventsOf crates message)) →
      (appendBatch crates heap (fun _ => true) now ⟨writer, rows, games⟩ messages).Returns) := by
  refine ⟨fun disk next appended => ?_, appendBatch_returns _⟩
  have empty : Filled crates key entries rows [] ⟨writer, rows, games⟩ :=
    ⟨by simp, by simpa using pack, by simp⟩
  obtain ⟨stored, kept, filled⟩ := appendBatch_filled empty appended
  rw [List.nil_append] at filled
  obtain ⟨inside, ordered⟩ := filled.pack.ascending
  obtain ⟨-, -, grown, -⟩ := appendBatch_spec pack.whole.1 appended
  exact ⟨stored, kept, filled.rows, fun each member => filled.storedAs member, ordered,
    fun entry member => (inside entry member).2, fun location raw read =>
      readFrame_of_prefix grown read⟩

/-- A record with its protobuf and a message that does not parse, behind the entry
of a pack that holds one. -/
def sampleBatch : List IngestMessage :=
  [IngestMessage.new ingestTime 1 "upload" none (utf8 (startText 1699999000)) (some [8, 1]),
    IngestMessage.new ingestTime 1 "upload" none [0] none]

theorem appendBatch_exact_sample :
    ∃ next, appendBatch (reference (startSerde 1699999000)) ⟨1024, by decide⟩ (fun _ => true) 0
        ⟨samplePack, [], []⟩ sampleBatch = .ok next ∧ next.rows.length = 1 ∧
      readFrame rawBlocks next.writer.file sampleEntry.location = some [1, 2] := by
  have appended : (appendBatch (reference (startSerde 1699999000)) ⟨1024, by decide⟩
      (fun _ => true) 0 ⟨samplePack, [], []⟩ sampleBatch).Yields
      fun next => next.rows.length = 1 := by
    decide +kernel
  obtain ⟨next, appended, one⟩ := appended
  obtain ⟨stored, -, -, -, -, -, kept⟩ := (appendBatch_exact (reference (startSerde 1699999000))
    ⟨1024, by decide⟩ 0 samplePack_appended [] [] sampleBatch).1 _ next appended
  exact ⟨next, appended, one, kept _ _ (by decide +kernel)⟩

end MajsoulManager.Indexer
