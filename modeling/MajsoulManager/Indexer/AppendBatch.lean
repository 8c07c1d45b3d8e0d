/-
# Indexer.AppendBatch — consumed messages become pack entries and index rows

`append_batch`, the part of the pack worker that touches neither broker, bucket
nor index.

* `appendBatch_spec`: a batch that went through left one row for each of its
  parseable messages, in order, and each row's location reads back, from the
  pack as it then stands, as the bytes of its message.
* `appendBatch_panics_iff`: the messages a batch can panic on.
-/
import MajsoulManager.Store.Catalog

namespace MajsoulManager.Indexer

open MajsoulManager.Theory
open MajsoulManager.Record
open MajsoulManager.Store

set_option autoImplicit false

inductive IndexError where
  | pack (error : PackError)
  | object
  | index
  | kafka
  | truncated
  deriving DecidableEq, Repr

/-- What a worker holds for its open pack. -/
structure Held where
  writer : PackWriter
  rows : List Store.Record
  playerGames : List PlayerGame

/-- The index row of a message. -/
def rowOf (crates : Crates) (message : IngestMessage) (metadata : Metadata)
    (storage : PackLocation) (majsoulPb : Option PbLocation) : Store.Record where
  id := message.recordId
  source := message.source
  sha256 := crates.digest message.raw
  receivedAt := message.receivedAt
  playedAt := message.playedAt.or metadata.playedAt
  players := metadata.players
  rule := metadata.rule
  eventCount := metadata.eventCount
  storage := storage
  majsoulPb := majsoulPb

section Append

variable (crates : Crates) (heap : Heap) (disk : Nat → Bool) (now : Nat)

def appendPb (writer : PackWriter) (message : IngestMessage) :
    Outcome PackError (PackWriter × Option PbLocation) :=
  match message.majsoulPb with
  | none => .ok (writer, none)
  | some pb => do
      let (writer, stored) ← writer.append crates.zstd disk now message.recordId pb
      .ok (writer, some ⟨stored.offset, stored.compressedSize, stored.rawSize⟩)

/-- Scores the record; one that cannot be scored contributes no seat. -/
def scored (row : Store.Record) (events : List Value) : Outcome Empty (List PlayerGame) := do
  let game ← replay heap events
  .ok ((game.map (PlayerGame.of row)).getD [])

def eventsOf (message : IngestMessage) : List Value :=
  match events crates.serde message.raw with
  | .ok events => events
  | .error _ => []

/-- One message.  One that does not parse is dropped, and takes nothing with it. -/
def appendMessage (held : Held) (message : IngestMessage) : Outcome IndexError Held :=
  match parseMetadata crates.serde message.raw with
  | .error _ => .ok held
  | .ok metadata => do
      let (writer, location) ← Outcome.mapErr .pack
        (held.writer.append crates.zstd disk now message.recordId message.raw)
      let (writer, majsoulPb) ← Outcome.mapErr .pack (appendPb crates disk now writer message)
      let row := rowOf crates message metadata location majsoulPb
      let games ← Outcome.embed (scored heap row (eventsOf crates message))
      .ok ⟨writer, held.rows ++ [row], held.playerGames ++ games⟩

def appendBatch (held : Held) (messages : List IngestMessage) : Outcome IndexError Held :=
  messages.foldlM (appendMessage crates heap disk now) held

end Append

/-! ## What a row says -/

/-- Ingest and worker read the same payload the same way, so this is also what an
acknowledged record satisfies. -/
def parseable (crates : Crates) (message : IngestMessage) : Bool :=
  match parseMetadata crates.serde message.raw with
  | .ok _ => true
  | .error _ => false

/-- The row was built from the message, wherever its bytes were put. -/
def RowFor (crates : Crates) (message : IngestMessage) (row : Store.Record) : Prop :=
  ∃ metadata storage majsoulPb, parseMetadata crates.serde message.raw = .ok metadata ∧
    row = rowOf crates message metadata storage majsoulPb

/-- The message's own sorting key: nothing of it comes from the worker. -/
def IngestMessage.sortingKey (message : IngestMessage) : String × DateTime × Uuid :=
  (message.source, message.receivedAt.truncMillis, message.recordId)

theorem RowFor.sortingKey {crates : Crates} {message : IngestMessage} {row : Store.Record}
    (built : RowFor crates message row) :
    row.stored.sortingKey = IngestMessage.sortingKey message := by
  obtain ⟨metadata, storage, majsoulPb, -, rfl⟩ := built
  rfl

/-- The row was built from the message, and the pack under `key` holds its bytes
and its protobuf where the row says. -/
structure Packed (crates : Crates) (key : String) (file : Bytes) (message : IngestMessage)
    (row : Store.Record) : Prop where
  built : RowFor crates message row
  packKey : row.storage.packKey = key
  raw : readFrame crates.zstd file row.storage = some message.raw
  majsoulPb : ∀ pb, message.majsoulPb = some pb → ∃ at_, row.majsoulPb = some at_ ∧
    readFrame crates.zstd file ⟨key, at_.offset, at_.compressedSize, at_.rawSize, .zstd⟩ = some pb

theorem readFrame_of_prefix {zstd : Zstd} {file longer raw : Bytes} {location : PackLocation}
    (grown : file <+: longer) (read : readFrame zstd file location = some raw) :
    readFrame zstd longer location = some raw := by
  obtain ⟨more, rfl⟩ := grown
  exact readFrame_append read

/-- A pack that grows keeps what is packed in it. -/
theorem Packed.grow {crates : Crates} {key : String} {file longer : Bytes}
    {message : IngestMessage} {row : Store.Record} (packed : Packed crates key file message row)
    (grown : file <+: longer) : Packed crates key longer message row where
  built := packed.built
  packKey := packed.packKey
  raw := readFrame_of_prefix grown packed.raw
  majsoulPb := fun pb carried => by
    obtain ⟨at_, placed, read⟩ := packed.majsoulPb pb carried
    exact ⟨at_, placed, readFrame_of_prefix grown read⟩

section Spec

variable {crates : Crates} {heap : Heap} {disk : Nat → Bool} {now : Nat}

theorem appendPb_spec {writer next : PackWriter} {message : IngestMessage}
    {placed : Option PbLocation} (whole : writer.Whole)
    (appended : appendPb crates disk now writer message = .ok (next, placed)) :
    next.Whole ∧ next.key = writer.key ∧ writer.file <+: next.file ∧
      ∀ pb, message.majsoulPb = some pb → ∃ at_, placed = some at_ ∧
        readFrame crates.zstd next.file
          ⟨writer.key, at_.offset, at_.compressedSize, at_.rawSize, .zstd⟩ = some pb := by
  unfold appendPb at appended
  cases carried : message.majsoulPb with
  | none =>
      simp only [carried, Outcome.ok.injEq, Prod.mk.injEq] at appended
      obtain ⟨rfl, rfl⟩ := appended
      exact ⟨whole, rfl, List.prefix_rfl, by simp⟩
  | some pb =>
      rw [carried] at appended
      obtain ⟨⟨grown, stored⟩, wrote, rest⟩ := Outcome.bind_eq_ok.mp appended
      simp only [Outcome.ok.injEq, Prod.mk.injEq] at rest
      obtain ⟨rfl, rfl⟩ := rest
      obtain ⟨wholeNext, key, extends_, packKey, read⟩ := PackWriter.append_spec whole wrote
      refine ⟨wholeNext, key, extends_, ?_⟩
      rintro other same
      cases same
      obtain ⟨frame, -, -, -, -, -, rfl⟩ := PackWriter.append_eq_ok wrote
      exact ⟨_, rfl, read⟩

/-- Everything a message that went through can have done. -/
theorem appendMessage_cases {held next : Held} {message : IngestMessage}
    (appended : appendMessage crates heap disk now held message = .ok next) :
    (parseable crates message = false ∧ next = held) ∨
    ∃ metadata first location second placed game,
      parseMetadata crates.serde message.raw = .ok metadata ∧
      held.writer.append crates.zstd disk now message.recordId message.raw = .ok (first, location) ∧
      appendPb crates disk now first message = .ok (second, placed) ∧
      next = ⟨second, held.rows ++ [rowOf crates message metadata location placed],
        held.playerGames ++
          (Option.map (PlayerGame.of (rowOf crates message metadata location placed)) game).getD []⟩ := by
  unfold appendMessage at appended
  cases parsed : parseMetadata crates.serde message.raw with
  | error reason =>
      simp only [parsed, Outcome.ok.injEq] at appended
      exact .inl ⟨by simp [parseable, parsed], appended.symm⟩
  | ok metadata =>
      rw [parsed] at appended
      obtain ⟨⟨first, location⟩, wrote, appended⟩ := Outcome.bind_eq_ok.mp appended
      obtain ⟨⟨second, placed⟩, wrotePb, appended⟩ := Outcome.bind_eq_ok.mp appended
      obtain ⟨games, played, done⟩ := Outcome.bind_eq_ok.mp appended
      obtain ⟨game, -, seats⟩ := Outcome.bind_eq_ok.mp (Outcome.embed_eq_ok.mp played)
      cases done
      cases seats
      exact .inr ⟨metadata, first, location, second, placed, game, rfl,
        Outcome.mapErr_eq_ok.mp wrote, Outcome.mapErr_eq_ok.mp wrotePb, rfl⟩

theorem parseable_of_parsed {message : IngestMessage} {metadata : Metadata}
    (parsed : parseMetadata crates.serde message.raw = .ok metadata) :
    parseable crates message = true := by
  simp [parseable, parsed]

/-- What a message that parses adds to the rows and to the seats. -/
theorem appendMessage_rows {held next : Held} {message : IngestMessage} {metadata : Metadata}
    (parsed : parseMetadata crates.serde message.raw = .ok metadata)
    (appended : appendMessage crates heap disk now held message = .ok next) :
    ∃ storage majsoulPb game, next.rows = held.rows ++ [rowOf crates message metadata storage majsoulPb] ∧
      next.playerGames = held.playerGames ++
        (Option.map (PlayerGame.of (rowOf crates message metadata storage majsoulPb)) game).getD [] := by
  obtain ⟨dropped, -⟩ | ⟨read, -, location, -, placed, game, also, -, -, rfl⟩ :=
    appendMessage_cases appended
  · cases dropped.symm.trans (parseable_of_parsed parsed)
  · cases parsed.symm.trans also
    exact ⟨location, placed, game, rfl, rfl⟩

/-- One message that went through: the pack only grew, and a parseable message
has its row at the end. -/
theorem appendMessage_spec {held next : Held} {message : IngestMessage}
    (whole : held.writer.Whole)
    (appended : appendMessage crates heap disk now held message = .ok next) :
    next.writer.Whole ∧ next.writer.key = held.writer.key ∧
      held.writer.file <+: next.writer.file ∧
      ∃ rows, next.rows = held.rows ++ rows ∧
        List.Forall₂ (Packed crates held.writer.key next.writer.file)
          ([message].filter (parseable crates)) rows := by
  obtain ⟨dropped, rfl⟩ | ⟨metadata, first, location, second, placed, game, parsed, wrote, wrotePb,
    rfl⟩ := appendMessage_cases appended
  · exact ⟨whole, rfl, List.prefix_rfl, [], by simp, by simp [dropped]⟩
  · obtain ⟨wholeFirst, keyFirst, growsFirst, packKey, read⟩ := PackWriter.append_spec whole wrote
    obtain ⟨wholeSecond, keySecond, growsSecond, readPb⟩ := appendPb_spec wholeFirst wrotePb
    refine ⟨wholeSecond, keySecond.trans keyFirst, growsFirst.trans growsSecond, _, rfl, ?_⟩
    simp only [List.filter_cons, parseable_of_parsed parsed, if_true, List.filter_nil]
    refine List.Forall₂.cons ?_ List.Forall₂.nil
    exact {
      built := ⟨metadata, location, placed, parsed, rfl⟩
      packKey := packKey
      raw := readFrame_of_prefix growsSecond read
      majsoulPb := fun pb carried => keyFirst ▸ readPb pb carried }

/-- **A batch that went through.** -/
theorem appendBatch_spec {held next : Held} {messages : List IngestMessage}
    (whole : held.writer.Whole)
    (appended : appendBatch crates heap disk now held messages = .ok next) :
    next.writer.Whole ∧ next.writer.key = held.writer.key ∧
      held.writer.file <+: next.writer.file ∧
      ∃ rows, next.rows = held.rows ++ rows ∧
        List.Forall₂ (Packed crates held.writer.key next.writer.file)
          (messages.filter (parseable crates)) rows := by
  induction messages generalizing held with
  | nil =>
      cases appended
      exact ⟨whole, rfl, List.prefix_rfl, [], by simp, by simp⟩
  | cons message rest ih =>
      rw [appendBatch, List.foldlM_cons] at appended
      obtain ⟨middle, first, later⟩ := Outcome.bind_eq_ok.mp appended
      obtain ⟨wholeMiddle, keyMiddle, growsMiddle, rows, rowsMiddle, packed⟩ :=
        appendMessage_spec whole first
      obtain ⟨wholeNext, keyNext, growsNext, more, rowsNext, packedMore⟩ :=
        ih wholeMiddle later
      refine ⟨wholeNext, keyNext.trans keyMiddle, growsMiddle.trans growsNext, rows ++ more, ?_, ?_⟩
      · rw [rowsNext, rowsMiddle, List.append_assoc]
      · have early := packed.imp fun message row packed => Packed.grow packed growsNext
        have parts : (message :: rest).filter (parseable crates) =
            [message].filter (parseable crates) ++ rest.filter (parseable crates) := by
          rw [← List.filter_append, List.singleton_append]
        rw [parts]
        exact List.rel_append early (keyMiddle ▸ packedMore)

end Spec

/-! ## The batches that panic -/

section Panics

variable {crates : Crates} {heap : Heap} {disk : Nat → Bool} {now : Nat}

/-- Bytes that fit the pack format: both sizes of an entry are 32 bits. -/
def Storable (zstd : Zstd) (raw : Bytes) : Prop :=
  raw.length < 2 ^ 32 ∧ ∃ frame, zstd.compress raw = some frame ∧ frame.length < 2 ^ 32

def MessageStorable (crates : Crates) (message : IngestMessage) : Prop :=
  Storable crates.zstd message.raw ∧ ∀ pb, message.majsoulPb = some pb → Storable crates.zstd pb

/-- Some message parses, makes the replay panic, and is reached: it and every
parseable message before it fit the pack format. -/
def BatchHazard (crates : Crates) (heap : Heap) (messages : List IngestMessage) : Prop :=
  ∃ before message after, messages = before ++ message :: after ∧
    (∀ earlier ∈ before, parseable crates earlier = true → MessageStorable crates earlier) ∧
    parseable crates message = true ∧ MessageStorable crates message ∧
    StreamHazard heap (eventsOf crates message)

theorem append_not_panics (writer : PackWriter) (id : Uuid) (raw : Bytes) :
    ¬ (writer.append crates.zstd disk now id raw).Panics := by
  unfold PackWriter.append
  split
  · split
    · simp
    · split
      · split <;> simp
      · simp
  · simp

theorem append_storable {writer next : PackWriter} {id : Uuid} {raw : Bytes}
    {location : PackLocation}
    (appended : writer.append crates.zstd disk now id raw = .ok (next, location)) :
    Storable crates.zstd raw := by
  obtain ⟨frame, rawFits, compressed, frameFits, -⟩ := PackWriter.append_eq_ok appended
  exact ⟨rawFits, frame, compressed, frameFits⟩

/-- With a disk that takes everything, bytes that fit are appended. -/
theorem append_of_storable (now : Nat) (writer : PackWriter) (id : Uuid) {raw : Bytes}
    (fits : Storable crates.zstd raw) :
    (writer.append crates.zstd (fun _ => true) now id raw).Yields fun _ => True := by
  obtain ⟨rawFits, frame, compressed, frameFits⟩ := fits
  unfold PackWriter.append
  simp only [rawFits, if_true, compressed, frameFits]
  exact Outcome.yields_ok trivial

theorem appendPb_not_panics (writer : PackWriter) (message : IngestMessage) :
    ¬ (appendPb crates disk now writer message).Panics := by
  unfold appendPb
  split
  · simp
  · simp [Outcome.bind_panics, append_not_panics]

theorem appendPb_storable {writer next : PackWriter} {message : IngestMessage}
    {placed : Option PbLocation}
    (appended : appendPb crates disk now writer message = .ok (next, placed)) :
    ∀ pb, message.majsoulPb = some pb → Storable crates.zstd pb := by
  intro pb carried
  rw [appendPb, carried] at appended
  obtain ⟨⟨grown, stored⟩, wrote, -⟩ := Outcome.bind_eq_ok.mp appended
  exact append_storable wrote

theorem appendPb_of_storable (now : Nat) (writer : PackWriter) {message : IngestMessage}
    (fits : ∀ pb, message.majsoulPb = some pb → Storable crates.zstd pb) :
    (appendPb crates (fun _ => true) now writer message).Yields fun _ => True := by
  unfold appendPb
  cases carried : message.majsoulPb with
  | none => exact Outcome.yields_ok trivial
  | some pb =>
      exact (append_of_storable now writer _ (fits pb carried)).bind fun _ _ =>
        Outcome.yields_ok trivial

theorem scored_panics (row : Store.Record) {events : List Value} :
    (scored heap row events).Panics ↔ StreamHazard heap events := by
  simp [scored, Outcome.bind_panics, replay_panics]

/-- A message can only panic in its replay. -/
theorem appendMessage_panics {held : Held} {message : IngestMessage}
    (panics : (appendMessage crates heap disk now held message).Panics) :
    parseable crates message = true ∧ MessageStorable crates message ∧
      StreamHazard heap (eventsOf crates message) := by
  unfold appendMessage at panics
  cases parsed : parseMetadata crates.serde message.raw with
  | error reason => simp [parsed] at panics
  | ok metadata =>
      rw [parsed] at panics
      rcases Outcome.bind_panics.mp panics with here | ⟨⟨first, location⟩, wrote, panics⟩
      · exact absurd (Outcome.mapErr_panics.mp here) (append_not_panics _ _ _)
      rcases Outcome.bind_panics.mp panics with here | ⟨⟨second, placed⟩, wrotePb, panics⟩
      · exact absurd (Outcome.mapErr_panics.mp here) (appendPb_not_panics _ _)
      rcases Outcome.bind_panics.mp panics with here | ⟨games, -, impossible⟩
      · exact ⟨by simp [parseable, parsed], ⟨append_storable (Outcome.mapErr_eq_ok.mp wrote),
          appendPb_storable (Outcome.mapErr_eq_ok.mp wrotePb)⟩,
          (scored_panics _).mp (Outcome.embed_panics.mp here)⟩
      · simp at impossible

/-- A message that went through and parses fits the pack format. -/
theorem appendMessage_storable {held next : Held} {message : IngestMessage}
    (appended : appendMessage crates heap disk now held message = .ok next)
    (parses : parseable crates message = true) : MessageStorable crates message := by
  obtain ⟨dropped, -⟩ | ⟨-, first, location, second, placed, -, -, wrote, wrotePb, -⟩ :=
    appendMessage_cases appended
  · cases dropped.symm.trans parses
  · exact ⟨append_storable wrote, appendPb_storable wrotePb⟩

theorem appendBatch_storable {held next : Held} {messages : List IngestMessage}
    (appended : appendBatch crates heap disk now held messages = .ok next) :
    ∀ message ∈ messages, parseable crates message = true → MessageStorable crates message := by
  induction messages generalizing held with
  | nil => simp
  | cons first rest ih =>
      rw [appendBatch, List.foldlM_cons] at appended
      obtain ⟨middle, here, later⟩ := Outcome.bind_eq_ok.mp appended
      intro message member parses
      rcases List.mem_cons.mp member with rfl | member
      · exact appendMessage_storable here parses
      · exact ih later message member parses

/-- With a disk that takes everything, a message that fits panics when its replay
does, and goes through otherwise. -/
theorem appendMessage_of_storable (heap : Heap) (now : Nat) (held : Held) {message : IngestMessage}
    (parses : parseable crates message = true) (fits : MessageStorable crates message) :
    (StreamHazard heap (eventsOf crates message) →
      (appendMessage crates heap (fun _ => true) now held message).Panics) ∧
    (¬ StreamHazard heap (eventsOf crates message) →
      (appendMessage crates heap (fun _ => true) now held message).Returns) := by
  unfold appendMessage
  cases parsed : parseMetadata crates.serde message.raw with
  | error reason => simp [parseable, parsed] at parses
  | ok metadata =>
      obtain ⟨⟨first, location⟩, wrote, -⟩ :=
        append_of_storable now held.writer message.recordId fits.1
      obtain ⟨⟨second, placed⟩, wrotePb, -⟩ :=
        appendPb_of_storable now first fits.2
      simp only [wrote, wrotePb, Outcome.mapErr, Outcome.ok_bind]
      rw [← scored_panics (rowOf crates message metadata location placed)]
      cases scored heap (rowOf crates message metadata location placed) (eventsOf crates message) with
      | ok games => exact ⟨by simp, fun _ => by simp [Outcome.embed]⟩
      | panic => exact ⟨fun _ => by simp [Outcome.embed], by simp⟩
      | err impossible => cases impossible

/-- **The batches that panic.**  Some run of `append_batch` over the messages
panics exactly when one of them is a hazard that is reached. -/
theorem appendBatch_panics {held : Held} {messages : List IngestMessage} :
    (∃ disk, (appendBatch crates heap disk now held messages).Panics) ↔
      BatchHazard crates heap messages := by
  constructor
  · rintro ⟨disk, panics⟩
    obtain ⟨before, message, after, t, same, went, here⟩ := Outcome.foldlM_panics.mp panics
    obtain ⟨parses, fits, hazard⟩ := appendMessage_panics here
    exact ⟨before, message, after, same, appendBatch_storable went, parses, fits, hazard⟩
  · rintro ⟨before, message, after, rfl, reached, parses, fits, hazard⟩
    refine ⟨fun _ => true, ?_⟩
    induction before generalizing held with
    | nil =>
        rw [List.nil_append, appendBatch, List.foldlM_cons]
        exact Outcome.bind_panics.mpr
          (Or.inl ((appendMessage_of_storable heap now held parses fits).1 hazard))
    | cons first rest ih =>
        rw [List.cons_append, appendBatch, List.foldlM_cons, Outcome.bind_panics]
        by_cases readable : parseable crates first = true
        · obtain ⟨panics, returns⟩ := appendMessage_of_storable heap now held
            readable (reached first (by simp) readable)
          by_cases sooner : StreamHazard heap (eventsOf crates first)
          · exact Or.inl (panics sooner)
          · obtain ⟨next, went⟩ := returns sooner
            exact Or.inr ⟨next, went, ih fun earlier member => reached earlier (by simp [member])⟩
        · refine Or.inr ⟨held, ?_, ih fun earlier member => reached earlier (by simp [member])⟩
          cases parsed : parseMetadata crates.serde first.raw with
          | error reason => simp [appendMessage, parsed]
          | ok metadata => simp [parseable, parsed] at readable

end Panics

end MajsoulManager.Indexer
