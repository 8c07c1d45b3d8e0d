/-
# Store.Message — the record topic: messages, routing and produce requests

`kafka.rs`.  An `IngestMessage` travels as a topic record and comes back through
`fromRecord`; `fromRecord_intoRecord` says what survives the trip: everything,
except a `played_at` override whose year does not print in four digits.

`produceRequests` is the list of requests one `produce_batch` issues, in order.
-/
import MajsoulManager.Store.Pack

namespace MajsoulManager.Store

open MajsoulManager.Theory

set_option autoImplicit false

/-! ## What the topic relies on of third-party code -/

/-- The hyphenated text of a uuid, and the reader of it. -/
structure UuidText where
  toText : Uuid → String
  parseStr : String → Option Uuid
  parseStr_toText : ∀ id, parseStr (toText id) = some id

/-- The RFC 3339 text of an instant.  A year outside 0 to 9999 prints with a sign,
which the reader refuses. -/
structure Rfc3339 where
  toText : DateTime → String
  parse : String → Option DateTime
  parse_toText : ∀ t, 0 ≤ t.year → t.year ≤ 9999 → parse (toText t) = some t
  parse_signed : ∀ t, ¬ (0 ≤ t.year ∧ t.year ≤ 9999) → parse (toText t) = none

/-! ## Messages -/

structure IngestMessage where
  recordId : Uuid
  source : String
  playedAt : Option DateTime
  raw : Bytes
  majsoulPb : Option Bytes
  receivedAt : DateTime
  deriving DecidableEq

/-- The only constructor of a new record: it stamps the ingest time. -/
def IngestMessage.new (now : DateTime) (recordId : Uuid) (source : String)
    (playedAt : Option DateTime) (raw : Bytes) (majsoulPb : Option Bytes) : IngestMessage where
  recordId := recordId
  source := source
  playedAt := playedAt.map DateTime.truncMillis
  raw := raw
  majsoulPb := majsoulPb
  receivedAt := now.truncMillis

/-- Replacement bytes for a record already in the index, under its stored time. -/
def IngestMessage.reindex (recordId : Uuid) (source : String) (receivedAt : DateTime)
    (playedAt : Option DateTime) (raw : Bytes) (majsoulPb : Option Bytes) : IngestMessage where
  recordId := recordId
  source := source
  playedAt := playedAt.map DateTime.truncMillis
  raw := raw
  majsoulPb := majsoulPb
  receivedAt := receivedAt.truncMillis

/-- A record of the topic. -/
structure TopicRecord where
  key : Option Bytes
  value : Option Bytes
  headers : List (String × Bytes)
  timestamp : DateTime
  deriving DecidableEq

inductive KafkaError where
  | broker
  | timeout
  | malformed (message : String)
  deriving DecidableEq, Repr

def utf8 (text : String) : Bytes := text.toByteArray.data.toList

@[simp] theorem fromUtf8_utf8 (text : String) : Text.fromUtf8 (utf8 text) = some text := by
  have back : (⟨(utf8 text).toArray⟩ : ByteArray) = text.toByteArray := by simp [utf8]
  rw [Text.fromUtf8, back, String.fromUTF8?, dif_pos text.isValidUTF8]
  rfl

section Trip

variable (uuid : UuidText) (rfc3339 : Rfc3339)

/-- Headers stand in key order. -/
def IngestMessage.intoRecord (message : IngestMessage) : TopicRecord where
  key := some (utf8 (uuid.toText message.recordId))
  value := some message.raw
  headers := (message.majsoulPb.map (("majsoul_pb", ·))).toList ++
    (message.playedAt.map fun at_ => ("played_at", utf8 (rfc3339.toText at_))).toList ++
    [("source", utf8 message.source)]
  timestamp := message.receivedAt

/-- The consumer's only way back to a message. -/
def IngestMessage.fromRecord (record : TopicRecord) : Except KafkaError IngestMessage := do
  let key ← record.key.elim (.error (.malformed "message has no record id key")) .ok
  let recordId ← ((Text.fromUtf8 key).bind uuid.parseStr).elim
    (.error (.malformed "message key is not a record id")) .ok
  let source ← ((record.headers.lookup "source").bind Text.fromUtf8).elim
    (.error (.malformed (uuid.toText recordId ++ " carries no source"))) .ok
  -- an override nobody can read is dropped, not refused
  let playedAt := ((record.headers.lookup "played_at").bind Text.fromUtf8).bind rfc3339.parse
  let raw ← record.value.elim (.error (.malformed (uuid.toText recordId ++ " has no body"))) .ok
  .ok { recordId, source, playedAt, raw
        majsoulPb := record.headers.lookup "majsoul_pb"
        receivedAt := record.timestamp }

variable {uuid rfc3339}

/-- Whether an override's text can be read back. -/
def fourDigitYear (t : DateTime) : Bool := 0 ≤ t.year && t.year ≤ 9999

/-- **What survives the topic**: everything but an override with a signed year. -/
theorem fromRecord_intoRecord (message : IngestMessage) :
    IngestMessage.fromRecord uuid rfc3339 (message.intoRecord uuid rfc3339) =
      .ok { message with playedAt := message.playedAt.filter fourDigitYear } := by
  obtain ⟨recordId, source, playedAt, raw, majsoulPb, receivedAt⟩ := message
  have readBack : ∀ t, rfc3339.parse (rfc3339.toText t) =
      if fourDigitYear t then some t else none := by
    intro t
    by_cases plain : 0 ≤ t.year ∧ t.year ≤ 9999
    · simp [fourDigitYear, plain, rfc3339.parse_toText t plain.1 plain.2]
    · have signed : fourDigitYear t = false := by
        simpa [fourDigitYear] using plain
      simp [signed, rfc3339.parse_signed t plain]
  cases majsoulPb <;> cases playedAt <;>
    simp [IngestMessage.fromRecord, IngestMessage.intoRecord, uuid.parseStr_toText, readBack, Option.filter, List.lookup,
      Bind.bind, Except.bind]

end Trip

/-! ## Produce requests -/

/-- 768 KiB. -/
def maxProduceBatchBytes : Nat := 768 * 1024

section Requests

variable {Item : Type} (size : Item → Nat)

/-- Cuts a partition's records into requests: a record that would cross the bound
starts the next one, unless the request is still empty. -/
def chunksFrom (current : List Item) (currentBytes : Nat) : List Item → List (List Item)
  | [] => if current.isEmpty then [] else [current]
  | item :: rest =>
      if !current.isEmpty && currentBytes + size item > maxProduceBatchBytes then
        current :: chunksFrom [item] (size item) rest
      else chunksFrom (current ++ [item]) (currentBytes + size item) rest

def produceChunks (items : List Item) : List (List Item) := chunksFrom size [] 0 items

/-- A record id always lands in the same partition. -/
def partitionFor (partitions : Nat) (id : Uuid) : Nat := id.toNat % partitions

/-- The requests of one `produce_batch`, in the order they are issued: partition
by partition, chunk by chunk. -/
def produceRequests (partitions : Nat) (idOf : Item → Uuid) (items : List Item) :
    List (List Item) :=
  (List.range partitions).flatMap fun partition =>
    produceChunks size (items.filter fun item => partitionFor partitions (idOf item) = partition)

variable {size}

theorem chunksFrom_flatten (current : List Item) (currentBytes : Nat) (items : List Item) :
    (chunksFrom size current currentBytes items).flatten = current ++ items := by
  induction items generalizing current currentBytes with
  | nil => cases current <;> simp [chunksFrom]
  | cons item rest ih =>
      simp only [chunksFrom]
      split
      · simp [ih]
      · simp [ih]

/-- Chunking keeps every record, in order. -/
theorem produceChunks_flatten (items : List Item) :
    (produceChunks size items).flatten = items :=
  chunksFrom_flatten [] 0 items

theorem chunksFrom_ne_nil {current : List Item} {currentBytes : Nat} {items chunk : List Item}
    (member : chunk ∈ chunksFrom size current currentBytes items) : chunk ≠ [] := by
  induction items generalizing current currentBytes with
  | nil =>
      cases current with
      | nil => simp [chunksFrom] at member
      | cons first more =>
          simp only [chunksFrom, List.isEmpty_cons, Bool.false_eq_true, if_false,
            List.mem_singleton] at member
          simp [member]
  | cons item rest ih =>
      simp only [chunksFrom] at member
      split at member
      · rename_i full
        rcases List.mem_cons.mp member with rfl | later
        · intro empty
          simp [empty] at full
        · exact ih later
      · exact ih member

/-- No request is empty. -/
theorem produceRequests_ne_nil {partitions : Nat} {idOf : Item → Uuid}
    {items request : List Item} (member : request ∈ produceRequests size partitions idOf items) :
    request ≠ [] := by
  obtain ⟨partition, -, chunk⟩ := List.mem_flatMap.mp member
  exact chunksFrom_ne_nil chunk

/-- The requests carry exactly the records handed over. -/
theorem mem_produceRequests_flatten {partitions : Nat} (some_partition : 0 < partitions)
    {idOf : Item → Uuid} {items : List Item} {item : Item} :
    item ∈ (produceRequests size partitions idOf items).flatten ↔ item ∈ items := by
  simp only [produceRequests, List.mem_flatten, List.mem_flatMap, List.mem_range]
  constructor
  · rintro ⟨request, ⟨partition, -, chunk⟩, inside⟩
    have kept := List.mem_flatten.mpr ⟨request, chunk, inside⟩
    rw [produceChunks_flatten] at kept
    exact (List.mem_filter.mp kept).1
  · intro inside
    have routed : item ∈ (produceChunks size (items.filter fun other =>
        partitionFor partitions (idOf other) = partitionFor partitions (idOf item))).flatten := by
      rw [produceChunks_flatten]
      simp [inside]
    obtain ⟨request, chunk, inside⟩ := List.mem_flatten.mp routed
    exact ⟨request, ⟨_, Nat.mod_lt _ some_partition, chunk⟩, inside⟩

end Requests

end MajsoulManager.Store
