/-
# Store.Topic — what the topic keeps of a message, and where a batch goes

`kafka.rs`.  A message that was built with a plain `played_at` comes back from its
record unchanged.  A record written by somebody else may name an override whose
offset carries a four digit year over the end of the calendar's plain years; such
a message loses the override, and only that, when it is encoded again.

`produce_batch` routes each message by its record id and cuts every partition's
records into requests.  The cut is greedy: `Cut` says what a greedy cut is, and
`chunksFrom_cut` that the loop makes one.
-/
import MajsoulManager.Store.Reference

namespace MajsoulManager.Store

open MajsoulManager.Theory

set_option autoImplicit false

/-! ## The trip through a record -/

section Codec

variable {uuid : UuidText} {rfc3339 : Rfc3339}

/-- An override that prints without a sign. -/
def PlainOverride (message : IngestMessage) : Prop :=
  ∀ at_ ∈ message.playedAt, 0 ≤ at_.year ∧ at_.year ≤ 9999

theorem fromRecord_intoRecord_iff (message : IngestMessage) :
    IngestMessage.fromRecord uuid rfc3339 (message.intoRecord uuid rfc3339) = .ok message ↔
      PlainOverride message := by
  rw [fromRecord_intoRecord]
  obtain ⟨recordId, source, playedAt, raw, majsoulPb, receivedAt⟩ := message
  cases playedAt with
  | none => simp [PlainOverride]
  | some at_ => simp [PlainOverride, Option.filter, fourDigitYear]

end Codec

/-- The messages the two constructors build. -/
inductive Built : IngestMessage → Option DateTime → Prop
  | new (now : DateTime) (recordId : Uuid) (source : String) (playedAt : Option DateTime)
      (raw : Bytes) (majsoulPb : Option Bytes) :
      Built (.new now recordId source playedAt raw majsoulPb) playedAt
  | reindex (recordId : Uuid) (source : String) (receivedAt : DateTime)
      (playedAt : Option DateTime) (raw : Bytes) (majsoulPb : Option Bytes) :
      Built (.reindex recordId source receivedAt playedAt raw majsoulPb) playedAt

/-- Truncating an override moves it to no other year. -/
theorem Built.plain {message : IngestMessage} {playedAt : Option DateTime}
    (built : Built message playedAt)
    (plain : ∀ at_ ∈ playedAt, 0 ≤ at_.year ∧ at_.year ≤ 9999) : PlainOverride message := by
  have truncated : ∀ at_ ∈ playedAt.map DateTime.truncMillis, 0 ≤ at_.year ∧ at_.year ≤ 9999 := by
    intro at_ member
    obtain ⟨given, inside, rfl⟩ := Option.map_eq_some_iff.mp member
    exact plain given inside
  cases built with
  | new => exact truncated
  | reindex => exact truncated

/-- **The message codec.**  A built message comes back as it was; a message read
from any record comes back from its own record, but for an override outside the
plain years, which is dropped. -/
theorem message_codec (uuid : UuidText) (rfc3339 : Rfc3339) :
    (∀ message playedAt, Built message playedAt →
      (∀ at_ ∈ playedAt, 0 ≤ at_.year ∧ at_.year ≤ 9999) →
      IngestMessage.fromRecord uuid rfc3339 (message.intoRecord uuid rfc3339) = .ok message) ∧
    ∀ record message, IngestMessage.fromRecord uuid rfc3339 record = .ok message →
      IngestMessage.fromRecord uuid rfc3339 (message.intoRecord uuid rfc3339) =
        .ok { message with playedAt := message.playedAt.filter fourDigitYear } := by
  constructor
  · intro message playedAt built plain
    apply (fromRecord_intoRecord_iff message).mpr
    exact built.plain plain
  · intro record message read
    exact fromRecord_intoRecord message

/-! ### An offset that crosses the last plain year -/

/-- The offset of an RFC 3339 text, in seconds east. -/
def readOffset : List Char → Option Int
  | [sign, h₁, h₂, ':', m₁, m₂] => do
      let hours ← readDigits [h₁, h₂]
      let minutes ← readDigits [m₁, m₂]
      let seconds : Int := (hours * 3600 + minutes * 60 : Nat)
      if 60 ≤ minutes then none
      else if sign = '+' then some seconds
      else if sign = '-' then some (-seconds)
      else none
  | _ => none

/-- The instant of a text that names its offset: the clock it shows, less the
offset. -/
def readZoned (text : List Char) : Option DateTime := do
  let shown ← readRfc3339 text
  let offset ← readOffset (text.drop (text.length - 6))
  DateTime.fromTimestamp (shown.secs - offset) shown.nanos

theorem readZoned_utc (shown : List Char) :
    readZoned (shown ++ utcOffset) = readRfc3339 (shown ++ utcOffset) := by
  have length : (shown ++ utcOffset).length - 6 = shown.length := by simp [utcOffset]
  have offset : readOffset utcOffset = some 0 := by decide
  unfold readZoned
  rw [length, List.drop_left, offset]
  cases read : readRfc3339 (shown ++ utcOffset) with
  | none => rfl
  | some t => simp [fromTimestamp_self]

/-- RFC 3339 with an offset, as `parse_from_rfc3339` and `with_timezone` read it. -/
def zonedRfc3339 : Rfc3339 where
  toText := rfc3339ToText
  parse := fun text => readZoned text.toList
  parse_toText := by
    intro t low high
    have read := rfc3339.parse_toText t low high
    simp only [rfc3339, rfc3339ToText, String.toList_ofList] at read ⊢
    rw [readZoned_utc, read]
  parse_signed := by
    intro t signed
    have read := rfc3339.parse_signed t signed
    simp only [rfc3339, rfc3339ToText, String.toList_ofList] at read ⊢
    rw [readZoned_utc, read]

/-- A record whose override is an hour past the year 9999, written with the offset
an hour west. -/
def newYearRecord : TopicRecord where
  key := some (utf8 (uuidText.toText 1))
  value := some []
  headers := [("played_at", utf8 "9999-12-31T23:59:59-01:00"), ("source", utf8 "import")]
  timestamp := .ofParts 0 0 rfl

def newYearMessage : IngestMessage where
  recordId := 1
  source := "import"
  playedAt := some (.ofParts 253402304399 0 rfl)
  raw := []
  majsoulPb := none
  receivedAt := .ofParts 0 0 rfl

/-- Not every record that is read comes back from its own message. -/
theorem message_codec_override_lost :
    IngestMessage.fromRecord uuidText zonedRfc3339 newYearRecord = .ok newYearMessage ∧
      IngestMessage.fromRecord uuidText zonedRfc3339
        (newYearMessage.intoRecord uuidText zonedRfc3339) ≠ .ok newYearMessage := by
  constructor
  · have override : zonedRfc3339.parse "9999-12-31T23:59:59-01:00" = newYearMessage.playedAt := by
      decide +kernel
    simp [IngestMessage.fromRecord, newYearRecord, uuidText.parseStr_toText, override,
      newYearMessage, List.lookup, Bind.bind, Except.bind]
  · intro same
    have plain := (fromRecord_intoRecord_iff newYearMessage).mp same
    have late := (plain _ rfl).2
    revert late
    decide

/-- The first of January 2026, stamped at the epoch. -/
def januaryMessage : IngestMessage :=
  .new (.ofParts 0 0 rfl) 7 "import"
    (some (.ofParts 1767225600 123456789 rfl)) [1, 2] (some [])

theorem message_codec_january :
    IngestMessage.fromRecord uuidText zonedRfc3339
      (januaryMessage.intoRecord uuidText zonedRfc3339) = .ok januaryMessage := by
  apply (message_codec uuidText zonedRfc3339).1 januaryMessage _ (.new _ _ _ _ _ _)
  intro at_ member
  rw [Option.mem_some] at member
  subst member
  decide

/-! ## Greedy cuts -/

section Cut

variable {Item : Type} (size : Item → Nat) (limit : Nat)

def weight (items : List Item) : Nat := (items.map size).sum

/-- A list of chunks none of which is empty, none of which is too heavy unless it
is one item, and none of which could take the first item of the next. -/
inductive Cut : List (List Item) → Prop
  | nil : Cut []
  | last {chunk : List Item} (filled : chunk ≠ [])
      (fits : 1 < chunk.length → weight size chunk ≤ limit) : Cut [chunk]
  | cons {chunk : List Item} {item : Item} {next : List Item} {rest : List (List Item)}
      (filled : chunk ≠ []) (fits : 1 < chunk.length → weight size chunk ≤ limit)
      (full : limit < weight size chunk + size item) (later : Cut ((item :: next) :: rest)) :
      Cut (chunk :: (item :: next) :: rest)

variable {size limit}

@[simp] theorem weight_append (left right : List Item) :
    weight size (left ++ right) = weight size left + weight size right := by
  simp [weight]

@[simp] theorem weight_cons (item : Item) (rest : List Item) :
    weight size (item :: rest) = size item + weight size rest := by
  simp [weight]

@[simp] theorem weight_nil : weight size ([] : List Item) = 0 := rfl

theorem Cut.filled {chunks : List (List Item)} (cut : Cut size limit chunks) :
    ∀ chunk ∈ chunks, chunk ≠ [] := by
  induction cut with
  | nil => simp
  | last filled => simpa using filled
  | cons filled _ _ _ ih => exact List.forall_mem_cons.mpr ⟨filled, ih⟩

theorem Cut.fits {chunks : List (List Item)} (cut : Cut size limit chunks) :
    ∀ chunk ∈ chunks, 1 < chunk.length → weight size chunk ≤ limit := by
  induction cut with
  | nil => simp
  | last _ fits => simpa using fits
  | cons _ fits _ _ ih => exact List.forall_mem_cons.mpr ⟨fits, ih⟩

/-- Two neighbours never fit in one chunk. -/
theorem Cut.neighbours {chunks : List (List Item)} (cut : Cut size limit chunks) :
    chunks.IsChain fun left right => limit < weight size (left ++ right) := by
  induction cut with
  | nil => exact .nil
  | last => exact .singleton _
  | @cons chunk item next rest _ _ full _ ih =>
      refine .cons_cons ?_ ih
      simp only [weight_append, weight_cons]
      omega

end Cut

section Chunks

variable {Item : Type} {size : Item → Nat}

/-- The chunk being filled, and what it is a chunk of: it starts with an item
unless nothing has been taken yet. -/
theorem chunksFrom_cut {current : List Item} {currentBytes : Nat} (items : List Item)
    (counted : currentBytes = weight size current)
    (fits : 1 < current.length → currentBytes ≤ maxProduceBatchBytes) :
    Cut size maxProduceBatchBytes (chunksFrom size current currentBytes items) ∧
      ∀ first more, current = first :: more →
        ∃ next rest, chunksFrom size current currentBytes items = (first :: next) :: rest := by
  induction items generalizing current currentBytes with
  | nil =>
      cases current with
      | nil => exact ⟨by simpa [chunksFrom] using Cut.nil, by simp⟩
      | cons first more =>
          simp only [chunksFrom, List.isEmpty_cons, Bool.false_eq_true, if_false]
          refine ⟨.last (by simp) fun long => counted ▸ fits long, ?_⟩
          rintro _ _ ⟨⟩
          exact ⟨more, [], rfl⟩
  | cons item rest ih =>
      simp only [chunksFrom]
      split
      · -- the item starts the next chunk
        rename_i full
        simp only [Bool.and_eq_true, Bool.not_eq_true', List.isEmpty_eq_false_iff,
          decide_eq_true_eq] at full
        obtain ⟨cut, starts⟩ := ih (show size item = weight size [item] by simp) (by simp)
        obtain ⟨next, later, same⟩ := starts item [] rfl
        rw [same] at cut ⊢
        refine ⟨.cons full.1 (fun long => counted ▸ fits long) (counted ▸ full.2) cut, ?_⟩
        rintro first more rfl
        exact ⟨more, _, rfl⟩
      · -- the chunk takes it: it was empty, or there is room
        rename_i room
        simp only [Bool.and_eq_true, Bool.not_eq_true', List.isEmpty_eq_false_iff,
          decide_eq_true_eq, not_and, not_lt] at room
        have weighed : currentBytes + size item = weight size (current ++ [item]) := by
          simp [counted]
        obtain ⟨cut, starts⟩ := ih weighed (by
          intro long
          apply room
          rintro rfl
          simp at long)
        refine ⟨cut, ?_⟩
        rintro first more rfl
        exact starts first (more ++ [item]) rfl

theorem produceChunks_cut (items : List Item) :
    Cut size maxProduceBatchBytes (produceChunks size items) :=
  (chunksFrom_cut items rfl (by simp)).1

end Chunks

/-! ## Where a batch goes -/

structure ProduceRequest where
  partition : Nat
  chunk : List TopicRecord

/-- What a list of requests sends to one partition. -/
def sentTo (partition : Nat) (requests : List ProduceRequest) : List TopicRecord :=
  (requests.filter fun request => request.partition = partition).flatMap ProduceRequest.chunk

section Batch

variable (uuid : UuidText) (rfc3339 : Rfc3339) (size : TopicRecord → Nat)

/-- Each message is pushed to the list of its own partition. -/
def routed (partitions : Nat) (messages : List IngestMessage) : List (List TopicRecord) :=
  messages.foldl (fun lists message =>
    lists.modify (partitionFor partitions message.recordId)
      (· ++ [message.intoRecord uuid rfc3339])) (List.replicate partitions [])

/-- The requests of a batch, in the order they are issued. -/
def batchRequests (partitions : Nat) (messages : List IngestMessage) : List ProduceRequest :=
  (routed uuid rfc3339 partitions messages).zipIdx.flatMap fun (records, partition) =>
    (produceChunks size records).map (ProduceRequest.mk partition)

/-- One request after another, up to the first that is not acknowledged in time. -/
def sendInTurn (answer : Nat → Except KafkaError Unit) :
    Nat → List ProduceRequest → List ProduceRequest × Except KafkaError Unit
  | _, [] => ([], .ok ())
  | k, request :: rest =>
      match answer k with
      | .ok () =>
          let (sent, result) := sendInTurn answer (k + 1) rest
          (request :: sent, result)
      | .error reason => ([request], .error reason)

/-- The requests that were sent, and the result.  `answer k` is what becomes of
the `k`th. -/
def produceBatch (partitions : Nat) (answer : Nat → Except KafkaError Unit)
    (messages : List IngestMessage) : List ProduceRequest × Except KafkaError Unit :=
  sendInTurn answer 0 (batchRequests uuid rfc3339 size partitions messages)

/-- The records of one partition, in message order. -/
def recordsOf (partitions partition : Nat) (messages : List IngestMessage) : List TopicRecord :=
  (messages.filter fun message => partitionFor partitions message.recordId = partition).map
    (IngestMessage.intoRecord uuid rfc3339)

variable {uuid rfc3339 size}

theorem routed_snoc (partitions : Nat) (messages : List IngestMessage) (message : IngestMessage) :
    routed uuid rfc3339 partitions (messages ++ [message]) =
      (routed uuid rfc3339 partitions messages).modify
        (partitionFor partitions message.recordId) (· ++ [message.intoRecord uuid rfc3339]) := by
  simp [routed]

theorem routed_length (partitions : Nat) (messages : List IngestMessage) :
    (routed uuid rfc3339 partitions messages).length = partitions := by
  induction messages using List.reverseRecOn with
  | nil => simp [routed]
  | append_singleton messages message ih => rw [routed_snoc, List.length_modify, ih]

/-- A partition's list holds its own messages, in their order. -/
theorem routed_getElem? {partitions partition : Nat} (inside : partition < partitions)
    (messages : List IngestMessage) :
    (routed uuid rfc3339 partitions messages)[partition]? =
      some (recordsOf uuid rfc3339 partitions partition messages) := by
  induction messages using List.reverseRecOn with
  | nil => simp [routed, recordsOf, inside]
  | append_singleton messages message ih =>
      rw [routed_snoc, List.getElem?_modify, ih]
      by_cases here : partitionFor partitions message.recordId = partition
      · simp [recordsOf, List.filter_append, here]
      · simp [recordsOf, List.filter_append, here]

theorem recordsOf_outside {partitions partition : Nat} (connected : 0 < partitions)
    (outside : partitions ≤ partition) (messages : List IngestMessage) :
    recordsOf uuid rfc3339 partitions partition messages = [] := by
  have none_ : ∀ message ∈ messages, ¬ partitionFor partitions message.recordId = partition := by
    intro message _ here
    have low : partitionFor partitions message.recordId < partitions := Nat.mod_lt _ connected
    omega
  rw [recordsOf, List.filter_eq_nil_iff.mpr (by simpa using none_), List.map_nil]

theorem routed_eq (partitions : Nat) (messages : List IngestMessage) :
    routed uuid rfc3339 partitions messages =
      (List.range partitions).map fun partition =>
        recordsOf uuid rfc3339 partitions partition messages := by
  apply List.ext_getElem?
  intro partition
  by_cases inside : partition < partitions
  · simp [routed_getElem? inside, List.getElem?_range inside]
  · have outside : partitions ≤ partition := Nat.le_of_not_lt inside
    rw [List.getElem?_eq_none (by rw [routed_length]; exact outside),
      List.getElem?_eq_none (by simpa using outside)]

theorem chunksFrom_map {Item : Type} (encode : Item → TopicRecord) (current : List Item)
    (currentBytes : Nat) (items : List Item) :
    chunksFrom size (current.map encode) currentBytes (items.map encode) =
      (chunksFrom (fun item => size (encode item)) current currentBytes items).map
        (List.map encode) := by
  induction items generalizing current currentBytes with
  | nil => cases current <;> simp [chunksFrom]
  | cons item rest ih =>
      have taken := ih (current ++ [item]) (currentBytes + size (encode item))
      have started := ih [item] (size (encode item))
      simp only [List.map_append, List.map_cons, List.map_nil] at taken started
      simp only [List.map_cons, chunksFrom, List.isEmpty_map, taken, started]
      split
      · rfl
      · rfl

/-- The requests of a batch are those of its messages, each cut into records. -/
theorem batchRequests_chunks (partitions : Nat) (messages : List IngestMessage) :
    (batchRequests uuid rfc3339 size partitions messages).map ProduceRequest.chunk =
      (produceRequests (fun message => size (message.intoRecord uuid rfc3339)) partitions
        IngestMessage.recordId messages).map (List.map (IngestMessage.intoRecord uuid rfc3339)) := by
  have cut : ∀ items : List IngestMessage,
      produceChunks size (items.map (IngestMessage.intoRecord uuid rfc3339)) =
        (produceChunks (fun message => size (message.intoRecord uuid rfc3339)) items).map
          (List.map (IngestMessage.intoRecord uuid rfc3339)) := fun items =>
    chunksFrom_map _ [] 0 items
  calc (batchRequests uuid rfc3339 size partitions messages).map ProduceRequest.chunk
      = ((routed uuid rfc3339 partitions messages).zipIdx.map Prod.fst).flatMap
          (produceChunks size) := by
        rw [List.flatMap_map]
        simp [batchRequests, List.map_flatMap, Function.comp_def]
    _ = (List.range partitions).flatMap fun partition =>
          produceChunks size (recordsOf uuid rfc3339 partitions partition messages) := by
        rw [List.zipIdx_map_fst, routed_eq, List.flatMap_map]
    _ = _ := by
        simp only [recordsOf, cut, produceRequests, List.map_flatMap]

@[simp] theorem sentTo_nil (partition : Nat) : sentTo partition [] = [] := rfl

theorem sentTo_append (partition : Nat) (left right : List ProduceRequest) :
    sentTo partition (left ++ right) = sentTo partition left ++ sentTo partition right := by
  simp [sentTo]

theorem sentTo_chunks (partition other : Nat) (chunks : List (List TopicRecord)) :
    sentTo partition (chunks.map (ProduceRequest.mk other)) =
      if other = partition then chunks.flatten else [] := by
  by_cases here : other = partition
  · simp [sentTo, here, List.filter_map, Function.comp_def, List.flatMap_map,
      List.flatMap_id']
  · simp [sentTo, here, List.filter_map, Function.comp_def]

/-- Requests of numbered lists reach the list of their number. -/
theorem sentTo_zipIdx (partition first : Nat) (lists : List (List TopicRecord)) :
    sentTo partition ((lists.zipIdx first).flatMap fun (records, other) =>
        (produceChunks size records).map (ProduceRequest.mk other)) =
      if first ≤ partition then (lists[partition - first]?).getD [] else [] := by
  induction lists generalizing first with
  | nil => simp
  | cons records rest ih =>
      rw [List.zipIdx_cons, List.flatMap_cons, sentTo_append, ih, sentTo_chunks,
        produceChunks_flatten]
      rcases Nat.lt_trichotomy first partition with before | rfl | after
      · obtain ⟨gap, rfl⟩ := Nat.exists_eq_add_of_lt before
        have index : first + gap + 1 - first = gap + 1 := by omega
        have next : first + gap + 1 - (first + 1) = gap := by omega
        simp [index, next, Nat.ne_of_lt before, Nat.le_of_lt before]
      · simp
      · simp [Nat.ne_of_gt after, Nat.not_le.mpr after, show ¬ first + 1 ≤ partition by omega]

/-- A whole batch sends every partition its records, in order. -/
theorem sentTo_batchRequests {partitions : Nat} (connected : 0 < partitions) (partition : Nat)
    (messages : List IngestMessage) :
    sentTo partition (batchRequests uuid rfc3339 size partitions messages) =
      recordsOf uuid rfc3339 partitions partition messages := by
  rw [batchRequests, sentTo_zipIdx]
  by_cases inside : partition < partitions
  · simp [routed_getElem? inside]
  · rw [recordsOf_outside connected (Nat.le_of_not_lt inside)]
    have short : (routed uuid rfc3339 partitions messages)[partition]? = none := by
      apply List.getElem?_eq_none
      rw [routed_length]
      exact Nat.le_of_not_lt inside
    simp [short]

theorem sendInTurn_prefix (answer : Nat → Except KafkaError Unit) (k : Nat)
    (requests : List ProduceRequest) :
    (sendInTurn answer k requests).1 <+: requests ∧
      ((sendInTurn answer k requests).2 = .ok () →
        (sendInTurn answer k requests).1 = requests) := by
  induction requests generalizing k with
  | nil => simp [sendInTurn]
  | cons request rest ih =>
      obtain ⟨starts, whole⟩ := ih (k + 1)
      cases reply : answer k with
      | ok done =>
          simp only [sendInTurn, reply]
          exact ⟨(List.prefix_cons_inj request).mpr starts, fun acked => by rw [whole acked]⟩
      | error reason =>
          simp [sendInTurn, reply]

/-- A record's key, value and headers. -/
def approximateSize (record : TopicRecord) : Nat :=
  (record.key.getD []).length + (record.value.getD []).length +
    (record.headers.map fun (name, value) => (utf8 name).length + value.length).sum

end Batch

end MajsoulManager.Store
