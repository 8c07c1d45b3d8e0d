/-
# Ingest.Archive — importing a tar archive, group by group

`process_batch_archive` claims the members of an archive one by one and hands the
new ones to the topic in groups, cut by the raw bytes of the members.  A walk can
end in many places: the record ceiling, a corrupt entry, a member path nobody can
read, a claim the store does not answer, a group the broker does not take.

`processBatchArchive_calls` holds however it ends: what was handed over are the
archive's groups in order, and a member that was claimed is in one of them or its
claim is abandoned.
-/
import MajsoulManager.Ingest.Produce
import MajsoulManager.Store.Topic

namespace MajsoulManager.Ingest

open MajsoulManager.Theory
open MajsoulManager.Record
open MajsoulManager.Store

set_option autoImplicit false

/-! ## Errors and their texts -/

/-- The errors of `Catalog::claim`. -/
inductive CatalogError where
  | conflict
  | pending
  | store (message : String)
  deriving DecidableEq

def CatalogError.text : CatalogError → String
  | conflict => "idempotency key was already used with different content"
  | pending => "the first request with this idempotency key is still being processed"
  | store message => "idempotency store is unavailable: " ++ message

inductive IngestError where
  | malformed (error : ParseError)
  | catalog (error : CatalogError)
  | produce (error : KafkaError)
  | backlogged (lag : Int)
  deriving DecidableEq

inductive ApiError where
  | badRequest (message : String)
  | payloadTooLarge (limit : Nat)
  | conflict (message : String)
  | internal (message : String)
  deriving DecidableEq

def ApiError.text : ApiError → String
  | badRequest message | conflict message | internal message => message
  | payloadTooLarge limit => "payload exceeds " ++ toString limit ++ " bytes"

def parseErrorText : ParseError → String
  | .utf8 => "mjson must be UTF-8"
  | .empty => "mjson is empty"
  | .json message => "invalid JSON: " ++ message
  | .notEvents => "mjson must contain JSON object events"

def ApiError.ofCatalog (error : CatalogError) : ApiError :=
  match error with
  | .conflict | .pending => .conflict error.text
  | .store _ => .internal error.text

/-- Only what this server could not keep is an internal error. -/
def ApiError.ofIngest (kafkaText : KafkaError → String) : IngestError → ApiError
  | .malformed error => .badRequest (parseErrorText error)
  | .catalog error => .ofCatalog error
  | .produce error =>
      .internal ("could not hand the record to the record topic: " ++ kafkaText error)
  | .backlogged lag =>
      .internal (toString lag ++ " records are still waiting to be packed and indexed; retry later")

/-! ## The archive and its readers -/

/-- One entry of a tar archive, and what reading it gives. -/
structure TarEntry where
  isFile : Bool
  path : Except String String
  size : Nat
  content : Except String Bytes

/-- The upload on disk. -/
structure Staged where
  content : Except String Bytes
  rewound : Except String Unit

/-- The third-party readers: a tar archive, behind gzip or not, the first bytes of
a gzip member, and how the broker's errors print. -/
structure Readers where
  entries : Bool → Bytes → Except String (List (Except String TarEntry))
  gunzip : Bytes → Nat → Except String Bytes
  kafkaText : KafkaError → String

/-- The server's limits, and the headers of the upload. -/
structure Import where
  maxBatchRecords : Nat
  maxRecordBytes : Nat
  maxLag : Int
  batchKey : String
  source : String
  playedAt : Option DateTime

/-- What the world answers while one member is claimed: the sampled lag, the id
drawn, the clock, whether the insert took the key, and the row it met. -/
structure ClaimAnswers where
  lag : Int
  id : Uuid
  now : DateTime
  inserted : Except String Bool
  found : Except String (Option ClaimRow)

/-! ## One member -/

def messageLen (message : IngestMessage) : Nat := message.raw.length

def Claimed.rawLen (record : Claimed) : Nat := record.message.elim 0 messageLen

def gzipMagic : Bytes := [0x1f, 0x8b]

/-- The reader stops one byte past the limit. -/
def inflateMember (readers : Readers) (raw : Bytes) (limit : Nat) : Except String Bytes :=
  match readers.gunzip raw (limit + 1) with
  | .error error => .error error
  | .ok inflated =>
      if limit < inflated.length then
        .error ("decompresses past the " ++ toString limit ++ " byte record limit")
      else .ok inflated

def checkRecordSize (maxRecordBytes : Nat) (body : Bytes) : Except ApiError Unit :=
  if body.isEmpty then .error (.badRequest "record is empty")
  else if maxRecordBytes < body.length then .error (.payloadTooLarge maxRecordBytes)
  else .ok ()

/-- `indexer::claim`: a duplicate carries the id of the row that was met. -/
def claim (crates : Crates) (maxLag : Int) (request : Request) (answers : ClaimAnswers) :
    Except IngestError Claimed :=
  if maxLag ≤ answers.lag then .error (.backlogged answers.lag)
  else
    match parseMetadata crates.serde request.raw with
    | .error error => .error (.malformed error)
    | .ok metadata =>
        let call : Call := ⟨answers.id, request, metadata, .inserting⟩
        let sha256 := crates.digest request.raw
        match answers.inserted with
        | .error message => .error (.catalog (.store message))
        | .ok true => .ok ⟨answers.id, sha256, call.scoped.1, some (call.message answers.now)⟩
        | .ok false =>
            match answers.found with
            | .error message => .error (.catalog (.store message))
            | .ok none => .error (.catalog .pending)
            | .ok (some row) =>
                if call.scoped.2.contentMustMatch && row.contentSha256 != sha256 then
                  .error (.catalog .conflict)
                else .ok ⟨row.recordId, sha256, call.scoped.1, none⟩

/-- What the loop makes of one entry, before it touches the group. -/
inductive Visit where
  | stop (error : ApiError)
  | skip
  | reject (error : String)
  | duplicate
  | accept (record : Claimed)

section Member

variable (crates : Crates) (readers : Readers) (config : Import)

/-- The bytes of a member.  Its stored size bounds the read; a gzip member is
told by its content, not by its name. -/
def memberRaw (entry : TarEntry) : Except String Bytes :=
  if entry.size = 0 ∨ config.maxRecordBytes < entry.size then
    .error ("invalid size " ++ toString entry.size)
  else
    match entry.content with
    | .error error => .error error
    | .ok raw =>
        if gzipMagic.isPrefixOf raw then inflateMember readers raw config.maxRecordBytes
        else .ok raw

def claimMember (path : String) (raw : Bytes) (answers : ClaimAnswers) : Except ApiError Claimed :=
  match checkRecordSize config.maxRecordBytes raw with
  | .error error => .error error
  | .ok () =>
      match claim crates config.maxLag
          ⟨config.source, config.batchKey ++ "/" ++ path, config.playedAt, raw, none⟩ answers with
      | .error error => .error (.ofIngest readers.kafkaText error)
      | .ok claimed => .ok claimed

def visit (index : Nat) (entry : Except String TarEntry) (answers : ClaimAnswers) : Visit :=
  if config.maxBatchRecords ≤ index then
    .stop (.badRequest ("batch exceeds " ++ toString config.maxBatchRecords ++ " records"))
  else
    match entry with
    | .error error => .stop (.badRequest ("invalid tar entry: " ++ error))
    | .ok entry =>
        if !entry.isFile then .skip
        else
          match entry.path with
          | .error error => .stop (.badRequest error)
          | .ok path =>
              match memberRaw readers config entry with
              | .error error => .reject (path ++ ": " ++ error)
              | .ok raw =>
                  match claimMember crates readers config path raw answers with
                  -- a record this server lost is not the member being bad
                  | .error (.internal error) => .stop (.internal (path ++ ": " ++ error))
                  | .error error => .reject (path ++ ": " ++ error.text)
                  | .ok claimed => if claimed.isDuplicate then .duplicate else .accept claimed

end Member

/-! ## The walk -/

structure BatchIngestResponse where
  accepted : Nat
  duplicates : Nat
  rejected : Nat
  errors : List String

def maxReportedErrors : Nat := 100

def pushBatchError (errors : List String) (error : String) : List String :=
  if errors.length < maxReportedErrors then errors ++ [error] else errors

/-- One call of `produce_batch`: what it was handed, and the requests it sent. -/
structure Handed where
  messages : List IngestMessage
  sent : List ProduceRequest

/-- The loop's variables, and the calls it has made: the claims that were new, the
groups it handed over, and the keys and ids it abandoned. -/
structure Walk where
  response : BatchIngestResponse
  pending : List Claimed
  pendingBytes : Nat
  claimed : List Claimed
  handed : List Handed
  abandoned : List (String × Uuid)

def Walk.start : Walk := ⟨⟨0, 0, 0, []⟩, [], 0, [], [], []⟩

def Walk.reject (walk : Walk) (error : String) : Walk :=
  { walk with
    response := { walk.response with
      rejected := walk.response.rejected + 1
      errors := pushBatchError walk.response.errors error } }

def Walk.duplicate (walk : Walk) : Walk :=
  { walk with response := { walk.response with duplicates := walk.response.duplicates + 1 } }

def Walk.accept (walk : Walk) (record : Claimed) : Walk :=
  { walk with
    response := { walk.response with accepted := walk.response.accepted + 1 }
    claimed := walk.claimed ++ [record] }

def Walk.push (walk : Walk) (record : Claimed) : Walk :=
  { walk with
    pending := walk.pending ++ [record]
    pendingBytes := walk.pendingBytes + record.rawLen }

/-- `abandon_claimed`: a duplicate's claim is not the import's own. -/
def Walk.abandon (walk : Walk) (records : List Claimed) : Walk :=
  { walk with
    abandoned := walk.abandoned ++
      (records.filter fun record => !record.isDuplicate).map fun record => (record.key, record.id) }

/-- The group in hand, as `produce_claimed` hands it over. -/
def Walk.messages (walk : Walk) : List IngestMessage := walk.pending.filterMap Claimed.message

/-- The groups handed over so far. -/
def Walk.groups (walk : Walk) : List (List IngestMessage) := walk.handed.map Handed.messages

section Walk

variable (crates : Crates) (readers : Readers) (config : Import) (size : TopicRecord → Nat)
  (partitions : Nat) (answers : Nat → ClaimAnswers) (broker : Nat → Nat → Except KafkaError Unit)

/-- Hands the group to the topic.  `broker n` answers the requests of the `n`th
call; a call that fails abandons every claim of its group. -/
def Walk.produceBatchChunk (walk : Walk) : Walk × Except ApiError Unit :=
  let taken := { walk with pending := [], pendingBytes := 0 }
  if walk.messages.isEmpty then (taken, .ok ())
  else
    let (sent, result) := produceBatch crates.uuid crates.rfc3339 size partitions
      (broker walk.handed.length) walk.messages
    let after := { taken with handed := walk.handed ++ [⟨walk.messages, sent⟩] }
    match result with
    | .ok () => (after, .ok ())
    | .error error =>
        ({ after with abandoned := walk.abandoned ++ claimKeys walk.pending },
          .error (.ofIngest readers.kafkaText (.produce error)))

/-- A new member: the bound is tested before it joins the group. -/
def Walk.join (walk : Walk) (record : Claimed) : Walk × Except ApiError Unit :=
  let walk := walk.accept record
  let flushed :=
    if maxProduceBatchBytes < walk.pendingBytes + record.rawLen then
      walk.produceBatchChunk crates readers size partitions broker
    else (walk, .ok ())
  match flushed with
  | (walk, .error error) => (walk.abandon [record], .error error)
  | (walk, .ok ()) => (walk.push record, .ok ())

def walkEntries : Nat → List (Except String TarEntry) → Walk → Walk × Except ApiError Unit
  | _, [], walk => walk.produceBatchChunk crates readers size partitions broker
  | index, entry :: rest, walk =>
      match visit crates readers config index entry (answers index) with
      | .stop error => (walk, .error error)
      | .skip => walkEntries (index + 1) rest walk
      | .reject error => walkEntries (index + 1) rest (walk.reject error)
      | .duplicate => walkEntries (index + 1) rest walk.duplicate
      | .accept record =>
          match walk.join crates readers size partitions broker record with
          | (walk, .error error) => (walk, .error error)
          | (walk, .ok ()) => walkEntries (index + 1) rest walk

def openArchive (staged : Staged) : Except ApiError (List (Except String TarEntry)) :=
  match staged.content with
  | .error error => .error (.badRequest error)
  | .ok content =>
      if content.length < 2 then .error (.badRequest "batch archive is empty")
      else
        match staged.rewound with
        | .error error => .error (.internal error)
        | .ok () =>
            match readers.entries (gzipMagic.isPrefixOf content) content with
            | .error error => .error (.badRequest ("invalid tar archive: " ++ error))
            | .ok entries => .ok entries

/-- Every exit from the walk but its end abandons the claims still in hand. -/
def processBatchArchive (staged : Staged) : Walk × Except ApiError BatchIngestResponse :=
  match openArchive readers staged with
  | .error error => (.start, .error error)
  | .ok entries =>
      match walkEntries crates readers config size partitions answers broker 0 entries .start with
      | (walk, .error error) =>
          ({ walk.abandon walk.pending with pending := [] }, .error error)
      | (walk, .ok ()) => (walk, .ok walk.response)

/-- The messages of the members the archive claims as new, as long as the topic
takes them, and whether the walk comes to the archive's end. -/
def newMembers : Nat → List (Except String TarEntry) → List IngestMessage × Bool
  | _, [] => ([], true)
  | index, entry :: rest =>
      match visit crates readers config index entry (answers index) with
      | .stop _ => ([], false)
      | .accept record =>
          let (later, finished) := newMembers (index + 1) rest
          (record.message.toList ++ later, finished)
      | .skip | .reject _ | .duplicate => newMembers (index + 1) rest

end Walk

/-- The last group is handed over at the archive's end only. -/
def reached {Item : Type} (finished : Bool) (groups : List Item) : List Item :=
  if finished then groups else groups.dropLast

/-- The groups of an archive: its new members, cut by their raw bytes. -/
def archiveGroups (crates : Crates) (readers : Readers) (config : Import)
    (answers : Nat → ClaimAnswers) (staged : Staged) : List (List IngestMessage) :=
  match openArchive readers staged with
  | .error _ => []
  | .ok entries =>
      let (new, finished) := newMembers crates readers config answers 0 entries
      reached finished (produceChunks messageLen new)

/-! ## Claims made by the walk -/

/-- A claim that was new, under the id its message carries. -/
def Claimed.New (record : Claimed) : Prop :=
  ∃ message, record.message = some message ∧ message.recordId = record.id

theorem Claimed.New.not_duplicate {record : Claimed} (new : record.New) :
    record.isDuplicate = false := by
  obtain ⟨message, carried, -⟩ := new
  simp [Claimed.isDuplicate, carried]

/-- The member was handed over, or its claim is abandoned. -/
def Walk.Settles (walk : Walk) (record : Claimed) : Prop :=
  (∃ handed ∈ walk.handed, ∃ message ∈ handed.messages, record.message = some message) ∨
    (record.key, record.id) ∈ walk.abandoned

section Steps

variable {crates : Crates} {readers : Readers} {config : Import} {size : TopicRecord → Nat}
  {partitions : Nat} {answers : Nat → ClaimAnswers}
  {broker : Nat → Nat → Except KafkaError Unit}

theorem claim_new {maxLag : Int} {request : Request} {answer : ClaimAnswers} {record : Claimed}
    (claimed : claim crates maxLag request answer = .ok record)
    (fresh : record.isDuplicate = false) : record.New := by
  unfold claim at claimed
  repeat' split at claimed
  all_goals try cases claimed
  · exact ⟨_, rfl, rfl⟩
  · -- the key was taken: whatever comes of it carries no message
    simp only at claimed
    split at claimed
    · cases claimed
    · cases claimed
      simp [Claimed.isDuplicate] at fresh

theorem visit_accept {index : Nat} {entry : Except String TarEntry} {answer : ClaimAnswers}
    {record : Claimed} (accepted : visit crates readers config index entry answer = .accept record) :
    record.New := by
  unfold visit at accepted
  repeat' split at accepted
  all_goals cases accepted
  rename_i claimed fresh
  unfold claimMember at claimed
  repeat' split at claimed
  all_goals cases claimed
  rename_i claimed
  exact claim_new claimed (by simpa using fresh)

/-! ## Handing a group over -/

/-- The walk after its group has been handed over, whatever became of it. -/
structure Walk.Flushed (crates : Crates) (size : TopicRecord → Nat) (partitions : Nat)
    (broker : Nat → Nat → Except KafkaError Unit) (walk after : Walk) : Prop where
  pending : after.pending = []
  pendingBytes : after.pendingBytes = 0
  claimed : after.claimed = walk.claimed
  settled : ∀ record ∈ walk.pending, after.Settles record
  earlier : ∀ record, walk.Settles record → after.Settles record
  handed : after.handed = if walk.messages = [] then walk.handed else walk.handed ++
    [⟨walk.messages, (produceBatch crates.uuid crates.rfc3339 size partitions
      (broker walk.handed.length) walk.messages).1⟩]

theorem Walk.pending_nil {walk : Walk} (new : ∀ record ∈ walk.pending, record.New)
    (none_ : walk.messages = []) : walk.pending = [] := by
  refine List.eq_nil_iff_forall_not_mem.mpr fun record member => ?_
  obtain ⟨message, carried, -⟩ := new record member
  have there : message ∈ walk.messages := List.mem_filterMap.mpr ⟨record, member, carried⟩
  simp [none_] at there

variable (crates readers size partitions broker) in
theorem Walk.flushed (walk : Walk) (new : ∀ record ∈ walk.pending, record.New) :
    Walk.Flushed crates size partitions broker walk
      (walk.produceBatchChunk crates readers size partitions broker).1 := by
  by_cases none_ : walk.messages = []
  · have empty := Walk.pending_nil new none_
    simp only [Walk.produceBatchChunk, none_, List.isEmpty_nil, if_true]
    exact ⟨rfl, rfl, rfl, by simp [empty], fun _ settled => settled, by simp [none_]⟩
  · have grown : ∀ after : Walk, after.handed = walk.handed ++ [⟨walk.messages,
          (produceBatch crates.uuid crates.rfc3339 size partitions
            (broker walk.handed.length) walk.messages).1⟩] →
        walk.abandoned ⊆ after.abandoned →
        (∀ record ∈ walk.pending, after.Settles record) ∧
          ∀ record, walk.Settles record → after.Settles record := by
      intro after grown more
      refine ⟨fun record member => ?_, fun record settled => ?_⟩
      · obtain ⟨message, carried, -⟩ := new record member
        exact .inl ⟨_, by rw [grown]; exact List.mem_append_right _ (List.mem_singleton_self _),
          message, List.mem_filterMap.mpr ⟨record, member, carried⟩, carried⟩
      · rcases settled with ⟨handed, there, inside⟩ | abandoned
        · exact .inl ⟨handed, by rw [grown]; exact List.mem_append_left _ there, inside⟩
        · exact .inr (more abandoned)
    rcases result : produceBatch crates.uuid crates.rfc3339 size partitions
      (broker walk.handed.length) walk.messages with ⟨sent, outcome⟩
    rw [result] at grown
    simp only [Walk.produceBatchChunk, List.isEmpty_iff, none_, if_false, result]
    cases outcome with
    | ok done =>
        obtain ⟨settled, earlier⟩ := grown { walk with
          pending := [], pendingBytes := 0
          handed := walk.handed ++ [⟨walk.messages, sent⟩] } rfl (List.Subset.refl _)
        exact ⟨rfl, rfl, rfl, settled, earlier, by simp [none_, result]⟩
    | error error =>
        obtain ⟨settled, earlier⟩ := grown { walk with
          pending := [], pendingBytes := 0
          handed := walk.handed ++ [⟨walk.messages, sent⟩]
          abandoned := walk.abandoned ++ claimKeys walk.pending } rfl
          (List.subset_append_left _ _)
        exact ⟨rfl, rfl, rfl, settled, earlier, by simp [none_, result]⟩

theorem sendInTurn_acked {answer : Nat → Except KafkaError Unit} (acked : ∀ k, answer k = .ok ())
    (k : Nat) (requests : List ProduceRequest) :
    sendInTurn answer k requests = (requests, .ok ()) := by
  induction requests generalizing k with
  | nil => rfl
  | cons request rest ih => simp [sendInTurn, acked k, ih (k + 1)]

variable (crates readers size partitions) in
/-- Nothing to send cannot fail, and neither can what the broker acknowledges. -/
theorem Walk.produceBatchChunk_ok {walk : Walk}
    (fine : walk.messages = [] ∨ ∀ n k, broker n k = .ok ()) :
    (walk.produceBatchChunk crates readers size partitions broker).2 = .ok () := by
  by_cases none_ : walk.messages = []
  · simp [Walk.produceBatchChunk, none_]
  · have acked := fine.resolve_left none_
    simp [Walk.produceBatchChunk, none_, produceBatch, sendInTurn_acked (acked _)]

/-! ## The invariant -/

/-- The group in hand holds new claims and is counted, every other new claim is
settled, and the requests of every call are those of its own group. -/
structure Walk.Sound (crates : Crates) (size : TopicRecord → Nat) (partitions : Nat)
    (broker : Nat → Nat → Except KafkaError Unit) (walk : Walk) : Prop where
  new : ∀ record ∈ walk.pending, record.New
  counted : walk.pendingBytes = weight messageLen walk.messages
  kept : ∀ record ∈ walk.claimed, record ∈ walk.pending ∨ walk.Settles record
  sent : ∀ handed ∈ walk.handed, ∃ n, handed.sent =
    (produceBatch crates.uuid crates.rfc3339 size partitions (broker n) handed.messages).1

theorem Walk.sound_start : Walk.start.Sound crates size partitions broker where
  new := by simp [Walk.start]
  counted := rfl
  kept := by simp [Walk.start]
  sent := by simp [Walk.start]

theorem Walk.Flushed.sent {walk after : Walk}
    (flushed : walk.Flushed crates size partitions broker after)
    (sent : ∀ handed ∈ walk.handed, ∃ n, handed.sent =
      (produceBatch crates.uuid crates.rfc3339 size partitions (broker n) handed.messages).1) :
    ∀ handed ∈ after.handed, ∃ n, handed.sent =
      (produceBatch crates.uuid crates.rfc3339 size partitions (broker n) handed.messages).1 := by
  rw [flushed.handed]
  split
  · exact sent
  · intro handed member
    rcases List.mem_append.mp member with old | last
    · exact sent handed old
    · rw [List.mem_singleton.mp last]
      exact ⟨_, rfl⟩

theorem Walk.Flushed.sound {walk after : Walk} (sound : walk.Sound crates size partitions broker)
    (flushed : walk.Flushed crates size partitions broker after) :
    after.Sound crates size partitions broker where
  new := by simp [flushed.pending]
  counted := by simp [flushed.pendingBytes, Walk.messages, flushed.pending]
  kept := by
    intro record member
    rw [flushed.claimed] at member
    rcases sound.kept record member with inHand | settled
    · exact .inr (flushed.settled record inHand)
    · exact .inr (flushed.earlier record settled)
  sent := flushed.sent sound.sent

theorem Walk.Settles.abandon {walk : Walk} {record : Claimed} (settled : walk.Settles record)
    (records : List Claimed) : (walk.abandon records).Settles record := by
  rcases settled with handed | abandoned
  · exact .inl handed
  · exact .inr (List.mem_append_left _ abandoned)

theorem Walk.settles_abandon (walk : Walk) {records : List Claimed} {record : Claimed}
    (member : record ∈ records) (new : record.New) : (walk.abandon records).Settles record := by
  refine .inr (List.mem_append_right _ (List.mem_map.mpr ⟨record, ?_, rfl⟩))
  exact List.mem_filter.mpr ⟨member, by simp [new.not_duplicate]⟩

theorem Walk.messages_push (walk : Walk) {record : Claimed} {message : IngestMessage}
    (carried : record.message = some message) :
    (walk.push record).messages = walk.messages ++ [message] := by
  simp [Walk.messages, Walk.push, carried]

/-- A sound walk and a member that joins its group. -/
theorem Walk.Sound.push {walk : Walk} (sound : walk.Sound crates size partitions broker)
    {record : Claimed} (new : record.New) :
    ((walk.accept record).push record).Sound crates size partitions broker where
  new := by
    intro other member
    rcases List.mem_append.mp member with old | last
    · exact sound.new other old
    · rwa [List.mem_singleton.mp last]
  counted := by
    obtain ⟨message, carried, -⟩ := new
    rw [Walk.messages_push _ carried, weight_append, weight_cons, weight_nil]
    show walk.pendingBytes + record.rawLen = weight messageLen walk.messages + (messageLen message + 0)
    rw [sound.counted, Claimed.rawLen, carried, Option.elim_some, Nat.add_zero]
  kept := by
    intro other member
    rcases List.mem_append.mp member with old | last
    · rcases sound.kept other old with inHand | settled
      · exact .inl (List.mem_append_left _ inHand)
      · exact .inr settled
    · exact .inl (List.mem_append_right _ last)
  sent := sound.sent

variable (crates readers size partitions broker) in
/-- Everything a new member can lead to: it joins the group, or the group is
handed over first, and then it starts the next one or is abandoned with an
error. -/
theorem Walk.join_cases {walk : Walk} (new : ∀ record ∈ walk.pending, record.New)
    (record : Claimed) :
    (walk.pendingBytes + record.rawLen ≤ maxProduceBatchBytes ∧
      walk.join crates readers size partitions broker record =
        ((walk.accept record).push record, .ok ())) ∨
    (maxProduceBatchBytes < walk.pendingBytes + record.rawLen ∧
      ∃ after, (walk.accept record).Flushed crates size partitions broker after ∧
        (walk.join crates readers size partitions broker record = (after.push record, .ok ()) ∨
          (walk.messages ≠ [] ∧ (¬ ∀ n k, broker n k = .ok ()) ∧ ∃ error,
            walk.join crates readers size partitions broker record =
              (after.abandon [record], .error error)))) := by
  by_cases full : maxProduceBatchBytes < walk.pendingBytes + record.rawLen
  · refine .inr ⟨full, _, (walk.accept record).flushed crates readers size partitions broker new, ?_⟩
    have crosses : maxProduceBatchBytes < (walk.accept record).pendingBytes + record.rawLen := full
    rcases result : (walk.accept record).produceBatchChunk crates readers size partitions broker with
      ⟨after, outcome⟩
    cases outcome with
    | ok done => exact .inl (by simp [Walk.join, crosses, result])
    | error error =>
        have failed : ¬ ((walk.accept record).messages = [] ∨ ∀ n k, broker n k = .ok ()) := by
          intro fine
          have went := Walk.produceBatchChunk_ok crates readers size partitions fine
          rw [result] at went
          cases went
        obtain ⟨some_, refused⟩ := not_or.mp failed
        exact .inr ⟨some_, refused, error, by simp [Walk.join, crosses, result]⟩
  · refine .inl ⟨Nat.le_of_not_lt full, ?_⟩
    have fits : ¬ maxProduceBatchBytes < (walk.accept record).pendingBytes + record.rawLen := full
    simp [Walk.join, fits]

/-- After the flush for a new member, only that member is not settled. -/
theorem Walk.Flushed.kept {walk after : Walk} (sound : walk.Sound crates size partitions broker)
    {record : Claimed}
    (flushed : (walk.accept record).Flushed crates size partitions broker after) :
    ∀ other ∈ after.claimed, other = record ∨ after.Settles other := by
  intro other member
  rw [flushed.claimed] at member
  rcases List.mem_append.mp member with old | last
  · rcases sound.kept other old with inHand | settled
    · exact .inr (flushed.settled other inHand)
    · exact .inr (flushed.earlier other settled)
  · exact .inl (List.mem_singleton.mp last)

theorem Walk.Sound.join {walk : Walk} (sound : walk.Sound crates size partitions broker)
    {record : Claimed} (new : record.New) :
    (walk.join crates readers size partitions broker record).1.Sound crates size partitions
      broker := by
  rcases Walk.join_cases crates readers size partitions broker sound.new record with
    ⟨-, same⟩ | ⟨-, after, flushed, same | ⟨-, -, error, same⟩⟩
  · rw [same]
    exact sound.push new
  · -- the member starts the next group
    rw [same]
    refine ⟨?_, ?_, ?_, flushed.sent sound.sent⟩
    · simpa [Walk.push, flushed.pending] using new
    · obtain ⟨message, carried, -⟩ := new
      rw [Walk.messages_push _ carried]
      simp [Walk.push, Walk.messages, flushed.pending, flushed.pendingBytes, Claimed.rawLen, carried]
    · intro other member
      rcases flushed.kept sound other member with rfl | settled
      · exact .inl (List.mem_append_right _ (List.mem_singleton_self _))
      · exact .inr settled
  · rw [same]
    refine ⟨?_, ?_, ?_, flushed.sent sound.sent⟩
    · simp [Walk.abandon, flushed.pending]
    · simp [Walk.abandon, Walk.messages, flushed.pending, flushed.pendingBytes]
    · intro other member
      rcases flushed.kept sound other member with rfl | settled
      · exact .inr (after.settles_abandon (List.mem_singleton_self _) new)
      · exact .inr (settled.abandon _)

/-! ## The whole walk -/

theorem chunksFrom_start_ne_nil {Item : Type} (size : Item → Nat) (item : Item) (bytes : Nat)
    (items : List Item) : chunksFrom size [item] bytes items ≠ [] := by
  intro none_
  have joined := @chunksFrom_flatten _ size [item] bytes items
  simp [none_] at joined

theorem reached_cons {Item : Type} (finished : Bool) (group : Item) {groups : List Item}
    (more : groups ≠ []) : reached finished (group :: groups) = group :: reached finished groups := by
  cases finished with
  | true => rfl
  | false => simp [reached, List.dropLast_cons_of_ne_nil more]

theorem Walk.Flushed.groups {walk after : Walk}
    (flushed : walk.Flushed crates size partitions broker after) :
    after.groups = walk.groups ++ if walk.messages = [] then [] else [walk.messages] := by
  rw [Walk.groups, flushed.handed]
  split <;> simp [Walk.groups]

variable (readers) in
/-- One new member: what has been handed over and what is still to come make up
the same groups as before. -/
theorem Walk.Sound.join_groups {walk : Walk} (sound : walk.Sound crates size partitions broker)
    {record : Claimed} {message : IngestMessage} (carried : record.message = some message)
    (finished : Bool) (later : List IngestMessage) :
    let joined := walk.join crates readers size partitions broker record
    let due := walk.groups ++ reached finished
      (chunksFrom messageLen walk.messages walk.pendingBytes (message :: later))
    (joined.2 = .ok () ∧ joined.1.groups ++ reached finished
      (chunksFrom messageLen joined.1.messages joined.1.pendingBytes later) = due) ∨
    ((∃ error, joined.2 = .error error) ∧ (¬ ∀ n k, broker n k = .ok ()) ∧
      ∃ unsent, joined.1.groups ++ unsent = due) := by
  have length : record.rawLen = messageLen message := by simp [Claimed.rawLen, carried]
  have startsNext : ∀ after : Walk, after.pending = [] → after.pendingBytes = 0 →
      (after.push record).messages = [message] ∧
        (after.push record).pendingBytes = messageLen message := by
    intro after empty zero
    rw [Walk.messages_push _ carried]
    simp [Walk.messages, empty, Walk.push, zero, length]
  rcases Walk.join_cases crates readers size partitions broker sound.new record with
    ⟨fits, same⟩ | ⟨full, after, flushed, same | ⟨some_, refused, error, same⟩⟩
  · -- the group takes it
    have room : ¬ maxProduceBatchBytes < walk.pendingBytes + messageLen message := by
      omega
    refine .inl ⟨by rw [same], ?_⟩
    rw [same, Walk.messages_push _ carried]
    simp only [chunksFrom, gt_iff_lt, room, decide_false, Bool.and_false, Bool.false_eq_true,
      if_false]
    show walk.groups ++ reached finished (chunksFrom messageLen (walk.messages ++ [message])
      (walk.pendingBytes + record.rawLen) later) = _
    rw [length]
  · have handed : after.groups =
        walk.groups ++ if walk.messages = [] then [] else [walk.messages] := flushed.groups
    obtain ⟨group, bytes⟩ := startsNext after flushed.pending flushed.pendingBytes
    refine .inl ⟨by rw [same], ?_⟩
    rw [same, group, bytes]
    show after.groups ++ _ = _
    rw [handed]
    by_cases none_ : walk.messages = []
    · -- an empty group is not handed over
      have zero : walk.pendingBytes = 0 := by simp [sound.counted, none_]
      simp [none_, zero, chunksFrom]
    · have crosses : maxProduceBatchBytes < walk.pendingBytes + messageLen message := by
        omega
      simp only [chunksFrom, none_, if_false, List.isEmpty_eq_false_iff.mpr none_, Bool.not_false,
        Bool.true_and, gt_iff_lt, crosses, decide_true, if_true]
      rw [reached_cons _ _ (chunksFrom_start_ne_nil _ _ _ _), List.append_assoc]
      rfl
  · have handed : after.groups = walk.groups ++ [walk.messages] := by
      have grown := flushed.groups
      rwa [if_neg (show ¬ (walk.accept record).messages = [] from some_)] at grown
    have crosses : maxProduceBatchBytes < walk.pendingBytes + messageLen message := by
      omega
    refine .inr ⟨⟨error, by rw [same]⟩, refused,
      reached finished (chunksFrom messageLen [message] (messageLen message) later), ?_⟩
    rw [same]
    show after.groups ++ _ = _
    simp only [chunksFrom, List.isEmpty_eq_false_iff.mpr some_, Bool.not_false, Bool.true_and,
      gt_iff_lt, crosses, decide_true, if_true]
    rw [reached_cons _ _ (chunksFrom_start_ne_nil _ _ _ _), handed, List.append_assoc]
    rfl

/-- The walk ends sound, and what it hands over are the archive's groups in order:
all of them if the broker acknowledges everything. -/
theorem walkEntries_spec (crates : Crates) (readers : Readers) (config : Import)
    (size : TopicRecord → Nat) (partitions : Nat) (answers : Nat → ClaimAnswers)
    (broker : Nat → Nat → Except KafkaError Unit) (index : Nat)
    (entries : List (Except String TarEntry)) (walk : Walk)
    (sound : walk.Sound crates size partitions broker) :
    let ended := walkEntries crates readers config size partitions answers broker index entries walk
    let members := newMembers crates readers config answers index entries
    ended.1.Sound crates size partitions broker ∧
      (ended.2 = .ok () → ended.1.pending = []) ∧
      ∃ unsent, ended.1.groups ++ unsent = walk.groups ++
          reached members.2 (chunksFrom messageLen walk.messages walk.pendingBytes members.1) ∧
        ((∀ n k, broker n k = .ok ()) → unsent = []) := by
  induction entries generalizing index walk with
  | nil =>
      have flushed := walk.flushed crates readers size partitions broker sound.new
      refine ⟨flushed.sound sound, fun _ => flushed.pending, [], ?_, fun _ => rfl⟩
      simp [walkEntries, newMembers, reached, chunksFrom, flushed.groups]
  | cons entry rest ih =>
      simp only [walkEntries, newMembers]
      cases seen : visit crates readers config index entry (answers index) with
      | stop error =>
          refine ⟨sound, by simp, [], ?_, fun _ => rfl⟩
          by_cases none_ : walk.messages = []
          · simp [reached, chunksFrom, none_]
          · simp [reached, chunksFrom, none_]
      | skip => exact ih (index + 1) walk sound
      | reject error => exact ih (index + 1) (walk.reject error) ⟨sound.1, sound.2, sound.3, sound.4⟩
      | duplicate => exact ih (index + 1) walk.duplicate ⟨sound.1, sound.2, sound.3, sound.4⟩
      | accept record =>
          have new := visit_accept seen
          have joined : (walk.join crates readers size partitions broker record).1.Sound crates size
            partitions broker := sound.join new
          obtain ⟨message, carried, -⟩ := new
          have groups := sound.join_groups readers carried
            (newMembers crates readers config answers (index + 1) rest).2
            (newMembers crates readers config answers (index + 1) rest).1
          rcases result : walk.join crates readers size partitions broker record with
            ⟨after, outcome⟩
          rw [result] at joined groups
          simp only [carried, Option.toList_some, List.singleton_append, result]
          rcases groups with ⟨rfl, same⟩ | ⟨⟨error, rfl⟩, refused, unsent, same⟩
          · obtain ⟨ended, empty, unsent, covered, all⟩ := ih (index + 1) after joined
            exact ⟨ended, empty, unsent, covered.trans same, all⟩
          · exact ⟨joined, by simp, unsent, same, fun acked => absurd acked refused⟩

/-- However the import ends, its calls stand: the claims it made are settled, and
it has handed over the archive's groups in order, up to the first that failed. -/
theorem processBatchArchive_calls (crates : Crates) (readers : Readers) (config : Import)
    (size : TopicRecord → Nat) (partitions : Nat) (answers : Nat → ClaimAnswers)
    (broker : Nat → Nat → Except KafkaError Unit) (staged : Staged) :
    let walk := (processBatchArchive crates readers config size partitions answers broker staged).1
    (∀ record ∈ walk.claimed, walk.Settles record) ∧
      (∀ handed ∈ walk.handed, ∃ n, handed.sent = (produceBatch crates.uuid crates.rfc3339 size
        partitions (broker n) handed.messages).1) ∧
      ∃ unsent, walk.groups ++ unsent = archiveGroups crates readers config answers staged ∧
        ((∀ n k, broker n k = .ok ()) → unsent = []) := by
  simp only [processBatchArchive, archiveGroups]
  cases openArchive readers staged with
  | error error => exact ⟨by simp [Walk.start], by simp [Walk.start], [], rfl, fun _ => rfl⟩
  | ok entries =>
      obtain ⟨sound, empty, unsent, covered, all⟩ := walkEntries_spec crates readers config size
        partitions answers broker 0 entries .start Walk.sound_start
      simp only
      rcases result : walkEntries crates readers config size partitions answers broker 0 entries
        .start with ⟨walk, outcome⟩
      rw [result] at sound empty covered
      cases outcome with
      | error error =>
          refine ⟨fun record member => ?_, sound.sent, unsent, covered, all⟩
          rcases sound.kept record member with inHand | settled
          · exact walk.settles_abandon inHand (sound.new record inHand)
          · exact settled.abandon _
      | ok done =>
          refine ⟨fun record member => ?_, sound.sent, unsent, covered, all⟩
          rcases sound.kept record member with inHand | settled
          · rw [empty rfl] at inHand
            cases inHand
          · exact settled

end Steps

end MajsoulManager.Ingest
