/-
# Ingest.ArchiveRequests — the requests an imported group makes

The import cuts a group by the raw bytes of its members; `produce_batch` cuts what
it is handed once more, by the size of the records, whose keys and headers count
too.  `archive_groups_iff` says when the two cuts agree, that is, when every group
goes out as one request per partition at most, and `small_records_split` is an
archive on which they do not.
-/
import MajsoulManager.Ingest.Archive

namespace MajsoulManager.Ingest

open MajsoulManager.Theory
open MajsoulManager.Record
open MajsoulManager.Store

set_option autoImplicit false

/-! ## How many requests a group makes -/

/-- A list is one chunk exactly when it is one record, or light enough. -/
theorem produceChunks_length_le_one_iff {Item : Type} (size : Item → Nat) (items : List Item) :
    (produceChunks size items).length ≤ 1 ↔
      items.length ≤ 1 ∨ weight size items ≤ maxProduceBatchBytes := by
  have joined := @produceChunks_flatten _ size items
  have cut := @produceChunks_cut _ size items
  rcases chunks : produceChunks size items with _ | ⟨first, _ | ⟨second, rest⟩⟩
  · rw [chunks] at joined
    simp [← joined]
  · rw [chunks] at joined cut
    have whole : first = items := by simpa using joined
    have fits := cut.fits first (List.mem_singleton_self _)
    rw [whole] at fits
    refine iff_of_true (by simp) ?_
    by_cases short : items.length ≤ 1
    · exact .inl short
    · exact .inr (fits (by omega))
  · rw [chunks] at joined cut
    have heavy := cut.neighbours
    rw [List.isChain_cons_cons] at heavy
    have filled := cut.filled
    have whole : first ++ (second ++ rest.flatten) = items := by simpa using joined
    have one : 0 < first.length := List.length_pos_of_ne_nil (filled first (by simp))
    have two : 0 < second.length := List.length_pos_of_ne_nil (filled second (by simp))
    have long : items.length = first.length + (second.length + rest.flatten.length) := by
      rw [← whole]
      simp
    have weighs : weight size items =
        weight size first + (weight size second + weight size rest.flatten) := by
      rw [← whole]
      simp
    have over_ := heavy.1
    rw [weight_append] at over_
    refine iff_of_false (by simp) ?_
    omega

/-- The requests that go to one partition. -/
def requestsTo (partition : Nat) (requests : List ProduceRequest) : List ProduceRequest :=
  requests.filter fun request => request.partition = partition

theorem requestsTo_zipIdx (size : TopicRecord → Nat) (partition first : Nat)
    (lists : List (List TopicRecord)) :
    requestsTo partition ((lists.zipIdx first).flatMap fun (records, other) =>
        (produceChunks size records).map (ProduceRequest.mk other)) =
      if first ≤ partition then
        (produceChunks size ((lists[partition - first]?).getD [])).map (ProduceRequest.mk partition)
      else [] := by
  have own : ∀ other (chunks : List (List TopicRecord)),
      requestsTo partition (chunks.map (ProduceRequest.mk other)) =
        if other = partition then chunks.map (ProduceRequest.mk partition) else [] := by
    intro other chunks
    by_cases here : other = partition
    · simp [requestsTo, here, List.filter_map, Function.comp_def]
    · simp [requestsTo, here, List.filter_map, Function.comp_def]
  induction lists generalizing first with
  | nil => simp [requestsTo, produceChunks, chunksFrom]
  | cons records rest ih =>
      have split_ : ∀ left right, requestsTo partition (left ++ right) =
          requestsTo partition left ++ requestsTo partition right := fun left right => by
        simp [requestsTo]
      rw [List.zipIdx_cons, List.flatMap_cons, split_, ih, own]
      rcases Nat.lt_trichotomy first partition with before | rfl | after
      · obtain ⟨gap, rfl⟩ := Nat.exists_eq_add_of_lt before
        have index : first + gap + 1 - first = gap + 1 := by omega
        have next : first + gap + 1 - (first + 1) = gap := by omega
        simp [index, next, Nat.ne_of_lt before, Nat.le_of_lt before]
      · simp
      · simp [Nat.ne_of_gt after, Nat.not_le.mpr after, show ¬ first + 1 ≤ partition by omega]

/-- No partition is sent more than one request. -/
def OneEach (requests : List ProduceRequest) : Prop :=
  ∀ partition, (requestsTo partition requests).length ≤ 1

section Requests

variable (crates : Crates) (size : TopicRecord → Nat) (partitions : Nat)

/-- Each partition gets one record of the group, or records that fit together,
keys and headers included. -/
def FitsTogether (group : List IngestMessage) : Prop :=
  ∀ partition < partitions,
    let records := recordsOf crates.uuid crates.rfc3339 partitions partition group
    records.length ≤ 1 ∨ weight size records ≤ maxProduceBatchBytes

variable {crates size partitions}

theorem oneEach_batchRequests_iff (messages : List IngestMessage) :
    OneEach (batchRequests crates.uuid crates.rfc3339 size partitions messages) ↔
      FitsTogether crates size partitions messages := by
  have count : ∀ partition,
      (requestsTo partition
        (batchRequests crates.uuid crates.rfc3339 size partitions messages)).length ≤ 1 ↔
      (partition < partitions →
        (recordsOf crates.uuid crates.rfc3339 partitions partition messages).length ≤ 1 ∨
          weight size (recordsOf crates.uuid crates.rfc3339 partitions partition messages) ≤
            maxProduceBatchBytes) := by
    intro partition
    rw [batchRequests, requestsTo_zipIdx, if_pos (Nat.zero_le _), Nat.sub_zero, List.length_map,
      produceChunks_length_le_one_iff]
    by_cases inside : partition < partitions
    · simp [routed_getElem? inside, inside]
    · have short : (routed crates.uuid crates.rfc3339 partitions messages)[partition]? = none := by
        apply List.getElem?_eq_none
        rw [routed_length]
        exact Nat.le_of_not_lt inside
      simp [short, inside]
  exact forall_congr' count

theorem OneEach.of_initial {sent requests : List ProduceRequest} (one : OneEach requests)
    (starts : sent <+: requests) : OneEach sent := by
  intro partition
  have shorter : (requestsTo partition sent).length ≤ (requestsTo partition requests).length :=
    (starts.sublist.filter _).length_le
  exact Nat.le_trans shorter (one partition)

/-- What an import sends goes out as one request per partition and group, however
the broker answers, exactly when the archive's groups fit together. -/
theorem processBatchArchive_oneEach_iff (readers : Readers) (config : Import)
    (answers : Nat → ClaimAnswers) (staged : Staged) :
    (∀ broker, ∀ handed ∈ (processBatchArchive crates readers config size partitions answers
      broker staged).1.handed, OneEach handed.sent) ↔
      ∀ group ∈ archiveGroups crates readers config answers staged,
        FitsTogether crates size partitions group := by
  constructor
  · intro one group member
    have acked : ∀ n k : Nat, (fun _ _ => .ok () : Nat → Nat → Except KafkaError Unit) n k = .ok () :=
      fun _ _ => rfl
    obtain ⟨-, sent, unsent, covered, all⟩ := processBatchArchive_calls crates readers config size
      partitions answers (fun _ _ => .ok ()) staged
    rw [all acked, List.append_nil] at covered
    rw [← covered] at member
    obtain ⟨handed, there, rfl⟩ := List.mem_map.mp member
    obtain ⟨n, whole⟩ := sent handed there
    rw [produceBatch, sendInTurn_acked fun k => acked n k] at whole
    have fine := one _ handed there
    rw [whole] at fine
    exact (oneEach_batchRequests_iff _).mp fine
  · intro fits broker handed member
    obtain ⟨-, sent, unsent, covered, -⟩ := processBatchArchive_calls crates readers config size
      partitions answers broker staged
    obtain ⟨n, part⟩ := sent handed member
    have group : handed.messages ∈ archiveGroups crates readers config answers staged := by
      rw [← covered]
      exact List.mem_append_left _ (List.mem_map.mpr ⟨handed, member, rfl⟩)
    have one := (oneEach_batchRequests_iff _).mpr (fits _ group)
    have starts := sendInTurn_prefix (broker n) 0
      (batchRequests crates.uuid crates.rfc3339 size partitions handed.messages)
    rw [part]
    exact one.of_initial starts.1

end Requests

/-- What an import should do: every group it hands over goes out as one request
per partition at most, and every member it claims as new is in a group that was
handed over, or its claim is abandoned. -/
def Walk.Clean (walk : Walk) : Prop :=
  (∀ handed ∈ walk.handed, OneEach handed.sent) ∧ ∀ record ∈ walk.claimed, walk.Settles record

/-- **When an import is clean.**  For every archive, whatever its claims are
answered: however the broker answers, exactly when the groups cut by raw bytes
fit together with their keys and headers. -/
theorem archive_groups_iff (crates : Crates) (readers : Readers) (config : Import)
    (size : TopicRecord → Nat) (partitions : Nat) (answers : Nat → ClaimAnswers)
    (staged : Staged) :
    (∀ broker, (processBatchArchive crates readers config size partitions answers broker
      staged).1.Clean) ↔
      ∀ group ∈ archiveGroups crates readers config answers staged,
        FitsTogether crates size partitions group := by
  rw [← processBatchArchive_oneEach_iff]
  constructor
  · intro clean broker
    exact (clean broker).1
  · intro one broker
    exact ⟨one broker, (processBatchArchive_calls crates readers config size partitions answers
      broker staged).1⟩

/-! ## An archive of small records -/

/-- A field of a tar header, filled up with NULs. -/
def tarField (width : Nat) (text : String) : Bytes :=
  (utf8 text ++ List.replicate width 0).take width

def octal (digits n : Nat) : String :=
  let text := String.ofList (Nat.toDigits 8 n)
  String.ofList (List.replicate (digits - text.length) '0') ++ text

/-- The ustar header of a regular file. -/
def tarHeader (path : String) (size : Nat) : Bytes :=
  let before := tarField 100 path ++ tarField 8 "0000644" ++ tarField 8 "0000000" ++
    tarField 8 "0000000" ++ tarField 12 (octal 11 size) ++ tarField 12 (octal 11 0)
  let after := utf8 "0" ++ tarField 100 "" ++ tarField 6 "ustar" ++ utf8 "00" ++ tarField 64 "" ++
    tarField 8 "0000000" ++ tarField 8 "0000000" ++ tarField 167 ""
  -- the checksum counts its own field as blanks
  let sum := ((before ++ after).map UInt8.toNat).sum + 8 * 32
  before ++ tarField 7 (octal 6 sum) ++ utf8 " " ++ after

def tarMember (path : String) (content : Bytes) : Bytes :=
  tarHeader path content.length ++ content ++
    List.replicate ((512 - content.length % 512) % 512) 0

def memberPath (index : Nat) : String := toString index ++ ".json"

def memberEntry (index : Nat) : TarEntry :=
  ⟨true, .ok (memberPath index), (utf8 memberText).length, .ok (utf8 memberText)⟩

def memberEntries (count : Nat) : List (Except String TarEntry) :=
  (List.range' 0 count).map fun index => .ok (memberEntry index)

/-- The bytes of an archive of that many members. -/
def memberArchive (count : Nat) : Bytes :=
  (List.range' 0 count).flatMap (fun index => tarMember (memberPath index) (utf8 memberText)) ++
    List.replicate 1024 0

/-- The readers, as far as they read such an archive. -/
def memberReaders (count : Nat) : Readers where
  entries := fun _ content =>
    if content = memberArchive count then .ok (memberEntries count)
    else .error "failed to read entire block"
  gunzip := fun _ _ => .error "invalid gzip header"
  kafkaText := fun _ => "broker call failed"

/-- A JSON reader, as far as it reads a member. -/
def memberSerde : Serde where
  fromStr := fun text =>
    if text = memberText then .ok (.object [("type", .string "start_game")])
    else .error "expected value at line 1 column 1"
  fromStrVec := fun _ => .error "expected value at line 1 column 1"
  print := fun _ => ""

/-- The default limits. -/
def smallImport : Import where
  maxBatchRecords := 50000
  maxRecordBytes := 256 * 1024
  maxLag := 100000
  batchKey := "batch"
  source := "archive"
  playedAt := none

/-- A random uuid: the version is 4. -/
def memberId (index : Nat) : Uuid := BitVec.ofNat 128 (4 * 2 ^ 76 + 8 * 2 ^ 60 + index)

/-- Every member is new. -/
def smallAnswers (index : Nat) : ClaimAnswers where
  lag := 0
  id := memberId index
  now := Indexer.ingestTime
  inserted := .ok true
  found := .ok none

def smallMessage (index : Nat) : IngestMessage :=
  IngestMessage.new Indexer.ingestTime (memberId index) "archive" none (utf8 memberText) none

theorem memberText_length : (utf8 memberText).length = 21 := by decide +kernel

theorem visit_small (readers : Readers) {index : Nat} (inside : index < 50000) :
    visit (reference memberSerde) readers smallImport index (.ok (memberEntry index))
        (smallAnswers index) =
      .accept ⟨memberId index, (reference memberSerde).digest (utf8 memberText),
        callerKey "archive" ("batch" ++ "/" ++ memberPath index), some (smallMessage index)⟩ := by
  have parsed : parseMetadata memberSerde (utf8 memberText) = .ok ⟨[], none, 1, none, none⟩ := by
    decide +kernel
  have plain : gzipMagic.isPrefixOf (utf8 memberText) = false := by decide +kernel
  have some_ : (utf8 memberText).isEmpty = false := by decide +kernel
  have below : ¬ smallImport.maxBatchRecords ≤ index := Nat.not_le.mpr inside
  have raw : memberRaw readers smallImport (memberEntry index) = .ok (utf8 memberText) := by
    simp [memberRaw, memberEntry, memberText_length, smallImport, plain]
  have checked : checkRecordSize smallImport.maxRecordBytes (utf8 memberText) = .ok () := by
    simp [checkRecordSize, some_, memberText_length, smallImport]
  have claimed : claimMember (reference memberSerde) readers smallImport (memberPath index)
      (utf8 memberText) (smallAnswers index) = .ok
        ⟨memberId index, (reference memberSerde).digest (utf8 memberText),
          callerKey "archive" ("batch" ++ "/" ++ memberPath index), some (smallMessage index)⟩ := by
    have reads : parseMetadata (reference memberSerde).serde (utf8 memberText) =
        .ok ⟨[], none, 1, none, none⟩ := parsed
    simp only [claimMember, checked, claim, reads]
    rfl
  have file : (memberEntry index).isFile = true := rfl
  have path : (memberEntry index).path = .ok (memberPath index) := rfl
  simp only [visit, below, if_false, file, Bool.not_true, Bool.false_eq_true, path, raw, claimed]
  rfl

theorem newMembers_small (readers : Readers) (index count : Nat)
    (inside : index + count ≤ 50000) :
    newMembers (reference memberSerde) readers smallImport smallAnswers index
        ((List.range' index count).map fun index => .ok (memberEntry index)) =
      ((List.range' index count).map smallMessage, true) := by
  induction count generalizing index with
  | zero => rfl
  | succ count ih =>
      rw [List.range'_succ, List.map_cons, List.map_cons, newMembers,
        visit_small readers (show index < 50000 by omega)]
      simp only [ih (index + 1) (by omega)]
      rfl

theorem openArchive_members (count : Nat) :
    openArchive (memberReaders count) ⟨.ok (memberArchive count), .ok ()⟩ =
      .ok (memberEntries count) := by
  have long : ¬ (memberArchive count).length < 2 := by
    rw [memberArchive, List.length_append, List.length_replicate]
    omega
  simp [openArchive, long, memberReaders]

theorem weight_small (count : Nat) :
    weight messageLen ((List.range' 0 count).map smallMessage) = count * 21 := by
  have each : ∀ index, messageLen (smallMessage index) = 21 := fun _ => memberText_length
  simp [weight, List.map_map, Function.comp_def, each]

/-- As long as their raw bytes fit, the members are one group. -/
theorem archiveGroups_small {count : Nat} (some_ : 0 < count) (few : count ≤ 50000)
    (light : count * 21 ≤ maxProduceBatchBytes) :
    archiveGroups (reference memberSerde) (memberReaders count) smallImport smallAnswers
        ⟨.ok (memberArchive count), .ok ()⟩ =
      [(List.range' 0 count).map smallMessage] := by
  have one : (produceChunks messageLen ((List.range' 0 count).map smallMessage)).length ≤ 1 :=
    (produceChunks_length_le_one_iff _ _).mpr (.inr (by rwa [weight_small]))
  have joined := @produceChunks_flatten _ messageLen ((List.range' 0 count).map smallMessage)
  have filled : ((List.range' 0 count).map smallMessage).length = count := by
    rw [List.length_map, List.length_range']
  rw [archiveGroups, openArchive_members]
  simp only [memberEntries, newMembers_small _ 0 count (by omega), reached, if_true]
  rcases chunks : produceChunks messageLen ((List.range' 0 count).map smallMessage) with
    _ | ⟨first, _ | ⟨second, rest⟩⟩
  · rw [chunks] at joined
    rw [← joined, List.flatten_nil, List.length_nil] at filled
    omega
  · rw [chunks] at joined
    rw [← joined, List.flatten_singleton]
  · rw [chunks, List.length_cons, List.length_cons] at one
    omega

/-- With its key and headers, no record is under 34 bytes. -/
theorem weight_small_records (count : Nat) :
    count * 34 ≤ weight approximateSize (recordsOf uuidText rfc3339 1 0
      ((List.range' 0 count).map smallMessage)) ∧
    (recordsOf uuidText rfc3339 1 0 ((List.range' 0 count).map smallMessage)).length = count := by
  have all : ∀ messages : List IngestMessage, recordsOf uuidText rfc3339 1 0 messages =
      messages.map (IngestMessage.intoRecord uuidText rfc3339) := by
    intro messages
    simp [recordsOf, partitionFor, Nat.mod_one]
  have heavy : ∀ index, 34 ≤
      approximateSize ((smallMessage index).intoRecord uuidText rfc3339) := by
    intro index
    have headers : (utf8 "source").length + (utf8 "archive").length = 13 := by decide +kernel
    have value := memberText_length
    simp only [approximateSize, IngestMessage.intoRecord, smallMessage, IngestMessage.new,
      Option.map_none, Option.toList_none, List.nil_append, List.map_cons, List.map_nil,
      List.sum_cons, List.sum_nil, Option.getD_some]
    omega
  constructor
  · rw [all, weight, List.map_map, List.map_map]
    have least := List.card_nsmul_le_sum ((List.range' 0 count).map
      ((approximateSize ∘ IngestMessage.intoRecord uuidText rfc3339) ∘ smallMessage)) 34 (by
        intro bytes member
        obtain ⟨index, -, rfl⟩ := List.mem_map.mp member
        exact heavy index)
    simpa using least
  · rw [all, List.length_map, List.length_map, List.length_range']

/-- 24000 records of 21 bytes are one group, but with their keys and headers they
are over the bound, and a topic of one partition is sent more than one request. -/
theorem small_records_split :
    ¬ ∀ broker, (processBatchArchive (reference memberSerde) (memberReaders 24000) smallImport
      approximateSize 1 smallAnswers broker ⟨.ok (memberArchive 24000), .ok ()⟩).1.Clean := by
  intro clean
  have fits := (processBatchArchive_oneEach_iff (memberReaders 24000) smallImport smallAnswers
    ⟨.ok (memberArchive 24000), .ok ()⟩).mp fun broker => (clean broker).1
  rw [archiveGroups_small (by decide) (by decide) (by decide)] at fits
  have together := fits _ (List.mem_singleton_self _) 0 (by decide)
  obtain ⟨heavy, count⟩ := weight_small_records 24000
  have over_ : maxProduceBatchBytes < 24000 * 34 := by decide
  rcases together with short | light
  · exact absurd (count ▸ short) (by decide)
  · exact absurd (Nat.le_trans heavy light) (Nat.not_le.mpr over_)

end MajsoulManager.Ingest
