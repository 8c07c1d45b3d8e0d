/-
# Ingest.Produce — a batch of claimed records, its requests and its claims

`produce_claimed` hands a batch to the topic, one request after another, and
releases every claim of the batch when one of them fails.  The requests before
the one that failed are stored all the same: `produceClaimed_releases_iff` says
that the claims released are those of the records that did not reach the topic
exactly when every request was acknowledged, or the first was refused.
-/
import MajsoulManager.Ingest.Answers

namespace MajsoulManager.Ingest

open MajsoulManager.Theory
open MajsoulManager.Record
open MajsoulManager.Store

set_option autoImplicit false

/-! ## Producing -/

/-- What becomes of one produce request.  One that was lost is stored, but its
acknowledgement never came. -/
inductive Reply where
  | acked
  | lost
  | refused
  deriving DecidableEq

section Requests

variable {Item : Type}

/-- Sends the requests in turn and stops at the first that fails: what the topic
keeps of them, and whether all were acknowledged. -/
def sendRequests (reply : Nat → Reply) : Nat → List (List Item) → List Item × Bool
  | _, [] => ([], true)
  | k, request :: rest =>
      match reply k with
      | .acked =>
          let (stored, sent) := sendRequests reply (k + 1) rest
          (request ++ stored, sent)
      | .lost => (request, false)
      | .refused => ([], false)

/-- All goes well exactly when every request is acknowledged, and then all is
stored. -/
theorem sendRequests_sent (reply : Nat → Reply) (k : Nat) (requests : List (List Item)) :
    ((sendRequests reply k requests).2 = true ↔
      ∀ i < requests.length, reply (k + i) = .acked) ∧
    ((sendRequests reply k requests).2 = true →
      (sendRequests reply k requests).1 = requests.flatten) := by
  induction requests generalizing k with
  | nil => simp [sendRequests]
  | cons request rest ih =>
      obtain ⟨sent, stored⟩ := ih (k + 1)
      have split_ : (∀ i < (request :: rest).length, reply (k + i) = .acked) ↔
          reply k = .acked ∧ ∀ i < rest.length, reply (k + 1 + i) = .acked := by
        constructor
        · intro all
          refine ⟨all 0 (by simp), fun i inside => ?_⟩
          have later := all (i + 1) (by simpa using inside)
          rwa [show k + (i + 1) = k + 1 + i by omega] at later
        · rintro ⟨first, later⟩ i inside
          cases i with
          | zero => exact first
          | succ i =>
              rw [show k + (i + 1) = k + 1 + i by omega]
              exact later i (by simpa using inside)
      rw [split_, ← sent]
      cases answer : reply k with
      | acked => simp_all [sendRequests]
      | lost => simp [sendRequests, answer]
      | refused => simp [sendRequests, answer]

/-- A failed batch stores nothing exactly when its first request is refused. -/
theorem sendRequests_nothing (reply : Nat → Reply) (k : Nat) {requests : List (List Item)}
    (nonempty : ∀ request ∈ requests, request ≠ [])
    (failed : (sendRequests reply k requests).2 = false) :
    (sendRequests reply k requests).1 = [] ↔ reply k = .refused := by
  cases requests with
  | nil => simp [sendRequests] at failed
  | cons request rest =>
      have some_record := nonempty request (by simp)
      cases answer : reply k <;> simp [sendRequests, answer, some_record]

/-- Nothing is stored that was not sent. -/
theorem sendRequests_stored_subset (reply : Nat → Reply) (k : Nat)
    (requests : List (List Item)) : (sendRequests reply k requests).1 ⊆ requests.flatten := by
  induction requests generalizing k with
  | nil => simp [sendRequests]
  | cons request rest ih =>
      cases answer : reply k with
      | acked =>
          simp only [sendRequests, answer, List.flatten_cons]
          exact List.append_subset.mpr ⟨List.subset_append_left _ _,
            List.Subset.trans (ih (k + 1)) (List.subset_append_right _ _)⟩
      | lost => simp [sendRequests, answer]
      | refused => simp [sendRequests, answer]

end Requests

/-! ## Claims -/

/-- A record that has been claimed.  A duplicate carries no message. -/
structure Claimed where
  id : Uuid
  sha256 : String
  key : String
  message : Option IngestMessage

def Claimed.isDuplicate (record : Claimed) : Bool := record.message.isNone

def Claimed.hash (crates : Crates) (record : Claimed) : Hash := crates.sha256 (utf8 record.key)

/-- The keys and ids the failing branch walks. -/
def claimKeys (claimed : List Claimed) : List (String × Uuid) :=
  claimed.filterMap fun record => record.message.map fun message => (record.key, message.recordId)

def abandonAll (crates : Crates) (table : ClaimTable) (keys : List (String × Uuid)) : ClaimTable :=
  keys.foldl (fun table entry => table.abandon (crates.sha256 (utf8 entry.1)) entry.2) table

/-- What a batch leaves behind: the claim table, the topic, and whether the broker
acknowledged all of it. -/
structure Produced where
  table : ClaimTable
  topic : List IngestMessage
  sent : Bool

section Batch

variable (crates : Crates) (approximateSize : TopicRecord → Nat) (partitions : Nat)

/-- The requests of a batch of messages. -/
def requestsOf (messages : List IngestMessage) : List (List IngestMessage) :=
  produceRequests
    (fun message => approximateSize (message.intoRecord crates.uuid crates.rfc3339))
    partitions IngestMessage.recordId messages

def produceClaimed (reply : Nat → Reply) (table : ClaimTable) (topic : List IngestMessage)
    (claimed : List Claimed) : Produced :=
  let messages := claimed.filterMap Claimed.message
  if messages.isEmpty then ⟨table, topic, true⟩
  else
    let (stored, sent) := sendRequests reply 0
      (requestsOf crates approximateSize partitions messages)
    let after := if sent then table else abandonAll crates table (claimKeys claimed)
    ⟨after, topic ++ stored, sent⟩

variable {crates approximateSize partitions}

/-- The batch as `claim` makes it: every new record holds its claim under an id
that is drawn for it and not in the topic yet. -/
structure FreshBatch (crates : Crates) (table : ClaimTable) (topic : List IngestMessage)
    (claimed : List Claimed) : Prop where
  named : ∀ record ∈ claimed, ∀ message, record.message = some message →
    message.recordId = record.id
  held : ∀ record ∈ claimed, record.isDuplicate = false →
    ∃ row, table (record.hash crates) = some row ∧ row.recordId = record.id
  absent : ∀ record ∈ claimed, record.isDuplicate = false →
    ∀ message ∈ topic, message.recordId ≠ record.id

theorem Claimed.message_of_new (record : Claimed) (new : record.isDuplicate = false) :
    ∃ message, record.message = some message :=
  Option.isSome_iff_exists.mp (Option.isNone_eq_false_iff.mp new)

/-- The record's claim is not in the table. -/
def Claimed.Released (crates : Crates) (table : ClaimTable) (record : Claimed) : Prop :=
  ¬ ∃ row, table (record.hash crates) = some row ∧ row.recordId = record.id

theorem abandonAll_eq_some {table : ClaimTable} {keys : List (String × Uuid)} {hash : Hash}
    {row : ClaimRow} :
    abandonAll crates table keys hash = some row ↔
      table hash = some row ∧
        ∀ entry ∈ keys, ¬ (hash = crates.sha256 (utf8 entry.1) ∧ row.recordId = entry.2) := by
  induction keys generalizing table with
  | nil => simp [abandonAll]
  | cons entry rest ih =>
      have first : abandonAll crates table (entry :: rest) =
          abandonAll crates (table.abandon (crates.sha256 (utf8 entry.1)) entry.2) rest := rfl
      rw [first, ih, ClaimTable.abandon_eq_some, List.forall_mem_cons, and_assoc]

/-- The failing branch releases every new claim of the batch. -/
theorem released_abandonAll {table : ClaimTable} {topic : List IngestMessage}
    {claimed : List Claimed} (fresh : FreshBatch crates table topic claimed) {record : Claimed}
    (member : record ∈ claimed) (new : record.isDuplicate = false) :
    record.Released crates (abandonAll crates table (claimKeys claimed)) := by
  rintro ⟨row, there, own⟩
  obtain ⟨message, carried⟩ := record.message_of_new new
  have walked : (record.key, record.id) ∈ claimKeys claimed := by
    refine List.mem_filterMap.mpr ⟨record, member, ?_⟩
    simp [carried, fresh.named record member message carried]
  exact (abandonAll_eq_some.mp there).2 _ walked ⟨rfl, own⟩

theorem mem_requestsOf_flatten (connected : 0 < partitions) {messages : List IngestMessage}
    {message : IngestMessage} :
    message ∈ (requestsOf crates approximateSize partitions messages).flatten ↔
      message ∈ messages :=
  mem_produceRequests_flatten connected

theorem requestsOf_nil (connected : 0 < partitions) :
    requestsOf crates approximateSize partitions [] = [] := by
  refine List.eq_nil_iff_forall_not_mem.mpr fun request member => ?_
  obtain ⟨message, inside⟩ := List.exists_mem_of_ne_nil _ (produceRequests_ne_nil member)
  have sent := (mem_requestsOf_flatten connected).mp (List.mem_flatten.mpr ⟨request, member, inside⟩)
  simp at sent

/-- The released claims are those of the records that are not in the topic, and a
retry of a record that is there is no new claim. -/
def ReleasesExactly (crates : Crates) (produced : Produced) (claimed : List Claimed) : Prop :=
  ∀ record ∈ claimed, record.isDuplicate = false →
    (record.Released crates produced.table ↔
      ¬ ∃ message ∈ produced.topic, message.recordId = record.id) ∧
    ((∃ message ∈ produced.topic, message.recordId = record.id) →
      ∀ row, produced.table.insert (record.hash crates) row = produced.table)

/-- With everything stored, every claim stands. -/
theorem releasesExactly_of_stored {table : ClaimTable} {topic stored : List IngestMessage}
    {claimed : List Claimed} (fresh : FreshBatch crates table topic claimed)
    (all : claimed.filterMap Claimed.message ⊆ stored) :
    ReleasesExactly crates ⟨table, topic ++ stored, true⟩ claimed := by
  intro record member new
  obtain ⟨message, carried⟩ := record.message_of_new new
  obtain ⟨row, held, own⟩ := fresh.held record member new
  have there : ∃ message ∈ topic ++ stored, message.recordId = record.id :=
    ⟨message, List.mem_append_right _ (all (List.mem_filterMap.mpr ⟨record, member, carried⟩)),
      fresh.named record member message carried⟩
  refine ⟨iff_of_false (fun released => released ⟨row, held, own⟩) (not_not.mpr there), fun _ row => ?_⟩
  exact ClaimTable.insert_of_some row held

/-- With every claim released, that is right exactly when nothing was stored. -/
theorem releasesExactly_abandonAll {table : ClaimTable} {topic stored : List IngestMessage}
    {claimed : List Claimed} (fresh : FreshBatch crates table topic claimed)
    (only : stored ⊆ claimed.filterMap Claimed.message) :
    ReleasesExactly crates
        ⟨abandonAll crates table (claimKeys claimed), topic ++ stored, false⟩ claimed ↔
      stored = [] := by
  constructor
  · intro exactly
    refine List.eq_nil_iff_forall_not_mem.mpr fun message kept => ?_
    obtain ⟨record, member, carried⟩ := List.mem_filterMap.mp (only kept)
    have new : record.isDuplicate = false := by simp [Claimed.isDuplicate, carried]
    exact (exactly record member new).1.mp (released_abandonAll fresh member new)
      ⟨message, List.mem_append_right _ kept, fresh.named record member message carried⟩
  · rintro rfl record member new
    have absent : ¬ ∃ message ∈ topic ++ [], message.recordId = record.id := by
      rintro ⟨message, there, named⟩
      exact fresh.absent record member new message (by simpa using there) named
    exact ⟨iff_of_true (released_abandonAll fresh member new) absent,
      fun there => absurd there absent⟩

/-- **When the released claims are the right ones.**  For every batch and every
way its requests can end: exactly when all of them are acknowledged, or the first
is refused. -/
theorem produceClaimed_releases_iff (crates : Crates) (approximateSize : TopicRecord → Nat)
    (partitions : Nat) (connected : 0 < partitions) (reply : Nat → Reply) (table : ClaimTable)
    (topic : List IngestMessage) (claimed : List Claimed)
    (fresh : FreshBatch crates table topic claimed) :
    ReleasesExactly crates
        (produceClaimed crates approximateSize partitions reply table topic claimed) claimed ↔
      (∀ k < (requestsOf crates approximateSize partitions
        (claimed.filterMap Claimed.message)).length, reply k = .acked) ∨ reply 0 = .refused := by
  by_cases none_ : claimed.filterMap Claimed.message = []
  · rw [none_, requestsOf_nil connected]
    refine iff_of_true ?_ (.inl (by simp))
    have stands := releasesExactly_of_stored fresh (List.subset_nil.mpr none_)
    simpa [produceClaimed, none_] using stands
  · have nonempty : ∀ request ∈ requestsOf crates approximateSize partitions
        (claimed.filterMap Claimed.message), request ≠ [] := fun _ => produceRequests_ne_nil
    have acknowledged := sendRequests_sent reply 0
      (requestsOf crates approximateSize partitions (claimed.filterMap Claimed.message))
    have inside := sendRequests_stored_subset reply 0
      (requestsOf crates approximateSize partitions (claimed.filterMap Claimed.message))
    have nothing := sendRequests_nothing reply 0 nonempty
    simp only [Nat.zero_add] at acknowledged
    rw [← acknowledged.1]
    simp only [produceClaimed, List.isEmpty_iff, none_, if_false]
    rcases sends : sendRequests reply 0 (requestsOf crates approximateSize partitions
      (claimed.filterMap Claimed.message)) with ⟨stored, sent⟩
    rw [sends] at acknowledged inside nothing
    cases sent with
    | true =>
        refine iff_of_true (releasesExactly_of_stored fresh fun message kept => ?_) (.inl rfl)
        rw [acknowledged.2 rfl]
        exact (mem_requestsOf_flatten connected).mpr kept
    | false =>
        have only : stored ⊆ claimed.filterMap Claimed.message :=
          fun message kept => (mem_requestsOf_flatten connected).mp (inside kept)
        simpa [nothing rfl] using releasesExactly_abandonAll fresh only

end Batch

/-! ## Two members of an archive -/

/-- The size of a topic record on the wire, as the client counts it. -/
def recordSize (record : TopicRecord) : Nat :=
  (record.key.getD []).length + (record.value.getD []).length +
    (record.headers.map fun header => header.1.utf8ByteSize + header.2.length).sum

def memberText : String := "\x7b\"type\":\"start_game\"\x7d"

def archiveMember (id : Uuid) (path : String) : Claimed where
  id := id
  sha256 := hexEncode (Sha256.digest (utf8 memberText)).toList
  key := callerKey "archive" ("batch/" ++ path)
  message := some (IngestMessage.new Indexer.ingestTime id "archive" none (utf8 memberText) none)

def twoMembers : List Claimed := [archiveMember 1 "a.json", archiveMember 2 "b.json"]

def claimOf (record : Claimed) : ClaimRow := ⟨record.id, record.sha256, true⟩

def twoClaims : ClaimTable :=
  twoMembers.foldl (fun table record =>
    table.insert (record.hash (reference gameSerde)) (claimOf record)) fun _ => none

theorem twoMembers_fresh : FreshBatch (reference gameSerde) twoClaims [] twoMembers where
  named := by
    intro record member message carried
    simp only [twoMembers, List.mem_cons, List.not_mem_nil, or_false] at member
    rcases member with rfl | rfl <;> cases carried <;> rfl
  held := by
    have both : ∀ record ∈ twoMembers,
        twoClaims (record.hash (reference gameSerde)) = some (claimOf record) := by
      decide +kernel
    exact fun record member _ => ⟨claimOf record, both record member, rfl⟩
  absent := by simp

/-- Refused from the first request on, the batch releases exactly its claims. -/
theorem twoMembers_refused :
    ReleasesExactly (reference gameSerde)
      (produceClaimed (reference gameSerde) recordSize 2 (fun _ => .refused) twoClaims [] twoMembers)
      twoMembers :=
  (produceClaimed_releases_iff (reference gameSerde) recordSize 2 (by decide) _ twoClaims []
    twoMembers twoMembers_fresh).mpr (.inr rfl)

def secondRefused (k : Nat) : Reply := if k = 0 then .acked else .refused

/-- The members go to two partitions.  With the second request refused, record 2
is in the topic and its claim is released. -/
theorem twoMembers_second_refused :
    (produceClaimed (reference gameSerde) recordSize 2 secondRefused twoClaims []
        twoMembers).topic.map (·.recordId) = [2] ∧
      ¬ ReleasesExactly (reference gameSerde)
        (produceClaimed (reference gameSerde) recordSize 2 secondRefused twoClaims [] twoMembers)
        twoMembers := by
  have stored : (produceClaimed (reference gameSerde) recordSize 2 secondRefused twoClaims []
      twoMembers).topic.map (·.recordId) = [2] := by
    decide +kernel
  have gone : (produceClaimed (reference gameSerde) recordSize 2 secondRefused twoClaims []
      twoMembers).table ((archiveMember 2 "b.json").hash (reference gameSerde)) = none := by
    decide +kernel
  refine ⟨stored, fun exactly => ?_⟩
  have second := (exactly (archiveMember 2 "b.json") (by simp [twoMembers]) rfl).1
  refine second.mp ?_ ?_
  · rintro ⟨row, there, -⟩
    rw [gone] at there
    cases there
  · have listed := List.mem_singleton_self (2 : Uuid)
    rw [← stored] at listed
    exact List.mem_map.mp listed

end MajsoulManager.Ingest
