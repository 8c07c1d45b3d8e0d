/-
# Index.Records — the records table: inserts, and the keyset walk over it

`catalog.rs`.  The table replaces: rows under one sorting key converge on the one
inserted last, and every read that matters says `FINAL`.  `page` is the walk the
export and the backfills share, newest ingest first.
-/
import MajsoulManager.Theory.Replacing
import MajsoulManager.Indexer.WorkerInvariant

namespace MajsoulManager.Index

open MajsoulManager.Theory
open MajsoulManager.Store

set_option autoImplicit false

/-! ## The table -/

/-- The versions are `indexed_at`, in milliseconds. -/
abbrev RecordTable := List (Versioned Store.Record)

/-- The sorting key a row is stored under. -/
def indexKey (row : Store.Record) : String × DateTime × Uuid := row.stored.sortingKey

/-- `insert_batch`: the server stamps every row of the statement with its clock. -/
def insertBatch (table : RecordTable) (now : Nat) (rows : List Store.Record) : RecordTable :=
  table ++ (rows.map Store.Record.stored).map (Versioned.mk now)

@[simp] theorem indexKey_stored (row : Store.Record) : indexKey row.stored = indexKey row := by
  simp [indexKey, Store.Record.stored, Store.Record.sortingKey]

/-- A re-fetched record keeps the key of the row it replaces. -/
theorem indexKey_of_reindex {crates : Crates} {old row : Store.Record} {raw : Bytes}
    {majsoulPb : Option Bytes}
    (built : Indexer.RowFor crates
      (IngestMessage.reindex old.id old.source old.receivedAt old.playedAt raw majsoulPb) row) :
    indexKey row = indexKey old := by
  rw [indexKey, built.sortingKey]
  simp [Indexer.IngestMessage.sortingKey, IngestMessage.reindex, indexKey, Store.Record.stored,
    Store.Record.sortingKey]

theorem latest_stored (rows : List Store.Record) (k : String × DateTime × Uuid) :
    latest indexKey (rows.map Store.Record.stored) k =
      (latest indexKey rows k).map Store.Record.stored := by
  have through : (fun row : Store.Record => decide (indexKey row = k)) ∘ Store.Record.stored =
      fun row => decide (indexKey row = k) := by
    funext row
    simp
  simp [latest, List.filter_map, through, List.getLast?_map]

/-- **What a batch leaves**, when the clock has not gone back. -/
theorem survivor_insertBatch {table : RecordTable} {now : Nat}
    (stamped : ∀ entry ∈ table, entry.version ≤ now) (rows : List Store.Record)
    (k : String × DateTime × Uuid) :
    survivor indexKey (insertBatch table now rows) k =
      ((latest indexKey rows k).map fun row => ⟨now, row.stored⟩).or
        (survivor indexKey table k) := by
  rw [insertBatch, survivor_append_stamped stamped, latest_stored]
  simp [Function.comp_def]

/-! ## The walk -/

structure Cursor where
  receivedAt : DateTime
  recordId : Uuid
  deriving DecidableEq

def timestampMillis (t : DateTime) : Int := t.secs * 1000 + t.nanos / 1000000

/-- The server compares a uuid by its low half, then by its high half. -/
def uuidRank (id : Uuid) : Nat := id.toNat % 2 ^ 64 * 2 ^ 64 + id.toNat / 2 ^ 64

/-- `(received_at, record_id) <`, at the resolution of the column. -/
def precedes (at_ : DateTime) (id : Uuid) (cursorAt : DateTime) (cursorId : Uuid) : Bool :=
  timestampMillis at_ < timestampMillis cursorAt ||
    (timestampMillis at_ == timestampMillis cursorAt && uuidRank id < uuidRank cursorId)

/-- `RECORDS_BEFORE`: the scalar bound prunes, the pair decides. -/
def Cursor.admits (cursor : Cursor) (row : Store.Record) : Bool :=
  timestampMillis row.receivedAt ≤ timestampMillis cursor.receivedAt &&
    precedes row.receivedAt row.id cursor.receivedAt cursor.recordId

/-- `ORDER BY received_at DESC, record_id DESC`. -/
def InPageOrder (a b : Store.Record) : Prop :=
  precedes a.receivedAt a.id b.receivedAt b.id = false

instance : DecidableRel InPageOrder := fun a b =>
  inferInstanceAs (Decidable (precedes a.receivedAt a.id b.receivedAt b.id = false))

/-- One page without a filter, and the cursor after it when more follows. -/
def page (table : RecordTable) (cursor : Option Cursor) (limit : Nat) :
    List Store.Record × Option Cursor :=
  let matched := (final indexKey table).filter fun row => cursor.all fun c => c.admits row
  let records := (matched.insertionSort InPageOrder).take (limit + 1)
  if limit < records.length then
    let records := records.take limit
    (records, records.getLast?.map fun last => ⟨last.receivedAt, last.id⟩)
  else (records, none)

/-- A page shows survivors only. -/
theorem survivor_of_mem_page {table : RecordTable} {cursor : Option Cursor} {limit : Nat}
    {row : Store.Record} (shown : row ∈ (page table cursor limit).1) :
    ∃ kept, survivor indexKey table (indexKey row) = some kept ∧ kept.row = row := by
  refine mem_final.mp ?_
  have sorted : row ∈ ((final indexKey table).filter fun row => cursor.all fun c =>
      c.admits row).insertionSort InPageOrder := by
    unfold page at shown
    simp only at shown
    split at shown
    · exact List.mem_of_mem_take (List.mem_of_mem_take shown)
    · exact List.mem_of_mem_take shown
  exact (List.mem_filter.mp ((List.mem_insertionSort _).mp sorted)).1

end MajsoulManager.Index
