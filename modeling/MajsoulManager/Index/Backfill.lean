/-
# Index.Backfill — the metadata pass beside re-fetches

The pass reads a page of rows, reads their bytes, and later inserts the rows
whose metadata changed: whole rows, with the locations they had when they were
read.  The pack worker inserts re-fetched records under the same sorting keys
meanwhile.

* `rewritten_locations`: a rewritten row keeps its key and its locations.
* `backfill_keeps_refetched`: in every run in which no batch is written over a
  record that was consumed since its page was read, the surviving row of a record
  has the locations of the worker's latest row for it.
* `backfill_undoes_refetch`: a run in which it has the old ones.
-/
import MajsoulManager.Index.Records

namespace MajsoulManager.Index

open MajsoulManager.Theory
open MajsoulManager.Record
open MajsoulManager.Store

set_option autoImplicit false

/-! ## The pass -/

/-- The row to write back, if the parser now derives something else.  Neither
field is ever cleared. -/
def rewritten (row : Store.Record) (metadata : Metadata) : Option Store.Record :=
  let rule := metadata.rule.or row.rule
  let playedAt := metadata.playedAt.or row.playedAt
  if rule = row.rule ∧ playedAt = row.playedAt then none
  else some { row with rule, playedAt }

structure Progress where
  scanned : Nat
  rewritten : Nat
  unreadable : Nat
  unparsable : Nat
  deriving DecidableEq

/-- Whether the pass earned the one-shot marker. -/
def Progress.isComplete (progress : Progress) : Bool := progress.unreadable == 0

/-- The rows of a page as they are worked off: those still to be read, the batch
so far, and the count. -/
structure PageWork where
  rest : List Store.Record
  batch : List Store.Record
  progress : Progress

/-- One row of a page, whose bytes could or could not be read. -/
def PageWork.take (crates : Crates) (work : PageWork) (raw : Option Bytes) : PageWork :=
  match work.rest with
  | [] => work
  | row :: rest =>
      match raw with
      | none =>
          let progress := { work.progress with unreadable := work.progress.unreadable + 1 }
          { work with rest, progress }
      | some raw =>
          match parseMetadata crates.serde raw with
          | .error _ =>
              let progress := { work.progress with unparsable := work.progress.unparsable + 1 }
              { work with rest, progress }
          | .ok metadata => { work with rest, batch := work.batch ++ (rewritten row metadata).toList }

def pageSize : Nat := 1000

inductive Pass where
  | idle
  | paging (cursor : Option Cursor) (progress : Progress)
  /-- A page of rows in hand.  `mark` is how much the worker had consumed when it
  was read, and `length` how many rows it has. -/
  | working (mark length : Nat) (work : PageWork) (next : Option Cursor)
  | finished (progress : Progress)

def Pass.isFinished : Pass → Bool
  | finished _ => true
  | _ => false

/-! ## The machine -/

/-- The index, the server's clock, every row the pack worker has inserted, and the
pass. -/
structure Corpus where
  table : RecordTable
  clock : Nat
  consumed : List Store.Record
  pass : Pass

inductive Action where
  | tick (millis : Nat)
  /-- The pack worker inserts the rows of a sealed pack. -/
  | consume (rows : List Store.Record)
  | merge (merged : RecordTable)
  | start
  /-- The process ends, or the pass returns an error. -/
  | stop
  | readPage
  | readRow (raw : Option Bytes)
  /-- A batch that was not answered may have landed in part. -/
  | write (landed : List Store.Record) (answered : Bool)

/-- Where the pass goes after a page. -/
def Pass.after (progress : Progress) : Option Cursor → Pass
  | some cursor => .paging (some cursor) progress
  | none => .finished progress

def Corpus.passStep (crates : Crates) (corpus : Corpus) : Action → Option Corpus
  | .readPage =>
      match corpus.pass with
      | .paging cursor progress =>
          let (rows, next) := page corpus.table cursor pageSize
          let work := ⟨rows, [], progress⟩
          some { corpus with pass := .working corpus.consumed.length rows.length work next }
      | _ => none
  | .readRow raw =>
      match corpus.pass with
      | .working mark length work next =>
          if work.rest.isEmpty then none
          else some { corpus with pass := .working mark length (work.take crates raw) next }
      | _ => none
  | .write landed answered =>
      match corpus.pass with
      | .working _ length ⟨[], batch, progress⟩ next =>
          let progress := { progress with
            scanned := progress.scanned + length, rewritten := progress.rewritten + batch.length }
          if answered then
            some { corpus with
              table := insertBatch corpus.table corpus.clock batch
              pass := .after progress next }
          else if landed ⊆ batch then
            some { corpus with
              table := insertBatch corpus.table corpus.clock landed
              pass := .idle }
          else none
      | _ => none
  | _ => none

def Corpus.step (crates : Crates) (corpus : Corpus) : Action → Option Corpus
  | .tick millis => some { corpus with clock := corpus.clock + millis }
  | .consume rows =>
      some { corpus with
        table := insertBatch corpus.table corpus.clock rows
        consumed := corpus.consumed ++ rows }
  | .merge merged =>
      if Merges indexKey corpus.table merged then some { corpus with table := merged } else none
  | .start =>
      match corpus.pass with
      | .idle => some { corpus with pass := .paging none ⟨0, 0, 0, 0⟩ }
      | _ => none
  | .stop => some { corpus with pass := .idle }
  | action => corpus.passStep crates action

/-- Any index, with a clock that is not behind it, and nothing consumed since. -/
def backfillMachine (crates : Crates) : Machine Corpus Action where
  Start := fun corpus => (∀ entry ∈ corpus.table, entry.version ≤ corpus.clock) ∧
    corpus.consumed = [] ∧ corpus.pass = .idle
  step := Corpus.step crates

/-! ## Locations -/

/-- Where a row says its bytes and its protobuf are. -/
def locations (row : Store.Record) : PackLocation × Option PbLocation := (row.storage, row.majsoulPb)

@[simp] theorem locations_stored (row : Store.Record) : locations row.stored = locations row := rfl

/-- A rewritten row keeps its key and its locations. -/
theorem rewritten_locations {row changed : Store.Record} {metadata : Metadata}
    (rewrote : rewritten row metadata = some changed) :
    indexKey changed = indexKey row ∧ locations changed = locations row := by
  unfold rewritten at rewrote
  simp only at rewrote
  split at rewrote
  · cases rewrote
  · cases rewrote
    exact ⟨rfl, rfl⟩

/-- Every row of the batch after one more row was a row of the work before it. -/
theorem PageWork.take_rows {crates : Crates} {work : PageWork} {raw : Option Bytes}
    {P : Store.Record → Prop}
    (carries : ∀ row changed metadata, rewritten row metadata = some changed → P row → P changed)
    (holds : (∀ row ∈ work.rest, P row) ∧ ∀ row ∈ work.batch, P row) :
    (∀ row ∈ (work.take crates raw).rest, P row) ∧
      ∀ row ∈ (work.take crates raw).batch, P row := by
  obtain ⟨rest, batch, progress⟩ := work
  cases rest with
  | nil => simpa [PageWork.take] using holds.2
  | cons row rest =>
      obtain ⟨⟨here, later⟩, batched⟩ : (P row ∧ ∀ row ∈ rest, P row) ∧ ∀ row ∈ batch, P row := by
        simpa using holds
      cases raw with
      | none => exact ⟨later, batched⟩
      | some raw =>
          cases parsed : parseMetadata crates.serde raw with
          | error reason => simpa [PageWork.take, parsed] using ⟨later, batched⟩
          | ok metadata =>
              simp only [PageWork.take, parsed]
              refine ⟨later, fun changed member => ?_⟩
              rcases List.mem_append.mp member with old | new
              · exact batched changed old
              · exact carries row changed metadata (Option.mem_toList.mp new) here

/-! ## Runs -/

/-- A batch is written only over records that the worker has not consumed since
the page was read. -/
def Undisturbed (corpus : Corpus) : Action → Prop
  | .write _ _ =>
      match corpus.pass with
      | .working mark _ work _ =>
          ∀ row ∈ work.batch, ∀ since ∈ corpus.consumed.drop mark, indexKey since ≠ indexKey row
      | _ => True
  | _ => True

instance (corpus : Corpus) : ∀ action, Decidable (Undisturbed corpus action)
  | .write _ _ =>
      match working : corpus.pass with
      | .working mark _ work _ => decidable_of_iff (∀ row ∈ work.batch,
          ∀ since ∈ corpus.consumed.drop mark, indexKey since ≠ indexKey row)
          (by simp [Undisturbed, working])
      | .idle | .paging .. | .finished .. => .isTrue (by simp [Undisturbed, working])
  | .tick _ | .consume _ | .merge _ | .start | .stop | .readPage | .readRow _ => .isTrue trivial

/-- The row says what the worker's latest row for its record says. -/
def Current (consumed : List Store.Record) (row : Store.Record) : Prop :=
  ∀ last, latest indexKey consumed (indexKey row) = some last → locations row = locations last

/-- The row was current when the worker had consumed `mark` rows, unless the worker
has consumed its record since. -/
def CurrentAt (consumed : List Store.Record) (mark : Nat) (row : Store.Record) : Prop :=
  (∀ since ∈ consumed.drop mark, indexKey since ≠ indexKey row) → Current consumed row

/-- What the run keeps. -/
structure CorpusInv (corpus : Corpus) : Prop where
  stamped : ∀ entry ∈ corpus.table, entry.version ≤ corpus.clock
  survives : ∀ k last, latest indexKey corpus.consumed k = some last →
    ∃ kept, survivor indexKey corpus.table k = some kept ∧ locations kept.row = locations last
  inHand : ∀ mark length work next, corpus.pass = .working mark length work next →
    mark ≤ corpus.consumed.length ∧ (∀ row ∈ work.rest, CurrentAt corpus.consumed mark row) ∧
      ∀ row ∈ work.batch, CurrentAt corpus.consumed mark row

theorem stamped_insertBatch {table : RecordTable} {now : Nat}
    (stamped : ∀ entry ∈ table, entry.version ≤ now) (rows : List Store.Record) :
    ∀ entry ∈ insertBatch table now rows, entry.version ≤ now := by
  intro entry member
  rcases List.mem_append.mp member with old | new
  · exact stamped entry old
  · obtain ⟨_, -, rfl⟩ := List.mem_map.mp new
    exact Nat.le_refl _

/-- Writing rows that are current leaves every record where the worker put it. -/
theorem CorpusInv.survives_insert {corpus : Corpus} (inv : CorpusInv corpus)
    {rows : List Store.Record} (current : ∀ row ∈ rows, Current corpus.consumed row)
    {k : String × DateTime × Uuid} {last : Store.Record}
    (known : latest indexKey corpus.consumed k = some last) :
    ∃ kept, survivor indexKey (insertBatch corpus.table corpus.clock rows) k = some kept ∧
      locations kept.row = locations last := by
  rw [survivor_insertBatch inv.stamped]
  cases written : latest indexKey rows k with
  | none => simpa using inv.survives k last known
  | some row =>
      obtain ⟨member, rfl⟩ := mem_of_latest written
      exact ⟨⟨corpus.clock, row.stored⟩, rfl, current row member last known⟩

/-- What the worker consumes is current, whatever was there. -/
theorem CorpusInv.consume {corpus : Corpus} (inv : CorpusInv corpus) (rows : List Store.Record) :
    CorpusInv { corpus with
      table := insertBatch corpus.table corpus.clock rows
      consumed := corpus.consumed ++ rows } where
  stamped := stamped_insertBatch inv.stamped rows
  survives := by
    intro k last known
    rw [latest_append] at known
    rw [survivor_insertBatch inv.stamped]
    cases written : latest indexKey rows k with
    | none =>
        rw [written] at known
        simpa using inv.survives k last known
    | some row =>
        rw [written] at known
        cases known
        exact ⟨⟨corpus.clock, last.stored⟩, rfl, rfl⟩
  inHand := by
    intro mark length work next working
    obtain ⟨marked, rest, batch⟩ := inv.inHand mark length work next working
    have kept : ∀ row, CurrentAt corpus.consumed mark row →
        CurrentAt (corpus.consumed ++ rows) mark row := by
      intro row before untouched last known
      rw [List.drop_append_of_le_length marked] at untouched
      have skipped : latest indexKey rows (indexKey row) = none :=
        latest_eq_none.mpr fun since member => untouched since (List.mem_append_right _ member)
      rw [latest_append, skipped] at known
      exact before (fun since member => untouched since (List.mem_append_left _ member)) last known
    exact ⟨by simp; omega, fun row member => kept row (rest row member),
      fun row member => kept row (batch row member)⟩

theorem CorpusInv.readPage {corpus : Corpus} (inv : CorpusInv corpus) (cursor : Option Cursor)
    (length : Nat) (progress : Progress) (next : Option Cursor) :
    CorpusInv { corpus with
      pass := .working corpus.consumed.length length
        ⟨(page corpus.table cursor pageSize).1, [], progress⟩ next } where
  stamped := inv.stamped
  survives := inv.survives
  inHand := by
    rintro _ _ _ _ ⟨⟩
    refine ⟨Nat.le_refl _, fun row shown _ last known => ?_, by simp⟩
    obtain ⟨kept, survives, rfl⟩ := survivor_of_mem_page shown
    obtain ⟨same, alsoSurvives, told⟩ := inv.survives _ last known
    rw [survives] at alsoSurvives
    cases alsoSurvives
    exact told

theorem CorpusInv.readRow {crates : Crates} {corpus : Corpus} (inv : CorpusInv corpus)
    {mark length : Nat} {work : PageWork} {next : Option Cursor}
    (working : corpus.pass = .working mark length work next) (raw : Option Bytes) :
    CorpusInv { corpus with pass := .working mark length (work.take crates raw) next } where
  stamped := inv.stamped
  survives := inv.survives
  inHand := by
    rintro _ _ _ _ ⟨⟩
    obtain ⟨marked, rows⟩ := inv.inHand mark length work next working
    refine ⟨marked, PageWork.take_rows (fun row changed metadata rewrote before => ?_) rows⟩
    obtain ⟨sameKey, sameLocations⟩ := rewritten_locations rewrote
    intro untouched last known
    rw [sameKey] at untouched known
    rw [sameLocations]
    exact before untouched last known

theorem CorpusInv.write {corpus : Corpus} (inv : CorpusInv corpus) {mark length : Nat}
    {work : PageWork} {next : Option Cursor}
    (working : corpus.pass = .working mark length work next)
    (undisturbed : ∀ row ∈ work.batch, ∀ since ∈ corpus.consumed.drop mark,
      indexKey since ≠ indexKey row)
    {landed : List Store.Record} (inBatch : landed ⊆ work.batch) {pass : Pass}
    (left : ∀ mark length work next, pass ≠ .working mark length work next) :
    CorpusInv { corpus with table := insertBatch corpus.table corpus.clock landed, pass } where
  stamped := stamped_insertBatch inv.stamped landed
  survives := by
    intro k last known
    have current : ∀ row ∈ landed, Current corpus.consumed row := fun row member =>
      (inv.inHand mark length work next working).2.2 row (inBatch member)
        (undisturbed row (inBatch member))
    exact inv.survives_insert current known
  inHand := fun mark length work next working => absurd working (left mark length work next)

theorem CorpusInv.step {crates : Crates} {corpus next : Corpus} {action : Action}
    (inv : CorpusInv corpus) (undisturbed : Undisturbed corpus action)
    (stepped : corpus.step crates action = some next) : CorpusInv next := by
  cases action with
  | tick millis =>
      cases stepped
      exact ⟨fun entry member => Nat.le_add_right_of_le (inv.stamped entry member), inv.survives,
        inv.inHand⟩
  | consume rows =>
      cases stepped
      exact inv.consume rows
  | merge merged =>
      simp only [Corpus.step] at stepped
      split at stepped
      · rename_i merges
        cases stepped
        refine ⟨fun entry member => inv.stamped entry (merges.1.subset member), ?_, inv.inHand⟩
        intro k last known
        simpa [merges.2 k] using inv.survives k last known
      · cases stepped
  | start =>
      simp only [Corpus.step] at stepped
      split at stepped <;> cases stepped
      exact ⟨inv.stamped, inv.survives, by simp⟩
  | stop =>
      cases stepped
      exact ⟨inv.stamped, inv.survives, by simp⟩
  | readPage =>
      simp only [Corpus.step, Corpus.passStep] at stepped
      split at stepped <;> cases stepped
      exact inv.readPage _ _ _ _
  | readRow raw =>
      simp only [Corpus.step, Corpus.passStep] at stepped
      split at stepped
      · rename_i working
        split at stepped <;> cases stepped
        exact inv.readRow working raw
      · cases stepped
  | write landed answered =>
      simp only [Corpus.step, Corpus.passStep] at stepped
      split at stepped
      · rename_i mark length batch progress after working
        simp only [Undisturbed, working] at undisturbed
        split at stepped
        · cases stepped
          exact inv.write working undisturbed (List.Subset.refl _) (by cases after <;> simp [Pass.after])
        · split at stepped
          · rename_i inBatch
            cases stepped
            exact inv.write working undisturbed inBatch (by simp)
          · cases stepped
      · cases stepped

/-- **No backfill undoes a re-fetch**, in every run in which no batch is written
over a record that the worker consumed since its page was read. -/
theorem backfill_keeps_refetched (crates : Crates) {start final : Corpus} {actions : List Action}
    (started : (backfillMachine crates).Start start)
    (undisturbed : (backfillMachine crates).Meets Undisturbed start actions)
    (ran : (backfillMachine crates).run start actions = some final)
    (k : String × DateTime × Uuid) (last : Store.Record)
    (consumed : latest indexKey final.consumed k = some last) :
    ∃ kept, survivor indexKey final.table k = some kept ∧ kept.row.storage = last.storage ∧
      kept.row.majsoulPb = last.majsoulPb := by
  have inv : CorpusInv final := by
    refine Machine.run_preserves_of_meets (fun s a t inv undisturbed stepped =>
      inv.step undisturbed stepped) undisturbed ran ?_
    obtain ⟨stamped, nothing, idle⟩ := started
    exact ⟨stamped, by simp [nothing, latest], by simp [idle]⟩
  obtain ⟨kept, survives, same⟩ := inv.survives k last consumed
  exact ⟨kept, survives, Prod.mk.inj same⟩

/-! ## One legacy record -/

/-- A row from before the parser read the start time. -/
def legacyRow : Store.Record where
  id := 1
  source := "upload"
  sha256 := hexEncode (Sha256.digest (utf8 (Indexer.startText 1699999000))).toList
  receivedAt := Indexer.ingestTime
  playedAt := none
  players := []
  rule := none
  eventCount := 1
  storage := ⟨"packs/old.mjpack", 32, 71, 59, .zstd⟩
  majsoulPb := none

/-- The row the worker inserts for its re-fetch. -/
def refetchedRow : Store.Record :=
  { legacyRow with
    playedAt := DateTime.fromTimestamp 1699999000 0
    storage := ⟨"packs/new.mjpack", 32, 71, 59, .zstd⟩
    majsoulPb := some ⟨127, 20, 8⟩ }

def legacyCorpus : Corpus := ⟨[⟨10, legacyRow⟩], 10, [], .idle⟩

/-- The re-fetch is consumed before the pass reads its page. -/
def refetchFirst : List Action :=
  [.start, .consume [refetchedRow], .readPage, .readRow (some (utf8 (Indexer.startText 1699999000))),
    .write [] true]

theorem refetchFirst_survives :
    ∃ final, (backfillMachine (reference (Indexer.startSerde 1699999000))).run legacyCorpus
        refetchFirst = some final ∧
      ∃ kept, survivor indexKey final.table (indexKey refetchedRow) = some kept ∧
        kept.row.storage = refetchedRow.storage ∧ kept.row.majsoulPb = refetchedRow.majsoulPb := by
  obtain ⟨final, ran, consumed⟩ :
      ∃ final, (backfillMachine (reference (Indexer.startSerde 1699999000))).run legacyCorpus
          refetchFirst = some final ∧
        latest indexKey final.consumed (indexKey refetchedRow) = some refetchedRow :=
    Machine.run_exists (by decide +kernel)
  have started : (backfillMachine (reference (Indexer.startSerde 1699999000))).Start legacyCorpus :=
    ⟨by decide +kernel, rfl, rfl⟩
  exact ⟨final, ran, backfill_keeps_refetched _ started (by decide +kernel) ran _ _ consumed⟩

/-- The re-fetch is consumed after the pass has read the row. -/
def refetchBetween : List Action :=
  [.start, .readPage, .readRow (some (utf8 (Indexer.startText 1699999000))), .tick 5,
    .consume [refetchedRow], .tick 5, .write [] true]

/-- The pass and the worker are done, and the surviving row points at the old
bytes again. -/
theorem backfill_undoes_refetch :
    ∃ final, (backfillMachine (reference (Indexer.startSerde 1699999000))).run legacyCorpus
        refetchBetween = some final ∧
      final.pass.isFinished = true ∧
      latest indexKey final.consumed (indexKey legacyRow) = some refetchedRow ∧
      (survivor indexKey final.table (indexKey legacyRow)).map (·.row.storage) =
        some legacyRow.storage ∧
      legacyRow.storage ≠ refetchedRow.storage :=
  Machine.run_exists (by decide +kernel)

end MajsoulManager.Index
