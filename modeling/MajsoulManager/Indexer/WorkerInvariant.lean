/-
# Indexer.WorkerInvariant — what a pack worker keeps through every failure

`accepted log low high` are the messages of a range of the log that decode and
parse.  The invariant ties the parts together:

* the rows in hand are those of `accepted log committed cursor`, and the open
  pack, the sealed file or the uploaded object holds their bytes (`StageInv`);
* everything accepted below the committed offset, the worker's and the stored
  one, is indexed and readable from the bucket (`Covered`);
* every indexed row was built from an accepted message of the log.

`step_inv` proves it kept by every step; `worker_safe` is what it says of every
reachable state.
-/
import MajsoulManager.Indexer.Worker

namespace MajsoulManager.Indexer

open MajsoulManager.Theory
open MajsoulManager.Record
open MajsoulManager.Store

set_option autoImplicit false

/-! ## The accepted messages of a range -/

/-- The messages with offset in `[low, high)` that decode and parse. -/
def accepted (crates : Crates) (log : List TopicRecord) (low high : Nat) : List IngestMessage :=
  (((log.drop low).take (high - low)).filterMap (decodeOne crates)).filter (parseable crates)

section Accepted

variable {crates : Crates} {log : List TopicRecord}

@[simp] theorem accepted_self (n : Nat) : accepted crates log n n = [] := by
  simp [accepted]

theorem accepted_append {low middle high : Nat} (first : low ≤ middle) (second : middle ≤ high) :
    accepted crates log low high =
      accepted crates log low middle ++ accepted crates log middle high := by
  have parts : (log.drop low).take (high - low) =
      (log.drop low).take (middle - low) ++ (log.drop middle).take (high - middle) := by
    have split : high - low = (middle - low) + (high - middle) := by omega
    have shift : low + (middle - low) = middle := by omega
    rw [split, List.take_add, List.drop_drop, shift]
  rw [accepted, parts, List.filterMap_append, List.filter_append]
  rfl

/-- Appending to the log leaves the ranges it already had. -/
theorem accepted_grow {low high : Nat} (more : List TopicRecord) (inside : high ≤ log.length) :
    accepted crates (log ++ more) low high = accepted crates log low high := by
  have same : ((log ++ more).drop low).take (high - low) = (log.drop low).take (high - low) := by
    by_cases early : low ≤ log.length
    · rw [List.drop_append_of_le_length early,
        List.take_append_of_le_length (by rw [List.length_drop]; omega)]
    · have none_ : high - low = 0 := by omega
      simp [none_]
  rw [accepted, same]
  rfl

theorem nextOffset_fetch (log : List TopicRecord) (offset count : Nat) :
    (fetch log offset count).nextOffset = offset + ((log.drop offset).take count).length := by
  unfold Fetched.nextOffset fetch
  generalize (log.drop offset).take count = batch
  induction batch using List.reverseRecOn with
  | nil => simp
  | append_singleton rest last _ => simp [List.zipIdx_append]; omega

/-- A fetch returns what the range up to its next offset holds. -/
theorem decode_fetch (log : List TopicRecord) (offset count : Nat) :
    (decode crates (fetch log offset count).records).filter (parseable crates) =
      accepted crates log offset (fetch log offset count).nextOffset := by
  have range : ∀ batch : List TopicRecord,
      decode crates (batch.zipIdx offset) = batch.filterMap (decodeOne crates) := by
    intro batch
    have fields : decode crates (batch.zipIdx offset) =
        ((batch.zipIdx offset).map Prod.fst).filterMap (decodeOne crates) := by
      rw [List.filterMap_map]
      rfl
    rw [fields, List.zipIdx_map_fst]
  have taken : (log.drop offset).take ((log.drop offset).take count).length =
      (log.drop offset).take count := by
    simp [List.length_take]
  rw [nextOffset_fetch, accepted, Nat.add_sub_cancel_left, taken, fetch, range]

end Accepted

/-! ## The invariant -/

/-- A row of the index, as the insert wrote it, built from the message. -/
def IndexedFor (crates : Crates) (message : IngestMessage) (row : Store.Record) : Prop :=
  ∃ built, RowFor crates message built ∧ row = built.stored

/-- Every accepted message below the offset has a row whose location reads back,
from an object of the bucket, as the message's bytes. -/
def Covered (crates : Crates) (world : World) (offset : Nat) : Prop :=
  ∀ message ∈ accepted crates world.log 0 offset, ∃ row ∈ world.records,
    IndexedFor crates message row ∧ ∃ object,
      world.bucket.lookup row.storage.packKey = some object ∧
        readFrame crates.zstd object row.storage = some message.raw

/-- The rows in hand, and the bytes behind them. -/
def Holds (crates : Crates) (world : World) (worker : Worker) (key : String) (file : Bytes) :
    Prop :=
  List.Forall₂ (Packed crates key file)
    (accepted crates world.log worker.committed worker.cursor) worker.rows

/-- What holds at each stage. -/
def StageInv (crates : Crates) (world : World) (worker : Worker) : Prop :=
  match worker.stage, worker.openPack with
  | .polling, none =>
      accepted crates world.log worker.committed worker.cursor = [] ∧ worker.rows = []
  | .polling, some writer =>
      writer.Whole ∧ world.bucket.lookup writer.key = none ∧
        Holds crates world worker writer.key writer.file
  | .uploading key file, _ =>
      world.bucket.lookup key = none ∧ Holds crates world worker key file
  | .checking key size, _ =>
      ∃ file, size = file.length ∧ Holds crates world worker key file ∧
        ∀ stored, world.bucket.lookup key = some stored → stored <+: file
  | .indexing key, _ =>
      ∃ file, world.bucket.lookup key = some file ∧ Holds crates world worker key file
  | .scoring key, _ | .committing key, _ =>
      ∃ file, world.bucket.lookup key = some file ∧ Holds crates world worker key file ∧
        ∀ row ∈ worker.rows, row.stored ∈ world.records

structure WorkerInv (crates : Crates) (world : World) (worker : Worker) : Prop where
  ordered : worker.committed ≤ worker.cursor
  inLog : worker.cursor ≤ world.log.length
  covered : Covered crates world worker.committed
  /-- The seal took the pack. -/
  taken : worker.stage ≠ .polling → worker.openPack = none
  staged : StageInv crates world worker

structure WorldInv (crates : Crates) (world : World) : Prop where
  built : ∀ row ∈ world.records,
    ∃ message ∈ accepted crates world.log 0 world.log.length, IndexedFor crates message row
  offset : ∀ n, world.offset = some n → n ≤ world.log.length ∧ Covered crates world n
  worker : ∀ worker, world.worker = some worker → WorkerInv crates world worker

/-! ## What a change of the world leaves as it was -/

section Frame

variable {crates : Crates} {world next : World} {worker : Worker}

/-- Objects and rows are only ever added. -/
structure Grows (world next : World) : Prop where
  log : ∃ more, next.log = world.log ++ more
  records : world.records ⊆ next.records
  bucket : ∀ key object, world.bucket.lookup key = some object →
    next.bucket.lookup key = some object

theorem Grows.accepted_eq (grows : Grows world next) {low high : Nat}
    (inside : high ≤ world.log.length) :
    accepted crates next.log low high = accepted crates world.log low high := by
  obtain ⟨more, grown⟩ := grows.log
  rw [grown, accepted_grow more inside]

theorem Grows.length_le (grows : Grows world next) : world.log.length ≤ next.log.length := by
  obtain ⟨more, grown⟩ := grows.log
  rw [grown, List.length_append]
  omega

theorem Covered.grow {offset : Nat} (covered : Covered crates world offset)
    (grows : Grows world next) (inside : offset ≤ world.log.length) :
    Covered crates next offset := by
  intro message member
  rw [grows.accepted_eq inside] at member
  obtain ⟨row, indexed, made, object, stored, read⟩ := covered message member
  exact ⟨row, grows.records indexed, made, object, grows.bucket _ _ stored, read⟩

/-- A worker that rewinds to its committed offset with nothing in hand. -/
theorem WorkerInv.rewound (inv : WorkerInv crates world worker) (grows : Grows world next)
    {rewound : Worker} (committed : rewound.committed = worker.committed)
    (cursor : rewound.cursor = worker.committed) (openPack : rewound.openPack = none)
    (rows : rewound.rows = []) (stage : rewound.stage = .polling) :
    WorkerInv crates next rewound := by
  have inside : worker.committed ≤ world.log.length := inv.ordered.trans inv.inLog
  refine ⟨by omega, ?_, ?_, fun _ => openPack, ?_⟩
  · have longer := grows.length_le
    omega
  · rw [committed]
    exact inv.covered.grow grows inside
  · simp only [StageInv, stage, openPack, committed, cursor, accepted_self, rows, and_self]

theorem WorkerInv.failSeal (inv : WorkerInv crates world worker) (grows : Grows world next) :
    WorkerInv crates next worker.failSeal :=
  inv.rewound grows rfl rfl rfl rfl rfl

/-- A worker that kept its place and its rows, at a new stage. -/
theorem WorkerInv.moved (inv : WorkerInv crates world worker) (grows : Grows world next)
    {moved : Worker} (committed : moved.committed = worker.committed)
    (cursor : moved.cursor = worker.cursor) (openPack : moved.openPack = none)
    (staged : StageInv crates next moved) : WorkerInv crates next moved where
  ordered := by rw [committed, cursor]; exact inv.ordered
  inLog := by
    have longer := grows.length_le
    have inside := inv.inLog
    omega
  covered := by
    rw [committed]
    exact inv.covered.grow grows (inv.ordered.trans inv.inLog)
  taken := fun _ => openPack
  staged := staged

theorem Holds.moved {key : String} {file : Bytes} (holds : Holds crates world worker key file)
    (inv : WorkerInv crates world worker) (grows : Grows world next) {moved : Worker}
    (committed : moved.committed = worker.committed) (cursor : moved.cursor = worker.cursor)
    (rows : moved.rows = worker.rows) : Holds crates next moved key file := by
  unfold Holds at holds ⊢
  rw [committed, cursor, rows, grows.accepted_eq inv.inLog]
  exact holds

theorem exists_of_forall₂_right {α β : Type} {R : α → β → Prop} {as : List α} {bs : List β}
    (related : List.Forall₂ R as bs) {b : β} (member : b ∈ bs) : ∃ a ∈ as, R a b := by
  induction related with
  | nil => cases member
  | cons here _ ih =>
      rcases List.mem_cons.mp member with rfl | later
      · exact ⟨_, List.mem_cons_self, here⟩
      · obtain ⟨a, inside, holds⟩ := ih later
        exact ⟨a, List.mem_cons_of_mem _ inside, holds⟩

theorem exists_of_forall₂_left {α β : Type} {R : α → β → Prop} {as : List α} {bs : List β}
    (related : List.Forall₂ R as bs) {a : α} (member : a ∈ as) : ∃ b ∈ bs, R a b :=
  exists_of_forall₂_right related.flip member

/-- What a row in hand is: the row of an accepted message. -/
theorem Holds.built {key : String} {file : Bytes} (holds : Holds crates world worker key file)
    (inv : WorkerInv crates world worker) {row : Store.Record} (member : row ∈ worker.rows) :
    ∃ message ∈ accepted crates world.log 0 world.log.length,
      IndexedFor crates message row.stored := by
  obtain ⟨message, inRange, packed⟩ := exists_of_forall₂_right holds member
  refine ⟨message, ?_, row, packed.built, rfl⟩
  rw [accepted_append (Nat.zero_le worker.cursor) inv.inLog,
    accepted_append (Nat.zero_le worker.committed) inv.ordered]
  simp [inRange]

/-- Once its rows are inserted and its pack uploaded, a range is covered. -/
theorem Holds.covered {key : String} {file : Bytes} (holds : Holds crates world worker key file)
    (inv : WorkerInv crates world worker) (uploaded : world.bucket.lookup key = some file)
    (inserted : ∀ row ∈ worker.rows, row.stored ∈ world.records) :
    Covered crates world worker.cursor := by
  intro message member
  rw [accepted_append (Nat.zero_le worker.committed) inv.ordered, List.mem_append] at member
  rcases member with earlier | inHand
  · exact inv.covered message earlier
  · obtain ⟨row, held, packed⟩ := exists_of_forall₂_left holds inHand
    refine ⟨row.stored, inserted row held, ⟨row, packed.built, rfl⟩, file, ?_, packed.raw⟩
    show world.bucket.lookup row.storage.packKey = some file
    rw [packed.packKey]
    exact uploaded

theorem Grows.refl_of_eq (log : next.log = world.log) (records : next.records = world.records)
    (bucket : next.bucket = world.bucket) : Grows world next where
  log := ⟨[], by rw [log, List.append_nil]⟩
  records := by rw [records]; exact List.Subset.refl _
  bucket := fun key object stored => by rw [bucket]; exact stored

/-- A step is checked on what it changed: the rows it added, the offset it stored,
and the worker it left. -/
theorem WorldInv.after (inv : WorldInv crates world) (grows : Grows world next)
    (built : ∀ row ∈ next.records, row ∈ world.records ∨
      ∃ message ∈ accepted crates world.log 0 world.log.length, IndexedFor crates message row)
    (offset : ∀ n, next.offset = some n → world.offset = some n ∨
      (n ≤ next.log.length ∧ Covered crates next n))
    (worker : ∀ worker, next.worker = some worker → WorkerInv crates next worker) :
    WorldInv crates next where
  built := by
    intro row member
    have early : ∃ message ∈ accepted crates world.log 0 world.log.length,
        IndexedFor crates message row :=
      (built row member).elim (inv.built row) id
    obtain ⟨message, inLog, made⟩ := early
    refine ⟨message, ?_, made⟩
    rw [accepted_append (Nat.zero_le world.log.length) grows.length_le,
      grows.accepted_eq (Nat.le_refl _)]
    exact List.mem_append_left _ inLog
  offset := by
    intro n stored
    rcases offset n stored with before | here
    · obtain ⟨inside, covered⟩ := inv.offset n before
      exact ⟨inside.trans grows.length_le, covered.grow grows inside⟩
    · exact here
  worker := worker

/-- A step that only changed the worker. -/
theorem WorldInv.setWorker (inv : WorldInv crates world) {changed : Option Worker}
    (kept : ∀ worker, changed = some worker →
      WorkerInv crates { world with worker := changed } worker) :
    WorldInv crates { world with worker := changed } :=
  inv.after (Grows.refl_of_eq rfl rfl rfl) (fun _ => Or.inl) (fun _ => Or.inl) kept

end Frame

/-! ## One step -/

section Steps

variable {env : WorkerEnv} {world : World} {worker : Worker}

/-- A batch that was appended: the rows in hand are those of the longer range. -/
theorem append_staged {appended : Worker} {disk : Nat → Bool} {now offset : Nat}
    {packKey : String} {opened : Bool} {messages : List IngestMessage}
    (inv : WorkerInv env.crates world worker) (polling : worker.stage = .polling)
    (fresh : world.bucket.lookup packKey = none) (later : worker.cursor ≤ offset)
    (batch : messages.filter (parseable env.crates) =
      accepted env.crates world.log worker.cursor offset)
    (ran : worker.append env disk now packKey opened messages = .ok appended) :
    appended.committed = worker.committed ∧ appended.stage = .polling ∧
      StageInv env.crates world { appended with cursor := offset } := by
  have longer : accepted env.crates world.log worker.committed offset =
      accepted env.crates world.log worker.committed worker.cursor ++
        messages.filter (parseable env.crates) := by
    rw [batch, accepted_append inv.ordered later]
  have staged := inv.staged
  simp only [StageInv, polling] at staged
  unfold Worker.append at ran
  split at ran
  · -- nothing decoded: the cursor moves over records that leave no row
    rename_i none_
    cases ran
    have empty : messages = [] := List.isEmpty_iff.mp none_
    rw [empty, List.filter_nil, List.append_nil] at longer
    refine ⟨rfl, polling, ?_⟩
    simp only [StageInv, polling]
    split at staged
    · simp only [longer]
      exact staged
    · simp only [Holds, longer]
      exact staged
    all_goals contradiction
  · obtain ⟨writer, opening, ran⟩ := Outcome.bind_eq_ok.mp ran
    obtain ⟨held, wrote, done⟩ := Outcome.bind_eq_ok.mp ran
    cases done
    have start : writer.Whole ∧ world.bucket.lookup writer.key = none ∧
        Holds env.crates world worker writer.key writer.file := by
      unfold Worker.writer at opening
      split at opening
      · rename_i already
        cases opening
        simpa only [already] using staged
      · rename_i closed
        simp only [closed] at staged
        split at opening
        · cases opening
          refine ⟨PackWriter.create_whole packKey, fresh, ?_⟩
          rw [Holds, staged.1, staged.2]
          exact List.Forall₂.nil
        · cases opening
    obtain ⟨whole, unused, holds⟩ := start
    obtain ⟨wholeNext, key, grown, more, rows, packed⟩ := appendBatch_spec whole wrote
    refine ⟨rfl, polling, ?_⟩
    simp only [StageInv, polling, Holds, longer, key]
    refine ⟨wholeNext, unused, ?_⟩
    rw [rows]
    exact List.rel_append (holds.imp fun _ _ early => early.grow grown) packed

theorem fetched_inv {count now : Nat} {packKey : String} {opened : Bool} {disk : Nat → Bool}
    (inv : WorldInv env.crates world) (running : world.worker = some worker)
    (polling : worker.stage = .polling) (fresh : world.bucket.lookup packKey = none) :
    WorldInv env.crates (world.fetched env worker count packKey opened disk now) := by
  have workerInv := inv.worker worker running
  have same : ∀ changed, Grows world { world with worker := changed } :=
    fun _ => Grows.refl_of_eq rfl rfl rfl
  have later : worker.cursor ≤ (fetch world.log worker.cursor count).nextOffset := by
    rw [nextOffset_fetch]
    omega
  have inLog : (fetch world.log worker.cursor count).nextOffset ≤ world.log.length := by
    have inside := workerInv.inLog
    rw [nextOffset_fetch, List.length_take, List.length_drop]
    omega
  let noted := { worker with atEndOfLog := (fetch world.log worker.cursor count).isEndOfLog }
  have notedInv : WorkerInv env.crates world noted :=
    ⟨workerInv.ordered, workerInv.inLog, workerInv.covered, workerInv.taken, workerInv.staged⟩
  simp only [World.fetched]
  split
  · rename_i appended ran
    obtain ⟨committed, still, staged⟩ :=
      append_staged notedInv polling fresh later (decode_fetch world.log worker.cursor count) ran
    refine inv.setWorker fun after same => ?_
    cases same
    refine ⟨?_, inLog, ?_, fun away => absurd still away, staged⟩
    · show appended.committed ≤ _
      rw [committed]
      exact workerInv.ordered.trans later
    · show Covered _ _ appended.committed
      rw [committed]
      exact workerInv.covered
  · refine inv.setWorker fun after changed => ?_
    cases changed
    exact notedInv.rewound (same _) rfl rfl rfl rfl polling
  · exact inv.setWorker fun after impossible => nomatch impossible

/-- A new object under a fresh key takes nothing from the bucket. -/
theorem lookup_put {bucket : List (String × Bytes)} {key : String} (stored : Option Bytes)
    (fresh : bucket.lookup key = none) {other : String} {object : Bytes}
    (present : bucket.lookup other = some object) :
    ((stored.map fun bytes => (key, bytes)).toList ++ bucket).lookup other = some object := by
  have different : other ≠ key := by
    rintro rfl
    rw [fresh] at present
    cases present
  cases stored with
  | none => exact present
  | some bytes => simpa [List.lookup, beq_eq_false_iff_ne.mpr different] using present

theorem seal_inv {readBack : Bool} {writer : PackWriter} {next : Worker}
    (inv : WorldInv env.crates world) (running : world.worker = some worker)
    (polling : worker.stage = .polling) (opened : worker.openPack = some writer)
    (moved : next = if readBack then
      { worker with openPack := none, stage := .uploading writer.key writer.file }
      else worker.failSeal) :
    WorldInv env.crates { world with worker := some next } := by
  have workerInv := inv.worker worker running
  have staged := workerInv.staged
  simp only [StageInv, polling, opened] at staged
  refine inv.setWorker fun after changed => ?_
  cases changed
  have same : Grows world { world with worker := some next } := Grows.refl_of_eq rfl rfl rfl
  cases readBack with
  | true =>
      subst moved
      exact workerInv.moved same rfl rfl rfl ⟨staged.2.1, staged.2.2⟩
  | false =>
      subst moved
      exact workerInv.failSeal same

theorem put_inv {key : String} {file : Bytes} {kept : Option Nat} {answered : Bool}
    {next : Worker} (inv : WorldInv env.crates world) (running : world.worker = some worker)
    (uploading : worker.stage = .uploading key file)
    (moved : next = if answered then { worker with stage := .checking key file.length }
      else worker.failSeal) :
    WorldInv env.crates { world with
      bucket := (kept.map fun n => (key, file.take n)).toList ++ world.bucket
      worker := some next } := by
  have workerInv := inv.worker worker running
  have staged := workerInv.staged
  simp only [StageInv, uploading] at staged
  obtain ⟨fresh, holds⟩ := staged
  have grows : ∀ changed, Grows world { world with
      bucket := (kept.map fun n => (key, file.take n)).toList ++ world.bucket
      worker := changed } := by
    intro changed
    refine ⟨⟨[], by simp⟩, List.Subset.refl _, ?_⟩
    intro other object present
    have put := lookup_put (kept.map file.take) fresh present
    rwa [Option.map_map] at put
  refine inv.after (grows _) (fun _ => Or.inl) (fun _ => Or.inl) fun after changed => ?_
  cases changed
  cases answered with
  | false =>
      subst moved
      exact workerInv.failSeal (grows _)
  | true =>
      subst moved
      refine workerInv.moved (grows _) rfl rfl (workerInv.taken (by simp [uploading])) ?_
      refine ⟨file, rfl, holds.moved workerInv (grows _) rfl rfl rfl, ?_⟩
      intro stored present
      -- whatever the bucket kept of the object is a prefix of it
      cases kept with
      | none =>
          simp only [Option.map_none, Option.toList_none, List.nil_append, fresh] at present
          cases present
      | some n =>
          simp only [Option.map_some, Option.toList_some, List.cons_append, List.nil_append,
            List.lookup_cons_self, Option.some.injEq] at present
          exact present ▸ List.take_prefix n file

theorem head_inv {key : String} {size : Nat} {answered : Bool} {next : Worker}
    (inv : WorldInv env.crates world) (running : world.worker = some worker)
    (checking : worker.stage = .checking key size)
    (moved : next = if answered && (world.bucket.lookup key).map List.length == some size then
      { worker with stage := .indexing key } else worker.failSeal) :
    WorldInv env.crates { world with worker := some next } := by
  have workerInv := inv.worker worker running
  have staged := workerInv.staged
  simp only [StageInv, checking] at staged
  obtain ⟨file, rfl, holds, kept⟩ := staged
  refine inv.setWorker fun after changed => ?_
  cases changed
  have same : Grows world { world with worker := some next } := Grows.refl_of_eq rfl rfl rfl
  split at moved
  · rename_i confirmed
    simp only [Bool.and_eq_true, beq_iff_eq, Option.map_eq_some_iff] at confirmed
    obtain ⟨-, stored, present, length⟩ := confirmed
    have whole : stored = file := (kept stored present).eq_of_length length
    subst moved
    exact workerInv.moved same rfl rfl (workerInv.taken (by simp [checking]))
      ⟨file, whole ▸ present, holds⟩
  · subst moved
    exact workerInv.failSeal same

/-- Rows in hand may reach the index, all of them or some. -/
theorem insertBatch_inv {key : String} {landed : List Store.Record} {next : Worker}
    (inv : WorldInv env.crates world) (running : world.worker = some worker)
    (indexing : worker.stage = .indexing key) (inHand : landed ⊆ worker.rows)
    (moved : next = worker.failSeal ∨
      (next = { worker with stage := .scoring key } ∧ worker.rows ⊆ landed)) :
    WorldInv env.crates { world with
      records := world.records ++ landed.map Store.Record.stored
      worker := some next } := by
  have workerInv := inv.worker worker running
  have staged := workerInv.staged
  simp only [StageInv, indexing] at staged
  obtain ⟨file, uploaded, holds⟩ := staged
  have grows : Grows world { world with
      records := world.records ++ landed.map Store.Record.stored
      worker := some next } :=
    ⟨⟨[], by simp⟩, List.subset_append_left _ _, fun _ _ present => present⟩
  refine inv.after grows ?_ (fun _ => Or.inl) fun after changed => ?_
  · intro row member
    rcases List.mem_append.mp member with before | added
    · exact Or.inl before
    · obtain ⟨held, inLanded, rfl⟩ := List.mem_map.mp added
      exact Or.inr (holds.built workerInv (inHand inLanded))
  · cases changed
    rcases moved with rfl | ⟨rfl, all⟩
    · exact workerInv.failSeal grows
    · refine workerInv.moved grows rfl rfl (workerInv.taken (by simp [indexing]))
        ⟨file, uploaded, holds.moved workerInv grows rfl rfl rfl, ?_⟩
      intro row held
      exact List.mem_append_right _ (List.mem_map_of_mem (all held))

theorem insertPlayerGames_inv {key : String} {games : List PlayerGame} {next : Worker}
    (inv : WorldInv env.crates world) (running : world.worker = some worker)
    (scoring : worker.stage = .scoring key)
    (moved : next = worker.failSeal ∨ next = { worker with stage := .committing key }) :
    WorldInv env.crates { world with playerGames := games, worker := some next } := by
  have workerInv := inv.worker worker running
  have staged := workerInv.staged
  simp only [StageInv, scoring] at staged
  have same : Grows world { world with playerGames := games, worker := some next } :=
    Grows.refl_of_eq rfl rfl rfl
  refine inv.after same (fun _ => Or.inl) (fun _ => Or.inl) fun after changed => ?_
  cases changed
  rcases moved with rfl | rfl
  · exact workerInv.failSeal same
  · exact workerInv.moved same rfl rfl (workerInv.taken (by simp [scoring])) staged

/-- The offset moves only over a range that is covered. -/
theorem commit_inv {key : String} {landed answered : Bool} {next : Worker}
    (inv : WorldInv env.crates world) (running : world.worker = some worker)
    (committing : worker.stage = .committing key)
    (moved : next = if answered then
      { worker with
        committed := worker.cursor, rows := [], playerGames := [], sealFailures := 0
        stage := .polling }
      else worker.failSeal) :
    WorldInv env.crates { world with
      offset := if landed then some worker.cursor else world.offset
      worker := some next } := by
  have workerInv := inv.worker worker running
  have staged := workerInv.staged
  simp only [StageInv, committing] at staged
  obtain ⟨file, uploaded, holds, inserted⟩ := staged
  have covered : Covered env.crates world worker.cursor := holds.covered workerInv uploaded inserted
  have same : Grows world { world with
      offset := if landed then some worker.cursor else world.offset
      worker := some next } := Grows.refl_of_eq rfl rfl rfl
  refine inv.after same (fun _ => Or.inl) ?_ fun after changed => ?_
  · intro n stored
    cases landed with
    | false => exact Or.inl stored
    | true =>
        cases stored
        exact Or.inr ⟨workerInv.inLog, covered⟩
  · cases changed
    cases answered with
    | false =>
        subst moved
        exact workerInv.failSeal same
    | true =>
        subst moved
        have closed : worker.openPack = none := workerInv.taken (by simp [committing])
        refine ⟨Nat.le_refl _, workerInv.inLog, covered, fun _ => closed, ?_⟩
        simp only [StageInv, if_true, closed, accepted_self, and_self]

/-- A change that none of the invariant reads. -/
theorem produce_inv (record : TopicRecord) (inv : WorldInv env.crates world) :
    WorldInv env.crates { world with log := world.log ++ [record] } := by
  have grows : Grows world { world with log := world.log ++ [record] } :=
    ⟨⟨[record], rfl⟩, List.Subset.refl _, fun _ _ present => present⟩
  refine inv.after grows (fun _ => Or.inl) (fun _ => Or.inl) fun worker running => ?_
  have workerInv := inv.worker worker running
  have inside := workerInv.inLog
  refine ⟨workerInv.ordered, inside.trans grows.length_le,
    workerInv.covered.grow grows (workerInv.ordered.trans inside), workerInv.taken, ?_⟩
  have staged := workerInv.staged
  simp only [StageInv, Holds, accepted_grow [record] inside] at staged ⊢
  exact staged

theorem start_inv (inv : WorldInv env.crates world) :
    WorldInv env.crates { world with worker := some (Worker.start world.offset) } := by
  refine inv.setWorker fun worker changed => ?_
  cases changed
  have bounded : world.offset.getD 0 ≤ world.log.length ∧
      Covered env.crates world (world.offset.getD 0) := by
    cases stored : world.offset with
    | none => exact ⟨Nat.zero_le _, by simp [Covered]⟩
    | some n => exact inv.offset n stored
  exact ⟨Nat.le_refl _, bounded.1, bounded.2, fun _ => rfl, by simp [StageInv, Worker.start]⟩

/-- **One step of a running worker.** -/
theorem workerStep_inv {action : Action} {next : World} (inv : WorldInv env.crates world)
    (running : world.worker = some worker)
    (stepped : world.workerStep env worker action = some next) : WorldInv env.crates next := by
  cases action with
  | crash =>
      cases stepped
      exact inv.setWorker fun _ impossible => nomatch impossible
  | shutdown =>
      cases stepped
      have workerInv := inv.worker worker running
      refine inv.setWorker fun after changed => ?_
      cases changed
      exact ⟨workerInv.ordered, workerInv.inLog, workerInv.covered, workerInv.taken,
        workerInv.staged⟩
  | halt =>
      simp only [World.workerStep] at stepped
      split at stepped
      · split at stepped
        · cases stepped
          exact inv.setWorker fun _ impossible => nomatch impossible
        · cases stepped
      · cases stepped
  | fetch count packKey opened disk now =>
      simp only [World.workerStep] at stepped
      split at stepped
      · rename_i polling
        split at stepped
        · rename_i ready
          cases stepped
          simp only [Bool.and_eq_true, Option.isNone_iff_eq_none] at ready
          exact fetched_inv inv running polling ready.2
        · cases stepped
      · cases stepped
  | fetchFailed =>
      simp only [World.workerStep] at stepped
      split at stepped
      · split at stepped
        · cases stepped
        · cases stepped
          exact inv
      · cases stepped
  | sealPack now readBack =>
      simp only [World.workerStep] at stepped
      split at stepped
      · rename_i writer polling opened
        split at stepped
        · cases stepped
          exact seal_inv inv running polling opened rfl
        · cases stepped
      · cases stepped
  | put kept answered =>
      simp only [World.workerStep] at stepped
      split at stepped
      · rename_i key file uploading
        cases stepped
        exact put_inv inv running uploading rfl
      · cases stepped
  | head answered =>
      simp only [World.workerStep] at stepped
      split at stepped
      · rename_i key size checking
        cases stepped
        exact head_inv inv running checking rfl
      · cases stepped
  | insertBatch landed answered =>
      simp only [World.workerStep] at stepped
      split at stepped
      · rename_i key indexing
        split at stepped
        · rename_i none_
          cases stepped
          have empty : worker.rows = [] := List.isEmpty_iff.mp none_
          have moved := insertBatch_inv inv running indexing (List.nil_subset _)
            (Or.inr ⟨rfl, by simp [empty]⟩)
          simpa using moved
        · split at stepped
          · cases stepped
            exact insertBatch_inv inv running indexing (List.Subset.refl _)
              (Or.inr ⟨rfl, List.Subset.refl _⟩)
          · split at stepped
            · rename_i inHand
              cases stepped
              exact insertBatch_inv inv running indexing inHand (Or.inl rfl)
            · cases stepped
      · cases stepped
  | insertPlayerGames landed answered =>
      simp only [World.workerStep] at stepped
      split at stepped
      · rename_i key scoring
        split at stepped
        · cases stepped
          exact insertPlayerGames_inv inv running scoring (Or.inr rfl)
        · split at stepped
          · cases stepped
            exact insertPlayerGames_inv inv running scoring (Or.inl rfl)
          · cases stepped
      · cases stepped
  | commit landed answered =>
      simp only [World.workerStep] at stepped
      split at stepped
      · rename_i key committing
        split at stepped
        · cases stepped
        · cases stepped
          exact commit_inv inv running committing rfl
      · cases stepped
  | produce record => cases stepped
  | start => cases stepped

/-- **One step of the world.** -/
theorem step_inv {action : Action} {next : World} (inv : WorldInv env.crates world)
    (stepped : world.step env action = some next) : WorldInv env.crates next := by
  unfold World.step at stepped
  split at stepped
  · cases stepped
    exact produce_inv _ inv
  · cases stepped
    exact start_inv inv
  · rename_i running
    exact workerStep_inv inv running stepped
  · cases stepped

end Steps

/-! ## Every reachable state -/

theorem fresh_inv {crates : Crates} {world : World} (fresh : world.Fresh) :
    WorldInv crates world := by
  obtain ⟨-, records, -, offset, worker⟩ := fresh
  refine ⟨?_, ?_, ?_⟩
  · simp [records]
  · simp [offset]
  · simp [worker]

theorem reachable_inv {env : WorkerEnv} {world : World}
    (reached : (workerMachine env).Reachable world) : WorldInv env.crates world :=
  reached.invariant (P := WorldInv env.crates) (fun _ fresh => fresh_inv fresh)
    fun _ _ _ inv stepped => step_inv inv stepped

/-- Whatever the stage, the rows in hand are those of the accepted messages. -/
theorem WorkerInv.rowsBuilt {crates : Crates} {world : World} {worker : Worker}
    (inv : WorkerInv crates world worker) :
    List.Forall₂ (RowFor crates) (accepted crates world.log worker.committed worker.cursor)
      worker.rows := by
  have built : ∀ {key : String} {file : Bytes}, Holds crates world worker key file →
      List.Forall₂ (RowFor crates) (accepted crates world.log worker.committed worker.cursor)
        worker.rows :=
    fun holds => holds.imp fun _ _ packed => packed.built
  have staged := inv.staged
  unfold StageInv at staged
  split at staged
  · rw [staged.1, staged.2]
    exact List.Forall₂.nil
  · exact built staged.2.2
  · exact built staged.2
  · obtain ⟨file, -, holds, -⟩ := staged
    exact built holds
  · obtain ⟨file, -, holds⟩ := staged
    exact built holds
  · obtain ⟨file, -, holds, -⟩ := staged
    exact built holds
  · obtain ⟨file, -, holds, -⟩ := staged
    exact built holds

/-- **The pack worker loses nothing.**  In every reachable state the committed
offset is at most the cursor, the rows in hand are exactly those of the accepted
messages between the two, every accepted message below the committed offset (the
worker's and the stored one) has an index row that reads back from the bucket,
and whatever was built from a message stands under the message's own sorting key. -/
theorem worker_safe (env : WorkerEnv) (world : World)
    (reached : (workerMachine env).Reachable world) :
    (∀ worker, world.worker = some worker →
      worker.committed ≤ worker.cursor ∧
        List.Forall₂ (RowFor env.crates)
          (accepted env.crates world.log worker.committed worker.cursor) worker.rows ∧
        Covered env.crates world worker.committed) ∧
    (∀ offset, world.offset = some offset → Covered env.crates world offset) ∧
    (∀ row ∈ world.records, ∃ message ∈ accepted env.crates world.log 0 world.log.length,
      IndexedFor env.crates message row) ∧
    (∀ message row again, IndexedFor env.crates message row →
      IndexedFor env.crates message again → row.sortingKey = again.sortingKey) := by
  have inv := reachable_inv reached
  refine ⟨?_, fun offset stored => (inv.offset offset stored).2, inv.built, ?_⟩
  · intro worker running
    have workerInv := inv.worker worker running
    exact ⟨workerInv.ordered, workerInv.rowsBuilt, workerInv.covered⟩
  · rintro message _ _ ⟨built, made, rfl⟩ ⟨other, alsoMade, rfl⟩
    rw [made.sortingKey, alsoMade.sortingKey]

/-- A deployment for one record of 2023. -/
def sampleEnv : WorkerEnv where
  crates := reference (startSerde 1699999000)
  heap := ⟨1024, by decide⟩
  config := ⟨268435456, 3600, 60⟩

def sampleWorld : World where
  log := [(IngestMessage.new ingestTime 1 "upload" none (utf8 (startText 1699999000))
    none).intoRecord uuidText rfc3339]
  bucket := []
  records := []
  playerGames := []
  offset := none
  worker := none

/-- One record packed, its upload cut short, then packed again and committed
across a restart. -/
def sampleActions : List Action :=
  let fetchAll := fun key => Action.fetch 10 key true (fun _ => true) 0
  [.start, fetchAll "packs/a.mjpack", .sealPack 3600 true, .put (some 20) true, .head true,
    fetchAll "packs/b.mjpack", .sealPack 3600 true, .put (some 4096) true, .head true,
    .insertBatch [] true, .crash, .start, fetchAll "packs/c.mjpack", .shutdown,
    .sealPack 0 true, .put (some 4096) true, .head true, .insertBatch [] true,
    .insertPlayerGames [] true, .commit true true, .halt]

theorem sample_run_covered :
    ∃ world, (workerMachine sampleEnv).run sampleWorld sampleActions = some world ∧
      world.offset = some 1 ∧ Covered sampleEnv.crates world 1 := by
  have ran : ((workerMachine sampleEnv).run sampleWorld sampleActions).map World.offset =
      some (some 1) := by
    decide +kernel
  obtain ⟨world, ran, offset⟩ := Option.map_eq_some_iff.mp ran
  have safe := worker_safe sampleEnv world
    ⟨sampleWorld, sampleActions, ⟨rfl, rfl, rfl, rfl, rfl⟩, ran⟩
  exact ⟨world, ran, offset, safe.2.1 1 offset⟩

end MajsoulManager.Indexer
