/-
# Index.ExportInvariant — what is true of every export at every moment

`ExportTask.advances` says what a step of one export does to its file and its job, stage by
stage; `ExportInv` is what the index, the jobs, the files and the exports have in common, and
`ExportInv.step` that every action keeps it.
-/
import MajsoulManager.Index.Exports
import MajsoulManager.Theory.Edits

namespace MajsoulManager.Index

open MajsoulManager.Theory
open MajsoulManager.Store

set_option autoImplicit false

section Machine

variable {collation : Uuid → Nat} {packs : PackLocation → Bytes}

/-! ## Names -/

theorem mem_uuidToText {id : Uuid} {c : Char} (member : c ∈ (uuidToText id).toList) :
    c = '-' ∨ ∃ n : Fin 16, c = hexDigit n := by
  by_cases hyphen : c = '-'
  · exact .inl hyphen
  · have plain : ∀ d ∈ (nibbles 32 id.toNat).map hexDigit, d ≠ '-' := by
      intro d inside
      obtain ⟨n, small, rfl⟩ := List.mem_map.mp inside
      exact hexDigit_ne_hyphen (nibbles_lt small)
    rw [uuidToText, String.toList_ofList] at member
    have digit := List.mem_filter (p := (· != '-')).mpr ⟨member, by simpa using hyphen⟩
    rw [filter_hyphenate plain] at digit
    obtain ⟨n, small, rfl⟩ := List.mem_map.mp digit
    exact .inr ⟨⟨n, nibbles_lt small⟩, rfl⟩

theorem not_mem_uuidToText {id : Uuid} {c : Char} (hyphen : c ≠ '-')
    (digits : ∀ n : Fin 16, c ≠ hexDigit n) : c ∉ (uuidToText id).toList := by
  intro member
  rcases mem_uuidToText member with same | ⟨n, same⟩
  · exact hyphen same
  · exact digits n same

theorem exportFileName_inj {id other : Uuid} {format another : DownloadFormat}
    (same : exportFileName id format = exportFileName other another) :
    id = other ∧ format = another := by
  have dot : ∀ id, '.' ∉ (uuidToText id).toList := fun id =>
    not_mem_uuidToText (by decide) (by decide)
  have cut : ∀ id (format : DownloadFormat),
      Text.splitOnce (exportFileName id format) '.' = some (uuidToText id, format.asStr) := by
    intro id format
    have parts : exportFileName id format =
        String.ofList ((uuidToText id).toList ++ '.' :: format.asStr.toList) := by
      rw [← String.toList_inj, exportFileName]
      simp
    rw [parts, Text.splitOnce_append (dot id), String.ofList_toList, String.ofList_toList]
  have parts := cut id format
  rw [same, cut other another, Option.some_inj, Prod.mk.injEq] at parts
  refine ⟨?_, ?_⟩
  · have read := uuidText.parseStr_toText id
    rw [show uuidText.toText id = uuidToText id from rfl, ← parts.1] at read
    exact Option.some_inj.mp (read.symm.trans (uuidText.parseStr_toText other))
  · have texts := parts.2
    revert texts
    cases format <;> cases another <;> decide

/-! ## The index -/

theorem mem_insertBatch {table : RecordTable} {entry : Versioned Store.Record} (now : Nat)
    (rows : List Store.Record) (member : entry ∈ table) : entry ∈ insertBatch table now rows :=
  List.mem_append_left _ member

theorem row_mem_of_final {table : RecordTable} {row : Store.Record}
    (member : row ∈ final indexKey table) : row ∈ table.map (·.row) := by
  obtain ⟨kept, survives, rfl⟩ := mem_final.mp member
  exact List.mem_map_of_mem (mem_of_survivor survives).1

theorem Named.key_eq {table : RecordTable} (named : Named table) {a b : Store.Record}
    (first : a ∈ table.map (·.row)) (second : b ∈ table.map (·.row)) (same : a.id = b.id) :
    indexKey a = indexKey b := by
  obtain ⟨x, inX, rfl⟩ := List.mem_map.mp first
  obtain ⟨y, inY, rfl⟩ := List.mem_map.mp second
  exact named x inX y inY same

/-- A read with `FINAL` shows a record once. -/
theorem Named.final_ids {table : RecordTable} (named : Named table) :
    ((final indexKey table).map (·.id)).Nodup := by
  have keys : ((final indexKey table).map indexKey).Nodup := final_keys_nodup table
  refine List.Nodup.map_on (fun a first b second same => ?_) (List.Nodup.of_map _ keys)
  exact List.inj_on_of_nodup_map keys first second
    (named.key_eq (row_mem_of_final first) (row_mem_of_final second) same)

/-- **What a page of a running export says**, whatever has been indexed since the last. -/
theorem Named.page_spec {table : RecordTable} (named : Named table)
    (injective : Function.Injective collation) (filter : RecordFilter) (cursor : Option Cursor) :
    Keyset.PageSpec (rowKey collation) (cursorKey collation)
      ((final indexKey table).filter filter.matches) cursor
      (catalogPage collation (final indexKey table) filter cursor exportPageSize).1
      (catalogPage collation (final indexKey table) filter cursor exportPageSize).2 := by
  have ids : (((final indexKey table).filter filter.matches).map (·.id)).Nodup :=
    named.final_ids.sublist (List.filter_sublist.map _)
  have keys : (((final indexKey table).filter filter.matches).map
      fun row => (timestampMillis row.receivedAt, row.id)).Nodup := by
    refine List.Nodup.of_map Prod.snd ?_
    rwa [List.map_map]
  have marked : ∀ row ∈ (final indexKey table).filter filter.matches,
      cursorKey collation (cursorOf row) = rowKey collation row := fun _ _ => rfl
  rw [catalogPage_eq]
  exact Keyset.page_spec (rowKey_nodup injective keys) (by decide) marked cursor rfl

/-- A record has one place, whichever of its rows is looked at. -/
theorem Named.place_eq {table : RecordTable} (named : Named table) {a b : Store.Record}
    (first : a ∈ table.map (·.row)) (second : b ∈ table.map (·.row)) (same : a.id = b.id) :
    rowKey collation a = rowKey collation b := by
  have keys := named.key_eq first second same
  simp only [indexKey, Store.Record.sortingKey, Store.Record.stored, Prod.mk.injEq] at keys
  have millis := congrArg timestampMillis keys.2.1
  rw [timestampMillis_truncMillis, timestampMillis_truncMillis] at millis
  rw [rowKey, rowKey, placeOf, placeOf, millis, same]

/-! ## One step of an export -/

theorem Selection.mono {table later : RecordTable} (kept : ∀ entry ∈ table, entry ∈ later)
    {filter : RecordFilter} {rows : List Store.Record}
    (selection : Selection collation table filter rows) : Selection collation later filter rows where
  matched := selection.matched
  indexed row member := by
    obtain ⟨entry, inside, rfl⟩ := List.mem_map.mp (selection.indexed row member)
    exact List.mem_map_of_mem (kept entry inside)
  ordered := selection.ordered

/-- No record is selected twice. -/
theorem Selection.ids {table : RecordTable} (named : Named table) {filter : RecordFilter}
    {rows : List Store.Record} (selection : Selection collation table filter rows) :
    (rows.map (·.id)).Nodup := by
  refine List.pairwise_map.mpr (selection.ordered.imp_of_mem fun {a b} first second less same => ?_)
  exact absurd (named.place_eq (selection.indexed a first) (selection.indexed b second) same)
    (ne_of_gt less)

namespace ExportTask

/-- Indexing takes nothing from an export. -/
theorem Stands.mono {table later : RecordTable} (kept : ∀ entry ∈ table, entry ∈ later)
    {file : Option ExportFile} {task : ExportTask} (stands : task.Stands collation packs table file) :
    task.Stands collation packs later file := by
  unfold Stands at stands ⊢
  split at stands
  · exact stands
  · exact stands
  · exact ⟨stands.1, stands.2.1.mono kept, stands.2.2⟩
  · exact ⟨stands.1, stands.2.1.mono kept, stands.2.2⟩
  · exact ⟨stands.1, stands.2.1.mono kept, stands.2.2⟩
  · exact ⟨stands.1, stands.2.mono kept⟩
  · exact ⟨stands.1, stands.2.1.mono kept, stands.2.2⟩
  · trivial
  · trivial

/-- An export that has ended takes no step. -/
theorem step_live {table : RecordTable} {file : Option ExportFile} {task : ExportTask}
    {step : ExportStep} {effect : ExportEffect}
    (stepped : task.step collation packs table file step = some effect) : task.stage ≠ .ended := by
  intro ended
  cases step <;> simp [ExportTask.step, ended] at stepped

variable (collation packs) in
/-- What the row of a job says when a step has completed it. -/
structure Completes (table : RecordTable) (file : Option ExportFile) (task : ExportTask)
    (row : JobRow) : Prop where
  copied : Copied packs file task.request.format task.rows task.written true
  selection : Selection collation table task.request.filter task.rows
  count : row.recordCount = task.rows.length
  key : row.resultObjectKey = some (exportObjectKey task.id task.request.format)

variable (collation packs) in
/-- What every step of an export does. -/
structure Advances (table : RecordTable) (task : ExportTask) (effect : ExportEffect) : Prop where
  id : effect.task.id = task.id
  request : effect.task.request = task.request
  stands : effect.task.Stands collation packs table effect.file
  rowId : ∀ row, (effect.job row).id = row.id
  settles : ∀ row, (effect.job row).Settled → row.Settled ∨ effect.task.stage = .ended
  completes : ∀ row, (effect.job row).state = "completed" → row.state = "completed" ∨
    effect.task.Completes collation packs table effect.file (effect.job row)

/-- A step that settles no job. -/
theorem Advances.unsettled {table : RecordTable} {task : ExportTask} {effect : ExportEffect}
    (id : effect.task.id = task.id) (request : effect.task.request = task.request)
    (stands : effect.task.Stands collation packs table effect.file)
    (rowId : ∀ row, (effect.job row).id = row.id)
    (state : ∀ row, (effect.job row).state = row.state ∨ (effect.job row).state = "running") :
    Advances collation packs table task effect where
  id := id
  request := request
  stands := stands
  rowId := rowId
  settles row settled := by
    rcases state row with same | running
    · exact .inl (by rwa [JobRow.Settled, same] at settled)
    · rw [JobRow.Settled, running] at settled
      exact absurd settled (by decide)
  completes row completed := by
    rcases state row with same | running
    · exact .inl (same.symm.trans completed)
    · rw [running] at completed
      exact absurd completed (by decide)

/-- A step that fails leaves the error to be recorded. -/
theorem Advances.failed {table : RecordTable} {file : Option ExportFile} {task : ExportTask}
    (message : String) :
    Advances collation packs table task { task := task.fail message, file := file } :=
  .unsettled rfl rfl trivial (fun _ => rfl) fun _ => .inl rfl

/-- **A step of an export does what its stage promises.** -/
theorem advances {table : RecordTable} (named : Named table)
    (injective : Function.Injective collation) {file : Option ExportFile} {task : ExportTask}
    (stands : task.Stands collation packs table file) {step : ExportStep} {effect : ExportEffect}
    (stepped : task.step collation packs table file step = some effect) :
    Advances collation packs table task effect := by
  obtain ⟨id, request, stage, written, rows⟩ := task
  cases step with
  | start landed answered =>
      cases stage <;> simp only [ExportTask.step, Option.some.injEq, reduceCtorEq] at stepped
      subst stepped
      refine .unsettled rfl rfl ?_ (fun row => ?_) fun row => ?_
      · cases answered
        · trivial
        · exact stands
      · cases landed <;> rfl
      · cases landed
        · exact .inl rfl
        · exact .inr rfl
  | create failed =>
      cases stage <;> cases failed <;>
        simp only [ExportTask.step, Option.some.injEq, reduceCtorEq] at stepped
      · obtain ⟨rfl, rfl⟩ : rows = [] ∧ written = 0 := stands
        subst stepped
        refine .unsettled rfl rfl ?_ (fun _ => rfl) fun _ => .inl rfl
        exact ⟨⟨rfl, rfl⟩, ⟨by simp, by simp, List.Pairwise.nil⟩, .start⟩
      · subst stepped
        exact .failed _
  | scan failed =>
      cases stage <;> cases failed <;>
        simp only [ExportTask.step, Option.some.injEq, reduceCtorEq] at stepped
      · rename_i cursor
        obtain ⟨copied, selection, walked⟩ := stands
        subst stepped
        have spec := named.page_spec injective request.filter cursor
        generalize catalogPage collation (final indexKey table) request.filter cursor
          exportPageSize = page at spec ⊢
        have found : ∀ row ∈ page.1, row ∈ final indexKey table ∧
            request.filter.matches row = true :=
          fun row member => List.mem_filter.mp (spec.found row member).1
        refine .unsettled rfl rfl ?_ (fun _ => rfl) fun _ => .inl rfl
        refine ⟨copied, ⟨?_, ?_, walked.append spec⟩, ?_⟩
        · intro row member
          rcases List.mem_append.mp member with old | new
          · exact selection.matched row old
          · exact (found row new).2
        · intro row member
          rcases List.mem_append.mp member with old | new
          · exact selection.indexed row old
          · exact row_mem_of_final (found row new).1
        · intro c here
          rw [here] at spec
          exact (walked.next spec).stands.symm
      · subst stepped
        exact .failed _
  | append failed =>
      cases stage <;> try simp only [ExportTask.step, reduceCtorEq] at stepped
      rename_i rest next
      obtain ⟨copied, selection, last⟩ := stands
      cases rest with
      | nil =>
          simp only [Option.some.injEq] at stepped
          subst stepped
          refine .unsettled rfl rfl ?_ (fun _ => rfl) fun _ => .inl rfl
          rw [List.append_nil] at selection last
          exact ⟨copied, selection, last⟩
      | cons record rest =>
          cases failed <;> simp only [Option.some.injEq] at stepped <;> subst stepped
          · have moved : rows ++ record :: rest = rows ++ [record] ++ rest := by simp
            refine .unsettled rfl rfl ?_ (fun _ => rfl) fun _ => .inl rfl
            rw [moved] at selection last
            refine ⟨⟨?_, ?_⟩, selection, last⟩
            · rw [copied.file]
              simp
            · have counted := copied.written
              simpa using counted
          · exact .failed _
  | publish landed =>
      cases stage <;> simp only [ExportTask.step, Option.some.injEq, reduceCtorEq] at stepped
      rename_i next
      obtain ⟨copied, selection, last⟩ := stands
      subst stepped
      refine .unsettled rfl rfl ?_ (fun row => ?_) fun row => .inl ?_
      · cases next with
        | none => exact ⟨copied, selection⟩
        | some cursor => exact ⟨copied, selection, selection.ordered, (last cursor rfl).symm⟩
      · cases landed <;> rfl
      · cases landed <;> rfl
  | finish failed =>
      cases stage <;> cases failed <;>
        simp only [ExportTask.step, Option.some.injEq, reduceCtorEq] at stepped
      · obtain ⟨copied, selection⟩ := stands
        subst stepped
        refine .unsettled rfl rfl ?_ (fun _ => rfl) fun _ => .inl rfl
        refine ⟨⟨?_, copied.written⟩, selection, copied.written, rfl⟩
        rw [copied.file]
        rfl
      · subst stepped
        exact .failed _
  | record landed =>
      cases stage <;> simp only [ExportTask.step, Option.some.injEq, reduceCtorEq] at stepped
      rename_i outcome
      subst stepped
      refine ⟨rfl, rfl, trivial, fun row => ?_, fun _ _ => .inr rfl, fun row completed => ?_⟩
      · cases landed
        · rfl
        · cases outcome <;> rfl
      · cases landed with
        | false => exact .inl completed
        | true =>
            cases outcome with
            | error message => simp [JobRow.finish] at completed
            | ok counted =>
                obtain ⟨copied, selection, count, key⟩ := stands
                exact .inr ⟨copied, selection, count, congrArg some key⟩

end ExportTask

/-! ## The invariant -/

variable (collation packs) in
/-- What an action does, with what it checked. -/
inductive Moves (s : Exports) : ExportAction → Exports → Prop
  | index {now : Nat} {rows : List Store.Record} (named : Named (insertBatch s.table now rows)) :
      Moves s (.index now rows) { s with table := insertBatch s.table now rows }
  | createDownload {id : Uuid} {request : DownloadRequest} {landed answered : Bool}
      (fresh : id ∉ s.drawn.map (·.1)) :
      Moves s (.createDownload id request landed answered)
        { s with
          drawn := s.drawn ++ [(id, request)]
          jobs := if landed then s.jobs ++ [{ id := id }] else s.jobs
          tasks := if answered then s.tasks ++ [{ id := id, request := request }] else s.tasks }
  | task {i : Nat} {step : ExportStep} {task : ExportTask} {effect : ExportEffect}
      (here : s.tasks[i]? = some task)
      (moved : task.step collation packs s.table (s.files task.fileName) step = some effect) :
      Moves s (.task i step) (s.take i task effect)
  | prune {expired : List Uuid} :
      Moves s (.prune expired) { s with jobs := s.jobs.filter fun row => !expired.contains row.id }
  | restart : Moves s .restart { s with tasks := [] }

theorem moves {s t : Exports} {action : ExportAction}
    (stepped : s.step collation packs action = some t) : Moves collation packs s action t := by
  cases action with
  | index now rows =>
      obtain ⟨named, same⟩ := Option.ite_none_right_eq_some.mp stepped
      obtain rfl := Option.some.inj same
      exact .index named
  | createDownload id request landed answered =>
      obtain ⟨free, same⟩ := Option.ite_none_left_eq_some.mp stepped
      obtain rfl := Option.some.inj same
      refine .createDownload fun member => free ?_
      obtain ⟨made, old, rfl⟩ := List.mem_map.mp member
      rw [Bool.or_eq_true]
      exact .inl (List.any_eq_true.mpr ⟨made, old, beq_self_eq_true _⟩)
  | task i step =>
      simp only [Exports.step, bind, Option.bind_eq_some_iff, Option.some.injEq] at stepped
      obtain ⟨task, here, effect, moved, rfl⟩ := stepped
      exact .task here moved
  | prune expired =>
      obtain rfl := Option.some.inj stepped
      exact .prune
  | restart =>
      obtain rfl := Option.some.inj stepped
      exact .restart

theorem map_id_updateJob {jobs : List JobRow} {id : Uuid} {edit : JobRow → JobRow}
    (own : ∀ row, (edit row).id = row.id) : (updateJob jobs id edit).map (·.id) = jobs.map (·.id) := by
  rw [updateJob, List.map_map]
  refine List.map_congr_left fun row _ => ?_
  simp only [Function.comp_apply]
  split
  · exact own row
  · rfl

theorem mem_updateJob {jobs : List JobRow} {id : Uuid} {edit : JobRow → JobRow} {row : JobRow}
    (member : row ∈ updateJob jobs id edit) :
    (row ∈ jobs ∧ row.id ≠ id) ∨ ∃ old ∈ jobs, old.id = id ∧ row = edit old := by
  obtain ⟨old, inside, rfl⟩ := List.mem_map.mp member
  split
  · rename_i own
    exact .inr ⟨old, inside, own, rfl⟩
  · rename_i other
    exact .inl ⟨inside, other⟩

/-- The file of another export is another file. -/
theorem file_ne {id : Uuid} {format : DownloadFormat} {task : ExportTask} (other : id ≠ task.id) :
    exportFileName id format ≠ task.fileName :=
  fun same => other (exportFileName_inj same).1

/-- A step of another export leaves an archive alone. -/
theorem Archive.take {s : Exports} {row : JobRow} {request : DownloadRequest}
    {rows : List Store.Record} (archive : Archive collation packs s row request rows) {i : Nat}
    {task : ExportTask} {effect : ExportEffect} (differs : row.id ≠ task.id) :
    Archive collation packs (s.take i task effect) row request rows where
  asked := archive.asked
  file := (Exports.take_files_of_ne (file_ne differs)).trans archive.file
  selection := archive.selection
  count := archive.count
  key := archive.key

/-- The archive that a step completes. -/
theorem ExportTask.Completes.archive {s : Exports} {task : ExportTask} {effect : ExportEffect}
    {old : JobRow}
    (done : effect.task.Completes collation packs s.table effect.file (effect.job old))
    (known : (task.id, task.request) ∈ s.drawn)
    (adv : ExportTask.Advances collation packs s.table task effect) (own : old.id = task.id) {i : Nat} :
    Archive collation packs (s.take i task effect) (effect.job old) task.request
      effect.task.rows where
  asked := by
    rw [adv.rowId, own]
    exact known
  file := by
    have name : exportFileName (effect.job old).id task.request.format = task.fileName := by
      rw [adv.rowId, own, ExportTask.fileName]
    rw [name, Exports.take_files_self, ← adv.request]
    exact done.copied.file
  selection := by
    rw [← adv.request]
    exact done.selection
  count := done.count
  key := by
    rw [adv.rowId, own, ← adv.id, ← adv.request]
    exact done.key

namespace ExportInv

variable {s : Exports}

/-- The other exports have other ids. -/
theorem apart (inv : ExportInv collation packs s) {i : Nat} {task next other : ExportTask}
    (here : s.tasks[i]? = some task) (member : other ∈ s.tasks.set i next) :
    other = next ∨ (other ∈ s.tasks ∧ other.id ≠ task.id) := by
  obtain ⟨j, found⟩ := List.mem_iff_getElem?.mp member
  by_cases same : i = j
  · subst same
    rw [List.getElem?_set_self (List.getElem?_eq_some_iff.mp here).1] at found
    exact .inl (Option.some_inj.mp found).symm
  · rw [List.getElem?_set_ne same] at found
    refine .inr ⟨List.mem_of_getElem? found, fun named => same ?_⟩
    have inside : i < (s.tasks.map (·.id)).length := by
      rw [List.length_map]
      exact (List.getElem?_eq_some_iff.mp here).1
    refine (List.getElem?_inj inside inv.tasksOnce).mp ?_
    rw [List.getElem?_map, List.getElem?_map, here, found, Option.map_some, Option.map_some, named]

/-- One step of an export. -/
theorem take (injective : Function.Injective collation) (inv : ExportInv collation packs s) {i : Nat}
    {task : ExportTask} {step : ExportStep} {effect : ExportEffect}
    (here : s.tasks[i]? = some task)
    (moved : task.step collation packs s.table (s.files task.fileName) step = some effect) :
    ExportInv collation packs (s.take i task effect) := by
  have member := List.mem_of_getElem? here
  have adv := ExportTask.advances inv.named injective (inv.stands task member) moved
  have live := ExportTask.step_live moved
  have sameFile : effect.task.fileName = task.fileName := by
    rw [ExportTask.fileName, ExportTask.fileName, adv.id, adv.request]
  have notOver : ∀ row ∈ s.jobs, row.id = task.id → ¬ row.Settled := fun row inside own settled =>
    live (inv.ended row inside settled task member own.symm)
  refine
    { named := inv.named
      drawnOnce := inv.drawnOnce
      tasksOnce := ?_
      jobsOnce := ?_
      known := ?_
      jobsKnown := ?_
      files := ?_
      stands := ?_
      ended := ?_
      archived := ?_ }
  · show ((s.tasks.set i effect.task).map (·.id)).Nodup
    rw [map_set_eq here adv.id]
    exact inv.tasksOnce
  · show ((updateJob s.jobs task.id effect.job).map (·.id)).Nodup
    rw [map_id_updateJob adv.rowId]
    exact inv.jobsOnce
  · intro other inside
    rcases inv.apart here inside with rfl | ⟨old, -⟩
    · rw [adv.id, adv.request]
      exact inv.known task member
    · exact inv.known other old
  · intro row inside
    rcases mem_updateJob inside with ⟨old, -⟩ | ⟨old, before, -, rfl⟩
    · exact inv.jobsKnown row old
    · rw [adv.rowId]
      exact inv.jobsKnown old before
  · intro name file found
    by_cases own : name = task.fileName
    · exact ⟨(task.id, task.request), inv.known task member, own⟩
    · exact inv.files name file ((Exports.take_files_of_ne own).symm.trans found)
  · intro other inside
    rcases inv.apart here inside with rfl | ⟨old, differs⟩
    · rw [sameFile, Exports.take_files_self]
      exact adv.stands
    · have kept : (s.take i task effect).files other.fileName = s.files other.fileName :=
        Exports.take_files_of_ne (file_ne differs)
      rw [kept]
      exact inv.stands other old
  · intro row inside settled other present own
    rcases mem_updateJob inside with ⟨old, differs⟩ | ⟨old, before, named, rfl⟩
    · rcases inv.apart here present with rfl | ⟨there, -⟩
      · exact absurd (own.symm.trans adv.id) differs
      · exact inv.ended row old settled other there own
    · rcases inv.apart here present with rfl | ⟨-, differs⟩
      · exact (adv.settles old settled).resolve_left (notOver old before named)
      · exact absurd (own.trans ((adv.rowId old).trans named)) differs
  · intro row inside completed
    rcases mem_updateJob inside with ⟨old, differs⟩ | ⟨old, before, named, rfl⟩
    · obtain ⟨request, rows, archive⟩ := inv.archived row old completed
      exact ⟨request, rows, archive.take differs⟩
    · have done := (adv.completes old completed).resolve_left fun early =>
        notOver old before named (.inl early)
      exact ⟨task.request, effect.task.rows, done.archive (inv.known task member) adv named⟩

/-- The index grows, and nothing else happens. -/
theorem index (inv : ExportInv collation packs s) {later : RecordTable} (named : Named later)
    (kept : ∀ entry ∈ s.table, entry ∈ later) :
    ExportInv collation packs { s with table := later } :=
  { inv with
    named := named
    stands := fun task member => (inv.stands task member).mono kept
    archived := fun row member completed => by
      obtain ⟨request, rows, archive⟩ := inv.archived row member completed
      exact ⟨request, rows, archive.asked, archive.file, archive.selection.mono kept,
        archive.count, archive.key⟩ }

theorem createDownload (inv : ExportInv collation packs s) {id : Uuid}
    (fresh : id ∉ s.drawn.map (·.1)) (request : DownloadRequest) (landed answered : Bool) :
    ExportInv collation packs
      { s with
        drawn := s.drawn ++ [(id, request)]
        jobs := if landed then s.jobs ++ [{ id := id }] else s.jobs
        tasks := if answered then s.tasks ++ [{ id := id, request := request }] else s.tasks } := by
  have jobs : ∀ row ∈ (if landed then s.jobs ++ [{ id := id }] else s.jobs),
      row ∈ s.jobs ∨ row = { id := id } := by
    cases landed
    · exact fun row member => .inl member
    · exact mem_concat_imp rfl
  have tasks : ∀ task ∈ (if answered then s.tasks ++ [{ id := id, request := request }] else s.tasks),
      task ∈ s.tasks ∨ task = { id := id, request := request } := by
    cases answered
    · exact fun task member => .inl member
    · exact mem_concat_imp rfl
  have grown : ∀ made ∈ s.drawn, made ∈ s.drawn ++ [(id, request)] := fun made member =>
    List.mem_append_left _ member
  refine
    { named := inv.named
      drawnOnce := ?_
      tasksOnce := ?_
      jobsOnce := ?_
      known := ?_
      jobsKnown := ?_
      files := fun name file found => ?_
      stands := ?_
      ended := ?_
      archived := ?_ }
  · exact nodup_map_concat inv.drawnOnce fresh
  · cases answered
    · exact inv.tasksOnce
    · refine nodup_map_concat inv.tasksOnce fun member => ?_
      obtain ⟨task, old, rfl⟩ := List.mem_map.mp member
      exact fresh (List.mem_map_of_mem (inv.known task old))
  · cases landed
    · exact inv.jobsOnce
    · refine nodup_map_concat inv.jobsOnce fun member => ?_
      obtain ⟨row, old, rfl⟩ := List.mem_map.mp member
      exact fresh (inv.jobsKnown row old)
  · intro task member
    rcases tasks task member with old | rfl
    · exact grown _ (inv.known task old)
    · exact List.mem_append_right _ (List.mem_singleton_self _)
  · intro row member
    rw [List.map_append, List.mem_append]
    rcases jobs row member with old | rfl
    · exact .inl (inv.jobsKnown row old)
    · exact .inr (List.mem_singleton_self _)
  · obtain ⟨made, member, same⟩ := inv.files name file found
    exact ⟨made, grown made member, same⟩
  · intro task member
    rcases tasks task member with old | rfl
    · exact inv.stands task old
    · exact ⟨rfl, rfl⟩
  · intro row member settled task present own
    rcases jobs row member with old | rfl
    · rcases tasks task present with there | rfl
      · exact inv.ended row old settled task there own
      · exact absurd (Eq.subst own.symm (inv.jobsKnown row old)) fresh
    · exact absurd settled (by simp [JobRow.Settled])
  · intro row member completed
    rcases jobs row member with old | rfl
    · obtain ⟨made, rows, archive⟩ := inv.archived row old completed
      exact ⟨made, rows, grown _ archive.asked, archive.file, archive.selection, archive.count,
        archive.key⟩
    · exact absurd completed (by simp)

/-- Fewer jobs and fewer exports. -/
theorem drop (inv : ExportInv collation packs s) {jobs : List JobRow} {tasks : List ExportTask}
    (fewer : jobs.Sublist s.jobs) (less : tasks.Sublist s.tasks) :
    ExportInv collation packs { s with jobs := jobs, tasks := tasks } where
  named := inv.named
  drawnOnce := inv.drawnOnce
  tasksOnce := inv.tasksOnce.sublist (less.map _)
  jobsOnce := inv.jobsOnce.sublist (fewer.map _)
  known task member := inv.known task (less.subset member)
  jobsKnown row member := inv.jobsKnown row (fewer.subset member)
  files := inv.files
  stands task member := inv.stands task (less.subset member)
  ended row member settled task present :=
    inv.ended row (fewer.subset member) settled task (less.subset present)
  archived row member completed := by
    obtain ⟨request, rows, archive⟩ := inv.archived row (fewer.subset member) completed
    exact ⟨request, rows, archive.asked, archive.file, archive.selection, archive.count, archive.key⟩

/-- **Every step keeps the invariant.** -/
theorem step (injective : Function.Injective collation) (inv : ExportInv collation packs s)
    {action : ExportAction} {t : Exports} (stepped : s.step collation packs action = some t) :
    ExportInv collation packs t := by
  cases moves stepped with
  | index named => exact inv.index named fun entry => mem_insertBatch _ _
  | createDownload fresh => exact inv.createDownload fresh _ _ _
  | task here moved => exact inv.take injective here moved
  | prune => exact inv.drop List.filter_sublist (List.Sublist.refl _)
  | restart => exact inv.drop (List.Sublist.refl _) (List.nil_sublist _)

theorem start {s : Exports} (started : (exportMachine collation packs).Start s) :
    ExportInv collation packs s := by
  obtain ⟨named, jobs, files, tasks, drawn⟩ := started
  obtain ⟨table, _, _, _, _⟩ := s
  subst jobs files tasks drawn
  exact
    { named := named
      drawnOnce := List.nodup_nil
      tasksOnce := List.nodup_nil
      jobsOnce := List.nodup_nil
      known := by simp
      jobsKnown := by simp
      files := by simp
      stands := by simp
      ended := by simp
      archived := by simp }

theorem reachable (injective : Function.Injective collation)
    (reached : (exportMachine collation packs).Reachable s) : ExportInv collation packs s :=
  reached.invariant (fun _ => start) fun _ _ _ inv stepped => inv.step injective stepped

end ExportInv

end Machine

end MajsoulManager.Index
