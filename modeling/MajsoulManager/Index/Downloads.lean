/-
# Index.Downloads — what `download_file` serves

* `exports_sound`: the whole archive of a completed job, newest record first and none twice.
* `download_stands`: the same file in every later state, until the job is pruned.
* `export_complete`: a record that matches from when the job is created until it is completed is
  in the archive.
-/
import MajsoulManager.Index.ExportInvariant

namespace MajsoulManager.Index

open MajsoulManager.Theory
open MajsoulManager.Store

set_option autoImplicit false

section Machine

variable {collation : Uuid → Nat} {packs : PackLocation → Bytes}

/-! ## One export -/

/-- An index of two records of one millisecond, and a job that was just created. -/
def exportStart : Exports where
  table := sharedMillisecond.map (Versioned.mk 0)

def exportAsked : Exports :=
  { exportStart with jobs := [{ id := 5 }], tasks := [⟨5, {}, .starting, 0, []⟩], drawn := [(5, {})] }

/-- The steps of an export of both. -/
def exportBoth : List ExportAction :=
  ([.start true true, .create none, .scan none, .append none, .append none, .append none,
    .publish true, .finish none, .record true] : List ExportStep).map (.task 0)

theorem exportStart_starts : (exportMachine uuidRank packs).Start exportStart :=
  ⟨by decide, rfl, rfl, rfl, rfl⟩

theorem exportAsked_created :
    exportStart.step uuidRank packs (.createDownload 5 {} true true) = some exportAsked := rfl

theorem exportAsked_reachable : (exportMachine uuidRank packs).Reachable exportAsked :=
  ⟨exportStart, [.createDownload 5 {} true true], exportStart_starts, rfl⟩

theorem exportBoth_completes : ∃ s, (exportMachine uuidRank fun _ => []).run exportAsked exportBoth =
    some s ∧ ∃ row ∈ s.jobs, row.id = 5 ∧ row.state = "completed" :=
  Machine.run_exists (P := fun s : Exports => ∃ row ∈ s.jobs, row.id = 5 ∧ row.state = "completed")
    (by decide +kernel)

theorem exportBoth_reachable {s : Exports}
    (ran : (exportMachine uuidRank packs).run exportAsked exportBoth = some s) :
    (exportMachine uuidRank packs).Reachable s := by
  obtain ⟨start, actions, started, before⟩ := exportAsked_reachable
  exact ⟨start, actions ++ exportBoth, started, Machine.run_append.mpr ⟨_, before, ran⟩⟩

/-! ## What is served -/

/-- The file of a completed job is found, whichever format it has. -/
theorem Archive.served {s : Exports} (inv : ExportInv collation packs s) {row : JobRow}
    (member : row ∈ s.jobs) (completed : row.state = "completed") {request : DownloadRequest}
    {rows : List Store.Record} (archive : Archive collation packs s row request rows) :
    s.downloadFile row.id = .ok (exportFileName row.id request.format,
      ⟨rows.map (exportEntry packs request.format), true⟩) := by
  have found : s.jobs.find? (fun other => other.id == row.id) = some row := by
    cases found : s.jobs.find? fun other => other.id == row.id with
    | none => exact absurd (List.find?_eq_none.mp found row member) (by simp)
    | some other =>
        have same := List.inj_on_of_nodup_map inv.jobsOnce (List.mem_of_find?_eq_some found) member
          (by simpa using List.find?_some found)
        rw [same]
  -- no letter of the address is an m, so the word is never found in it
  have plain : ¬ "manifest".toList <:+:
      ("/api/v1/downloads/" ++ uuidToText row.id ++ "/file").toList := by
    intro inside
    have letter := inside.subset (show 'm' ∈ "manifest".toList by decide)
    rw [String.toList_append, String.toList_append, List.mem_append, List.mem_append] at letter
    rcases letter with (before | id) | after
    · exact absurd before (by decide)
    · exact not_mem_uuidToText (by decide) (by decide) id
    · exact absurd after (by decide)
  have tar : (s.files (uuidToText row.id ++ "." ++ "tar.gz")).isSome = true ↔
      request.format = .tarGz := by
    constructor
    · intro some
      obtain ⟨file, here⟩ := Option.isSome_iff_exists.mp some
      obtain ⟨made, drawn, same⟩ := inv.files _ file here
      obtain ⟨id, format⟩ : row.id = made.1 ∧ .tarGz = made.2.format := exportFileName_inj same
      have one := List.inj_on_of_nodup_map inv.drawnOnce archive.asked drawn id
      rw [format, ← one]
    · intro format
      have file := archive.file
      rw [format] at file
      exact Option.isSome_iff_exists.mpr ⟨_, file⟩
  have extension : (if (s.files (uuidToText row.id ++ "." ++ "tar.gz")).isSome then "tar.gz"
      else "manifest.jsonl") = request.format.asStr := by
    cases format : request.format with
    | tarGz => rw [if_pos (tar.mpr format), DownloadFormat.asStr]
    | manifestJsonl =>
        rw [if_neg fun some => by simp [tar.mp some] at format, DownloadFormat.asStr]
  have file : s.files (uuidToText row.id ++ "." ++ request.format.asStr) =
      some ⟨rows.map (exportEntry packs request.format), true⟩ := archive.file
  simp only [Exports.downloadFile, found, Option.map_some, jobFromRow, completed, archive.key,
    JobState.fromColumn, if_neg plain, extension, file]
  rfl

/-- What is answered with a file is a completed job. -/
theorem completed_of_downloadFile {s : Exports} {id : Uuid} {answer : String × ExportFile}
    (served : s.downloadFile id = .ok answer) :
    ∃ row ∈ s.jobs, row.id = id ∧ row.state = "completed" := by
  cases found : s.jobs.find? fun row => row.id == id with
  | none => simp [Exports.downloadFile, found] at served
  | some row =>
      refine ⟨row, List.mem_of_find?_eq_some found, by simpa using List.find?_some found, ?_⟩
      by_contra other
      have state : JobState.fromColumn row.state ≠ .completed := by
        unfold JobState.fromColumn
        split_ifs <;> simp
      simp [Exports.downloadFile, found, jobFromRow, state] at served

/-- What becomes of a completed job: it keeps its archive, and its row unless it is pruned. -/
theorem Archive.kept {s t : Exports} (inv : ExportInv collation packs s) {row : JobRow}
    (member : row ∈ s.jobs) (completed : row.state = "completed") {request : DownloadRequest}
    {rows : List Store.Record} (archive : Archive collation packs s row request rows)
    {action : ExportAction} (stepped : s.step collation packs action = some t) :
    Archive collation packs t row request rows ∧
      (row ∈ t.jobs ∨ ∃ expired, action = .prune expired ∧ row.id ∈ expired) := by
  cases moves stepped with
  | index named =>
      exact ⟨⟨archive.asked, archive.file, archive.selection.mono fun entry => mem_insertBatch _ _,
        archive.count, archive.key⟩, .inl member⟩
  | createDownload fresh =>
      rename_i id made landed answered
      refine ⟨⟨List.mem_append_left _ archive.asked, archive.file, archive.selection,
        archive.count, archive.key⟩, .inl ?_⟩
      cases landed
      · exact member
      · exact List.mem_append_left _ member
  | task here moved =>
      rename_i i step task effect
      have other : row.id ≠ task.id := fun own => ExportTask.step_live moved
        (inv.ended row member (.inl completed) task (List.mem_of_getElem? here) own.symm)
      exact ⟨archive.take other, .inl (List.mem_map.mpr ⟨row, member, if_neg other⟩)⟩
  | prune =>
      rename_i expired
      refine ⟨⟨archive.asked, archive.file, archive.selection, archive.count, archive.key⟩, ?_⟩
      by_cases named : row.id ∈ expired
      · exact .inr ⟨expired, rfl, named⟩
      · exact .inl (List.mem_filter.mpr ⟨member, by simpa using named⟩)
  | restart =>
      exact ⟨⟨archive.asked, archive.file, archive.selection, archive.count, archive.key⟩,
        .inl member⟩

/-- A job that was asked for and is not there. -/
structure Gone (s : Exports) (id : Uuid) : Prop where
  asked : id ∈ s.drawn.map (·.1)
  absent : id ∉ s.jobs.map (·.id)

theorem Gone.downloadFile {s : Exports} {id : Uuid} (gone : Gone s id) :
    s.downloadFile id = .error .notFound := by
  have none : s.jobs.find? (fun row => row.id == id) = none := by
    refine List.find?_eq_none.mpr fun row member own => gone.absent ?_
    exact List.mem_map.mpr ⟨row, member, by simpa using own⟩
  rw [Exports.downloadFile, none, Option.map_none]

theorem Gone.pruned {s : Exports} {id : Uuid} (asked : id ∈ s.drawn.map (·.1))
    {expired : List Uuid} (named : id ∈ expired) :
    Gone { s with jobs := s.jobs.filter fun row => !expired.contains row.id } id := by
  refine ⟨asked, fun member => ?_⟩
  obtain ⟨row, inside, rfl⟩ := List.mem_map.mp member
  simp [named] at inside

/-- It does not come back, for its id has been drawn. -/
theorem Gone.kept (injective : Function.Injective collation) {s t : Exports}
    (inv : ExportInv collation packs s) {id : Uuid} (gone : Gone s id) {action : ExportAction}
    (stepped : s.step collation packs action = some t) : Gone t id := by
  cases moves stepped with
  | index named => exact ⟨gone.asked, gone.absent⟩
  | createDownload fresh =>
      rename_i new request landed answered
      refine ⟨?_, ?_⟩
      · rw [List.map_append, List.mem_append]
        exact .inl gone.asked
      · cases landed
        · exact gone.absent
        · rw [if_pos rfl, List.map_append, List.map_singleton, List.mem_append,
            List.mem_singleton]
          rintro (old | same)
          · exact gone.absent old
          · obtain rfl : id = new := same
            exact fresh gone.asked
  | task here moved =>
      have adv := ExportTask.advances inv.named injective
        (inv.stands _ (List.mem_of_getElem? here)) moved
      exact ⟨gone.asked, (map_id_updateJob adv.rowId).symm ▸ gone.absent⟩
  | prune => exact ⟨gone.asked, fun member => gone.absent ((List.filter_sublist.map _).subset member)⟩
  | restart => exact ⟨gone.asked, gone.absent⟩

section Completed

variable {row : JobRow} {request : DownloadRequest} {rows : List Store.Record}

/-- A completed job, with its archive. -/
structure Standing (collation : Uuid → Nat) (packs : PackLocation → Bytes) (s : Exports)
    (row : JobRow) (request : DownloadRequest) (rows : List Store.Record) : Prop where
  inv : ExportInv collation packs s
  member : row ∈ s.jobs
  completed : row.state = "completed"
  archive : Archive collation packs s row request rows

theorem Standing.served {s : Exports} (standing : Standing collation packs s row request rows) :
    s.downloadFile row.id = .ok (exportFileName row.id request.format,
      ⟨rows.map (exportEntry packs request.format), true⟩) :=
  standing.archive.served standing.inv standing.member standing.completed

theorem Standing.step (injective : Function.Injective collation) {s t : Exports}
    (standing : Standing collation packs s row request rows) {action : ExportAction}
    (stepped : s.step collation packs action = some t) :
    Standing collation packs t row request rows ∨
      (Gone t row.id ∧ ∃ expired, action = .prune expired ∧ row.id ∈ expired) := by
  have inv := standing.inv.step injective stepped
  obtain ⟨later, here | ⟨expired, rfl, named⟩⟩ :=
    standing.archive.kept standing.inv standing.member standing.completed stepped
  · exact .inl ⟨inv, here, standing.completed, later⟩
  · refine .inr ⟨?_, expired, rfl, named⟩
    obtain rfl := Option.some.inj stepped
    exact .pruned (List.mem_map_of_mem standing.archive.asked) named

/-- Over a whole run. -/
theorem Standing.run (injective : Function.Injective collation) {s t : Exports}
    (standing : Standing collation packs s row request rows) {actions : List ExportAction}
    (ran : (exportMachine collation packs).run s actions = some t) :
    Standing collation packs t row request rows ∨ Gone t row.id := by
  have kept : ∀ s a t, ExportInv collation packs s ∧
        (Standing collation packs s row request rows ∨ Gone s row.id) →
      (exportMachine collation packs).step s a = some t → ExportInv collation packs t ∧
        (Standing collation packs t row request rows ∨ Gone t row.id) := by
    rintro s a t ⟨inv, standing | gone⟩ stepped
    · refine ⟨inv.step injective stepped, ?_⟩
      rcases standing.step injective stepped with later | ⟨gone, -⟩
      · exact .inl later
      · exact .inr gone
    · exact ⟨inv.step injective stepped, .inr (gone.kept injective inv stepped)⟩
  exact (Machine.run_preserves kept ran ⟨standing.inv, .inl standing⟩).2

/-- Over a run that does not prune it. -/
theorem Standing.run_unpruned (injective : Function.Injective collation) {s t : Exports}
    (standing : Standing collation packs s row request rows) {actions : List ExportAction}
    (unnamed : ∀ expired, .prune expired ∈ actions → row.id ∉ expired)
    (ran : (exportMachine collation packs).run s actions = some t) :
    Standing collation packs t row request rows := by
  have met : (exportMachine collation packs).Meets
      (fun _ a => ∀ expired, a = ExportAction.prune expired → row.id ∉ expired) s actions := by
    refine Machine.meets_of_forall (fun a inside expired same => ?_) s
    subst same
    exact unnamed expired inside
  refine Machine.run_preserves_of_meets (P := fun s => Standing collation packs s row request rows)
    ?_ met ran standing
  intro s a t standing unpruned stepped
  rcases standing.step injective stepped with later | ⟨-, expired, pruned, named⟩
  · exact later
  · exact absurd named (unpruned expired pruned)

end Completed

/-- The index shows a row of the record that matches. -/
def Shows (filter : RecordFilter) (recordId : Uuid) (s : Exports) : Prop :=
  ∃ row ∈ final indexKey s.table, row.id = recordId ∧ filter.matches row = true

instance (filter : RecordFilter) (recordId : Uuid) (s : Exports) :
    Decidable (Shows filter recordId s) :=
  inferInstanceAs (Decidable (∃ row ∈ final indexKey s.table, row.id = recordId ∧
    filter.matches row = true))

namespace ExportTask

/-- A place that the pages after this one have. -/
def Ahead (collation : Uuid → Nat) (place : ℤ ×ₗ ℕ) (next : Option Cursor) : Prop :=
  ∃ c, next = some c ∧ place < cursorKey collation c

/-- Where the record of this place is: written, in hand, or ahead. -/
def Covers (collation : Uuid → Nat) (recordId : Uuid) (place : ℤ ×ₗ ℕ) (task : ExportTask) : Prop :=
  match task.stage with
  | .starting => True
  | .opening => True
  | .scanning none => True
  | .scanning (some c) => recordId ∈ task.rows.map (·.id) ∨ Ahead collation place (some c)
  | .appending rest next => recordId ∈ (task.rows ++ rest).map (·.id) ∨ Ahead collation place next
  | .publishing next => recordId ∈ task.rows.map (·.id) ∨ Ahead collation place next
  | .closing => recordId ∈ task.rows.map (·.id)
  | .recording (.ok _) => recordId ∈ task.rows.map (·.id)
  | .recording (.error _) => True
  | .ended => True

/-- **A step loses no record that matches.** -/
theorem covers_step {table : RecordTable} (named : Named table)
    (injective : Function.Injective collation) {file : Option ExportFile} {task : ExportTask}
    {row : Store.Record} (shown : row ∈ final indexKey table)
    (matched : task.request.filter.matches row = true)
    (covers : task.Covers collation row.id (rowKey collation row)) {step : ExportStep}
    {effect : ExportEffect} (stepped : task.step collation packs table file step = some effect) :
    effect.task.Covers collation row.id (rowKey collation row) ∧
      ∀ job, (effect.job job).state = "completed" → job.state = "completed" ∨
        row.id ∈ effect.task.rows.map (·.id) := by
  obtain ⟨id, request, stage, written, rows⟩ := task
  cases step with
  | start landed answered =>
      cases stage <;> simp only [ExportTask.step, Option.some.injEq, reduceCtorEq] at stepped
      subst stepped
      refine ⟨?_, fun job completed => .inl ?_⟩
      · cases answered <;> trivial
      · cases landed
        · exact completed
        · simp at completed
  | create failed =>
      cases stage <;> cases failed <;>
        simp only [ExportTask.step, Option.some.injEq, reduceCtorEq] at stepped
      all_goals
        subst stepped
        exact ⟨trivial, fun job completed => .inl completed⟩
  | scan failed =>
      cases stage <;> cases failed <;>
        simp only [ExportTask.step, Option.some.injEq, reduceCtorEq] at stepped
      · rename_i cursor
        subst stepped
        refine ⟨?_, fun job completed => .inl completed⟩
        have spec := named.page_spec injective request.filter cursor
        have candidate : row ∈ (final indexKey table).filter request.filter.matches :=
          List.mem_filter.mpr ⟨shown, matched⟩
        -- a record that is not written yet is on this page or below its cursor
        have turned : Keyset.below (rowKey collation) (cursorKey collation) cursor row = true →
            ExportTask.Covers collation row.id (rowKey collation row)
              { id, request, written, rows,
                stage := .appending
                  (catalogPage collation (final indexKey table) request.filter cursor
                    exportPageSize).1
                  (catalogPage collation (final indexKey table) request.filter cursor
                    exportPageSize).2 } := by
          intro under
          rcases spec.rest row candidate under with got | later
          · exact .inl (List.mem_map_of_mem (List.mem_append_right _ got))
          · exact .inr later
        cases cursor with
        | none => exact turned rfl
        | some c =>
            rcases covers with before | ⟨_, same, under⟩
            · refine .inl ?_
              rw [List.map_append]
              exact List.mem_append_left _ before
            · obtain rfl := Option.some.inj same
              exact turned (by simpa [Keyset.below] using under)
      · subst stepped
        exact ⟨trivial, fun job completed => .inl completed⟩
  | append failed =>
      cases stage <;> try simp only [ExportTask.step, reduceCtorEq] at stepped
      rename_i rest next
      cases rest with
      | nil =>
          simp only [Option.some.injEq] at stepped
          subst stepped
          refine ⟨?_, fun job completed => .inl completed⟩
          have held : row.id ∈ (rows ++ ([] : List Store.Record)).map (·.id) ∨
              Ahead collation (rowKey collation row) next := covers
          rwa [List.append_nil] at held
      | cons record rest =>
          cases failed <;> simp only [Option.some.injEq] at stepped <;> subst stepped
          · refine ⟨?_, fun job completed => .inl completed⟩
            have moved : rows ++ record :: rest = rows ++ [record] ++ rest := by simp
            have held : row.id ∈ (rows ++ record :: rest).map (·.id) ∨
                Ahead collation (rowKey collation row) next := covers
            rwa [moved] at held
          · exact ⟨trivial, fun job completed => .inl completed⟩
  | publish landed =>
      cases stage <;> simp only [ExportTask.step, Option.some.injEq, reduceCtorEq] at stepped
      rename_i next
      subst stepped
      refine ⟨?_, fun job completed => .inl ?_⟩
      · cases next with
        | none => exact covers.resolve_right (by simp [Ahead])
        | some cursor => exact covers
      · cases landed <;> exact completed
  | finish failed =>
      cases stage <;> cases failed <;>
        simp only [ExportTask.step, Option.some.injEq, reduceCtorEq] at stepped
      · subst stepped
        exact ⟨covers, fun job completed => .inl completed⟩
      · subst stepped
        exact ⟨trivial, fun job completed => .inl completed⟩
  | record landed =>
      cases stage <;> simp only [ExportTask.step, Option.some.injEq, reduceCtorEq] at stepped
      rename_i outcome
      subst stepped
      refine ⟨trivial, fun job completed => ?_⟩
      cases landed with
      | false => exact .inl completed
      | true =>
          cases outcome with
          | error message => simp [JobRow.finish] at completed
          | ok counted => exact .inr covers

end ExportTask

/-- What an asked export still owes, or its archive has. -/
structure Awaited (collation : Uuid → Nat) (packs : PackLocation → Bytes) (id : Uuid)
    (request : DownloadRequest) (recordId : Uuid) (place : ℤ ×ₗ ℕ) (s : Exports) : Prop where
  inv : ExportInv collation packs s
  asked : (id, request) ∈ s.drawn
  placed : ∀ row ∈ s.table.map (·.row), row.id = recordId → rowKey collation row = place
  covered : ∀ task ∈ s.tasks, task.id = id → task.Covers collation recordId place
  contained : ∀ row ∈ s.jobs, row.id = id → row.state = "completed" → ∃ rows,
    Archive collation packs s row request rows ∧ recordId ∈ rows.map (·.id)

namespace Awaited

variable {id recordId : Uuid} {request : DownloadRequest} {place : ℤ ×ₗ ℕ} {s t : Exports}

/-- The jobs that were there keep what they contain. -/
theorem contained_kept (awaited : Awaited collation packs id request recordId place s)
    {action : ExportAction} (stepped : s.step collation packs action = some t) {row : JobRow}
    (member : row ∈ s.jobs) (own : row.id = id) (completed : row.state = "completed") :
    ∃ rows, Archive collation packs t row request rows ∧ recordId ∈ rows.map (·.id) := by
  obtain ⟨rows, archive, inside⟩ := awaited.contained row member own completed
  exact ⟨rows, (archive.kept awaited.inv member completed stepped).1, inside⟩

theorem step (injective : Function.Injective collation)
    (awaited : Awaited collation packs id request recordId place s)
    (shows_ : Shows request.filter recordId s) {action : ExportAction}
    (stepped : s.step collation packs action = some t) :
    Awaited collation packs id request recordId place t := by
  have inv := awaited.inv.step injective stepped
  have kept : ∀ row ∈ s.jobs, row.id = id → row.state = "completed" → ∃ rows,
      Archive collation packs t row request rows ∧ recordId ∈ rows.map (·.id) :=
    fun _ member own completed => awaited.contained_kept stepped member own completed
  obtain ⟨shown, visible, same, matched⟩ := shows_
  have known := row_mem_of_final visible
  have here := awaited.placed shown known same
  cases moves stepped with
  | index named =>
      refine ⟨inv, awaited.asked, fun row member own => ?_, awaited.covered, kept⟩
      rename_i now rows
      have before : shown ∈ (insertBatch s.table now rows).map (·.row) := by
        obtain ⟨entry, inside, rfl⟩ := List.mem_map.mp known
        exact List.mem_map_of_mem (mem_insertBatch _ _ inside)
      rw [← here]
      exact named.place_eq member before (own.trans same.symm)
  | createDownload fresh =>
      rename_i new other landed answered
      have differs : new ≠ id := by
        rintro rfl
        exact fresh (List.mem_map_of_mem awaited.asked)
      refine ⟨inv, List.mem_append_left _ awaited.asked, awaited.placed, fun task member own => ?_,
        fun row member own completed => ?_⟩
      · cases answered
        · exact awaited.covered task member own
        · rcases List.mem_append.mp member with old | added
          · exact awaited.covered task old own
          · rw [List.mem_singleton.mp added] at own
            exact absurd own differs
      · cases landed
        · exact kept row member own completed
        · rcases List.mem_append.mp member with old | added
          · exact kept row old own completed
          · rw [List.mem_singleton.mp added] at own
            exact absurd own differs
  | task at_ moved =>
      rename_i i step task effect
      have member := List.mem_of_getElem? at_
      have adv := ExportTask.advances awaited.inv.named injective (awaited.inv.stands task member) moved
      have request_eq : task.id = id → task.request = request := fun own =>
        congrArg Prod.snd (List.inj_on_of_nodup_map awaited.inv.drawnOnce
          (awaited.inv.known task member) awaited.asked own)
      have next : task.id = id → effect.task.Covers collation recordId place ∧
          ∀ job, (effect.job job).state = "completed" → job.state = "completed" ∨
            recordId ∈ effect.task.rows.map (·.id) := by
        intro own
        have covers := awaited.covered task member own
        rw [← same, ← here] at covers ⊢
        exact ExportTask.covers_step awaited.inv.named injective visible
          (request_eq own ▸ matched) covers moved
      refine ⟨inv, awaited.asked, awaited.placed, fun other inside own => ?_,
        fun row inside own completed => ?_⟩
      · rcases awaited.inv.apart at_ inside with rfl | ⟨old, -⟩
        · exact (next (adv.id.symm.trans own)).1
        · exact awaited.covered other old own
      · rcases mem_updateJob inside with ⟨old, -⟩ | ⟨old, before, named, rfl⟩
        · exact kept row old own completed
        · have ours : task.id = id := named.symm.trans ((adv.rowId old).symm.trans own)
          have open_ : old.state ≠ "completed" := fun early => ExportTask.step_live moved
            (awaited.inv.ended old before (.inl early) task member named.symm)
          have done := (adv.completes old completed).resolve_left open_
          have archive := done.archive (i := i) (awaited.inv.known task member) adv named
          rw [request_eq ours] at archive
          exact ⟨effect.task.rows, archive, ((next ours).2 old completed).resolve_left open_⟩
  | prune =>
      exact ⟨inv, awaited.asked, awaited.placed, awaited.covered,
        fun row member => kept row (List.mem_of_mem_filter member)⟩
  | restart =>
      exact ⟨inv, awaited.asked, awaited.placed, by simp, kept⟩

end Awaited

end Machine

end MajsoulManager.Index
