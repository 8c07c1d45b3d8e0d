/-
# Index.Exports — exports, while the index goes on

`create_download`, `run_export`, `write_export` and `download_file` of `api.rs`, with the
download jobs of `catalog.rs`.  An export walks the catalogue a page at a time; between its
pages rows are indexed and replaced, any of its steps may fail, the process may end, and
expired jobs are pruned.  `rows` of a task is what it has written so far.
-/
import MajsoulManager.Index.Bounds
import MajsoulManager.Store.Reference

namespace MajsoulManager.Index

open MajsoulManager.Theory
open MajsoulManager.Store

set_option autoImplicit false

/-! ## Requests and jobs -/

inductive DownloadFormat where
  | tarGz
  | manifestJsonl
  deriving DecidableEq, Repr

def DownloadFormat.asStr : DownloadFormat → String
  | .tarGz => "tar.gz"
  | .manifestJsonl => "manifest.jsonl"

structure DownloadRequest where
  filter : RecordFilter := {}
  format : DownloadFormat := .tarGz

inductive JobState where
  | queued
  | running
  | completed
  | failed
  deriving DecidableEq, Repr

def JobState.fromColumn (value : String) : JobState :=
  if value = "running" then .running
  else if value = "completed" then .completed
  else if value = "failed" then .failed
  else .queued

/-- A row of `download_jobs`; its filter and its format are not read again. -/
structure JobRow where
  id : Uuid
  state : String := "queued"
  recordCount : Nat := 0
  resultObjectKey : Option String := none
  error : Option String := none
  deriving DecidableEq

structure DownloadJob where
  id : Uuid
  state : JobState
  recordCount : Nat
  downloadUrl : Option String
  error : Option String

def jobFromRow (row : JobRow) : DownloadJob where
  id := row.id
  state := .fromColumn row.state
  recordCount := row.recordCount
  downloadUrl := row.resultObjectKey.map fun _ =>
    "/api/v1/downloads/" ++ uuidToText row.id ++ "/file"
  error := row.error

/-- The row `finish_job` leaves; one that failed keeps the count last published. -/
def JobRow.finish (row : JobRow) : Except String (Nat × String) → JobRow
  | .ok (count, objectKey) =>
      { row with
        state := "completed", recordCount := count, resultObjectKey := some objectKey
        error := none }
  | .error message =>
      { row with state := "failed", resultObjectKey := none, error := some message }

/-- `UPDATE download_jobs … WHERE id = …`. -/
def updateJob (jobs : List JobRow) (id : Uuid) (edit : JobRow → JobRow) : List JobRow :=
  jobs.map fun row => if row.id = id then edit row else row

/-! ## Files -/

inductive ExportEntry where
  | member (name : String) (raw : Bytes)
  | line (record : Store.Record)
  deriving DecidableEq

/-- A file of `export_dir`, and whether its writer came to the end. -/
structure ExportFile where
  entries : List ExportEntry := []
  finished : Bool := false
  deriving DecidableEq

def exportFileName (id : Uuid) (format : DownloadFormat) : String :=
  uuidToText id ++ "." ++ format.asStr

def exportObjectKey (id : Uuid) (format : DownloadFormat) : String :=
  "exports/" ++ exportFileName id format

def exportPageSize : Nat := 1000

section Machine

variable (collation : Uuid → Nat) (packs : PackLocation → Bytes)

/-- What `ExportWriter::append` writes; `packs` is what the packs hold. -/
def exportEntry (format : DownloadFormat) (record : Store.Record) : ExportEntry :=
  match format with
  | .tarGz => .member (uuidToText record.id ++ ".mjson") (packs record.storage)
  | .manifestJsonl => .line record

/-! ## An export -/

/-- Where `run_export` stands.  `next` is the cursor a page came with. -/
inductive ExportStage where
  | starting
  | opening
  | scanning (cursor : Option Cursor)
  | appending (rest : List Store.Record) (next : Option Cursor)
  | publishing (next : Option Cursor)
  | closing
  | recording (outcome : Except String (Nat × String))
  | ended

structure ExportTask where
  id : Uuid
  request : DownloadRequest
  stage : ExportStage := .starting
  written : Nat := 0
  rows : List Store.Record := []

/-- The steps of an export; `failed` is the error a step ends with. -/
inductive ExportStep where
  | start (landed answered : Bool)
  | create (failed : Option String)
  | scan (failed : Option String)
  | append (failed : Option String)
  | publish (landed : Bool)
  | finish (failed : Option String)
  | record (landed : Bool)

/-- What a step changes: the task, its job and its file. -/
structure ExportEffect where
  task : ExportTask
  job : JobRow → JobRow := id
  file : Option ExportFile

namespace ExportTask

def fileName (task : ExportTask) : String := exportFileName task.id task.request.format

/-- An error of `write_export` is what the job is finished with. -/
def fail (task : ExportTask) (message : String) : ExportTask :=
  { task with stage := .recording (.error message) }

def step (table : RecordTable) (file : Option ExportFile) (task : ExportTask) :
    ExportStep → Option ExportEffect
  | .start landed answered =>
      match task.stage with
      | .starting => some
          { task := { task with stage := if answered then .opening else .ended }
            job := fun row => if landed then { row with state := "running" } else row
            file := file }
      | _ => none
  | .create failed =>
      match task.stage, failed with
      | .opening, some message => some { task := task.fail message, file := file }
      | .opening, none => some { task := { task with stage := .scanning none }, file := some {} }
      | _, _ => none
  | .scan failed =>
      match task.stage, failed with
      | .scanning _, some message => some { task := task.fail message, file := file }
      | .scanning cursor, none =>
          let page := catalogPage collation (final indexKey table) task.request.filter cursor
            exportPageSize
          some { task := { task with stage := .appending page.1 page.2 }, file := file }
      | _, _ => none
  | .append failed =>
      match task.stage, failed with
      | .appending [] next, _ =>
          some { task := { task with stage := .publishing next }, file := file }
      | .appending (_ :: _) _, some message => some { task := task.fail message, file := file }
      | .appending (record :: rest) next, none => some
          { task :=
              { task with
                stage := .appending rest next, written := task.written + 1
                rows := task.rows ++ [record] }
            file := file.map fun file =>
              { file with entries := file.entries ++ [exportEntry packs task.request.format record] } }
      | _, _ => none
  | .publish landed =>
      match task.stage with
      | .publishing next => some
          { task :=
              { task with
                stage := match next with
                  | some cursor => .scanning (some cursor)
                  | none => .closing }
            job := fun row => if landed then { row with recordCount := task.written } else row
            file := file }
      | _ => none
  | .finish failed =>
      match task.stage, failed with
      | .closing, some message => some { task := task.fail message, file := file }
      | .closing, none => some
          { task :=
              { task with
                stage := .recording
                  (.ok (task.written, exportObjectKey task.id task.request.format)) }
            file := file.map fun file => { file with finished := true } }
      | _, _ => none
  | .record landed =>
      match task.stage with
      | .recording outcome => some
          { task := { task with stage := .ended }
            job := fun row => if landed then row.finish outcome else row
            file := file }
      | _ => none

end ExportTask

/-! ## All of them -/

/-- The index, the jobs, `export_dir` and the exports of the process; `drawn` are the jobs
ever asked for. -/
structure Exports where
  table : RecordTable
  jobs : List JobRow := []
  files : String → Option ExportFile := fun _ => none
  tasks : List ExportTask := []
  drawn : List (Uuid × DownloadRequest) := []

inductive ExportAction where
  | index (now : Nat) (rows : List Store.Record)
  | createDownload (id : Uuid) (request : DownloadRequest) (landed answered : Bool)
  | task (i : Nat) (step : ExportStep)
  | prune (expired : List Uuid)
  | restart

/-- An id names one record: it is drawn for a new one, and a row that is rewritten keeps the
columns of its key. -/
def Named (table : RecordTable) : Prop :=
  ∀ a ∈ table, ∀ b ∈ table, a.row.id = b.row.id → indexKey a.row = indexKey b.row

instance (table : RecordTable) : Decidable (Named table) :=
  inferInstanceAs (Decidable (∀ a ∈ table, ∀ b ∈ table, a.row.id = b.row.id →
    indexKey a.row = indexKey b.row))

namespace Exports

def take (s : Exports) (i : Nat) (task : ExportTask) (effect : ExportEffect) : Exports :=
  { s with
    tasks := s.tasks.set i effect.task
    jobs := updateJob s.jobs task.id effect.job
    files := Function.update s.files task.fileName effect.file }

theorem take_files_self {s : Exports} {i : Nat} {task : ExportTask} {effect : ExportEffect} :
    (s.take i task effect).files task.fileName = effect.file := by
  simp only [take, Function.update_self]

theorem take_files_of_ne {s : Exports} {i : Nat} {task : ExportTask} {effect : ExportEffect}
    {name : String} (other : name ≠ task.fileName) :
    (s.take i task effect).files name = s.files name := by
  simp only [take, Function.update_of_ne other]

def step (s : Exports) : ExportAction → Option Exports
  | .index now rows =>
      if Named (insertBatch s.table now rows) then
        some { s with table := insertBatch s.table now rows }
      else none
  | .createDownload id request landed answered =>
      if s.drawn.any (·.1 == id) || (answered && !landed) then none
      else
        some { s with
          drawn := s.drawn ++ [(id, request)]
          jobs := if landed then s.jobs ++ [{ id := id }] else s.jobs
          tasks := if answered then s.tasks ++ [{ id := id, request := request }] else s.tasks }
  | .task i step => do
      let task ← s.tasks[i]?
      let effect ← task.step collation packs s.table (s.files task.fileName) step
      some (s.take i task effect)
  | .prune expired => some { s with jobs := s.jobs.filter fun row => !expired.contains row.id }
  | .restart => some { s with tasks := [] }

inductive DownloadError where
  | notFound
  | conflict (message : String)
  | internal (message : String)
  deriving DecidableEq

/-- `download_file`: the name it gives the file, and the file. -/
def downloadFile (s : Exports) (id : Uuid) : Except DownloadError (String × ExportFile) :=
  match (s.jobs.find? fun row => row.id == id).map jobFromRow with
  | none => .error .notFound
  | some job =>
      if job.state ≠ .completed then .error (.conflict "download is not ready")
      else
        match job.downloadUrl with
        | none => .error (.internal "completed job has no file")
        | some url =>
            let extension :=
              if "manifest".toList <:+: url.toList then "manifest.jsonl"
              else if (s.files (uuidToText id ++ "." ++ "tar.gz")).isSome then "tar.gz"
              else "manifest.jsonl"
            match s.files (uuidToText id ++ "." ++ extension) with
            | none => .error .notFound
            | some file => .ok (uuidToText id ++ "." ++ extension, file)

end Exports

/-- A deployment that has served no download yet, over any index. -/
def exportMachine : Machine Exports ExportAction where
  Start s := Named s.table ∧ s.jobs = [] ∧ s.files = (fun _ => none) ∧ s.tasks = [] ∧ s.drawn = []
  step := Exports.step collation packs

/-! ## What an export has written -/

/-- Rows of the index that match, newest first. -/
structure Selection (table : RecordTable) (filter : RecordFilter) (rows : List Store.Record) :
    Prop where
  matched : ∀ row ∈ rows, filter.matches row = true
  indexed : ∀ row ∈ rows, row ∈ table.map (·.row)
  ordered : rows.Pairwise fun newer older => rowKey collation older < rowKey collation newer

/-- The cursor a page came with stands at the last of the rows. -/
def StandsAtLast (rows : List Store.Record) (next : Option Cursor) : Prop :=
  ∀ c, next = some c → rows.getLast?.map (rowKey collation) = some (cursorKey collation c)

namespace ExportTask

/-- The file has the rows, and nothing else. -/
structure Copied (file : Option ExportFile) (format : DownloadFormat) (rows : List Store.Record)
    (written : Nat) (finished : Bool) : Prop where
  file : file = some ⟨rows.map (exportEntry packs format), finished⟩
  written : written = rows.length

/-- What is true of an export at each of its stages. -/
def Stands (table : RecordTable) (file : Option ExportFile) (task : ExportTask) : Prop :=
  match task.stage with
  | .starting => task.rows = [] ∧ task.written = 0
  | .opening => task.rows = [] ∧ task.written = 0
  | .scanning cursor =>
      Copied packs file task.request.format task.rows task.written false ∧
      Selection collation table task.request.filter task.rows ∧
      Keyset.Walked (rowKey collation) (cursorKey collation) task.rows cursor
  | .appending rest next =>
      Copied packs file task.request.format task.rows task.written false ∧
      Selection collation table task.request.filter (task.rows ++ rest) ∧
      StandsAtLast collation (task.rows ++ rest) next
  | .publishing next =>
      Copied packs file task.request.format task.rows task.written false ∧
      Selection collation table task.request.filter task.rows ∧
      StandsAtLast collation task.rows next
  | .closing =>
      Copied packs file task.request.format task.rows task.written false ∧
      Selection collation table task.request.filter task.rows
  | .recording (.ok (count, key)) =>
      Copied packs file task.request.format task.rows task.written true ∧
      Selection collation table task.request.filter task.rows ∧
      count = task.rows.length ∧ key = exportObjectKey task.id task.request.format
  | .recording (.error _) => True
  | .ended => True

end ExportTask

/-- The whole archive of a completed job. -/
structure Archive (s : Exports) (row : JobRow) (request : DownloadRequest)
    (rows : List Store.Record) : Prop where
  asked : (row.id, request) ∈ s.drawn
  file : s.files (exportFileName row.id request.format) =
    some ⟨rows.map (exportEntry packs request.format), true⟩
  selection : Selection collation s.table request.filter rows
  count : row.recordCount = rows.length
  key : row.resultObjectKey = some (exportObjectKey row.id request.format)

/-- A job that has come to an end. -/
def JobRow.Settled (row : JobRow) : Prop := row.state = "completed" ∨ row.state = "failed"

structure ExportInv (s : Exports) : Prop where
  named : Named s.table
  drawnOnce : (s.drawn.map (·.1)).Nodup
  tasksOnce : (s.tasks.map (·.id)).Nodup
  jobsOnce : (s.jobs.map (·.id)).Nodup
  known : ∀ task ∈ s.tasks, (task.id, task.request) ∈ s.drawn
  jobsKnown : ∀ row ∈ s.jobs, row.id ∈ s.drawn.map (·.1)
  files : ∀ name file, s.files name = some file →
    ∃ made ∈ s.drawn, name = exportFileName made.1 made.2.format
  stands : ∀ task ∈ s.tasks, task.Stands collation packs s.table (s.files task.fileName)
  ended : ∀ row ∈ s.jobs, row.Settled → ∀ task ∈ s.tasks, task.id = row.id → task.stage = .ended
  archived : ∀ row ∈ s.jobs, row.state = "completed" → ∃ request rows,
    Archive collation packs s row request rows

end Machine

end MajsoulManager.Index
