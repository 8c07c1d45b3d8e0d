/-
# Indexer.Worker — one partition's pack worker, with everything that can fail

`PackWorker` over the partition's log, the bucket, the index and the stored
offset.  Every await of the seal is a stage of its own, so that the process can
die between any two of them, and every answer of the outside world is carried by
the action: a request that was not answered may still have taken effect.

Offsets are positions in the log: `fetch` returns the consecutive records from
the one asked for.
-/
import MajsoulManager.Indexer.Acknowledged

namespace MajsoulManager.Indexer

open MajsoulManager.Theory
open MajsoulManager.Record
open MajsoulManager.Store

set_option autoImplicit false

structure PackConfig where
  targetBytes : Nat
  maxAge : Nat
  idleAge : Nat

/-- What a worker is given: the third-party code, the allocator's limit and the
configuration. -/
structure WorkerEnv where
  crates : Crates
  heap : Heap
  config : PackConfig

/-! ## Fetching -/

structure Fetched where
  records : List (TopicRecord × Nat)
  startOffset : Nat

def Fetched.isEndOfLog (fetched : Fetched) : Bool := fetched.records.isEmpty

/-- One past the last record, or the offset read from. -/
def Fetched.nextOffset (fetched : Fetched) : Nat :=
  (fetched.records.getLast?.map fun last => last.2 + 1).getD fetched.startOffset

/-- At most `count` consecutive records from an offset on. -/
def fetch (log : List TopicRecord) (offset count : Nat) : Fetched where
  records := ((log.drop offset).take count).zipIdx offset
  startOffset := offset

/-- A record that cannot be read at all is skipped. -/
def decodeOne (crates : Crates) (record : TopicRecord) : Option IngestMessage :=
  match IngestMessage.fromRecord crates.uuid crates.rfc3339 record with
  | .ok message => some message
  | .error _ => none

def decode (crates : Crates) (records : List (TopicRecord × Nat)) : List IngestMessage :=
  records.filterMap fun record => decodeOne crates record.1

/-! ## The worker -/

/-- Where the loop stands.  The last five are the awaits of `upload_and_index`. -/
inductive Stage where
  | polling
  | uploading (key : String) (file : Bytes)
  | checking (key : String) (size : Nat)
  | indexing (key : String)
  | scoring (key : String)
  | committing (key : String)

structure Worker where
  cursor : Nat
  committed : Nat
  atEndOfLog : Bool
  sealFailures : Nat
  openPack : Option PackWriter
  rows : List Store.Record
  playerGames : List PlayerGame
  stopping : Bool
  stage : Stage

/-- A worker starts at the stored offset, or at zero where there is none. -/
def Worker.start (offset : Option Nat) : Worker where
  cursor := offset.getD 0
  committed := offset.getD 0
  atEndOfLog := false
  sealFailures := 0
  openPack := none
  rows := []
  playerGames := []
  stopping := false
  stage := .polling

/-- Throws away everything not yet committed. -/
def Worker.discard (worker : Worker) : Worker :=
  { worker with openPack := none, rows := [], playerGames := [], cursor := worker.committed }

/-- A failed seal: the loop discards and backs off. -/
def Worker.failSeal (worker : Worker) : Worker :=
  { worker.discard with
    sealFailures := min (worker.sealFailures + 1) (2 ^ 32 - 1)
    stage := .polling }

def shouldSeal (size target age maxAge idleAge : Nat) (atEndOfLog : Bool) : Bool :=
  target ≤ size || maxAge ≤ age || (atEndOfLog && idleAge ≤ age)

/-- An empty pack has no age and is never ready. -/
def Worker.packIsReady (config : PackConfig) (now : Nat) (worker : Worker) : Bool :=
  match worker.openPack with
  | none => false
  | some writer =>
      match writer.firstAppend with
      | none => false
      | some first => shouldSeal writer.size config.targetBytes (now - first) config.maxAge
          config.idleAge worker.atEndOfLog

/-- The open pack, or a fresh one.  `opened` says whether its file could be
created. -/
def Worker.writer (packKey : String) (opened : Bool) (worker : Worker) :
    Outcome IndexError PackWriter :=
  match worker.openPack with
  | some writer => .ok writer
  | none => if opened then .ok (PackWriter.create packKey) else .err (.pack .io)

/-- `PackWorker::append`: the pack is opened for the first batch that has a
message. -/
def Worker.append (env : WorkerEnv) (disk : Nat → Bool) (now : Nat) (packKey : String)
    (opened : Bool) (worker : Worker) (messages : List IngestMessage) :
    Outcome IndexError Worker :=
  if messages.isEmpty then .ok worker
  else do
    let writer ← worker.writer packKey opened
    let held ← appendBatch env.crates env.heap disk now
      ⟨writer, worker.rows, worker.playerGames⟩ messages
    .ok { worker with
      openPack := some held.writer
      rows := held.rows
      playerGames := held.playerGames }

/-! ## The world around it -/

structure World where
  log : List TopicRecord
  bucket : List (String × Bytes)
  records : List Store.Record
  playerGames : List PlayerGame
  offset : Option Nat
  worker : Option Worker

inductive Action where
  /-- Anyone appends to the partition. -/
  | produce (record : TopicRecord)
  | start
  | crash
  | shutdown
  /-- The worker returns. -/
  | halt
  | fetch (count : Nat) (packKey : String) (opened : Bool) (disk : Nat → Bool) (now : Nat)
  | fetchFailed
  /-- The pack is closed and read back, or one of the two fails. -/
  | sealPack (now : Nat) (readBack : Bool)
  /-- The bucket keeps this many bytes of the object, if any. -/
  | put (kept : Option Nat) (answered : Bool)
  | head (answered : Bool)
  | insertBatch (landed : List Store.Record) (answered : Bool)
  | insertPlayerGames (landed : List PlayerGame) (answered : Bool)
  | commit (landed answered : Bool)

def World.fetched (env : WorkerEnv) (world : World) (worker : Worker) (count : Nat)
    (packKey : String) (opened : Bool) (disk : Nat → Bool) (now : Nat) : World :=
  let fetched := fetch world.log worker.cursor count
  let worker := { worker with atEndOfLog := fetched.isEndOfLog }
  match worker.append env disk now packKey opened (decode env.crates fetched.records) with
  | .ok worker => { world with worker := some { worker with cursor := fetched.nextOffset } }
  | .err _ => { world with worker := some worker.discard }
  -- a panic takes the worker's task with it
  | .panic => { world with worker := none }

/-- The steps of a worker that is running. -/
def World.workerStep (env : WorkerEnv) (world : World) (worker : Worker) :
    Action → Option World
  | .crash => some { world with worker := none }
  | .shutdown => some { world with worker := some { worker with stopping := true } }
  | .halt =>
      match worker.stage, worker.openPack with
      | .polling, none => if worker.stopping then some { world with worker := none } else none
      | _, _ => none
  | .fetch count packKey opened disk now =>
      match worker.stage with
      | .polling =>
          -- a pack's key carries a fresh uuid, so it names no object yet
          if !worker.stopping && (world.bucket.lookup packKey).isNone then
            some (world.fetched env worker count packKey opened disk now)
          else none
      | _ => none
  | .fetchFailed =>
      match worker.stage with
      | .polling => if worker.stopping then none else some world
      | _ => none
  | .sealPack now readBack =>
      match worker.stage, worker.openPack with
      | .polling, some writer =>
          if worker.stopping || worker.packIsReady env.config now then
            let next := if readBack then
                { worker with openPack := none, stage := .uploading writer.key writer.file }
              else worker.failSeal
            some { world with worker := some next }
          else none
      | _, _ => none
  | .put kept answered =>
      match worker.stage with
      | .uploading key file =>
          let next := if answered then { worker with stage := .checking key file.length }
            else worker.failSeal
          some { world with
            bucket := (kept.map fun n => (key, file.take n)).toList ++ world.bucket
            worker := some next }
      | _ => none
  | .head answered =>
      match worker.stage with
      | .checking key size =>
          let stored := (world.bucket.lookup key).map List.length
          let next := if answered && stored == some size then
              { worker with stage := .indexing key }
            else worker.failSeal
          some { world with worker := some next }
      | _ => none
  | .insertBatch landed answered =>
      match worker.stage with
      | .indexing key =>
          -- nothing is sent for an empty batch; a request that fails may have
          -- written some of its rows
          if worker.rows.isEmpty then
            some { world with worker := some { worker with stage := .scoring key } }
          else if answered then
            some { world with
              records := world.records ++ worker.rows.map Store.Record.stored
              worker := some { worker with stage := .scoring key } }
          else if landed ⊆ worker.rows then
            some { world with
              records := world.records ++ landed.map Store.Record.stored
              worker := some worker.failSeal }
          else none
      | _ => none
  | .insertPlayerGames landed answered =>
      match worker.stage with
      | .scoring key =>
          if answered then
            some { world with
              playerGames := world.playerGames ++ worker.playerGames
              worker := some { worker with stage := .committing key } }
          else if landed ⊆ worker.playerGames then
            some { world with
              playerGames := world.playerGames ++ landed
              worker := some worker.failSeal }
          else none
      | _ => none
  | .commit landed answered =>
      match worker.stage with
      | .committing _ =>
          if answered && !landed then none
          else
            let next := if answered then
                { worker with
                  committed := worker.cursor, rows := [], playerGames := [], sealFailures := 0
                  stage := .polling }
              else worker.failSeal
            some { world with
              offset := if landed then some worker.cursor else world.offset
              worker := some next }
      | _ => none
  | .produce _ | .start => none

def World.step (env : WorkerEnv) (world : World) (action : Action) : Option World :=
  match action, world.worker with
  | .produce record, _ => some { world with log := world.log ++ [record] }
  | .start, none => some { world with worker := some (Worker.start world.offset) }
  | action, some worker => world.workerStep env worker action
  | _, none => none

/-- A fresh deployment: whatever the log holds, nothing was consumed yet. -/
def World.Fresh (world : World) : Prop :=
  world.bucket = [] ∧ world.records = [] ∧ world.playerGames = [] ∧ world.offset = none ∧
    world.worker = none

def workerMachine (env : WorkerEnv) : Machine World Action where
  Start := World.Fresh
  step := World.step env

end MajsoulManager.Indexer
