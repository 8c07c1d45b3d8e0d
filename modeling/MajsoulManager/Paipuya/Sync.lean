/-
# Paipuya.Sync — one sweep at a time

The catalogue sync of `paipuya.rs`.  A sweep is a set of workers that drain one queue of
modes and share one pacer; each page a worker reads writes games and the cursor of its
mode.  `stop` moves the generation, takes, aborts and awaits the workers; `start` does the
same without the generation, then spawns a new set; `reset_cursors` stops first, unless
the status says that nothing runs, and then rewinds the cursors.

`sync_safe`: while these stretches do not overlap, one sweep is alive at a time and none
from before a stop or a reset that returned can write.  `reset_undone` is a worker that
survives two overlapping starts, a stop and a reset, and writes its cursor back.
-/
import MajsoulManager.Watch.Config
import MajsoulManager.Theory.Edits
import MajsoulManager.Theory.Handles
import MajsoulManager.Theory.Instants
import MajsoulManager.Theory.Machine

namespace MajsoulManager.Paipuya

open MajsoulManager.Theory
open MajsoulManager.Accounts
open MajsoulManager.Watch

set_option autoImplicit false

/-! ## The service -/

structure PaipuyaConfig where
  revision : UInt64
  enabled : Bool
  baseUrl : String := "https://5-data.amae-koromo.com"
  apiKey : Option String := none
  apiKeyHeader : String := "authorization"
  modes : List Int := []
  startFrom : DateTime
  syncUntil : Option DateTime := none
  requestIntervalMs : Nat := 1000
  concurrency : Nat := 4
  pageSize : Nat := 500
  deriving DecidableEq, Repr

def allModes : List Int := [8, 9, 11, 12, 15, 16, 21, 22, 23, 24, 25, 26]

/-- `reqwest`'s own checks: the scheme of a URL and the shape of a header name. -/
structure Http where
  urls : Urls
  headerName : String → Bool

def validateBaseUrl (http : Http) (url : String) : Except WatchServiceError Unit :=
  match http.urls.scheme url with
  | .error error => .error (.invalidConfig s!"invalid base URL: {error}")
  | .ok scheme => refuse (scheme ∉ ["http", "https"]) "base URL must use http or https"

def validateModes (modes : List Int) : Except WatchServiceError Unit :=
  match modes.find? fun mode => mode ∉ allModes with
  | some mode => .error (.invalidConfig s!"mode {mode} is not one of the ranked modes 牌谱屋 covers")
  | none => .ok ()

def PaipuyaConfig.validate (http : Http) (config : PaipuyaConfig) :
    Except WatchServiceError Unit := do
  validateBaseUrl http config.baseUrl
  refuse (config.apiKeyHeader == "" || !http.headerName config.apiKeyHeader)
    "api_key_header is not a valid header name"
  refuse (config.syncUntil.any fun until_ => DateTime.numSeconds until_ config.startFrom < 10)
    "结束时间要比开始时间至少晚 10 秒（牌谱屋不接受更窄的区间）"
  validateModes config.modes
  refuse (config.requestIntervalMs < 200) "request_interval_ms must be at least 200"
  refuse (config.concurrency < 1 || 8 < config.concurrency) "concurrency must be between 1 and 8"
  refuse (config.pageSize < 1 || 500 < config.pageSize) "page_size must be between 1 and 500"

/-- The phases the sync goes through. -/
inductive ServicePhase where
  | stopped
  | running
  | failed
  deriving DecidableEq, Repr

/-- What a worker was spawned with: its sweep, and how many workers that has. -/
structure Worker where
  generation : Nat
  workers : Nat
  deriving DecidableEq, Repr

/-- Where a call stands; `reset` marks the stop of a `reset_cursors`. -/
inductive Stage where
  | stored (enabled : Bool)
  | stopping (next : Option PaipuyaConfig) (reset : Bool)
  | waiting (handles : List Nat) (next : Option PaipuyaConfig) (reset : Bool)
  | publishing (handles : List Nat)
  /-- `reset_cursors` rewinds the cursors in the database. -/
  | rewinding
  | ended
  deriving DecidableEq, Repr

/-- `gone` has a generation for every worker that left its loop, and `written` the worker
of every page that was written. -/
structure Sync where
  config : PaipuyaConfig
  generation : Nat := 0
  phase : ServicePhase := .stopped
  workers : Yard Worker := {}
  gone : List Nat := []
  written : List Nat := []
  calls : List Stage := []
  deriving DecidableEq, Repr

inductive Action where
  | start
  | stop
  | resetCursors
  | updateConfig (next : PaipuyaConfig) (written : Bool)
  | proceed (call : Nat)
  | take (call : Nat)
  /-- Everything awaited has ended; a start may fail to build its client. -/
  | advance (call : Nat) (built : Bool)
  | publish (call : Nat)
  /-- The database has answered the rewind, one way or the other. -/
  | rewound (call : Nat)
  | drop (call : Nat)
  /-- A worker writes the games and the cursor of a page. -/
  | write (handle : Nat)
  /-- A worker leaves its loop: the queue is empty, the generation has moved, or its
  mode failed. -/
  | leave (handle : Nat) (failed : Bool)
  /-- An abort reaches a worker. -/
  | abort (handle : Nat)

section Machine

variable (http : Http)

def Sync.at (s : Sync) (call : Nat) (stage : Stage) : Sync :=
  { s with calls := s.calls.set call stage }

/-- The workers of a sweep. -/
def sweepOf (generation : Nat) (config : PaipuyaConfig) : List Worker :=
  List.replicate config.concurrency ⟨generation, config.concurrency⟩

/-- Past `stop_tasks`: the end of a stop, or the rest of a start. -/
def Sync.advance (s : Sync) (call : Nat) (built : Bool) (reset : Bool) :
    Option PaipuyaConfig → Sync
  | none =>
      { (s.at call (if reset then .rewinding else .ended)) with
        phase := .stopped
        workers := s.workers.close }
  | some config =>
      if built then
        let workers := sweepOf (s.generation + 1) config
        { (s.at call (.publishing (s.workers.fresh workers))) with
          generation := s.generation + 1
          phase := .running
          workers := s.workers.spawn workers }
      else
        { (s.at call .ended) with generation := s.generation + 1, phase := .running }

/-- A worker's last words: its failure, and `complete` if it is the last to leave. -/
def Sync.leave (s : Sync) (handle : Nat) (worker : Worker) (failed : Bool) : Sync :=
  let gone := worker.generation :: s.gone
  let phase := if failed then .failed else s.phase
  let last : Bool := gone.count worker.generation == worker.workers
  { s with
    gone := gone
    phase := if last && worker.generation == s.generation && phase != .failed then .stopped else phase
    workers := s.workers.finish handle }

def Sync.step (s : Sync) : Action → Option Sync
  | .start => some { s with calls := s.calls ++ [.stopping (some s.config) false] }
  | .stop =>
      some { s with generation := s.generation + 1, calls := s.calls ++ [.stopping none false] }
  | .resetCursors =>
      if s.phase = .stopped then some { s with calls := s.calls ++ [.rewinding] }
      else some { s with generation := s.generation + 1, calls := s.calls ++ [.stopping none true] }
  | .updateConfig next written =>
      match next.validate http with
      | .error _ => some s
      | .ok () =>
          if next.revision = s.config.revision ∧ written then
            some { s with
              config := { next with
                apiKey := restoredSecret next.apiKey s.config.apiKey
                revision := saturatingSucc s.config.revision }
              calls := s.calls ++ [.stored next.enabled] }
          else some s
  | .proceed call =>
      match s.calls[call]? with
      | some (.stored true) => some (s.at call (.stopping (some s.config) false))
      | some (.stored false) =>
          some { (s.at call (.stopping none false)) with generation := s.generation + 1 }
      | _ => none
  | .take call =>
      match s.calls[call]? with
      | some (.stopping next reset) =>
          some { (s.at call (.waiting s.workers.slot next reset)) with workers := s.workers.take }
      | _ => none
  | .advance call built =>
      match s.calls[call]? with
      | some (.waiting handles next reset) =>
          if s.workers.allEnded handles then some (s.advance call built reset next) else none
      | _ => none
  | .publish call =>
      match s.calls[call]? with
      | some (.publishing handles) =>
          some { (s.at call .ended) with workers := s.workers.store handles }
      | _ => none
  | .rewound call =>
      match s.calls[call]? with
      | some .rewinding => some { (s.at call .ended) with workers := s.workers.close }
      | _ => none
  | .drop call =>
      match s.calls[call]? with
      | some .ended => none
      | some _ => some (s.at call .ended)
      | none => none
  | .write handle =>
      if s.workers.alive handle then some { s with written := handle :: s.written } else none
  | .leave handle failed =>
      match s.workers.spec? handle with
      | some worker => if s.workers.alive handle then some (s.leave handle worker failed) else none
      | none => none
  | .abort handle => some { s with workers := s.workers.finish handle }

def FreshSync (s : Sync) : Prop :=
  s.workers = {} ∧ s.gone = [] ∧ s.calls = []

def syncMachine : Machine Sync Action where
  Start := FreshSync
  step := Sync.step http

end Machine

/-! ## What is asked of a run, and promised -/

def Stage.inside : Stage → Bool
  | .waiting .. => true
  | .publishing .. => true
  | .rewinding => true
  | _ => false

def Stage.holds : Stage → Option (List Nat)
  | .waiting handles .. => some handles
  | .publishing handles => some handles
  | _ => none

theorem Stage.inside_of_holds (stage : Stage) (handles : List Nat)
    (holding : stage.holds = some handles) : stage.inside = true := by
  cases stage <;> first | rfl | cases holding

def Sync.nobodyInside (s : Sync) : Bool := s.calls.all fun stage => !stage.inside

/-- The workers are taken, and a reset finds nothing running, only while no other call is
between its taking and its end; and no call is dropped there, unless it only rewinds. -/
def serial (s : Sync) : Action → Bool
  | .take _ => s.nobodyInside
  | .resetCursors => s.phase != .stopped || s.nobodyInside
  | .drop call => s.calls[call]?.all fun stage => !stage.inside || stage == .rewinding
  | _ => true

/-- One sweep is alive, and nothing that can write is from before a stop or a reset that
has returned. -/
structure Sync.Safe (s : Sync) : Prop where
  oneSweep : ∀ a b p q, s.workers.alive a = true → s.workers.alive b = true →
    s.workers.spec? a = some p → s.workers.spec? b = some q → p.generation = q.generation
  writesLate : ∀ (http : Http) handle t, s.step http (.write handle) = some t →
    s.workers.barrier ≤ handle

/-! ## The invariant -/

/-- The workers of one sweep. -/
def OneSweep (workers : List Worker) : Prop :=
  ∃ generation, ∀ worker ∈ workers, worker.generation = generation

def ofSweep (generation : Nat) (task : Spawned Worker) : Bool := task.spec.generation == generation

def endedOf (generation : Nat) (task : Spawned Worker) : Bool :=
  task.spec.generation == generation && task.ended

structure SyncInv (s : Sync) : Prop where
  guarded : Guarded Stage.inside Stage.holds OneSweep s.workers s.calls
  stopped : s.phase = .stopped → ∀ handle, s.workers.alive handle = false
  rewinding : Stage.rewinding ∈ s.calls → ∀ handle, s.workers.alive handle = false
  /-- A sweep has the workers it was spawned with, and no sweep is from the future. -/
  sized : ∀ handle worker, s.workers.spec? handle = some worker →
    worker.generation ≤ s.generation ∧
      s.workers.tasks.countP (ofSweep worker.generation) = worker.workers
  /-- Whoever left has ended. -/
  counted : ∀ generation,
    s.gone.count generation ≤ s.workers.tasks.countP (endedOf generation)

/-! ### Counting the workers of a sweep -/

section Counting

variable {y : Yard Worker} {generation : Nat}

theorem countP_take (y : Yard Worker) {p : Spawned Worker → Bool}
    (blind : ∀ task, p { task with aborted := true } = p task) :
    y.take.tasks.countP p = y.tasks.countP p := by
  have same : y.take.tasks.map p = y.tasks.map p := by
    apply List.ext_getElem?
    intro handle
    simp only [Yard.take, List.getElem?_map, List.getElem?_mapIdx, Option.map_map]
    cases y.tasks[handle]? with
    | none => rfl
    | some task =>
        simp only [Option.map_some, Function.comp_apply]
        split
        · rw [blind]
        · rfl
  have counted : ∀ tasks : List (Spawned Worker), tasks.countP p = (tasks.map p).countP id := by
    intro tasks
    rw [List.countP_map]
    rfl
  rw [counted, counted, same]

/-- What a worker that ends adds to a count, and what it takes from it. -/
theorem countP_finish (y : Yard Worker) {p : Spawned Worker → Bool} {handle : Nat}
    {task : Spawned Worker} (here : y.tasks[handle]? = some task) :
    (y.finish handle).tasks.countP p + (if p task then 1 else 0) =
      y.tasks.countP p + (if p { task with ended := true } then 1 else 0) :=
  countP_modify here

theorem countP_finish_none {p : Spawned Worker → Bool} {handle : Nat}
    (missing : y.tasks[handle]? = none) : (y.finish handle).tasks.countP p = y.tasks.countP p := by
  rw [List.getElem?_eq_none_iff] at missing
  rw [Yard.finish, List.modify_eq_self missing]

theorem ofSweep_finish (y : Yard Worker) (handle : Nat) :
    (y.finish handle).tasks.countP (ofSweep generation) = y.tasks.countP (ofSweep generation) := by
  cases found : y.tasks[handle]? with
  | none => exact countP_finish_none found
  | some task =>
      have moved := countP_finish y found (p := ofSweep generation)
      exact Nat.add_right_cancel moved

theorem endedOf_finish (y : Yard Worker) (handle : Nat) :
    y.tasks.countP (endedOf generation) ≤ (y.finish handle).tasks.countP (endedOf generation) := by
  cases found : y.tasks[handle]? with
  | none => rw [countP_finish_none found]
  | some task =>
      have moved := countP_finish y (p := endedOf generation) found
      have grows : endedOf generation task = true →
          endedOf generation { task with ended := true } = true := by
        simp only [endedOf, Bool.and_eq_true, and_true]
        exact And.left
      split at moved
      · rw [if_pos (grows ‹_›)] at moved
        omega
      · omega

/-- A live worker that leaves is one more of its sweep that has ended. -/
theorem endedOf_leave {handle : Nat} {worker : Worker} (living : y.alive handle = true)
    (here : y.spec? handle = some worker) :
    (y.finish handle).tasks.countP (endedOf worker.generation) =
      y.tasks.countP (endedOf worker.generation) + 1 := by
  obtain ⟨task, found, running⟩ := Yard.alive_iff.mp living
  rw [Yard.spec?, found] at here
  cases here
  have moved := countP_finish y (p := endedOf task.spec.generation) found
  rw [if_neg (by simp [endedOf, running]), if_pos (by simp [endedOf])] at moved
  exact moved

/-- A sweep all of whose workers have ended is not alive. -/
theorem none_of_sweep (all : y.tasks.countP (ofSweep generation) ≤
    y.tasks.countP (endedOf generation)) {handle : Nat} {worker : Worker}
    (here : y.spec? handle = some worker) (sweep : worker.generation = generation) :
    y.alive handle = false := by
  by_contra living
  rw [Bool.not_eq_false] at living
  have more := endedOf_leave living here
  have bound : (y.finish handle).tasks.countP (endedOf generation) ≤
      (y.finish handle).tasks.countP (ofSweep generation) := by
    refine List.countP_mono_left fun task _ counts => ?_
    exact (Bool.and_eq_true_iff.mp counts).1
  rw [ofSweep_finish] at bound
  rw [sweep] at more
  omega

theorem countP_spawn (y : Yard Worker) (workers : List Worker) (p : Spawned Worker → Bool) :
    (y.spawn workers).tasks.countP p =
      y.tasks.countP p + workers.countP fun worker => p { spec := worker } := by
  rw [Yard.spawn, List.countP_append, List.countP_map]
  rfl

end Counting

/-! ### One step -/

namespace SyncInv

variable {http : Http} {s t : Sync}

theorem fresh (fresh : FreshSync s) : SyncInv s := by
  obtain ⟨workers, gone, calls⟩ := fresh
  have idle : ∀ handle, s.workers.alive handle = false := by
    intro handle
    rw [workers]
    rfl
  refine ⟨?_, fun _ => idle, fun _ => idle, ?_, ?_⟩
  · rw [workers, calls]
    exact Guarded.empty ⟨0, nofun⟩
  · intro handle worker here
    rw [workers] at here
    cases here
  · intro generation
    rw [gone]
    exact Nat.zero_le _

/-- A call arrives; it may move the generation. -/
theorem arrive (inv : SyncInv s) {stage : Stage} (outside : stage.inside = false)
    {generation : Nat} (later : s.generation ≤ generation) (config : PaipuyaConfig) :
    SyncInv { s with config, generation, calls := s.calls ++ [stage] } := by
  have nothing : stage.holds = none := by
    cases stage <;> first | rfl | cases outside
  refine ⟨inv.guarded.append outside nothing, inv.stopped, ?_, ?_, inv.counted⟩
  · intro rewinds
    rcases List.mem_append.mp rewinds with old | new
    · exact inv.rewinding old
    · rw [← List.mem_singleton.mp new] at outside
      cases outside
  · intro handle worker here
    obtain ⟨past, size⟩ := inv.sized handle worker here
    exact ⟨past.trans later, size⟩

/-- A reset finds that nothing runs. -/
theorem arriveRewinding (inv : SyncInv s) (stopped : s.phase = .stopped)
    (nobody : ∀ stage ∈ s.calls, stage.inside = false) :
    SyncInv { s with calls := s.calls ++ [.rewinding] } := by
  refine ⟨?_, inv.stopped, fun _ => inv.stopped stopped, inv.sized, inv.counted⟩
  refine ⟨?_, ?_, ?_⟩
  · exact Alone.append_only nobody _
  · intro none_
    exact inv.guarded.free fun other member => none_ other (List.mem_append_left _ member)
  · intro other member handles holdsIt
    rcases List.mem_append.mp member with old | new
    · exact inv.guarded.held other old handles holdsIt
    · rw [List.mem_singleton.mp new] at holdsIt
      cases holdsIt

/-- A call moves on outside the stretch, or leaves it holding nothing. -/
theorem moved (inv : SyncInv s) {i : Nat} {old stage : Stage} (here : s.calls[i]? = some old)
    (outside : stage.inside = false) (nothing : old.holds = none)
    {generation : Nat} (later : s.generation ≤ generation) :
    SyncInv { s with generation, calls := s.calls.set i stage } := by
  have holdsNone : stage.holds = none := by
    cases stage <;> first | rfl | cases outside
  refine ⟨?_, inv.stopped, ?_, ?_, inv.counted⟩
  · refine inv.guarded.set here ?_ (holdsNone.trans nothing.symm)
    intro within
    rw [outside] at within
    cases within
  · intro rewinds
    rcases List.mem_or_eq_of_mem_set rewinds with was | rfl
    · exact inv.rewinding was
    · cases outside
  · intro handle worker here
    obtain ⟨past, size⟩ := inv.sized handle worker here
    exact ⟨past.trans later, size⟩

/-- The workers are taken while nobody is inside. -/
theorem take (inv : SyncInv s) {i : Nat} {next : Option PaipuyaConfig} {reset : Bool}
    (here : s.calls[i]? = some (.stopping next reset))
    (nobody : ∀ stage ∈ s.calls, stage.inside = false) :
    SyncInv { (s.at i (.waiting s.workers.slot next reset)) with workers := s.workers.take } := by
  have only := OnlyAt.of_nobody nobody i
  refine ⟨inv.guarded.take Stage.inside_of_holds only here rfl rfl, ?_, ?_, ?_, ?_⟩
  · intro stopped handle
    rw [Yard.alive_take]
    exact inv.stopped stopped handle
  · intro rewinds
    rcases List.mem_or_eq_of_mem_set rewinds with old | new
    · exact absurd (nobody _ old) (by decide)
    · cases new
  · intro handle worker found
    rw [Yard.spec?_take] at found
    rw [countP_take s.workers fun _ => rfl]
    exact inv.sized handle worker found
  · intro generation
    rw [countP_take s.workers fun _ => rfl]
    exact inv.counted generation

/-- While a call holds the workers, nothing is being rewound. -/
theorem not_rewinding (inv : SyncInv s) {i : Nat} {old stage : Stage}
    (here : s.calls[i]? = some old) (within : old.inside = true)
    (rewinds : Stage.rewinding ∈ s.calls.set i stage) : stage = .rewinding := by
  rcases inv.guarded.alone.mem_set here within rewinds with same | outside
  · exact same.symm
  · cases outside

theorem oneSweep_nil : OneSweep [] := ⟨0, nofun⟩

/-- A stop has waited for everything it took. -/
theorem advanceStop (inv : SyncInv s) {i : Nat} {handles : List Nat} {reset : Bool}
    {next : Option PaipuyaConfig} (here : s.calls[i]? = some (.waiting handles next reset))
    (finished : s.workers.allEnded handles = true) {stage : Stage} (nothing : stage.holds = none) :
    SyncInv { (s.at i stage) with phase := .stopped, workers := s.workers.close } := by
  obtain ⟨-, specs, kept, -⟩ := inv.guarded.held _ (List.mem_of_getElem? here) handles rfl
  have idle := kept.none_alive finished
  exact ⟨inv.guarded.close Stage.inside_of_holds here rfl finished nothing oneSweep_nil,
    fun _ => idle, fun _ => idle, inv.sized, inv.counted⟩

/-- A start that could not build its client has moved the generation. -/
theorem advanceFailed (inv : SyncInv s) {i : Nat} {handles : List Nat} {reset : Bool}
    {next : Option PaipuyaConfig} (here : s.calls[i]? = some (.waiting handles next reset))
    (finished : s.workers.allEnded handles = true) :
    SyncInv { (s.at i .ended) with generation := s.generation + 1, phase := .running } := by
  refine ⟨inv.guarded.release Stage.inside_of_holds here rfl finished rfl oneSweep_nil, nofun,
    ?_, ?_, inv.counted⟩
  · intro rewinds
    cases inv.not_rewinding here rfl rewinds
  · intro handle worker found
    obtain ⟨past, size⟩ := inv.sized handle worker found
    exact ⟨past.trans (Nat.le_succ _), size⟩

/-- Nobody of a sweep that is yet to come has been spawned. -/
theorem no_future (inv : SyncInv s) {generation : Nat} (later : s.generation < generation) :
    s.workers.tasks.countP (ofSweep generation) = 0 := by
  rw [List.countP_eq_zero]
  intro task member sweep
  obtain ⟨handle, here⟩ := List.mem_iff_getElem?.mp member
  have found : s.workers.spec? handle = some task.spec := by
    rw [Yard.spec?, here]
    rfl
  have past := (inv.sized handle task.spec found).1
  have same : task.spec.generation = generation := by simpa [ofSweep] using sweep
  omega

theorem spawned_sized (inv : SyncInv s) (config : PaipuyaConfig) (handle : Nat) (worker : Worker)
    (found : (s.workers.spawn (sweepOf (s.generation + 1) config)).spec? handle = some worker) :
    worker.generation ≤ s.generation + 1 ∧
      (s.workers.spawn (sweepOf (s.generation + 1) config)).tasks.countP
        (ofSweep worker.generation) = worker.workers := by
  rw [countP_spawn]
  rcases Nat.lt_or_ge handle s.workers.tasks.length with old | new
  · rw [Yard.spec?_spawn_old old] at found
    obtain ⟨past, size⟩ := inv.sized handle worker found
    refine ⟨past.trans (Nat.le_succ _), ?_⟩
    rw [size, List.countP_eq_zero.mpr, Nat.add_zero]
    intro other member sweep
    obtain rfl := List.eq_of_mem_replicate member
    have same : s.generation + 1 = worker.generation := by simpa [ofSweep] using sweep
    omega
  · obtain ⟨i, rfl⟩ := Nat.exists_eq_add_of_le new
    rw [Yard.spec?_spawn_new] at found
    obtain rfl := List.eq_of_mem_replicate (List.mem_of_getElem? found)
    refine ⟨le_refl _, ?_⟩
    rw [inv.no_future (Nat.lt_succ_self _), Nat.zero_add, sweepOf, List.countP_replicate]
    exact if_pos (by simp [ofSweep])

/-- A start spawns its sweep. -/
theorem advanceStart (inv : SyncInv s) {i : Nat} {handles : List Nat} {reset : Bool}
    {next : Option PaipuyaConfig} (here : s.calls[i]? = some (.waiting handles next reset))
    (finished : s.workers.allEnded handles = true) (config : PaipuyaConfig) :
    SyncInv { (s.at i (.publishing (s.workers.fresh (sweepOf (s.generation + 1) config)))) with
      generation := s.generation + 1
      phase := .running
      workers := s.workers.spawn (sweepOf (s.generation + 1) config) } := by
  refine ⟨?_, nofun, ?_, inv.spawned_sized config, ?_⟩
  · refine inv.guarded.spawn Stage.inside_of_holds here rfl finished rfl ⟨s.generation + 1, ?_⟩
    intro worker member
    rw [List.eq_of_mem_replicate member]
  · intro rewinds
    cases inv.not_rewinding here rfl rewinds
  · intro generation
    rw [countP_spawn]
    exact (inv.counted generation).trans (Nat.le_add_right ..)

theorem advance (inv : SyncInv s) {i : Nat} {handles : List Nat} {reset : Bool}
    {next : Option PaipuyaConfig} (here : s.calls[i]? = some (.waiting handles next reset))
    (finished : s.workers.allEnded handles = true) (built : Bool) :
    SyncInv (s.advance i built reset next) := by
  cases next with
  | none =>
      refine inv.advanceStop here finished ?_
      cases reset <;> rfl
  | some config =>
      cases built with
      | true => exact inv.advanceStart here finished config
      | false => exact inv.advanceFailed here finished

theorem publish (inv : SyncInv s) {i : Nat} {handles : List Nat}
    (here : s.calls[i]? = some (.publishing handles)) :
    SyncInv { (s.at i .ended) with workers := s.workers.store handles } := by
  refine ⟨inv.guarded.store Stage.inside_of_holds here rfl rfl, inv.stopped, ?_, inv.sized,
    inv.counted⟩
  intro rewinds
  cases inv.not_rewinding here rfl rewinds

theorem rewound (inv : SyncInv s) {i : Nat} (here : s.calls[i]? = some .rewinding) :
    SyncInv { (s.at i .ended) with workers := s.workers.close } := by
  have idle := inv.rewinding (List.mem_of_getElem? here)
  have left : Guarded Stage.inside Stage.holds OneSweep s.workers (s.calls.set i .ended) :=
    inv.guarded.set here nofun rfl
  exact ⟨left.closeIdle idle, fun _ => idle, fun _ => idle, inv.sized, inv.counted⟩

/-- Two live workers are of one sweep. -/
theorem same_sweep (inv : SyncInv s) {a b : Nat} {p q : Worker}
    (first : s.workers.alive a = true) (second : s.workers.alive b = true)
    (here : s.workers.spec? a = some p) (there : s.workers.spec? b = some q) :
    p.generation = q.generation := by
  obtain ⟨handles, specs, kept, generation, same⟩ := inv.guarded.keeper
  obtain ⟨p', inP, foundP⟩ := kept.spec_of_alive first
  obtain ⟨q', inQ, foundQ⟩ := kept.spec_of_alive second
  obtain rfl := Option.some.inj (here.symm.trans foundP)
  obtain rfl := Option.some.inj (there.symm.trans foundQ)
  rw [same p inP, same q inQ]

theorem spec_of_alive {y : Yard Worker} {handle : Nat} (living : y.alive handle = true) :
    ∃ worker, y.spec? handle = some worker := by
  obtain ⟨task, here, -⟩ := Yard.alive_iff.mp living
  refine ⟨task.spec, ?_⟩
  rw [Yard.spec?, here]
  rfl

/-- The last worker of a sweep leaves nothing alive. -/
theorem last_leaves (inv : SyncInv s) {handle : Nat} {worker : Worker}
    (living : s.workers.alive handle = true) (here : s.workers.spec? handle = some worker)
    (last : (worker.generation :: s.gone).count worker.generation = worker.workers) (other : Nat) :
    (s.workers.finish handle).alive other = false := by
  by_contra still
  rw [Bool.not_eq_false] at still
  have before := Yard.alive_of_finish still
  obtain ⟨peer, there⟩ := spec_of_alive before
  have same := inv.same_sweep before living there here
  have over_ : (s.workers.finish handle).tasks.countP (ofSweep worker.generation) ≤
      (s.workers.finish handle).tasks.countP (endedOf worker.generation) := by
    rw [ofSweep_finish, (inv.sized handle worker here).2, endedOf_leave living here, ← last,
      List.count_cons_self]
    exact Nat.succ_le_succ (inv.counted worker.generation)
  have ended := none_of_sweep over_ (by rwa [Yard.spec?_finish]) same
  rw [still] at ended
  cases ended

/-- A worker ends, with or without its last words. -/
theorem finish (inv : SyncInv s) (handle : Nat) {phase : ServicePhase} {gone : List Nat}
    (idle : phase = .stopped → ∀ other, (s.workers.finish handle).alive other = false)
    (counted : ∀ generation,
      gone.count generation ≤ (s.workers.finish handle).tasks.countP (endedOf generation)) :
    SyncInv { s with phase, gone, workers := s.workers.finish handle } := by
  refine ⟨inv.guarded.finish handle, idle, ?_, ?_, counted⟩
  · intro rewinds other
    by_contra still
    rw [Bool.not_eq_false] at still
    have before := Yard.alive_of_finish still
    rw [inv.rewinding rewinds other] at before
    cases before
  · intro other worker found
    rw [Yard.spec?_finish] at found
    rw [ofSweep_finish]
    exact inv.sized other worker found

theorem abort (inv : SyncInv s) (handle : Nat) :
    SyncInv { s with workers := s.workers.finish handle } := by
  refine inv.finish handle ?_ fun generation =>
    (inv.counted generation).trans (endedOf_finish s.workers handle)
  intro stopped other
  by_contra still
  rw [Bool.not_eq_false] at still
  have before := Yard.alive_of_finish still
  rw [inv.stopped stopped other] at before
  cases before

theorem leave (inv : SyncInv s) {handle : Nat} {worker : Worker} (failed : Bool)
    (living : s.workers.alive handle = true) (here : s.workers.spec? handle = some worker) :
    SyncInv (s.leave handle worker failed) := by
  refine inv.finish handle ?_ ?_
  · intro stopped
    cases failed with
    | true =>
        simp only [if_true, bne_self_eq_false, Bool.and_false, Bool.false_eq_true, if_false] at stopped
        cases stopped
    | false =>
        simp only [Bool.false_eq_true, if_false] at stopped
        split at stopped
        · rename_i last
          simp only [Bool.and_eq_true, beq_iff_eq] at last
          exact inv.last_leaves living here last.1.1
        · -- The phase was stopped already, while this worker was alive.
          have idle := inv.stopped stopped handle
          rw [living] at idle
          cases idle
  · intro generation
    by_cases same : worker.generation = generation
    · subst same
      rw [List.count_cons_self, endedOf_leave living here]
      exact Nat.succ_le_succ (inv.counted worker.generation)
    · rw [List.count_cons_of_ne same]
      exact (inv.counted generation).trans (endedOf_finish s.workers handle)

end SyncInv

/-! ## Whole runs -/

theorem nobody_of_free {s : Sync} (free : s.nobodyInside = true) :
    ∀ stage ∈ s.calls, stage.inside = false := by
  intro stage member
  have out := List.all_eq_true.mp free stage member
  simpa using out

/-- A call that stands where it may be dropped holds no workers. -/
theorem droppable {s : Sync} {call : Nat} {stage : Stage} (here : s.calls[call]? = some stage)
    (allowed : serial s (.drop call) = true) : stage.holds = none := by
  rw [serial, here] at allowed
  cases stage <;> first | rfl | cases allowed

theorem step_inv {http : Http} {s t : Sync} {action : Action} (inv : SyncInv s)
    (allowed : serial s action = true) (stepped : s.step http action = some t) : SyncInv t := by
  cases action with
  | start =>
      cases stepped
      exact inv.arrive rfl (le_refl _) s.config
  | stop =>
      cases stepped
      exact inv.arrive rfl (Nat.le_succ _) s.config
  | resetCursors =>
      simp only [Sync.step] at stepped
      split at stepped
      · rename_i stopped
        cases stepped
        have free : s.nobodyInside = true := by simpa [serial, stopped] using allowed
        exact inv.arriveRewinding stopped (nobody_of_free free)
      · cases stepped
        exact inv.arrive rfl (Nat.le_succ _) s.config
  | updateConfig next written =>
      simp only [Sync.step] at stepped
      split at stepped
      · cases stepped
        exact inv
      · split at stepped
        · cases stepped
          exact inv.arrive rfl (le_refl _) _
        · cases stepped
          exact inv
  | proceed call =>
      simp only [Sync.step] at stepped
      split at stepped
      · rename_i here
        cases stepped
        exact inv.moved here rfl rfl (le_refl _)
      · rename_i here
        cases stepped
        exact inv.moved here rfl rfl (Nat.le_succ _)
      · cases stepped
  | take call =>
      simp only [Sync.step] at stepped
      split at stepped
      · rename_i here
        cases stepped
        exact inv.take here (nobody_of_free allowed)
      · cases stepped
  | advance call built =>
      simp only [Sync.step] at stepped
      split at stepped
      · rename_i here
        split at stepped
        · rename_i finished
          cases stepped
          exact inv.advance here finished built
        · cases stepped
      · cases stepped
  | publish call =>
      simp only [Sync.step] at stepped
      split at stepped
      · rename_i here
        cases stepped
        exact inv.publish here
      · cases stepped
  | rewound call =>
      simp only [Sync.step] at stepped
      split at stepped
      · rename_i here
        cases stepped
        exact inv.rewound here
      · cases stepped
  | drop call =>
      simp only [Sync.step] at stepped
      split at stepped
      · cases stepped
      · rename_i here
        cases stepped
        exact inv.moved here rfl (droppable here allowed) (le_refl _)
      · cases stepped
  | write handle =>
      simp only [Sync.step] at stepped
      split at stepped
      · cases stepped
        exact ⟨inv.guarded, inv.stopped, inv.rewinding, inv.sized, inv.counted⟩
      · cases stepped
  | leave handle failed =>
      simp only [Sync.step] at stepped
      split at stepped
      · rename_i here
        split at stepped
        · rename_i living
          cases stepped
          exact inv.leave failed living here
        · cases stepped
      · cases stepped
  | abort handle =>
      cases stepped
      exact inv.abort handle

theorem SyncInv.safe {s : Sync} (inv : SyncInv s) : s.Safe where
  oneSweep _ _ _ _ first second here there := inv.same_sweep first second here there
  writesLate http handle t stepped := by
    simp only [Sync.step] at stepped
    split at stepped
    · rename_i living
      obtain ⟨handles, specs, kept, -⟩ := inv.guarded.keeper
      exact kept.late handle living
    · cases stepped

/-- **One sweep at a time, and no late writes.**  In every run whose stretches do not
overlap, one sweep is alive, and a worker that can write was started after the last stop
or reset that returned. -/
theorem sync_safe {http : Http} {start final : Sync} {actions : List Action}
    (fresh : FreshSync start)
    (turns : (syncMachine http).Meets (fun s a => serial s a = true) start actions)
    (ran : (syncMachine http).run start actions = some final) : final.Safe := by
  have inv : SyncInv final := by
    refine Machine.run_preserves_of_meets ?_ turns ran (SyncInv.fresh fresh)
    intro s action t inv allowed stepped
    exact step_inv inv allowed stepped
  exact inv.safe

/-! ## Two starts -/

def plainHttp : Http where
  urls := plainUrls
  headerName := fun name => name == "authorization"

/-- A sync of one worker. -/
def oneWorker : Sync where
  config :=
    { revision := 1, enabled := true, concurrency := 1
      startFrom := .ofParts 0 0 rfl }

/-- A sweep that writes a page, a reset, and a sweep that writes another and ends. -/
def sweepResetSweep : List Action :=
  [.start, .take 0, .advance 0 true, .publish 0, .write 0,
    .resetCursors, .take 1, .abort 0, .advance 1 true, .rewound 1,
    .start, .take 2, .advance 2 true, .publish 2, .write 1, .leave 1 false]

theorem sync_safe_sweepResetSweep :
    ∃ final, (syncMachine plainHttp).run oneWorker sweepResetSweep = some final ∧
      (final.written = [1, 0] ∧ final.workers.barrier = 1 ∧ final.phase = .stopped) ∧
      final.Safe := by
  obtain ⟨final, ran, shown⟩ : ∃ final,
      (syncMachine plainHttp).run oneWorker sweepResetSweep = some final ∧
      (final.written = [1, 0] ∧ final.workers.barrier = 1 ∧ final.phase = .stopped) :=
    Machine.run_exists (by decide +kernel)
  exact ⟨final, ran, shown, sync_safe ⟨rfl, rfl, rfl⟩ (by decide +kernel) ran⟩

/-- Two starts, each past the other's `stop_tasks` before either stores its workers; then
a reset, which finds the second start's worker only. -/
def startTwiceThenReset : List Action :=
  [.start, .start, .take 0, .take 1, .advance 0 true, .advance 1 true, .publish 0, .publish 1,
    .resetCursors, .take 2, .abort 1, .advance 2 true, .rewound 2]

/-- **Two overlapping starts run two sweeps, and the first writes after the reset.** -/
theorem reset_undone :
    FreshSync oneWorker ∧
    (∃ middle, (syncMachine plainHttp).run oneWorker (startTwiceThenReset.take 8) = some middle ∧
      middle.workers.alive 0 = true ∧ middle.workers.alive 1 = true ∧
      middle.workers.spec? 0 = some ⟨1, 1⟩ ∧ middle.workers.spec? 1 = some ⟨2, 1⟩) ∧
    ∃ final, (syncMachine plainHttp).run oneWorker startTwiceThenReset = some final ∧
      final.calls = [.ended, .ended, .ended] ∧ final.workers.barrier = 2 ∧
      (final.step plainHttp (.write 0)).isSome = true ∧ ¬ final.Safe := by
  refine ⟨⟨rfl, rfl, rfl⟩, Machine.run_exists (by decide +kernel), ?_⟩
  obtain ⟨final, ran, returned, barrier, writes⟩ : ∃ final,
      (syncMachine plainHttp).run oneWorker startTwiceThenReset = some final ∧
      final.calls = [.ended, .ended, .ended] ∧ final.workers.barrier = 2 ∧
      (final.step plainHttp (.write 0)).isSome = true :=
    Machine.run_exists (by decide +kernel)
  refine ⟨final, ran, returned, barrier, writes, fun safe => ?_⟩
  obtain ⟨after, stepped⟩ := Option.isSome_iff_exists.mp writes
  have late := safe.writesLate plainHttp 0 after stepped
  omega

end MajsoulManager.Paipuya
