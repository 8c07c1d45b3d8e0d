/-
# Watch.Supervisor — start, stop, reload and update_config, in any order of steps

`WatchSupervisor` of `watch_service.rs`.  A call is cut at its awaits: `start` reads the
configuration, probes the modules, takes and aborts the tasks, waits for them, spawns one
collector an active instance and stores the handles; `stop` is the part in the middle.
Nothing serialises two calls, and a caller that goes away drops its call wherever it is.

`supervisor_safe`: while no two calls are between taking the tasks and their end, and
none is dropped there, one generation is alive at a time, every live collector can be
reached by a stop, and no collector survives one.  `two_starts_two_generations` is what
two overlapping starts do.
-/
import MajsoulManager.Watch.Config
import MajsoulManager.Theory.Handles
import MajsoulManager.Theory.Machine

namespace MajsoulManager.Watch

open MajsoulManager.Theory
open MajsoulManager.Accounts

set_option autoImplicit false

/-! ## Calls cut at their awaits -/

/-- What a collector task was spawned with. -/
structure Collector where
  generation : Nat
  config : WatchServiceConfig
  collects : WatchInstance
  deriving DecidableEq, Repr

/-- Where a call stands. -/
inductive Stage where
  /-- `update_config` probes the modules of the configuration it was given. -/
  | checking (next : WatchServiceConfig)
  /-- `update_config` at the lock of the configuration. -/
  | committing (next : WatchServiceConfig)
  /-- `update_config` has stored a configuration, and reloads or stops next. -/
  | stored (enabled : Bool)
  /-- `start` has read the configuration and probes its modules. -/
  | probing (config : WatchServiceConfig) (owes : Bool)
  /-- At `stop_tasks`: of a start with its configuration, or of a stop. -/
  | stopping (next : Option WatchServiceConfig) (owes : Bool)
  /-- `stop_tasks` has taken and aborted the tasks, and awaits them. -/
  | waiting (handles : List Nat) (next : Option WatchServiceConfig)
  /-- `start` has spawned the collectors, and is about to store their handles. -/
  | publishing (handles : List Nat)
  | ended
  deriving DecidableEq, Repr

/-- Between taking the tasks and the end of the call. -/
def Stage.inside : Stage → Bool
  | .waiting .. => true
  | .publishing .. => true
  | _ => false

/-- The call has stored a configuration, and has not yet taken the tasks for it. -/
def Stage.owes : Stage → Bool
  | .stored _ => true
  | .probing _ owes => owes
  | .stopping _ owes => owes
  | _ => false

structure Supervisor where
  config : WatchServiceConfig
  generation : Nat := 0
  yard : Yard Collector := {}
  calls : List Stage := []
  deriving DecidableEq, Repr

inductive Action where
  /-- A call of `start`, by itself or from `reload` or `start_if_enabled`. -/
  | start
  | stop
  | updateConfig (next : WatchServiceConfig) (newKey : Nat → String)
  /-- The probes of a call have answered. -/
  | probed (call : Nat) (passed : Bool)
  /-- The block under the lock; the write of the file may fail. -/
  | commit (call : Nat) (written : Bool)
  | proceed (call : Nat)
  | take (call : Nat)
  /-- Everything the call awaits has ended. -/
  | advance (call : Nat)
  | publish (call : Nat)
  /-- The caller goes away, and its call is dropped where it stands. -/
  | drop (call : Nat)
  /-- A collector ends, by itself or because it was aborted. -/
  | finish (handle : Nat)

/-- One collector an active instance. -/
def collectorsOf (generation : Nat) (config : WatchServiceConfig) : List Collector :=
  config.activeInstances.map fun instance_ => ⟨generation, config, instance_⟩

section Machine

variable (lower : String → String) (urls : Urls) (secrets : Secrets)

def Supervisor.at (s : Supervisor) (call : Nat) (stage : Stage) : Supervisor :=
  { s with calls := s.calls.set call stage }

/-- The block of `update_config` under the configuration's lock. -/
def Supervisor.commit (s : Supervisor) (call : Nat) (next : WatchServiceConfig) (written : Bool) :
    Supervisor :=
  if next.revision = s.config.revision ∧ written then
    let next := { next with
      customProxyUrl := restoredProxy urls next.customProxyUrl s.config.customProxyUrl
      revision := saturatingSucc s.config.revision }
    { (s.at call (.stored next.enabled)) with config := next }
  else s.at call .ended

/-- The tasks awaited have ended: a stop returns, a start spawns. -/
def Supervisor.advance (s : Supervisor) (call : Nat) : Option WatchServiceConfig → Supervisor
  | none => { (s.at call .ended) with yard := s.yard.close }
  | some config =>
      let collectors := collectorsOf (s.generation + 1) config
      { (s.at call (.publishing (s.yard.fresh collectors))) with
        generation := s.generation + 1
        yard := s.yard.spawn collectors }

def Supervisor.step (s : Supervisor) : Action → Option Supervisor
  | .start => some { s with calls := s.calls ++ [.probing s.config false] }
  | .stop => some { s with calls := s.calls ++ [.stopping none false] }
  | .updateConfig next newKey =>
      let next := next.mintMissingKeys newKey
      match acceptConfig lower urls secrets next with
      | .error _ => some s
      | .ok () => some { s with calls := s.calls ++ [.checking next] }
  | .probed call passed =>
      match s.calls[call]? with
      | some (.checking next) => some (s.at call (if passed then .committing next else .ended))
      | some (.probing config owes) =>
          some (s.at call (if passed then .stopping (some config) owes else .ended))
      | _ => none
  | .commit call written =>
      match s.calls[call]? with
      | some (.committing next) => some (s.commit urls call next written)
      | _ => none
  | .proceed call =>
      match s.calls[call]? with
      | some (.stored enabled) =>
          some (s.at call (if enabled then .probing s.config true else .stopping none true))
      | _ => none
  | .take call =>
      match s.calls[call]? with
      | some (.stopping next _) =>
          some { (s.at call (.waiting s.yard.slot next)) with yard := s.yard.take }
      | _ => none
  | .advance call =>
      match s.calls[call]? with
      | some (.waiting handles next) =>
          if s.yard.allEnded handles then some (s.advance call next) else none
      | _ => none
  | .publish call =>
      match s.calls[call]? with
      | some (.publishing handles) =>
          some { (s.at call .ended) with yard := s.yard.store handles }
      | _ => none
  | .drop call =>
      match s.calls[call]? with
      | some .ended => none
      | some _ => some (s.at call .ended)
      | none => none
  | .finish handle => some { s with yard := s.yard.finish handle }

/-- A service that has just been built, on a configuration that asks for collectors
that can run together. -/
def FreshSupervisor (s : Supervisor) : Prop :=
  s.config.instances.Pairwise (Apart lower secrets) ∧ s.yard = {} ∧ s.calls = []

def supervisorMachine : Machine Supervisor Action where
  Start := FreshSupervisor lower secrets
  step := Supervisor.step lower urls secrets

end Machine

/-! ## What is asked of a run -/

def Supervisor.nobodyInside (s : Supervisor) : Bool := s.calls.all fun stage => !stage.inside

/-- Nothing runs, and nobody is about to start anything. -/
def Supervisor.quiet (s : Supervisor) : Bool :=
  s.nobodyInside && s.yard.allEnded (List.range s.yard.tasks.length)

/-- The tasks are taken only while no other call is inside, and by a start only if the
configuration it read is the stored one or another call has stored one and not yet
taken the tasks for it; no call is dropped inside; and a call that has stored a
configuration is neither dropped nor refused by its probe before it takes the tasks,
unless nothing runs. -/
def serial (s : Supervisor) : Action → Bool
  | .take call =>
      s.nobodyInside &&
        match s.calls[call]? with
        | some (.stopping (some config) _) =>
            config = s.config || (s.calls.eraseIdx call).any Stage.owes
        | _ => true
  | .probed call false => s.quiet || s.calls[call]?.all fun stage => !stage.owes
  | .drop call =>
      s.calls[call]?.all fun stage => !stage.inside && (s.quiet || !stage.owes)
  | _ => true

/-! ## What is promised -/

/-- A live collector and who can end it: the list a stop aborts, a stop that has aborted
it and awaits it, or the start that is about to store it. -/
def Supervisor.Held (s : Supervisor) (handle : Nat) : Prop :=
  handle ∈ s.yard.slot ∨
    (∃ handles next, Stage.waiting handles next ∈ s.calls ∧ handle ∈ handles ∧
      ∀ task, s.yard.tasks[handle]? = some task → task.aborted = true) ∨
    ∃ handles, Stage.publishing handles ∈ s.calls ∧ handle ∈ handles

/-- The collectors are those of the stored configuration, or none. -/
def Supervisor.Settled (s : Supervisor) : Prop :=
  (∀ handle, s.yard.alive handle = false) ∨
    (∀ handle, s.yard.alive handle = true → handle ∈ s.yard.slot) ∧
      ∃ generation, s.yard.slot.map s.yard.spec? = (collectorsOf generation s.config).map some

structure Supervisor.Safe (lower : String → String) (secrets : Secrets) (s : Supervisor) : Prop where
  oneGeneration : ∀ a b p q, s.yard.alive a = true → s.yard.alive b = true →
    s.yard.spec? a = some p → s.yard.spec? b = some q → p.generation = q.generation
  held : ∀ handle, s.yard.alive handle = true → s.Held handle
  settled : (∀ stage ∈ s.calls, stage = .ended) → s.Settled
  apart : ∀ a b, a ≠ b → s.yard.alive a = true → s.yard.alive b = true →
    ∃ p q, s.yard.spec? a = some p ∧ s.yard.spec? b = some q ∧
      Apart lower secrets p.collects q.collects
  stopped : ∀ handle, s.yard.alive handle = true → s.yard.barrier ≤ handle

end MajsoulManager.Watch
