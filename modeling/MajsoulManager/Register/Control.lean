/-
# Register.Control — one run at a time, stopped when asked, and its exits given back

`start`, `stop`, `run`, `lease_exits` and `release_exits` of `register_service.rs`, over
`lease_outbound_nodes` and `release_outbound_nodes` of `mihomo.rs`.  Calls of `start` and
`stop` and the runs they start or stop are interleaved step by step.  The running flag, the
generation and the lease are written at different moments:

* `start` sets the flag, lets go of the lock, and only then reads the generation: a stop
  that moves it in between is read as the run's own, and lost;
* a lease is there before the outbounds are filed, and where that fails nothing takes it
  back.

`control_orderly` says that these two are all: but for them, and for a generation that
comes round to the one a run has read, there is at most one run, a stop is heeded, and a
lease ends with its run.

What mihomo, the account pool, the module and the mail source answer is in the events.
-/
import MajsoulManager.Register.Batch

namespace MajsoulManager.Register

open MajsoulManager.Theory

set_option autoImplicit false

/-! ## Runs -/

/-- How far a run is.  It is `marked` when `start` has set the flag. -/
inductive Phase where
  | marked
  | spawned
  | filing
  | filed
  | opening (exits : List String)
  | registering
  | returning (outcome : Except String Ending)
  | finishing (outcome : Except String Ending)
  | ended (outcome : Except String Ending)

structure Run where
  request : AccountRegisterRequest
  jobs : List (Option String)
  generation : Option UInt64 := none
  phase : Phase := .marked
  batch : Option Batch := none

namespace Run

def inProgress (run : Run) : Bool :=
  match run.phase with
  | .ended _ => false
  | _ => true

/-- A run that has a lease to give back. -/
def holds (run : Run) : Bool :=
  match run.phase with
  | .marked | .spawned | .finishing _ | .ended _ => false
  | _ => run.request.randomNode

def launched (run : Run) : Nat := run.batch.elim 0 Batch.launched

/-- Whether the launch of an account is under way: the loop has looked at the generation. -/
def underWay (run : Run) : Nat :=
  run.batch.elim 0 fun batch =>
    match batch.loop with
    | .unstopped _ | .cleared _ => 1
    | _ => 0

/-- What `run` does once `registered` has returned. -/
def returned (run : Run) (outcome : Except String Ending) : Run :=
  { run with phase := if run.request.randomNode then .returning outcome else .finishing outcome }

end Run

/-- `nodes_to_borrow`. -/
def nodesToBorrow (held : List String) (want : Nat) : List String → List String → List String
  | borrowed, [] => borrowed
  | borrowed, node :: rest =>
      if want ≤ borrowed.length then borrowed
      else if held.contains node || borrowed.contains node then
        nodesToBorrow held want borrowed rest
      else nodesToBorrow held want (borrowed ++ [node]) rest

/-- The message of a run. -/
def message : Except String Ending → String
  | .ok ending => ending.message
  | .error error => s!"注册中断：{error}"

/-! ## The service -/

structure Service where
  running : Bool := false
  message : Option String := none
  generation : UInt64 := 0
  leased : List String := []
  /-- Every run there was, the oldest first. -/
  runs : List Run := []
  /-- The calls of `stop` that have seen the flag and not moved the generation yet, each
  with the run whose flag it saw. -/
  stops : List Nat := []

/-- What a run meets next. -/
inductive Event where
  | spawn
  | lease (alive held : List String)
  | file (result : Except String Unit)
  | readBack (usable : List String)
  | opened (result : Except String String)
  | batch (action : Action)
  | conclude
  | release
  | finish

namespace Service

def put (service : Service) (i : Nat) (run : Run) : Service :=
  { service with runs := service.runs.set i run }

/-- `start` under its lock. -/
def start (service : Service) (request : AccountRegisterRequest) (jobs : List (Option String)) :
    Except String Service :=
  if service.running then
    .error "invalid watch configuration: 已经有一批在注册了，等它结束或者先停掉"
  else
    .ok { service with
      running := true
      message := none
      runs := service.runs ++ [{ request := request, jobs := jobs }] }

/-- `stop` up to its look at the flag. -/
def stop (service : Service) : Bool × Service :=
  if service.running then
    (true, { service with stops := service.stops ++ [service.runs.length - 1] })
  else (false, service)

/-- The `fetch_add` of a `stop` that has seen the flag, which then returns true. -/
def bump (service : Service) (k : Nat) : Option Service :=
  service.stops[k]?.map fun _ =>
    { service with generation := service.generation + 1, stops := service.stops.eraseIdx k }

/-- The loop of a batch looks at the generation of the service. -/
def shows (service : Service) (run : Run) : Action → Bool
  | .loop moved => moved == (run.generation != some service.generation)
  | .account _ _ => true

/-- The next step of a run. -/
def advance (service : Service) (i : Nat) (run : Run) : Event → Option Service
  | .spawn =>
      match run.phase with
      | .marked => some
          (service.put i { run with generation := some service.generation, phase := .spawned })
      | _ => none
  | .lease alive held =>
      match run.phase with
      | .spawned =>
          if run.request.randomNode then
            if alive.isEmpty then
              some (service.put i { run with
                phase := .finishing (.error "invalid watch configuration: mihomo 里一个活着的节点都没有：订阅可能还没拉到，或者节点全都测不通") })
            else
              let want := concurrencyFor run.request.concurrency run.jobs.length
              some { service.put i { run with phase := .filing } with
                leased := nodesToBorrow held want [] alive }
          else some (service.put i { run with phase := .opening [] })
      | _ => none
  | .file result =>
      match run.phase, result with
      | .filing, .ok () => some (service.put i { run with phase := .filed })
      | .filing, .error error => some
          (service.put i { run with
            phase := .finishing (.error s!"invalid watch configuration: 登记出口失败：{error}") })
      | _, _ => none
  | .readBack usable =>
      match run.phase with
      | .filed =>
          if usable.isEmpty then
            some (service.put i { run with
              phase := .returning (.error "invalid watch configuration: 出口登记了但 mihomo 没把监听建起来，这批没跑；看一眼代理页，多半是订阅或者 mihomo 本身有问题") })
          else some (service.put i { run with phase := .opening usable })
      | _ => none
  | .opened result =>
      match run.phase, result with
      | .opening exits, .ok version => some
          (service.put i { run with
            phase := .registering
            batch := some (.start run.request exits version run.jobs) })
      | .opening _, .error error => some (service.put i (run.returned (.error error)))
      | _, _ => none
  | .batch action =>
      match run.phase, run.batch with
      | .registering, some batch =>
          if service.shows run action then
            (registration.step batch action).map fun batch =>
              service.put i { run with batch := some batch }
          else none
      | _, _ => none
  | .conclude =>
      match run.phase, run.batch.map Batch.loop with
      | .registering, some (.reported _ ending) =>
          some (service.put i (run.returned (.ok ending)))
      | _, _ => none
  | .release =>
      match run.phase with
      | .returning outcome => some
          { service.put i { run with phase := .finishing outcome } with leased := [] }
      | _ => none
  | .finish =>
      match run.phase with
      | .finishing outcome => some
          { service.put i { run with phase := .ended outcome } with
            running := false
            message := some (Register.message outcome) }
      | _ => none

end Service

/-- A step of the service: of a call, or of a run. -/
inductive Step where
  | start (request : AccountRegisterRequest) (jobs : List (Option String))
  | stop
  | bump (k : Nat)
  | run (i : Nat) (event : Event)

/-- The service, from its start on. -/
def control : Machine Service Step where
  Start service := service = {}
  step
    | service, .start request jobs => some ((service.start request jobs).toOption.getD service)
    | service, .stop => some service.stop.2
    | service, .bump k => service.bump k
    | service, .run i event => service.runs[i]?.bind fun run => service.advance i run event

/-- What keeps a stop and a lease from being lost: no stop moves the generation between a
run's mark and its look at it, the generation does not come round to the one a run has read,
and the outbounds are filed, when anything was borrowed. -/
def Orderly (service : Service) : Step → Prop
  | .bump k =>
      (∀ i ∈ service.stops[k]?, ∀ run ∈ service.runs[i]?, run.generation.isSome = true) ∧
      ∀ run ∈ service.runs, run.inProgress = true → run.generation ≠ some (service.generation + 1)
  | .run _ (.file (.error _)) => service.leased = []
  | _ => True

instance (service : Service) (action : Step) : Decidable (Orderly service action) := by
  unfold Orderly
  split <;> infer_instance

/-! ## What a step of a run can do -/

/-- A run has read the generation once it is no longer marked. -/
def Run.Read (run : Run) : Prop := run.generation.isSome = true ↔ run.phase ≠ .marked

/-- What a step of a run does to the run and to what it shares. -/
structure Moves (service : Service) (i : Nat) (run moved : Run) (next : Service) : Prop where
  runs : next.runs = service.runs.set i moved
  generation : next.generation = service.generation
  stops : next.stops = service.stops
  inProgress : run.inProgress = true
  running : next.running = (service.running && moved.inProgress)
  read : moved.Read
  kept : run.generation.isSome = true → moved.generation = run.generation
  lease : next.leased = [] ∨ moved.holds = true ∨
    (next.leased = service.leased ∧ run.holds = false)
  heeds : run.generation.isSome = true → run.generation ≠ some service.generation →
    moved.launched + moved.underWay ≤ run.launched + run.underWay

theorem Batch.budget_of_step {batch next : Batch} {action : Action}
    (stopped : ∀ moved, action = .loop moved → moved = true)
    (stepped : registration.step batch action = some next) (run : Run) :
    { run with batch := some next }.launched + { run with batch := some next }.underWay ≤
      { run with batch := some batch }.launched + { run with batch := some batch }.underWay := by
  cases action with
  | loop moved =>
      obtain rfl := stopped moved rfl
      obtain ⟨at_, -, rfl⟩ | ⟨_, _, at_, -, -, rfl⟩ | ⟨_, at_, -, rfl⟩ | ⟨_, at_, never, rfl⟩ |
        ⟨_, at_, -, rfl⟩ | ⟨_, at_, -, rfl⟩ | ⟨_, at_, rfl⟩ | ⟨_, at_, -, rfl⟩ :=
          Batch.advance_cases stepped
      on_goal 4 => cases never
      all_goals simp [Run.launched, Run.underWay, Batch.launch, at_]
  | account i landing =>
      obtain ⟨task, here, moved⟩ := Batch.account_cases stepped
      obtain ⟨_, -, rfl⟩ | ⟨_, -, rfl⟩ | ⟨_, -, rfl⟩ | ⟨_, -, rfl⟩ := moved
      all_goals exact Nat.le_refl _

/-- A step that only moves a run on. -/
theorem Moves.put {service : Service} {i : Nat} {run moved : Run} (open_ : run.inProgress = true)
    (still : moved.inProgress = true) (read : moved.Read)
    (generation : moved.generation = run.generation) (batch : moved.batch = run.batch)
    (lease : service.leased = [] ∨ moved.holds = true ∨ run.holds = false) :
    Moves service i run moved (service.put i moved) where
  runs := rfl
  generation := rfl
  stops := rfl
  inProgress := open_
  running := by rw [still, Bool.and_true]; rfl
  read := read
  kept := fun _ => generation
  lease := lease.imp_right (Or.imp_right fun free => ⟨rfl, free⟩)
  heeds := fun _ _ => by rw [Run.launched, Run.underWay, batch, Run.launched, Run.underWay]

theorem Run.returned_inProgress (run : Run) (outcome : Except String Ending) :
    (run.returned outcome).inProgress = true := by
  unfold Run.returned Run.inProgress
  cases run.request.randomNode <;> rfl

theorem Run.returned_unmarked (run : Run) (outcome : Except String Ending) :
    (run.returned outcome).phase ≠ .marked := by
  unfold Run.returned
  cases run.request.randomNode <;> simp

/-- A run that has its exits leased goes on to give them back. -/
theorem Run.returned_holds {run : Run} (holds : run.holds = run.request.randomNode)
    (outcome : Except String Ending) : (run.returned outcome).holds = run.holds := by
  rw [holds]
  unfold Run.returned Run.holds
  cases run.request.randomNode <;> rfl

theorem kept_or_free {before after : Bool} (same : after = before) : after = true ∨ before = false := by
  subst same
  cases after <;> simp

/-- A run that was stopped hears of it when its loop looks at the generation. -/
theorem stopped {service : Service} {run : Run} {action : Action}
    (stale : run.generation ≠ some service.generation) (shown : service.shows run action = true) :
    ∀ moved, action = .loop moved → moved = true := by
  rintro moved rfl
  have seen : moved = (run.generation != some service.generation) := by
    simpa [Service.shows] using shown
  exact seen.trans (bne_iff_ne.mpr stale)

theorem moves {service next : Service} {i : Nat} {run : Run} {event : Event} (read : run.Read)
    (orderly : Orderly service (.run i event))
    (stepped : service.advance i run event = some next) : ∃ moved, Moves service i run moved next := by
  have open_ {phase : Phase} (at_ : run.phase = phase) (live : ∀ outcome, phase ≠ .ended outcome) :
      run.inProgress = true := by
    unfold Run.inProgress
    rw [at_]
    cases phase with
    | ended outcome => exact absurd rfl (live outcome)
    | _ => rfl
  have later {phase next : Phase} (at_ : run.phase = phase) (unmarked : phase ≠ .marked)
      (still : next ≠ .marked) : run.generation.isSome = true ↔ next ≠ .marked :=
    iff_of_true (read.mpr (at_ ▸ unmarked)) still
  have holding {phase : Phase} (at_ : run.phase = phase) :
      run.holds = Run.holds { run with phase := phase } := by rw [← at_]
  cases event with
  | spawn =>
      simp only [Service.advance] at stepped
      split at stepped
      next at_ =>
          obtain rfl := Option.some.inj stepped
          exact ⟨_,
            { runs := rfl
              generation := rfl
              stops := rfl
              inProgress := open_ at_ (by simp)
              running := (Bool.and_true _).symm
              read := iff_of_true rfl (by simp)
              kept := fun already => absurd at_ (read.mp already)
              lease := .inr (.inr ⟨rfl, holding at_⟩)
              heeds := fun _ _ => Nat.le_refl _ }⟩
      next => cases stepped
  | lease alive held =>
      simp only [Service.advance] at stepped
      split at stepped
      next at_ =>
          have free : run.holds = false := holding at_
          split at stepped
          next random =>
              split at stepped
              · obtain rfl := Option.some.inj stepped
                exact ⟨_, .put (open_ at_ (by simp)) rfl (later at_ (by simp) (by simp)) rfl rfl
                  (.inr (.inr free))⟩
              · obtain rfl := Option.some.inj stepped
                exact ⟨_,
                  { runs := rfl
                    generation := rfl
                    stops := rfl
                    inProgress := open_ at_ (by simp)
                    running := (Bool.and_true _).symm
                    read := later at_ (by simp) (by simp)
                    kept := fun _ => rfl
                    lease := .inr (.inl random)
                    heeds := fun _ _ => Nat.le_refl _ }⟩
          next =>
              obtain rfl := Option.some.inj stepped
              exact ⟨_, .put (open_ at_ (by simp)) rfl (later at_ (by simp) (by simp)) rfl rfl
                (.inr (.inr free))⟩
      next => cases stepped
  | file result =>
      simp only [Service.advance] at stepped
      split at stepped
      next at_ =>
          obtain rfl := Option.some.inj stepped
          exact ⟨_, .put (open_ at_ (by simp)) rfl (later at_ (by simp) (by simp)) rfl rfl
            (.inr (kept_or_free (holding at_).symm))⟩
      next at_ =>
          obtain rfl := Option.some.inj stepped
          exact ⟨_, .put (open_ at_ (by simp)) rfl (later at_ (by simp) (by simp)) rfl rfl
            (.inl orderly)⟩
      next => cases stepped
  | readBack usable =>
      simp only [Service.advance] at stepped
      split at stepped
      next at_ =>
          split at stepped
          · obtain rfl := Option.some.inj stepped
            exact ⟨_, .put (open_ at_ (by simp)) rfl (later at_ (by simp) (by simp)) rfl rfl
              (.inr (kept_or_free (holding at_).symm))⟩
          · obtain rfl := Option.some.inj stepped
            exact ⟨_, .put (open_ at_ (by simp)) rfl (later at_ (by simp) (by simp)) rfl rfl
              (.inr (kept_or_free (holding at_).symm))⟩
      next => cases stepped
  | opened result =>
      simp only [Service.advance] at stepped
      split at stepped
      next exits version at_ =>
          obtain rfl := Option.some.inj stepped
          exact ⟨_,
            { runs := rfl
              generation := rfl
              stops := rfl
              inProgress := open_ at_ (by simp)
              running := (Bool.and_true _).symm
              read := later at_ (by simp) (by simp)
              kept := fun _ => rfl
              lease := .inr ((kept_or_free (holding at_).symm).imp_right fun free => ⟨rfl, free⟩)
              heeds := fun _ _ => Nat.zero_le _ }⟩
      next exits error at_ =>
          obtain rfl := Option.some.inj stepped
          exact ⟨_, .put (open_ at_ (by simp)) (run.returned_inProgress _)
            (later at_ (by simp) (run.returned_unmarked _)) rfl rfl
            (.inr (kept_or_free (Run.returned_holds (holding at_) _)))⟩
      next => cases stepped
  | batch action =>
      simp only [Service.advance] at stepped
      split at stepped
      next batch at_ here =>
          obtain ⟨shown, moved⟩ := Option.ite_none_right_eq_some.mp stepped
          obtain ⟨after, ran, rfl⟩ := Option.map_eq_some_iff.mp moved
          exact ⟨_,
            { runs := rfl
              generation := rfl
              stops := rfl
              inProgress := open_ at_ (by simp)
              running := by simp only [Run.inProgress, at_, Bool.and_true, Service.put]
              read := later at_ (by simp) (at_ ▸ by simp)
              kept := fun _ => rfl
              lease := .inr ((kept_or_free rfl).imp_right fun free => ⟨rfl, free⟩)
              heeds := fun _ stale => by
                have same : { run with batch := some batch } = run := by rw [← here]
                have budget := Batch.budget_of_step (stopped stale shown) ran run
                rwa [same] at budget }⟩
      next => cases stepped
  | conclude =>
      simp only [Service.advance] at stepped
      split at stepped
      next at_ _ =>
          obtain rfl := Option.some.inj stepped
          exact ⟨_, .put (open_ at_ (by simp)) (run.returned_inProgress _)
            (later at_ (by simp) (run.returned_unmarked _)) rfl rfl
            (.inr (kept_or_free (Run.returned_holds (holding at_) _)))⟩
      next => cases stepped
  | release =>
      simp only [Service.advance] at stepped
      split at stepped
      next at_ =>
          obtain rfl := Option.some.inj stepped
          exact ⟨_,
            { runs := rfl
              generation := rfl
              stops := rfl
              inProgress := open_ at_ (by simp)
              running := (Bool.and_true _).symm
              read := later at_ (by simp) (by simp)
              kept := fun _ => rfl
              lease := .inl rfl
              heeds := fun _ _ => Nat.le_refl _ }⟩
      next => cases stepped
  | finish =>
      simp only [Service.advance] at stepped
      split at stepped
      next at_ =>
          obtain rfl := Option.some.inj stepped
          exact ⟨_,
            { runs := rfl
              generation := rfl
              stops := rfl
              inProgress := open_ at_ (by simp)
              running := (Bool.and_false _).symm
              read := later at_ (by simp) (by simp)
              kept := fun _ => rfl
              lease := .inr (.inr ⟨rfl, holding at_⟩)
              heeds := fun _ _ => Nat.le_refl _ }⟩
      next => cases stepped

/-! ## What holds all along -/

structure Controlled (service : Service) : Prop where
  running : service.runs.countP Run.inProgress = service.running.toNat
  read : ∀ run ∈ service.runs, run.Read
  stops : ∀ i ∈ service.stops, i < service.runs.length
  lease : service.leased = [] ∨ ∃ run ∈ service.runs, run.holds = true

namespace Controlled

variable {service next : Service}

theorem start (controlled : Controlled service) (request : AccountRegisterRequest)
    (jobs : List (Option String)) :
    Controlled ((service.start request jobs).toOption.getD service) := by
  unfold Service.start
  cases running : service.running with
  | true => exact controlled
  | false =>
      have none_ := controlled.running
      rw [running] at none_
      refine ⟨?_, ?_, ?_, ?_⟩
      · show (service.runs ++ [_]).countP Run.inProgress = 1
        rw [List.countP_append, none_]
        rfl
      · intro run member
        rcases List.mem_append.mp member with old | new
        · exact controlled.read run old
        · obtain rfl := List.mem_singleton.mp new
          exact iff_of_false (by simp) (by simp)
      · intro i member
        exact (controlled.stops i member).trans_le (List.length_append ▸ Nat.le_add_right _ _)
      · exact controlled.lease.imp_right fun ⟨run, member, holds⟩ =>
          ⟨run, List.mem_append_left _ member, holds⟩

theorem stop (controlled : Controlled service) : Controlled service.stop.2 := by
  unfold Service.stop
  cases running : service.running with
  | false => exact controlled
  | true =>
      have one := controlled.running
      rw [running] at one
      have some_ : 0 < service.runs.length :=
        Nat.lt_of_lt_of_le (by rw [one]; exact Nat.one_pos) List.countP_le_length
      refine { controlled with running := ?_, stops := ?_ }
      · exact one
      · intro i member
        rcases List.mem_append.mp member with old | new
        · exact controlled.stops i old
        · obtain rfl := List.mem_singleton.mp new
          exact Nat.sub_lt some_ Nat.one_pos

theorem bump (controlled : Controlled service) {k : Nat} (stepped : service.bump k = some next) :
    Controlled next := by
  obtain ⟨-, -, rfl⟩ := Option.map_eq_some_iff.mp stepped
  exact { controlled with stops := fun i member => controlled.stops i (List.mem_of_mem_eraseIdx member) }

theorem moved (controlled : Controlled service) {i : Nat} {run moved : Run}
    (here : service.runs[i]? = some run) (moves : Moves service i run moved next) :
    Controlled next := by
  obtain ⟨inside, -⟩ := List.getElem?_eq_some_iff.mp here
  refine ⟨?_, ?_, ?_, ?_⟩
  · have placed := countP_set_place here Run.inProgress moved
    have before := controlled.running
    have some_ : 0 < service.runs.countP Run.inProgress :=
      List.countP_pos_iff.mpr ⟨run, List.mem_of_getElem? here, moves.inProgress⟩
    rw [moves.runs, moves.running]
    rw [moves.inProgress, Bool.toNat_true] at placed
    cases running : service.running with
    | false =>
        rw [before, running] at some_
        cases some_
    | true =>
        rw [running, Bool.toNat_true] at before
        rw [Bool.true_and]
        omega
  · intro other member
    rw [moves.runs] at member
    rcases List.mem_or_eq_of_mem_set member with old | rfl
    · exact controlled.read other old
    · exact moves.read
  · rw [moves.runs, moves.stops, List.length_set]
    exact controlled.stops
  · rcases moves.lease with none_ | holds | ⟨same, free⟩
    · exact .inl none_
    · exact .inr ⟨moved, moves.runs ▸ List.mem_set inside _, holds⟩
    · rw [same]
      refine controlled.lease.imp_right fun ⟨holder, member, holds⟩ => ⟨holder, ?_, holds⟩
      obtain ⟨j, there⟩ := List.getElem?_of_mem member
      have apart : i ≠ j := by
        rintro rfl
        obtain rfl := Option.some.inj (here.symm.trans there)
        rw [free] at holds
        cases holds
      rw [moves.runs]
      exact List.mem_of_getElem? ((List.getElem?_set_ne apart).trans there)

theorem step (controlled : Controlled service) {action : Step} (orderly : Orderly service action)
    (stepped : control.step service action = some next) : Controlled next := by
  cases action with
  | start request jobs =>
      obtain rfl := Option.some.inj stepped
      exact controlled.start request jobs
  | stop =>
      obtain rfl := Option.some.inj stepped
      exact controlled.stop
  | bump k => exact controlled.bump stepped
  | run i event =>
      obtain ⟨run, here, advanced⟩ := Option.bind_eq_some_iff.mp stepped
      obtain ⟨moved, does⟩ :=
        moves (controlled.read run (List.mem_of_getElem? here)) orderly advanced
      exact controlled.moved here does

end Controlled

/-- A run that was stopped, with the launches it has left. -/
def Stopped (i budget : Nat) (service : Service) : Prop :=
  ∃ run, service.runs[i]? = some run ∧ run.generation.isSome = true ∧
    (run.inProgress = true → run.generation ≠ some service.generation) ∧
    run.launched + run.underWay ≤ budget

theorem Stopped.step {i budget : Nat} {service next : Service} {action : Step}
    (stopped : Stopped i budget service) (controlled : Controlled service)
    (orderly : Orderly service action) (stepped : control.step service action = some next) :
    Stopped i budget next := by
  obtain ⟨run, here, read, stale, left⟩ := stopped
  cases action with
  | start request jobs =>
      obtain rfl := Option.some.inj stepped
      unfold Service.start
      cases service.running with
      | true => exact ⟨run, here, read, stale, left⟩
      | false =>
          refine ⟨run, ?_, read, stale, left⟩
          exact (List.getElem?_append_left (List.getElem?_eq_some_iff.mp here).1).trans here
  | stop =>
      obtain rfl := Option.some.inj stepped
      unfold Service.stop
      cases service.running with
      | true => exact ⟨run, here, read, stale, left⟩
      | false => exact ⟨run, here, read, stale, left⟩
  | bump k =>
      obtain ⟨-, -, rfl⟩ := Option.map_eq_some_iff.mp stepped
      exact ⟨run, here, read, orderly.2 run (List.mem_of_getElem? here), left⟩
  | run j event =>
      obtain ⟨other, there, advanced⟩ := Option.bind_eq_some_iff.mp stepped
      obtain ⟨moved, does⟩ :=
        moves (controlled.read other (List.mem_of_getElem? there)) orderly advanced
      by_cases same : j = i
      · subst same
        obtain rfl := Option.some.inj (here.symm.trans there)
        have kept := does.kept read
        refine ⟨moved, ?_, kept ▸ read, fun _ => ?_, ?_⟩
        · rw [does.runs]
          exact List.getElem?_set_self (List.getElem?_eq_some_iff.mp here).1
        · rw [kept, does.generation]
          exact stale does.inProgress
        · exact (does.heeds read (stale does.inProgress)).trans left
      · refine ⟨run, ?_, read, ?_, left⟩
        · rw [does.runs, List.getElem?_set_ne same]
          exact here
        · rw [does.generation]
          exact stale

namespace Service

def launched (service : Service) (i : Nat) : Nat := service.runs[i]?.elim 0 Run.launched

def underWay (service : Service) (i : Nat) : Nat := service.runs[i]?.elim 0 Run.underWay

/-- Once a `stop` that saw a run has returned true, the run launches the account whose launch
was under way, and no other. -/
def StopsHeeded (service : Service) : Prop :=
  ∀ k i stopped more later, service.stops[k]? = some i → service.bump k = some stopped →
    control.Meets Orderly service (.bump k :: more) → control.run stopped more = some later →
    later.launched i ≤ stopped.launched i + stopped.underWay i

end Service

theorem Controlled.stopsHeeded {service : Service} (controlled : Controlled service) :
    service.StopsHeeded := by
  intro k i stopped more later saw bumped orderly ran
  obtain ⟨run, here⟩ : ∃ run, service.runs[i]? = some run :=
    ⟨_, List.getElem?_eq_getElem (controlled.stops i (List.mem_of_getElem? saw))⟩
  have after := controlled.bump bumped
  obtain ⟨_, -, rfl⟩ := Option.map_eq_some_iff.mp bumped
  have start : Stopped i (run.launched + run.underWay)
      { service with generation := service.generation + 1, stops := service.stops.eraseIdx k } :=
    ⟨run, here, orderly.1.1 i saw run here, orderly.1.2 run (List.mem_of_getElem? here),
      Nat.le_refl _⟩
  obtain ⟨-, last, there, -, -, few⟩ := Machine.run_preserves_of_meets
    (P := fun s => Controlled s ∧ Stopped i (run.launched + run.underWay) s)
    (fun _ _ _ kept orderly stepped =>
      ⟨kept.1.step orderly stepped, kept.2.step kept.1 orderly stepped⟩)
    (orderly.2 _ bumped) ran ⟨after, start⟩
  simp only [Service.launched, Service.underWay, here, there, Option.elim_some]
  exact (Nat.le_add_right _ _).trans few

theorem controlled_empty : Controlled {} where
  running := rfl
  read := fun _ member => absurd member List.not_mem_nil
  stops := fun _ member => absurd member List.not_mem_nil
  lease := .inl rfl

/-- **The control is orderly.**  In every interleaving of starts, stops and runs that loses no
stop and no lease, at most one run is in progress, a stop that returned true is heeded, and
between the runs nothing is leased. -/
theorem control_orderly {actions : List Step} {final : Service}
    (orderly : control.Meets Orderly {} actions) (ran : control.run {} actions = some final) :
    final.runs.countP Run.inProgress ≤ 1 ∧ final.StopsHeeded ∧
      ((∀ run ∈ final.runs, run.inProgress = false) → final.leased = []) := by
  have controlled := Machine.run_preserves_of_meets (P := Controlled)
    (fun _ _ _ kept orderly stepped => kept.step orderly stepped) orderly ran controlled_empty
  refine ⟨?_, controlled.stopsHeeded, fun over_ => ?_⟩
  · rw [controlled.running]
    exact Bool.toNat_le _
  · refine controlled.lease.resolve_right ?_
    rintro ⟨run, member, holds⟩
    have ended := over_ run member
    unfold Run.inProgress at ended
    split at ended
    next _ at_ =>
        unfold Run.holds at holds
        rw [at_] at holds
        cases holds
    next => cases ended

/-- A run with leased exits, up to its loop's first look at the generation; and then a stop
that has seen it. -/
def leasedRun : List Step :=
  [.start { randomNode := true } [none, none], .run 0 .spawn, .run 0 (.lease ["a"] []),
    .run 0 (.file (.ok ())), .run 0 (.readBack ["a"]), .run 0 (.opened (.ok "v")),
    .run 0 (.batch (.loop false)), .run 0 (.batch (.loop false)), .stop]

theorem control_orderly_leased :
    ∃ final, control.run {} leasedRun = some final ∧ final.leased = ["a"] ∧ final.stops = [0] ∧
      final.runs.countP Run.inProgress ≤ 1 ∧ final.StopsHeeded := by
  have found : ∃ final, control.run {} leasedRun = some final ∧ final.leased = ["a"] ∧
      final.stops = [0] := Machine.run_exists (by decide +kernel)
  obtain ⟨final, ran, leased, stops⟩ := found
  have orderly : control.Meets Orderly {} leasedRun := by decide +kernel
  obtain ⟨one, heeded, -⟩ := control_orderly orderly ran
  exact ⟨final, ran, leased, stops, one, heeded⟩

/-- A stop between the mark of a run and its look at the generation returns true, and the run
launches both of its accounts; and a run whose outbounds cannot be filed leaves its lease. -/
theorem stop_and_lease_lost :
    (∃ stopped, control.run {} [.start {} [none, none], .stop, .bump 0] = some stopped ∧
      stopped.launched 0 + stopped.underWay 0 = 0 ∧
      ∃ later, control.run stopped
          ([.run 0 .spawn, .run 0 (.lease [] []), .run 0 (.opened (.ok "v"))] ++
            (launches 1 ++ lands 0 registered ++ launches 1).map fun action =>
              .run 0 (.batch action)) = some later ∧ later.launched 0 = 2) ∧
    ∃ final, control.run {}
        [.start { randomNode := true } [none], .run 0 .spawn, .run 0 (.lease ["a"] []),
          .run 0 (.file (.error "No space left on device")), .run 0 .finish] = some final ∧
      (∀ run ∈ final.runs, run.inProgress = false) ∧ final.leased = ["a"] := by
  constructor
  · have early : ∃ stopped, control.run {} [.start {} [none, none], .stop, .bump 0] = some stopped ∧
        stopped.launched 0 + stopped.underWay 0 = 0 := Machine.run_exists (by decide +kernel)
    obtain ⟨stopped, ran, none_⟩ := early
    have late : ∃ later, control.run {}
        ([.start {} [none, none], .stop, .bump 0] ++
          ([.run 0 .spawn, .run 0 (.lease [] []), .run 0 (.opened (.ok "v"))] ++
            (launches 1 ++ lands 0 registered ++ launches 1).map fun action =>
              .run 0 (.batch action))) = some later ∧ later.launched 0 = 2 :=
      Machine.run_exists (by decide +kernel)
    obtain ⟨later, whole, two⟩ := late
    obtain ⟨middle, first, rest⟩ := Machine.run_append.mp whole
    obtain rfl := Option.some.inj (ran.symm.trans first)
    exact ⟨stopped, ran, none_, later, rest, two⟩
  · exact Machine.run_exists (by decide +kernel)

end MajsoulManager.Register
