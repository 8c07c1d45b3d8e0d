/-
# Register.Batch — one batch of registrations, a few at a time

`registered` of `register_service.rs` from its launch loop on, with `one_account`, `settle`,
`finish` and `note_result`.  The loop takes a permit for each job, looks at the generation
and at the failure streak, and spawns the account; an account that comes to an end is
counted, then listed, then noted in the streak, and then gives its permit back.  Each of
these is a step, and the accounts take theirs in any order.

The loop gives up at three failures in a row.  Which message the batch ends with is decided
by the streak again, once every account is through; a success among the last of them makes
the batch end as one that tried every job (`late_success_hides_the_rest`).

What the module answers for an account, what the pool says when it is stored, and whether
the generation has moved are in the actions.
-/
import MajsoulManager.Accounts.Pool
import MajsoulManager.Record.Json
import MajsoulManager.Theory.Machine
import MajsoulManager.Theory.Tasks

namespace MajsoulManager.Register

open MajsoulManager.Theory
open MajsoulManager.Record (Value)
open MajsoulManager.Accounts (AccountPurpose StoredAccount)

set_option autoImplicit false

def giveUpAfter : Nat := 3

def maxConcurrency : Nat := 16

/-- What `run` and its accounts read of the request. -/
structure AccountRegisterRequest where
  purpose : AccountPurpose := .refetch
  note : String := ""
  concurrency : Nat := 1
  randomNode : Bool := false

structure AccountRegisterOutcome where
  email : String
  ok : Bool := false
  accountId : Option UInt64 := none
  nickname : Option String := none
  stage : String := ""
  detail : String := ""

/-- What the accounts write of the progress. -/
structure AccountRegisterProgress where
  done : Nat := 0
  succeeded : Nat := 0
  failed : Nat := 0
  outcomes : List AccountRegisterOutcome := []

def concurrencyFor (asked jobs : Nat) : Nat := min (max 1 (min asked maxConcurrency)) (max jobs 1)

/-- The part of a credential that reads as an address. -/
def addressOf (credential : String) : Option String :=
  let parts := (Text.trim credential).toList.splitOnP fun c =>
    Text.isWhitespace c || c == ',' || c == '-'
  (parts.find? fun part =>
    let user := part.takeWhile (· != '@')
    let domain := (part.dropWhile (· != '@')).drop 1
    part.contains '@' && !user.isEmpty && domain.contains '.' && domain.head? != some '.').map
      String.ofList

/-- What an account is called before its mailbox is known. -/
def placeholder (index total : Nat) : Option String → String
  | some credential => (addressOf credential).getD "（读不出邮箱）"
  | none => s!"第 {index + 1}/{total} 个（正在开邮箱）"

def reportedEmail (answer : Value) (fallback : String) : String :=
  (((answer.get "email").bind Value.asStr).filter (· != "")).getD fallback

def versionHint (reason current : String) : String :=
  if "151".toList <:+: reason.toList then
    s!"\n151 = 雀魂把客户端版本的下限抬过去了，跟账号、邮箱、出口都无关。这批报的是 {current}。注册这边没有能登录的账号，探不出新的下限；让牌谱补抓或者采集跑一次，它们撞到同一堵墙会自动探出来存下，之后注册开跑就读到了。"
  else ""

/-- The detail of an account that was stored. -/
def storedDetail : Option String → Option UInt64 → String
  | some nickname, some id => s!"昵称 {nickname}，account_id {id}"
  | some nickname, none => s!"昵称 {nickname}"
  | none, some id => s!"account_id {id}，昵称没设上"
  | none, none => "注册成功，但昵称和 account_id 都没拿到"

/-- `settle` up to its call of `finish`: the account is stored before the outcome says so. -/
def settle (request : AccountRegisterRequest) (address : String) (answer : Except String Value)
    (node : Option String) (append : StoredAccount → Except String Nat) : AccountRegisterOutcome :=
  match answer with
  | .error error => { email := address, stage := "module", detail := error }
  | .ok value =>
      let outcome : AccountRegisterOutcome := { email := reportedEmail value address }
      if !((value.get "ok").bind Value.asBool).getD false then
        { outcome with
          stage := ((value.get "stage").bind Value.asStr).getD "unknown"
          detail := ((value.get "error").bind Value.asStr).getD "模块没有说明失败原因" }
      else
        let password := ((value.get "password").bind Value.asStr).getD ""
        let outcome :=
          { outcome with
            accountId := (value.get "account_id").bind Value.asU64
            nickname := (value.get "nickname").bind Value.asStr }
        if password = "" then
          { outcome with stage := "password", detail := "模块说成功但没给密码，这个号没法用" }
        else
          let stored : StoredAccount :=
            { username := outcome.email, password := password, purpose := request.purpose
              note := request.note, enabled := false, node := node.getD "" }
          match append stored with
          | .ok 1 =>
              { outcome with ok := true, detail := storedDetail outcome.nickname outcome.accountId }
          | .ok _ =>
              { outcome with stage := "pool", detail := "账号池里已经有这个邮箱了，没有重复写入" }
          | .error error => { outcome with stage := "pool", detail := s!"写进账号池失败：{error}" }

namespace AccountRegisterProgress

def finish (progress : AccountRegisterProgress) (outcome : AccountRegisterOutcome) :
    AccountRegisterProgress :=
  { progress with
    done := progress.done + 1
    succeeded := if outcome.ok then progress.succeeded + 1 else progress.succeeded
    failed := if outcome.ok then progress.failed else progress.failed + 1 }

def push (progress : AccountRegisterProgress) (outcome : AccountRegisterOutcome) :
    AccountRegisterProgress :=
  { progress with outcomes := progress.outcomes ++ [outcome] }

def lastFailure (progress : AccountRegisterProgress) : String :=
  ((progress.outcomes.reverse.find? fun outcome => !outcome.ok).map fun outcome =>
    s!"[{outcome.stage}] {outcome.detail}").getD "（没记下原因）"

end AccountRegisterProgress

/-- `note_result`. -/
def noteResult (streak : Nat) (ok : Bool) : Nat := if ok then 0 else streak + 1

/-! ## The batch -/

/-- How far an account is. -/
inductive Stage where
  | registering
  | counted (outcome : AccountRegisterOutcome)
  | listed (ok : Bool)
  | noted (ok : Bool)
  | left (ok : Bool)

/-- Whether an account still holds its permit. -/
def Stage.inFlight : Stage → Bool
  | .left _ => false
  | _ => true

/-- An account in flight, or one that is through. -/
structure Task where
  address : String
  node : Option String
  stage : Stage

/-- How an account comes to its end: its exit was gone before it began, or the module
answered, and the pool, if it was asked. -/
inductive Landing where
  | exitGone
  | answered (answer : Except String Value) (append : StoredAccount → Except String Nat)

/-- `one_account` up to the counters. -/
def oneAccount (request : AccountRegisterRequest) (task : Task) :
    Landing → Option AccountRegisterOutcome
  | .exitGone => task.node.map fun name =>
      settle request task.address
        (.error s!"invalid watch configuration: 出口 {name} 的监听不见了（这期间账号池被保存过就会这样），这个号没跑 —— 免得从本机地址出去")
        none fun _ => .ok 0
  | .answered answer append => some (settle request task.address answer task.node append)

/-- Where the loop was left. -/
inductive Left where
  | ranOut
  | stopped
  | gaveUp
  deriving DecidableEq

/-- What the batch ends with. -/
inductive Ending where
  | stopped
  | gaveUp (skipped : Nat) (reason hint : String)
  | completed (succeeded failed : Nat)
  deriving DecidableEq

def Ending.message : Ending → String
  | .stopped => "已停止"
  | .gaveUp skipped reason hint =>
      s!"连着 {giveUpAfter} 个都失败了，剩下 {skipped} 个没有再试。最后一个的原因：{reason}{hint}"
  | .completed succeeded failed => s!"注册结束：成功 {succeeded}，失败 {failed}"

/-- Where the loop is.  From `permitted` to `cleared` it holds a permit and a job. -/
inductive Loop where
  | taking
  | permitted (mailbox : Option String)
  | unstopped (mailbox : Option String)
  | cleared (mailbox : Option String)
  | joining (left : Left)
  | reported (left : Left) (ending : Ending)
  deriving DecidableEq

def Loop.permits : Loop → Nat
  | .permitted _ | .unstopped _ | .cleared _ => 1
  | _ => 0

structure Batch where
  request : AccountRegisterRequest
  exits : List String
  version : String
  total : Nat
  concurrency : Nat
  jobs : List (Option String)
  loop : Loop := .taking
  launched : Nat := 0
  tasks : List Task := []
  streak : Nat := 0
  progress : AccountRegisterProgress := {}
  /-- The results in the order they were noted. -/
  results : List Bool := []

namespace Batch

/-- `registered` where its loop begins. -/
def start (request : AccountRegisterRequest) (exits : List String) (version : String)
    (jobs : List (Option String)) : Batch where
  request := request
  exits := exits
  version := version
  total := jobs.length
  concurrency := concurrencyFor request.concurrency jobs.length
  jobs := jobs

/-- The permits that are out. -/
def busy (batch : Batch) : Nat :=
  batch.tasks.countP (fun task => task.stage.inFlight) + batch.loop.permits

/-- The spawn.  An iteration that launches nothing is the last, so the index of a job is the
number of those launched before it. -/
def launch (batch : Batch) (mailbox : Option String) : Batch :=
  { batch with
    loop := .taking
    launched := batch.launched + 1
    tasks := batch.tasks ++
      [{ address := placeholder batch.launched batch.total mailbox
         node := batch.exits[batch.launched % batch.exits.length]?
         stage := .registering }] }

/-- `registered` after its `join_next`. -/
def ending (batch : Batch) (left : Left) : Ending :=
  if left = .stopped then .stopped
  else if giveUpAfter ≤ batch.streak then
    let reason := batch.progress.lastFailure
    .gaveUp (batch.total - batch.launched) reason (versionHint reason batch.version)
  else .completed batch.progress.succeeded batch.progress.failed

/-- The next step of the loop; `moved` is whether the generation is no longer the batch's. -/
def advance (batch : Batch) (moved : Bool) : Option Batch :=
  match batch.loop with
  | .taking =>
      match batch.jobs with
      | [] => some { batch with loop := .joining .ranOut }
      | mailbox :: rest =>
          if batch.busy < batch.concurrency then
            some { batch with jobs := rest, loop := .permitted mailbox }
          else none
  | .permitted mailbox =>
      some { batch with loop := if moved then .joining .stopped else .unstopped mailbox }
  | .unstopped mailbox =>
      some { batch with
        loop := if giveUpAfter ≤ batch.streak then .joining .gaveUp else .cleared mailbox }
  | .cleared mailbox => some (batch.launch mailbox)
  | .joining left =>
      if batch.tasks.all (fun task => !task.stage.inFlight) then
        some { batch with loop := .reported left (batch.ending left) }
      else none
  | .reported _ _ => none

def moveTo (batch : Batch) (i : Nat) (task : Task) (stage : Stage) : Batch :=
  { batch with tasks := batch.tasks.set i { task with stage := stage } }

/-- The next step of an account. -/
def account (batch : Batch) (i : Nat) (landing : Landing) : Option Batch :=
  batch.tasks[i]?.bind fun task =>
    match task.stage with
    | .registering => (oneAccount batch.request task landing).map fun outcome =>
        { batch.moveTo i task (.counted outcome) with progress := batch.progress.finish outcome }
    | .counted outcome => some
        { batch.moveTo i task (.listed outcome.ok) with progress := batch.progress.push outcome }
    | .listed ok => some
        { batch.moveTo i task (.noted ok) with
          streak := noteResult batch.streak ok
          results := batch.results ++ [ok] }
    | .noted ok => some (batch.moveTo i task (.left ok))
    | .left _ => none

end Batch

/-- A step of a batch: the loop's, or an account's. -/
inductive Action where
  | loop (moved : Bool)
  | account (i : Nat) (landing : Landing)

/-- The batches, from any list of jobs. -/
def registration : Machine Batch Action where
  Start batch := ∃ request exits version jobs, batch = .start request exits version jobs
  step
    | batch, .loop moved => batch.advance moved
    | batch, .account i landing => batch.account i landing

/-! ## What holds all along a batch -/

/-- How an account ended, once it is counted. -/
def Stage.result : Stage → Option Bool
  | .registering => none
  | .counted outcome => some outcome.ok
  | .listed ok | .noted ok | .left ok => some ok

@[simp] theorem Stage.result_counted (outcome : AccountRegisterOutcome) :
    (Stage.counted outcome).result = some outcome.ok := rfl

def Stage.isListed : Stage → Bool
  | .registering | .counted _ => false
  | _ => true

/-- The counters say what the accounts came to. -/
structure Tallies (tasks : List Task) (progress : AccountRegisterProgress) : Prop where
  done : progress.done = tasks.countP fun task => task.stage.result.isSome
  succeeded : progress.succeeded = tasks.countP fun task => task.stage.result == some true
  failed : progress.failed = tasks.countP fun task => task.stage.result == some false
  outcomes : progress.outcomes.length = tasks.countP fun task => task.stage.isListed

namespace Tallies

variable {tasks : List Task} {progress : AccountRegisterProgress} {i : Nat} {task : Task}

theorem counted (tallies : Tallies tasks progress) (here : tasks[i]? = some task)
    (registering : task.stage = .registering) (outcome : AccountRegisterOutcome) :
    Tallies (tasks.set i { task with stage := .counted outcome }) (progress.finish outcome) where
  done := by
    have placed := countP_set_place here (fun task => task.stage.result.isSome)
      { task with stage := .counted outcome }
    rw [registering] at placed
    exact (congrArg (· + 1) tallies.done).trans placed.symm
  succeeded := by
    have placed := countP_set_place here (fun task => task.stage.result == some true)
      { task with stage := .counted outcome }
    rw [registering, ← tallies.succeeded] at placed
    refine Eq.trans ?_ placed.symm
    cases ok : outcome.ok <;> simp [AccountRegisterProgress.finish, ok]
  failed := by
    have placed := countP_set_place here (fun task => task.stage.result == some false)
      { task with stage := .counted outcome }
    rw [registering, ← tallies.failed] at placed
    refine Eq.trans ?_ placed.symm
    cases ok : outcome.ok <;> simp [AccountRegisterProgress.finish, ok]
  outcomes := tallies.outcomes.trans (countP_set_alike here (by rw [registering]; rfl)).symm

theorem listed (tallies : Tallies tasks progress) (here : tasks[i]? = some task)
    {outcome : AccountRegisterOutcome} (counted : task.stage = .counted outcome) :
    Tallies (tasks.set i { task with stage := .listed outcome.ok }) (progress.push outcome) where
  done := tallies.done.trans (countP_set_alike here (by rw [counted]; rfl)).symm
  succeeded := tallies.succeeded.trans (countP_set_alike here (by rw [counted]; rfl)).symm
  failed := tallies.failed.trans (countP_set_alike here (by rw [counted]; rfl)).symm
  outcomes := by
    have placed := countP_set_place here (fun task => task.stage.isListed)
      { task with stage := .listed outcome.ok }
    rw [counted, ← tallies.outcomes] at placed
    exact (List.length_append ..).trans placed.symm

/-- The steps after the list is written to change no counter. -/
theorem moved (tallies : Tallies tasks progress) (here : tasks[i]? = some task) {stage : Stage}
    (result : stage.result = task.stage.result) (listed : stage.isListed = task.stage.isListed) :
    Tallies (tasks.set i { task with stage := stage }) progress where
  done := tallies.done.trans (countP_set_alike here (congrArg Option.isSome result)).symm
  succeeded := tallies.succeeded.trans (countP_set_alike here (congrArg (· == some true) result)).symm
  failed := tallies.failed.trans (countP_set_alike here (congrArg (· == some false) result)).symm
  outcomes := tallies.outcomes.trans (countP_set_alike here listed).symm

theorem launched (tallies : Tallies tasks progress) (registering : task.stage = .registering) :
    Tallies (tasks ++ [task]) progress where
  done := by simp [tallies.done, registering, Stage.result]
  succeeded := by simp [tallies.succeeded, registering, Stage.result]
  failed := by simp [tallies.failed, registering, Stage.result]
  outcomes := by simp [tallies.outcomes, registering, Stage.isListed]

theorem balanced (tallies : Tallies tasks progress) :
    progress.done = progress.succeeded + progress.failed := by
  rw [tallies.done, tallies.succeeded, tallies.failed]
  clear tallies
  induction tasks with
  | nil => rfl
  | cons task rest ih =>
      simp only [List.countP_cons, ih]
      cases task.stage.result with
      | none => simp
      | some ok => cases ok <;> simp <;> omega

/-- Once every account has left, each was counted and listed. -/
theorem complete (tallies : Tallies tasks progress)
    (through : ∀ task ∈ tasks, task.stage.inFlight = false) :
    progress.done = tasks.length ∧ progress.outcomes.length = tasks.length := by
  rw [tallies.done, tallies.outcomes, List.countP_eq_length, List.countP_eq_length]
  have left : ∀ task ∈ tasks, ∃ ok, task.stage = .left ok := by
    intro task member
    have gone := through task member
    cases at_ : task.stage with
    | left ok => exact ⟨ok, rfl⟩
    | _ => rw [at_] at gone; cases gone
  constructor
  · intro task member
    obtain ⟨ok, at_⟩ := left task member
    rw [at_]
    rfl
  · intro task member
    obtain ⟨ok, at_⟩ := left task member
    rw [at_]
    rfl

end Tallies

/-- The jobs the loop has taken and not launched. -/
def Loop.dropped : Loop → Nat
  | .taking | .joining .ranOut | .reported .ranOut _ => 0
  | _ => 1

structure Sound (batch : Batch) : Prop where
  launched : batch.launched = batch.tasks.length
  total : batch.launched + batch.loop.dropped + batch.jobs.length = batch.total
  tallies : Tallies batch.tasks batch.progress
  streak : batch.streak = inARow batch.results
  ranOut : batch.loop.dropped = 0 → batch.loop = .taking ∨ batch.jobs = []
  ended : ∀ left ending, batch.loop = .reported left ending →
    (∀ task ∈ batch.tasks, task.stage.inFlight = false) ∧ ending = batch.ending left

namespace Batch

/-- Everything the next step of an account can be. -/
theorem account_cases {batch next : Batch} {i : Nat} {landing : Landing}
    (stepped : batch.account i landing = some next) : ∃ task, batch.tasks[i]? = some task ∧
      ((∃ outcome, task.stage = .registering ∧ next =
          { batch.moveTo i task (.counted outcome) with
            progress := batch.progress.finish outcome }) ∨
        (∃ outcome, task.stage = .counted outcome ∧ next =
          { batch.moveTo i task (.listed outcome.ok) with
            progress := batch.progress.push outcome }) ∨
        (∃ ok, task.stage = .listed ok ∧ next =
          { batch.moveTo i task (.noted ok) with
            streak := noteResult batch.streak ok
            results := batch.results ++ [ok] }) ∨
        ∃ ok, task.stage = .noted ok ∧ next = batch.moveTo i task (.left ok)) := by
  obtain ⟨task, here, moved⟩ := Option.bind_eq_some_iff.mp stepped
  refine ⟨task, here, ?_⟩
  cases at_ : task.stage with
  | registering =>
      simp only [at_] at moved
      obtain ⟨outcome, -, rfl⟩ := Option.map_eq_some_iff.mp moved
      exact .inl ⟨outcome, rfl, rfl⟩
  | counted outcome =>
      simp only [at_, Option.some.injEq] at moved
      exact .inr (.inl ⟨outcome, rfl, moved.symm⟩)
  | listed ok =>
      simp only [at_, Option.some.injEq] at moved
      exact .inr (.inr (.inl ⟨ok, rfl, moved.symm⟩))
  | noted ok =>
      simp only [at_, Option.some.injEq] at moved
      exact .inr (.inr (.inr ⟨ok, rfl, moved.symm⟩))
  | left ok =>
      simp only [at_] at moved
      cases moved

/-- Everything the next step of the loop can be. -/
theorem advance_cases {batch next : Batch} {moved : Bool}
    (stepped : batch.advance moved = some next) :
    (batch.loop = .taking ∧ batch.jobs = [] ∧ next = { batch with loop := .joining .ranOut }) ∨
      (∃ mailbox rest, batch.loop = .taking ∧ batch.jobs = mailbox :: rest ∧
        batch.busy < batch.concurrency ∧
        next = { batch with jobs := rest, loop := .permitted mailbox }) ∨
      (∃ mailbox, batch.loop = .permitted mailbox ∧ moved = true ∧
        next = { batch with loop := .joining .stopped }) ∨
      (∃ mailbox, batch.loop = .permitted mailbox ∧ moved = false ∧
        next = { batch with loop := .unstopped mailbox }) ∨
      (∃ mailbox, batch.loop = .unstopped mailbox ∧ giveUpAfter ≤ batch.streak ∧
        next = { batch with loop := .joining .gaveUp }) ∨
      (∃ mailbox, batch.loop = .unstopped mailbox ∧ batch.streak < giveUpAfter ∧
        next = { batch with loop := .cleared mailbox }) ∨
      (∃ mailbox, batch.loop = .cleared mailbox ∧ next = batch.launch mailbox) ∨
      ∃ left, batch.loop = .joining left ∧ (∀ task ∈ batch.tasks, task.stage.inFlight = false) ∧
        next = { batch with loop := .reported left (batch.ending left) } := by
  unfold advance at stepped
  split at stepped
  next at_ =>
      split at stepped
      next none_ => exact .inl ⟨at_, none_, (Option.some.inj stepped).symm⟩
      next mailbox rest jobs =>
          obtain ⟨free, taken⟩ := Option.ite_none_right_eq_some.mp stepped
          exact .inr (.inl ⟨mailbox, rest, at_, jobs, free, (Option.some.inj taken).symm⟩)
  next mailbox at_ =>
      cases moved with
      | true => exact .inr (.inr (.inl ⟨mailbox, at_, rfl, (Option.some.inj stepped).symm⟩))
      | false => exact .inr (.inr (.inr (.inl ⟨mailbox, at_, rfl, (Option.some.inj stepped).symm⟩)))
  next mailbox at_ =>
      by_cases streak : giveUpAfter ≤ batch.streak
      · rw [if_pos streak] at stepped
        refine .inr (.inr (.inr (.inr (.inl ⟨mailbox, at_, streak, ?_⟩))))
        exact (Option.some.inj stepped).symm
      · rw [if_neg streak] at stepped
        refine .inr (.inr (.inr (.inr (.inr (.inl ⟨mailbox, at_, Nat.lt_of_not_le streak, ?_⟩)))))
        exact (Option.some.inj stepped).symm
  next mailbox at_ =>
      refine .inr (.inr (.inr (.inr (.inr (.inr (.inl ⟨mailbox, at_, ?_⟩))))))
      exact (Option.some.inj stepped).symm
  next left at_ =>
      simp only [Option.ite_none_right_eq_some, Option.some.injEq, List.all_eq_true,
        Bool.not_eq_true'] at stepped
      refine .inr (.inr (.inr (.inr (.inr (.inr (.inr ⟨left, at_, stepped.1, ?_⟩))))))
      exact stepped.2.symm
  next => cases stepped

theorem sound_start (request : AccountRegisterRequest) (exits : List String) (version : String)
    (jobs : List (Option String)) : Sound (.start request exits version jobs) where
  launched := rfl
  total := by simp [start, Loop.dropped]
  tallies := ⟨rfl, rfl, rfl, rfl⟩
  streak := rfl
  ranOut := fun _ => .inl rfl
  ended := fun _ _ ended => by cases ended

end Batch

namespace Sound

variable {batch next : Batch}

/-- Nothing of the loop's own is moved by an account, and a batch that is reported has none
to move. -/
theorem account (sound : Sound batch) {i : Nat} {landing : Landing}
    (stepped : batch.account i landing = some next) : Sound next := by
  obtain ⟨task, here, moved⟩ := Batch.account_cases stepped
  have running : ∀ left ending, batch.loop = .reported left ending → task.stage.inFlight = false :=
    fun left ending reported =>
      (sound.ended left ending reported).1 task (List.mem_of_getElem? here)
  have ended : ∀ (other : Batch), other.loop = batch.loop → task.stage.inFlight = true →
      ∀ left ending, other.loop = .reported left ending →
        (∀ task ∈ other.tasks, task.stage.inFlight = false) ∧ ending = other.ending left := by
    intro other same flying left ending reported
    have settled := running left ending (same ▸ reported)
    rw [flying] at settled
    cases settled
  have launched (stage : Stage) :
      batch.launched = (batch.tasks.set i { task with stage := stage }).length :=
    sound.launched.trans (List.length_set ..).symm
  obtain ⟨outcome, at_, rfl⟩ | ⟨outcome, at_, rfl⟩ | ⟨ok, at_, rfl⟩ | ⟨ok, at_, rfl⟩ := moved
  · exact
      { sound with
        launched := launched _
        tallies := sound.tallies.counted here at_ outcome
        ended := ended _ rfl (by rw [at_]; rfl) }
  · exact
      { sound with
        launched := launched _
        tallies := sound.tallies.listed here at_
        ended := ended _ rfl (by rw [at_]; rfl) }
  · refine
      { sound with
        launched := launched _
        tallies := sound.tallies.moved here (by rw [at_]; rfl) (by rw [at_]; rfl)
        streak := ?_
        ended := ended _ rfl (by rw [at_]; rfl) }
    show noteResult batch.streak ok = inARow (batch.results ++ [ok])
    cases ok with
    | true => exact (inARow_succeeded batch.results).symm
    | false => exact (congrArg (· + 1) sound.streak).trans (inARow_failed batch.results).symm
  · exact
      { sound with
        launched := launched _
        tallies := sound.tallies.moved here (by rw [at_]; rfl) (by rw [at_]; rfl)
        ended := ended _ rfl (by rw [at_]; rfl) }

/-- The loop goes on with the job it holds, or leaves with it. -/
theorem turn (sound : Sound batch) (loop : Loop) (same : loop.dropped = batch.loop.dropped)
    (holding : loop.dropped ≠ 0) (open_ : ∀ left ending, loop ≠ .reported left ending) :
    Sound { batch with loop := loop } :=
  { sound with
    total := by rw [same]; exact sound.total
    ranOut := fun held => absurd held holding
    ended := fun left ending reported => absurd reported (open_ left ending) }

theorem advance (sound : Sound batch) {moved : Bool} (stepped : batch.advance moved = some next) :
    Sound next := by
  have total := sound.total
  obtain ⟨at_, jobs, rfl⟩ | ⟨mailbox, rest, at_, jobs, -, rfl⟩ | ⟨mailbox, at_, -, rfl⟩ |
    ⟨mailbox, at_, -, rfl⟩ | ⟨mailbox, at_, -, rfl⟩ | ⟨mailbox, at_, -, rfl⟩ |
    ⟨mailbox, at_, rfl⟩ | ⟨left, at_, through, rfl⟩ := Batch.advance_cases stepped
  · rw [at_] at total
    exact
      { sound with
        total := total
        ranOut := fun _ => .inr jobs
        ended := fun _ _ reported => nomatch reported }
  · rw [at_, jobs, List.length_cons] at total
    exact
      { sound with
        total := by
          show batch.launched + 1 + rest.length = batch.total
          simp only [Loop.dropped] at total
          omega
        ranOut := fun held => nomatch held
        ended := fun _ _ reported => nomatch reported }
  · exact sound.turn _ (by rw [at_]; rfl) (by simp [Loop.dropped]) (by simp)
  · exact sound.turn _ (by rw [at_]; rfl) (by simp [Loop.dropped]) (by simp)
  · exact sound.turn _ (by rw [at_]; rfl) (by simp [Loop.dropped]) (by simp)
  · exact sound.turn _ (by rw [at_]; rfl) (by simp [Loop.dropped]) (by simp)
  · rw [at_] at total
    exact
      { sound with
        launched := by
          show batch.launched + 1 = (batch.tasks ++ [_]).length
          rw [List.length_append, sound.launched]
          rfl
        total := total
        tallies := sound.tallies.launched rfl
        ranOut := fun _ => .inl rfl
        ended := fun _ _ reported => nomatch reported }
  · refine
      { sound with
        total := ?_
        ranOut := ?_
        ended := ?_ }
    · rw [at_] at total
      cases left <;> exact total
    · intro held
      cases left with
      | ranOut =>
          rcases sound.ranOut (by rw [at_]; rfl) with taking | none_
          · rw [at_] at taking
            cases taking
          · exact .inr none_
      | _ => cases held
    · rintro _ _ ⟨⟩
      exact ⟨through, rfl⟩

theorem step (sound : Sound batch) {action : Action}
    (stepped : registration.step batch action = some next) : Sound next := by
  cases action with
  | loop moved => exact sound.advance stepped
  | account i landing => exact sound.account stepped

end Sound

theorem Batch.total_of_step {batch next : Batch} {action : Action}
    (stepped : registration.step batch action = some next) : next.total = batch.total := by
  cases action with
  | loop moved =>
      obtain ⟨-, -, rfl⟩ | ⟨_, _, -, -, -, rfl⟩ | ⟨_, -, -, rfl⟩ | ⟨_, -, -, rfl⟩ |
        ⟨_, -, -, rfl⟩ | ⟨_, -, -, rfl⟩ | ⟨_, -, rfl⟩ | ⟨_, -, -, rfl⟩ :=
          Batch.advance_cases stepped
      all_goals rfl
  | account i landing =>
      obtain ⟨task, here, moved⟩ := Batch.account_cases stepped
      obtain ⟨_, -, rfl⟩ | ⟨_, -, rfl⟩ | ⟨_, -, rfl⟩ | ⟨_, -, rfl⟩ := moved
      all_goals rfl

/-! ## What a batch ends with -/

/-- The result that the next step of an account notes, if it notes one. -/
def Batch.noting (batch : Batch) (i : Nat) : Option Bool :=
  batch.tasks[i]?.bind fun task =>
    match task.stage with
    | .listed ok => some ok
    | _ => none

/-- No third failure in a row is noted between the loop's look at the streak and the launch
it has decided on. -/
def Unovertaken (batch : Batch) : Action → Prop
  | .loop _ => True
  | .account i _ =>
      match batch.loop, batch.noting i with
      | .cleared _, some false => batch.streak + 1 < giveUpAfter
      | _, _ => True

instance (batch : Batch) (action : Action) : Decidable (Unovertaken batch action) := by
  unfold Unovertaken
  split
  · infer_instance
  · split <;> infer_instance

/-- A step launches an account only while fewer than three failures came in a row. -/
def LaunchesInTime (batch : Batch) (action : Action) : Prop :=
  ∀ next, registration.step batch action = some next → batch.launched < next.launched →
    inARow batch.results < giveUpAfter

/-- What the loop is about to launch, it saw in time. -/
structure Cleared (batch : Batch) : Prop where
  sound : Sound batch
  cleared : ∀ mailbox, batch.loop = .cleared mailbox → batch.streak < giveUpAfter

theorem Cleared.step {batch next : Batch} {action : Action} (clear : Cleared batch)
    (unovertaken : Unovertaken batch action)
    (stepped : registration.step batch action = some next) : Cleared next := by
  refine ⟨clear.sound.step stepped, ?_⟩
  cases action with
  | loop moved =>
      intro mailbox now
      obtain ⟨-, -, rfl⟩ | ⟨_, _, -, -, -, rfl⟩ | ⟨_, -, -, rfl⟩ | ⟨_, -, -, rfl⟩ |
        ⟨_, -, -, rfl⟩ | ⟨_, -, few, rfl⟩ | ⟨_, -, rfl⟩ | ⟨_, -, -, rfl⟩ :=
          Batch.advance_cases stepped
      on_goal 6 => exact few
      all_goals cases now
  | account i landing =>
      obtain ⟨task, here, moved⟩ := Batch.account_cases stepped
      obtain ⟨outcome, at_, rfl⟩ | ⟨outcome, at_, rfl⟩ | ⟨ok, at_, rfl⟩ | ⟨ok, at_, rfl⟩ := moved
      · exact clear.cleared
      · exact clear.cleared
      · intro mailbox cleared
        cases ok with
        | true => exact Nat.zero_lt_succ _
        | false =>
            have loop : batch.loop = .cleared mailbox := cleared
            simpa [Unovertaken, Batch.noting, noteResult, here, at_, loop] using unovertaken
      · exact clear.cleared

theorem Cleared.launches {batch : Batch} (clear : Cleared batch) (action : Action) :
    LaunchesInTime batch action := by
  intro next stepped more
  cases action with
  | loop moved =>
      obtain ⟨-, -, rfl⟩ | ⟨_, _, -, -, -, rfl⟩ | ⟨_, -, -, rfl⟩ | ⟨_, -, -, rfl⟩ |
        ⟨_, -, -, rfl⟩ | ⟨_, -, -, rfl⟩ | ⟨mailbox, at_, rfl⟩ | ⟨_, -, -, rfl⟩ :=
          Batch.advance_cases stepped
      on_goal 7 =>
        rw [← clear.sound.streak]
        exact clear.cleared mailbox at_
      all_goals exact absurd more (Nat.lt_irrefl _)
  | account i landing =>
      obtain ⟨task, here, moved⟩ := Batch.account_cases stepped
      obtain ⟨_, -, rfl⟩ | ⟨_, -, rfl⟩ | ⟨_, -, rfl⟩ | ⟨_, -, rfl⟩ := moved
      all_goals exact absurd more (Nat.lt_irrefl _)

/-- At the end the counters, the outcomes and the launches agree. -/
structure AddsUp (batch : Batch) : Prop where
  balanced : batch.progress.done = batch.progress.succeeded + batch.progress.failed
  outcomes : batch.progress.done = batch.progress.outcomes.length
  launched : batch.progress.done = batch.launched

/-- Every job was launched, or the message says how many were not tried. -/
def AllTriedOrSaid (batch : Batch) (jobs : Nat) (ending : Ending) : Prop :=
  batch.launched = jobs ∨ ∃ reason hint, ending = .gaveUp (jobs - batch.launched) reason hint

theorem Sound.addsUp {batch : Batch} (sound : Sound batch) {left : Left} {ending : Ending}
    (reported : batch.loop = .reported left ending) : AddsUp batch := by
  obtain ⟨done, outcomes⟩ := sound.tallies.complete (sound.ended left ending reported).1
  exact ⟨sound.tallies.balanced, done.trans outcomes.symm, done.trans sound.launched.symm⟩

/-- Where the loop gave up, the streak it gave up on has to stand at the end. -/
theorem Sound.said_iff {batch : Batch} (sound : Sound batch) {left : Left} {ending : Ending}
    (reported : batch.loop = .reported left ending) :
    (left ≠ .stopped → AllTriedOrSaid batch batch.total ending) ↔
      (left = .gaveUp → giveUpAfter ≤ inARow batch.results) := by
  obtain rfl := (sound.ended left ending reported).2
  have total := sound.total
  rw [reported] at total
  cases left with
  | stopped => simp
  | ranOut =>
      have none_ : batch.jobs = [] :=
        (sound.ranOut (by rw [reported]; rfl)).resolve_left (by rw [reported]; simp)
      have all : batch.launched = batch.total := by simpa [Loop.dropped, none_] using total
      simp [AllTriedOrSaid, all]
  | gaveUp =>
      have fewer : batch.launched ≠ batch.total := by
        simp only [Loop.dropped] at total
        omega
      rw [← sound.streak]
      by_cases streak : giveUpAfter ≤ batch.streak
      · simp [AllTriedOrSaid, Batch.ending, streak]
      · simp [AllTriedOrSaid, Batch.ending, streak, fewer]

/-- **What a batch comes to.**  Whatever the jobs, the concurrency and the order in which the
accounts finish: the launches are in time unless a third failure in a row overtakes one, at the
end everything adds up, and a batch that was not stopped has launched every job or says how
many it did not try, just when the streak it gave up on still stands. -/
theorem registration_accounted {request : AccountRegisterRequest} {exits : List String}
    {version : String} {jobs : List (Option String)} {actions : List Action} {final : Batch}
    (ran : registration.run (.start request exits version jobs) actions = some final) :
    (registration.Meets Unovertaken (.start request exits version jobs) actions →
        registration.Meets LaunchesInTime (.start request exits version jobs) actions) ∧
      ∀ left ending, final.loop = .reported left ending →
        AddsUp final ∧
          ((left ≠ .stopped → AllTriedOrSaid final jobs.length ending) ↔
            (left = .gaveUp → giveUpAfter ≤ inARow final.results)) := by
  have start : Cleared (.start request exits version jobs) :=
    ⟨Batch.sound_start request exits version jobs, fun _ cleared => nomatch cleared⟩
  constructor
  · intro unovertaken
    exact unovertaken.imp_of_invariant (fun _ _ _ clear ok stepped => clear.step ok stepped)
      (fun _ action clear _ => clear.launches action) start
  · intro left ending reported
    obtain ⟨sound, total⟩ := Machine.run_preserves
      (P := fun batch => Sound batch ∧ batch.total = jobs.length)
      (fun batch action next kept stepped =>
        ⟨kept.1.step stepped, (Batch.total_of_step stepped).trans kept.2⟩) ran ⟨start.sound, rfl⟩
    exact ⟨sound.addsUp reported, total ▸ sound.said_iff reported⟩

/-- An account that the module fails to register. -/
def unanswered : Landing := .answered (.error "module call failed: exited") fun _ => .ok 1

/-- An account that is registered and stored. -/
def registered : Landing :=
  .answered (.ok (.object [("ok", .bool true), ("password", .string "p")])) fun _ => .ok 1

/-- The steps that launch some accounts, and those of an account from its landing on. -/
def launches (n : Nat) : List Action := List.replicate (4 * n) (.loop false)

def lands (i : Nat) (landing : Landing) : List Action := List.replicate 4 (.account i landing)

/-- Four jobs one at a time, and the first three fail: the fourth is not tried, and said. -/
theorem registration_accounted_gaveUp :
    ∃ final ending, registration.run (.start {} [] "" (List.replicate 4 none))
        (launches 1 ++ lands 0 unanswered ++ launches 1 ++ lands 1 unanswered ++ launches 1 ++
          lands 2 unanswered ++ launches 1) = some final ∧
      final.loop = .reported .gaveUp ending ∧ AddsUp final ∧ AllTriedOrSaid final 4 ending := by
  have found : ∃ final, registration.run (.start {} [] "" (List.replicate 4 none))
      (launches 1 ++ lands 0 unanswered ++ launches 1 ++ lands 1 unanswered ++ launches 1 ++
        lands 2 unanswered ++ launches 1) = some final ∧
      (final.loop matches .reported .gaveUp _) = true ∧ giveUpAfter ≤ inARow final.results :=
    Machine.run_exists (by decide +kernel)
  obtain ⟨final, ran, over_, three⟩ := found
  split at over_
  next ending reported =>
      obtain ⟨addsUp, said⟩ := (registration_accounted ran).2 .gaveUp ending reported
      exact ⟨final, ending, ran, reported, addsUp, said.mpr (fun _ => three) (by decide)⟩
  next => cases over_

/-- Five jobs, four at a time.  Three fail, the loop gives up, and the fourth succeeds: the
batch ends as one that tried them all.  And an account is launched after a third failure in a
row, noted between the loop's look at the streak and the launch. -/
theorem late_success_hides_the_rest :
    (∃ final, registration.run (.start { concurrency := 4 } [] "" (List.replicate 5 none))
        (launches 4 ++ lands 0 unanswered ++ lands 1 unanswered ++ lands 2 unanswered ++
          List.replicate 3 (.loop false) ++ lands 3 registered ++ [.loop false]) = some final ∧
      final.loop = .reported .gaveUp (.completed 1 3) ∧ final.launched = 4 ∧
      ¬ AllTriedOrSaid final 5 (.completed 1 3)) ∧
    ¬ registration.Meets LaunchesInTime (.start { concurrency := 4 } [] "" (List.replicate 5 none))
      (launches 3 ++ lands 0 unanswered ++ lands 1 unanswered ++ List.replicate 3 (.loop false) ++
        lands 2 unanswered ++ [.loop false]) := by
  constructor
  · have found : ∃ final,
        registration.run (.start { concurrency := 4 } [] "" (List.replicate 5 none))
          (launches 4 ++ lands 0 unanswered ++ lands 1 unanswered ++ lands 2 unanswered ++
            List.replicate 3 (.loop false) ++ lands 3 registered ++ [.loop false]) = some final ∧
        final.loop = .reported .gaveUp (.completed 1 3) ∧ final.launched = 4 :=
      Machine.run_exists (by decide +kernel)
    obtain ⟨final, ran, reported, launched⟩ := found
    refine ⟨final, ran, reported, launched, ?_⟩
    rintro (all | ⟨_, _, said⟩)
    · rw [launched] at all
      cases all
    · cases said
  · intro inTime
    have found : ∃ middle,
        registration.run (.start { concurrency := 4 } [] "" (List.replicate 5 none))
          (launches 3 ++ lands 0 unanswered ++ lands 1 unanswered ++
            List.replicate 3 (.loop false) ++ lands 2 unanswered) = some middle ∧
        middle.loop = .cleared none ∧ giveUpAfter ≤ inARow middle.results :=
      Machine.run_exists (by decide +kernel)
    obtain ⟨middle, ran, cleared, three⟩ := found
    have launched : registration.step middle (.loop false) = some (middle.launch none) := by
      show middle.advance false = some (middle.launch none)
      unfold Batch.advance
      rw [cleared]
    have late := ((Machine.meets_append.mp inTime).2 middle ran).1 _ launched (Nat.lt_succ_self _)
    exact absurd three (Nat.not_le_of_lt late)

/-! ## A batch always ends -/

def Loop.rank : Loop → Nat
  | .taking => 2
  | .permitted _ => 9
  | .unstopped _ => 8
  | .cleared _ => 7
  | .joining _ => 1
  | .reported _ _ => 0

def Stage.rank : Stage → Nat
  | .registering => 4
  | .counted _ => 3
  | .listed _ => 2
  | .noted _ => 1
  | .left _ => 0

/-- A bound on the steps a batch has still to take. -/
def Batch.rank (batch : Batch) : Nat :=
  8 * batch.jobs.length + batch.loop.rank + (batch.tasks.map fun task => task.stage.rank).sum

theorem Batch.rank_step {batch next : Batch} {action : Action}
    (stepped : registration.step batch action = some next) : next.rank < batch.rank := by
  cases action with
  | loop moved =>
      obtain ⟨at_, -, rfl⟩ | ⟨_, _, at_, jobs, -, rfl⟩ | ⟨_, at_, -, rfl⟩ | ⟨_, at_, -, rfl⟩ |
        ⟨_, at_, -, rfl⟩ | ⟨_, at_, -, rfl⟩ | ⟨_, at_, rfl⟩ | ⟨_, at_, -, rfl⟩ :=
          Batch.advance_cases stepped
      on_goal 2 =>
        simp only [Batch.rank, Loop.rank, at_, jobs, List.length_cons]
        omega
      on_goal 6 =>
        simp only [Batch.rank, Batch.launch, Loop.rank, at_, List.map_append, List.map_cons,
          List.map_nil, List.sum_append, List.sum_singleton, Stage.rank]
        omega
      all_goals
        simp only [Batch.rank, Loop.rank, at_]
        omega
  | account i landing =>
      obtain ⟨task, here, moved⟩ := Batch.account_cases stepped
      have less (stage : Stage) (later : stage.rank < task.stage.rank) :
          (batch.moveTo i task stage).rank < batch.rank := by
        have fewer : ((batch.tasks.set i { task with stage := stage }).map
            fun task => task.stage.rank).sum < (batch.tasks.map fun task => task.stage.rank).sum :=
          sum_map_set_place_lt here later
        exact Nat.add_lt_add_left fewer (8 * batch.jobs.length + batch.loop.rank)
      obtain ⟨_, at_, rfl⟩ | ⟨_, at_, rfl⟩ | ⟨_, at_, rfl⟩ | ⟨_, at_, rfl⟩ := moved
      · exact less _ (by rw [at_]; exact Nat.lt_succ_self _)
      · exact less _ (by rw [at_]; exact Nat.lt_succ_self _)
      · exact less _ (by rw [at_]; exact Nat.lt_succ_self _)
      · exact less _ (by rw [at_]; exact Nat.lt_succ_self _)

/-- The permits that are out are those there are, at most. -/
structure WithinPermits (batch : Batch) : Prop where
  some_ : 0 < batch.concurrency
  few : batch.concurrency ≤ maxConcurrency
  busy : batch.busy ≤ batch.concurrency

theorem WithinPermits.start (request : AccountRegisterRequest) (exits : List String)
    (version : String) (jobs : List (Option String)) :
    WithinPermits (.start request exits version jobs) := by
  refine ⟨?_, ?_, Nat.zero_le _⟩
  · show 0 < concurrencyFor request.concurrency jobs.length
    unfold concurrencyFor
    omega
  · show concurrencyFor request.concurrency jobs.length ≤ maxConcurrency
    unfold concurrencyFor maxConcurrency
    omega

theorem WithinPermits.step {batch next : Batch} {action : Action} (within : WithinPermits batch)
    (stepped : registration.step batch action = some next) : WithinPermits next := by
  have busy := within.busy
  cases action with
  | loop moved =>
      obtain ⟨at_, -, rfl⟩ | ⟨_, _, at_, -, free, rfl⟩ | ⟨_, at_, -, rfl⟩ | ⟨_, at_, -, rfl⟩ |
        ⟨_, at_, -, rfl⟩ | ⟨_, at_, -, rfl⟩ | ⟨_, at_, rfl⟩ | ⟨_, at_, -, rfl⟩ :=
          Batch.advance_cases stepped
      all_goals refine ⟨within.some_, within.few, ?_⟩
      on_goal 2 =>
        simp only [Batch.busy, Loop.permits, at_] at free ⊢
        exact free
      on_goal 6 =>
        simp only [Batch.busy, Batch.launch, Loop.permits, at_, List.countP_append,
          List.countP_singleton, Stage.inFlight] at busy ⊢
        exact busy
      all_goals
        simp only [Batch.busy, Loop.permits, at_] at busy ⊢
        first
          | exact busy
          | exact Nat.le_of_succ_le busy
  | account i landing =>
      obtain ⟨task, here, moved⟩ := Batch.account_cases stepped
      have fewer (stage : Stage) (flying : task.stage.inFlight = true) :
          (batch.moveTo i task stage).busy ≤ batch.concurrency := by
        have placed := countP_set_place here (fun task => task.stage.inFlight)
          { task with stage := stage }
        have one : stage.inFlight.toNat ≤ 1 := Bool.toNat_le _
        rw [flying, Bool.toNat_true] at placed
        simp only [Batch.busy, Batch.moveTo] at busy placed ⊢
        omega
      obtain ⟨_, at_, rfl⟩ | ⟨_, at_, rfl⟩ | ⟨_, at_, rfl⟩ | ⟨_, at_, rfl⟩ := moved
      · exact ⟨within.some_, within.few, fewer _ (by rw [at_]; rfl)⟩
      · exact ⟨within.some_, within.few, fewer _ (by rw [at_]; rfl)⟩
      · exact ⟨within.some_, within.few, fewer _ (by rw [at_]; rfl)⟩
      · exact ⟨within.some_, within.few, fewer _ (by rw [at_]; rfl)⟩

/-- An account in flight can take its next step. -/
theorem Batch.account_goes_on {batch : Batch} {i : Nat} {task : Task}
    (here : batch.tasks[i]? = some task) (flying : task.stage.inFlight = true) :
    ∃ next, batch.account i unanswered = some next := by
  unfold Batch.account
  rw [here, Option.bind_some]
  cases at_ : task.stage with
  | left ok =>
      rw [at_] at flying
      cases flying
  | _ => exact ⟨_, rfl⟩

/-- A batch that is not over can go on. -/
theorem Batch.goes_on {batch : Batch} (within : WithinPermits batch)
    (unreported : ∀ left ending, batch.loop ≠ .reported left ending) :
    ∃ action next, registration.step batch action = some next := by
  by_cases through : ∀ task ∈ batch.tasks, task.stage.inFlight = false
  · have idle : batch.tasks.countP (fun task => task.stage.inFlight) = 0 := by
      simpa using through
    suffices ∃ next, batch.advance false = some next from ⟨.loop false, this⟩
    unfold Batch.advance
    cases at_ : batch.loop with
    | taking =>
        cases batch.jobs with
        | nil => exact ⟨_, rfl⟩
        | cons mailbox rest =>
            have free : batch.busy < batch.concurrency := by
              rw [Batch.busy, idle, at_]
              exact within.some_
            exact ⟨_, if_pos free⟩
    | joining left => exact ⟨_, if_pos (by simpa using through)⟩
    | reported left ending => exact absurd at_ (unreported left ending)
    | _ => exact ⟨_, rfl⟩
  · push Not at through
    obtain ⟨task, member, flying⟩ := through
    obtain ⟨i, here⟩ := List.getElem?_of_mem member
    obtain ⟨next, stepped⟩ := Batch.account_goes_on here (Bool.eq_true_of_not_eq_false flying)
    exact ⟨.account i unanswered, next, stepped⟩

end MajsoulManager.Register
