/-
# Watch.Plugin — one line out, one line back

`PluginWorker` of `watch_service.rs`: a module process behind two pipes, one request at a
time under a lock.  A request restarts the process first if the pipe was marked as out of
step, writes its line, and reads one line back; the caller may go away at any await, and
`read_line` then loses whatever part of a line it had taken.

The mark is set for a deadline that passed, a line that is not JSON and an answer with
another id, and it is cleared before the restart it asks for has succeeded.
`recovers`: as long as every request that ends without its answer ends in one of these
three ways, and no restart fails, the next one goes to a new process.
`dead_module_kept` is a module that exits.
-/
import MajsoulManager.Record.Json
import MajsoulManager.Theory.Edits
import MajsoulManager.Theory.Machine
import MajsoulManager.Theory.Text
import MajsoulManager.Theory.Utf8

namespace MajsoulManager.Watch

open MajsoulManager.Theory
open MajsoulManager.Record

set_option autoImplicit false

/-! ## Processes -/

def newline : UInt8 := 10

/-- A module process: what was written to it, what it has written and how much of that
was taken.  `failed` marks that a request ended on it without reading its own answer. -/
structure Process where
  input : List UInt8 := []
  output : List UInt8 := []
  taken : Nat := 0
  alive : Bool := true
  failed : Bool := false
  deriving DecidableEq

namespace Process

def unread (p : Process) : List UInt8 := p.output.drop p.taken

/-- What `read_line` can take: up to a newline and with it, or all there is. -/
def available (p : Process) : List UInt8 :=
  p.unread.takeWhile (· != newline) ++ if newline ∈ p.unread then [newline] else []

/-- `read_line` is done: it has a newline, or the output is over. -/
def lineDone (p : Process) : Bool := newline ∈ p.unread || !p.alive

def take (p : Process) : Process := { p with taken := p.taken + p.available.length }

def fail (p : Process) : Process := { p with failed := true }

end Process

/-! ## Requests -/

inductive RequestError where
  | moduleFailed (message : String)
  | io
  | json

inductive RequestStage where
  /-- Waiting for the pipes. -/
  | waiting
  | writing (left : List UInt8)
  | reading (line : List UInt8)
  | returned (result : Except RequestError Value)
  | dropped

structure PluginCall where
  id : UInt64
  method : String
  text : List UInt8
  stage : RequestStage := .waiting

def moduleProtocolVersion : Nat := 1

/-- The seconds a module gets to answer. -/
def deadlineSecs (method : String) : Nat :=
  if method = "open_session" then 120
  else if method = "rpc" then 60
  else if method = "register" then 900
  else 5

/-- What a request comes to once its line is read, and whether the pipe is marked. -/
def judge (serde : Serde) (id : UInt64) (method : String) (line : List UInt8) :
    Except RequestError Value × Bool :=
  if line = [] then (.error (.moduleFailed s!"模块在处理 {method} 时退出了"), false)
  else
    match Text.fromUtf8 line with
    | none => (.error .io, false)
    | some text =>
        match serde.fromStr text with
        | .error _ => (.error .json, true)
        | .ok response =>
            if (response.get "id").bind Value.asU64 ≠ some id then
              (.error (.moduleFailed "module returned a response with the wrong request id"), true)
            else if (response.get "ok").bind Value.asBool ≠ some true then
              (.error (.moduleFailed
                (((response.get "error").bind Value.asStr).getD "module request failed")), false)
            else (.ok ((response.get "result").getD (.object [])), false)

/-- A line that is the answer to a request, good or bad. -/
def isAnswer (serde : Serde) (id : UInt64) (line : List UInt8) : Bool :=
  match Text.fromUtf8 line with
  | none => false
  | some text =>
      match serde.fromStr text with
      | .error _ => false
      | .ok response => (response.get "id").bind Value.asU64 == some id

/-! ## The worker -/

/-- The process in use and those before it, who holds the pipes, and every request. -/
structure PluginWorker where
  retired : List Process := []
  process : Process := {}
  sequence : UInt64 := 1
  desynced : Bool := false
  holder : Option Nat := none
  calls : List PluginCall := []

inductive PluginAction where
  | begin (method : String) (params : Value)
  /-- The pipes are free; `started` is whether a restart that is asked for succeeds. -/
  | acquire (call : Nat) (started : Bool)
  | write (call : Nat) (n : Nat)
  | writeFail (call : Nat)
  | read (call : Nat)
  | readFail (call : Nat)
  | deadline (call : Nat)
  /-- The caller goes away. -/
  | cancel (call : Nat)
  /-- The module writes. -/
  | emit (bytes : List UInt8)
  | exit

section Machine

variable (serde : Serde)

namespace PluginWorker

def stage? (s : PluginWorker) (call : Nat) : Option RequestStage := s.calls[call]?.map (·.stage)

def at_ (s : PluginWorker) (call : Nat) (stage : RequestStage) : PluginWorker :=
  { s with calls := s.calls.modify call fun row => { row with stage := stage } }

/-- A request is over, and lets go of the pipes. -/
def release (s : PluginWorker) (call : Nat) (stage : RequestStage) : PluginWorker :=
  { (s.at_ call stage) with holder := none }

/-- The line a request goes out as. -/
def requestText (id : UInt64) (method : String) (params : Value) : List UInt8 :=
  Text.utf8 (serde.print (.object [("id", .number (.posInt id)),
    ("protocol_version", .nat moduleProtocolVersion), ("method", .string method),
    ("params", params)])) ++ [newline]

/-- The request has the pipes: a marked process is replaced first. -/
def acquire (s : PluginWorker) (call : Nat) (text : List UInt8) (started : Bool) : PluginWorker :=
  if s.desynced then
    if started then
      { (s.at_ call (.writing text)) with
        desynced := false, holder := some call, retired := s.retired ++ [s.process], process := {} }
    else
      { (s.at_ call (.returned (.error .io))) with desynced := false, process := s.process.fail }
  else { (s.at_ call (.writing text)) with holder := some call }

/-- A line, or the end of the output, has been read. -/
def finish (s : PluginWorker) (call : Nat) (row : PluginCall) (line : List UInt8) : PluginWorker :=
  let judged := judge serde row.id row.method line
  { (s.release call (.returned judged.1)) with
    desynced := s.desynced || judged.2
    process := if isAnswer serde row.id line then s.process.take else s.process.take.fail }

def step (s : PluginWorker) : PluginAction → Option PluginWorker
  | .begin method params =>
      some { s with
        sequence := s.sequence + 1
        calls := s.calls ++ [⟨s.sequence, method, requestText serde s.sequence method params, .waiting⟩] }
  | .acquire call started =>
      match s.holder, s.calls[call]? with
      | none, some ⟨_, _, text, .waiting⟩ => some (s.acquire call text started)
      | _, _ => none
  | .write call n =>
      match s.stage? call with
      | some (.writing left) =>
          if s.process.alive then
            some { (s.at_ call (if left.drop n = [] then .reading [] else .writing (left.drop n))) with
              process := { s.process with input := s.process.input ++ left.take n } }
          else none
      | _ => none
  | .writeFail call =>
      match s.stage? call with
      | some (.writing _) =>
          some { (s.release call (.returned (.error .io))) with process := s.process.fail }
      | _ => none
  | .read call =>
      match s.calls[call]? with
      | some ⟨id, method, text, .reading line⟩ =>
          if s.process.lineDone then
            some (s.finish serde call ⟨id, method, text, .reading line⟩ (line ++ s.process.available))
          else
            some { (s.at_ call (.reading (line ++ s.process.available))) with process := s.process.take }
      | _ => none
  | .readFail call =>
      match s.stage? call with
      | some (.reading _) =>
          some { (s.release call (.returned (.error .io))) with process := s.process.fail }
      | _ => none
  | .deadline call =>
      match s.calls[call]? with
      | some ⟨_, method, _, .reading _⟩ =>
          some { (s.release call (.returned (.error (.moduleFailed
              s!"模块的 {method} 在 {deadlineSecs method} 秒内没有回应")))) with
            desynced := true, process := s.process.fail }
      | _ => none
  | .cancel call =>
      match s.stage? call with
      | some .waiting => some (s.at_ call .dropped)
      | some (.writing _) => some { (s.release call .dropped) with process := s.process.fail }
      | some (.reading _) => some { (s.release call .dropped) with process := s.process.fail }
      | _ => none
  | .emit bytes =>
      if s.process.alive then
        some { s with process := { s.process with output := s.process.output ++ bytes } }
      else none
  | .exit => some { s with process := { s.process with alive := false } }

end PluginWorker

/-- A worker that was just spawned. -/
def pluginMachine : Machine PluginWorker PluginAction where
  Start s := s = {}
  step := PluginWorker.step serde

/-! ## What a step can do -/

/-- The stages in which a request has the pipes. -/
def RequestStage.busy : RequestStage → Bool
  | .writing _ | .reading _ => true
  | _ => false

inductive PluginWorker.Moves (s : PluginWorker) : PluginAction → PluginWorker → Prop
  | begin (method : String) (params : Value) :
      s.Moves (.begin method params) { s with
        sequence := s.sequence + 1
        calls := s.calls ++ [⟨s.sequence, method, requestText serde s.sequence method params, .waiting⟩] }
  | acquire {call : Nat} {row : PluginCall} {started : Bool} (free : s.holder = none)
      (here : s.calls[call]? = some row) (waits : row.stage = .waiting) :
      s.Moves (.acquire call started) (s.acquire call row.text started)
  | write {call n : Nat} {left : List UInt8} {stage : RequestStage}
      (here : s.stage? call = some (.writing left))
      (next : stage = .reading [] ∨ stage = .writing (left.drop n)) :
      s.Moves (.write call n) { (s.at_ call stage) with
        process := { s.process with input := s.process.input ++ left.take n } }
  | more {call : Nat} {row : PluginCall} {line : List UInt8} (here : s.calls[call]? = some row)
      (reads : row.stage = .reading line) (waits : s.process.lineDone = false) :
      s.Moves (.read call)
        { (s.at_ call (.reading (line ++ s.process.available))) with process := s.process.take }
  | finish {call : Nat} {row : PluginCall} {line : List UInt8} (here : s.calls[call]? = some row)
      (reads : row.stage = .reading line) (done : s.process.lineDone = true) :
      s.Moves (.read call) (s.finish serde call row (line ++ s.process.available))
  | writeFail {call : Nat} {left : List UInt8} (here : s.stage? call = some (.writing left)) :
      s.Moves (.writeFail call)
        { (s.release call (.returned (.error .io))) with process := s.process.fail }
  | readFail {call : Nat} {line : List UInt8} (here : s.stage? call = some (.reading line)) :
      s.Moves (.readFail call)
        { (s.release call (.returned (.error .io))) with process := s.process.fail }
  | deadline {call : Nat} {line : List UInt8} {message : String}
      (here : s.stage? call = some (.reading line)) :
      s.Moves (.deadline call) { (s.release call (.returned (.error (.moduleFailed message)))) with
        desynced := true, process := s.process.fail }
  /-- A caller that does not have the pipes goes away. -/
  | leave {call : Nat} (here : s.stage? call = some .waiting) :
      s.Moves (.cancel call) (s.at_ call .dropped)
  | cancel {call : Nat} {stage : RequestStage} (here : s.stage? call = some stage)
      (busy : stage.busy = true) :
      s.Moves (.cancel call) { (s.release call .dropped) with process := s.process.fail }
  | emit {bytes : List UInt8} (alive : s.process.alive = true) :
      s.Moves (.emit bytes) { s with process := { s.process with output := s.process.output ++ bytes } }
  | exit : s.Moves .exit { s with process := { s.process with alive := false } }

variable {serde} {s t : PluginWorker}

theorem PluginWorker.stage?_eq {call : Nat} {row : PluginCall} (here : s.calls[call]? = some row) :
    s.stage? call = some row.stage := by
  rw [stage?, here, Option.map_some]

theorem PluginWorker.step_moves {action : PluginAction} (stepped : s.step serde action = some t) :
    s.Moves serde action t := by
  cases action with
  | begin method params =>
      cases stepped
      exact .begin method params
  | acquire call started =>
      simp only [step] at stepped
      split at stepped
      · rename_i free here
        cases stepped
        exact .acquire free here rfl
      · cases stepped
  | write call n =>
      simp only [step] at stepped
      split at stepped
      · rename_i left here
        split at stepped
        · cases stepped
          refine .write here ?_
          split
          · exact .inl rfl
          · exact .inr rfl
        · cases stepped
      · cases stepped
  | writeFail call =>
      simp only [step] at stepped
      split at stepped
      · rename_i left here
        cases stepped
        exact .writeFail here
      · cases stepped
  | read call =>
      simp only [step] at stepped
      split at stepped
      · rename_i id method text line here
        split at stepped
        · rename_i done
          cases stepped
          exact .finish here rfl done
        · rename_i waits
          cases stepped
          exact .more here rfl (by simpa using waits)
      · cases stepped
  | readFail call =>
      simp only [step] at stepped
      split at stepped
      · rename_i line here
        cases stepped
        exact .readFail here
      · cases stepped
  | deadline call =>
      simp only [step] at stepped
      split at stepped
      · rename_i id method text line here
        cases stepped
        exact .deadline (stage?_eq here)
      · cases stepped
  | cancel call =>
      simp only [step] at stepped
      split at stepped
      · rename_i here
        cases stepped
        exact .leave here
      · rename_i left here
        cases stepped
        exact .cancel here rfl
      · rename_i line here
        cases stepped
        exact .cancel here rfl
      · cases stepped
  | emit bytes =>
      simp only [step] at stepped
      split at stepped
      · rename_i alive
        cases stepped
        exact .emit alive
      · cases stepped
  | exit =>
      cases stepped
      exact .exit

/-- A request stands where it was moved to, or where it stood. -/
theorem PluginWorker.stage?_at {call i : Nat} {stage shown : RequestStage}
    (rows : t.calls = (s.at_ call stage).calls) (here : t.stage? i = some shown) :
    (call = i ∧ shown = stage) ∨ (call ≠ i ∧ s.stage? i = some shown) := by
  obtain ⟨row, found, rfl⟩ := Option.map_eq_some_iff.mp here
  rw [rows] at found
  rcases getElem?_modify_cases found with ⟨same, old, -, rfl⟩ | ⟨differs, old⟩
  · exact .inl ⟨same, rfl⟩
  · exact .inr ⟨differs, stage?_eq old⟩

/-! ## Who has the pipes -/

/-- Only the holder writes or reads. -/
def PluginWorker.Exclusive (s : PluginWorker) : Prop :=
  ∀ (i : Nat) (stage : RequestStage), s.stage? i = some stage → stage.busy = true → s.holder = some i

namespace PluginWorker.Exclusive

/-- A request moves on without the pipes changing hands. -/
theorem at_ (exclusive : s.Exclusive) {call : Nat} {stage : RequestStage} {next : PluginWorker}
    (rows : next.calls = (s.at_ call stage).calls) (holder : next.holder = s.holder)
    (own : stage.busy = true → s.holder = some call) : next.Exclusive := by
  intro i shown here busy
  rw [holder]
  rcases stage?_at rows here with ⟨rfl, rfl⟩ | ⟨-, old⟩
  · exact own busy
  · exact exclusive i shown old busy

/-- The holder lets go. -/
theorem release (exclusive : s.Exclusive) {call : Nat} {stage old : RequestStage} {next : PluginWorker}
    (rows : next.calls = (s.at_ call stage).calls) (here : s.stage? call = some old)
    (was : old.busy = true) (idle : stage.busy = false) : next.Exclusive := by
  intro i shown there busy
  rcases stage?_at rows there with ⟨-, rfl⟩ | ⟨differs, other⟩
  · rw [idle] at busy
    cases busy
  · have mine := exclusive call old here was
    rw [exclusive i shown other busy] at mine
    exact absurd (Option.some.inj mine).symm differs

/-- While the pipes are free nobody is at them. -/
theorem idle (exclusive : s.Exclusive) (free : s.holder = none) {i : Nat} {shown : RequestStage}
    (here : s.stage? i = some shown) : shown.busy = false := by
  by_contra busy
  rw [Bool.not_eq_false] at busy
  rw [exclusive i shown here busy] at free
  cases free

theorem acquire (exclusive : s.Exclusive) (free : s.holder = none) (call : Nat) (text : List UInt8)
    (started : Bool) : (s.acquire call text started).Exclusive := by
  have taken : ∀ (next : PluginWorker), next.calls = (s.at_ call (.writing text)).calls →
      next.holder = some call → next.Exclusive := by
    intro next rows holder i shown here busy
    rcases stage?_at rows here with ⟨rfl, -⟩ | ⟨-, old⟩
    · exact holder
    · rw [exclusive.idle free old] at busy
      cases busy
  unfold PluginWorker.acquire
  split
  · split
    · exact taken _ rfl rfl
    · exact exclusive.at_ rfl rfl nofun
  · exact taken _ rfl rfl

theorem moves (exclusive : s.Exclusive) {action : PluginAction} (moved : s.Moves serde action t) :
    t.Exclusive := by
  cases moved with
  | begin method params =>
      intro i stage here busy
      obtain ⟨row, found, rfl⟩ := Option.map_eq_some_iff.mp here
      rw [List.getElem?_append] at found
      split at found
      · exact exclusive i row.stage (stage?_eq found) busy
      · obtain rfl := List.mem_singleton.mp (List.mem_of_getElem? found)
        cases busy
  | acquire free here waits => exact exclusive.acquire free _ _ _
  | write here next =>
      refine exclusive.at_ rfl rfl fun _ => ?_
      exact exclusive _ _ here rfl
  | more here reads waits =>
      refine exclusive.at_ rfl rfl fun _ => ?_
      exact exclusive _ _ (stage?_eq here) (by rw [reads]; rfl)
  | finish here reads done => exact exclusive.release rfl (stage?_eq here) (by rw [reads]; rfl) rfl
  | writeFail here => exact exclusive.release rfl here rfl rfl
  | readFail here => exact exclusive.release rfl here rfl rfl
  | deadline here => exact exclusive.release rfl here rfl rfl
  | leave here => exact exclusive.at_ rfl rfl nofun
  | cancel here busy => exact exclusive.release rfl here busy rfl
  | emit alive => exact exclusive
  | exit => exact exclusive

end PluginWorker.Exclusive

/-! ## Recovery -/

/-- The ways out of a request that leave the pipes as they should be: a restart that is
asked for succeeds, no write or read fails, no caller goes away with the pipes, and the
output does not end, or break off in the middle of a character, where an answer should be. -/
def PluginWorker.recoverable (s : PluginWorker) : PluginAction → Bool
  | .acquire _ started => started || !s.desynced
  | .writeFail _ | .readFail _ => false
  | .cancel call => s.holder != some call
  | .read call =>
      match s.stage? call with
      | some (.reading line) =>
          !s.process.lineDone ||
            (line ++ s.process.available != [] &&
              (Text.fromUtf8 (line ++ s.process.available)).isSome)
      | _ => true
  | _ => true

/-- A process on which a request failed is marked before the next one gets the pipes. -/
structure PluginWorker.Recovering (s : PluginWorker) : Prop where
  exclusive : s.Exclusive
  marked : s.holder = none → s.process.failed = true → s.desynced = true
  fit : s.holder ≠ none → s.process.failed = false

/-- A line that was read in full and is no answer marks the pipe. -/
theorem judge_marks {id : UInt64} {method : String} {line : List UInt8} (some_ : line ≠ [])
    (valid : (Text.fromUtf8 line).isSome = true) (foreign : isAnswer serde id line = false) :
    (judge serde id method line).2 = true := by
  obtain ⟨text, decoded⟩ := Option.isSome_iff_exists.mp valid
  unfold isAnswer at foreign
  unfold judge
  rw [if_neg some_]
  simp only [decoded] at foreign ⊢
  cases parsed : serde.fromStr text with
  | error message => rfl
  | ok response =>
      rw [parsed] at foreign
      have other : (response.get "id").bind Value.asU64 ≠ some id := by simpa using foreign
      simp only [if_pos other]

namespace PluginWorker.Recovering

theorem fresh : PluginWorker.Recovering {} where
  exclusive := nofun
  marked := nofun
  fit := by simp

theorem acquire (inv : s.Recovering) (free : s.holder = none) (call : Nat) (text : List UInt8)
    {started : Bool} (restarts : started = true ∨ s.desynced = false) :
    (s.acquire call text started).Recovering := by
  refine ⟨inv.exclusive.acquire free call text started, ?_, ?_⟩
  · unfold PluginWorker.acquire
    split
    · rename_i flagged
      rw [if_pos (restarts.resolve_right (by simp [flagged]))]
      nofun
    · nofun
  · intro _
    unfold PluginWorker.acquire
    split
    · rename_i flagged
      rw [if_pos (restarts.resolve_right (by simp [flagged]))]
    · rename_i unmarked
      show s.process.failed = false
      by_contra failed
      exact unmarked (inv.marked free (by simpa using failed))

theorem finish (inv : s.Recovering) {call : Nat} {row : PluginCall} {line : List UInt8}
    (here : s.calls[call]? = some row) (reads : row.stage = .reading line)
    (whole : line ++ s.process.available ≠ [])
    (valid : (Text.fromUtf8 (line ++ s.process.available)).isSome = true) :
    (s.finish serde call row (line ++ s.process.available)).Recovering := by
  have busy : row.stage.busy = true := by rw [reads]; rfl
  have held := inv.exclusive call row.stage (stage?_eq here) busy
  refine ⟨inv.exclusive.release rfl (stage?_eq here) busy rfl, ?_, fun none => absurd rfl none⟩
  intro _ failed
  show (s.desynced || (judge serde row.id row.method (line ++ s.process.available)).2) = true
  cases answered : isAnswer serde row.id (line ++ s.process.available) with
  | true =>
      have was : s.process.failed = true := by simpa [PluginWorker.finish, answered, Process.take] using failed
      rw [inv.fit (by simp [held])] at was
      cases was
  | false => rw [judge_marks whole valid answered, Bool.or_true]

theorem moves (inv : s.Recovering) {action : PluginAction} (ok : s.recoverable action = true)
    (moved : s.Moves serde action t) : t.Recovering := by
  have exclusive := inv.exclusive.moves moved
  cases moved with
  | begin method params => exact ⟨exclusive, inv.marked, inv.fit⟩
  | acquire free here waits => exact inv.acquire free _ _ (by simpa [recoverable] using ok)
  | write here next => exact ⟨exclusive, inv.marked, inv.fit⟩
  | more here reads waits => exact ⟨exclusive, inv.marked, inv.fit⟩
  | finish here reads done =>
      have read : recoverable s (.read _) = true := ok
      simp only [recoverable, stage?_eq here, reads, done, Bool.not_true, Bool.false_or,
        Bool.and_eq_true, bne_iff_ne] at read
      exact inv.finish here reads read.1 read.2
  | writeFail here => cases ok
  | readFail here => cases ok
  | deadline here => exact ⟨exclusive, fun _ _ => rfl, fun none => absurd rfl none⟩
  | leave here => exact ⟨exclusive, inv.marked, inv.fit⟩
  | cancel here busy =>
      have held := inv.exclusive _ _ here busy
      simp [recoverable, held] at ok
  | emit alive => exact ⟨exclusive, inv.marked, inv.fit⟩
  | exit => exact ⟨exclusive, inv.marked, inv.fit⟩

end PluginWorker.Recovering

/-- **Every request is written to a process on which none has failed**, as long as each
request that fails does so by its deadline or by a line that is no answer to it, and the
restart it asks for succeeds. -/
theorem recovers (serde : Serde) {actions : List PluginAction} {final : PluginWorker}
    (met : (pluginMachine serde).Meets (fun s action => s.recoverable action = true) {} actions)
    (ran : (pluginMachine serde).run {} actions = some final) (held : final.holder ≠ none) :
    final.process.failed = false := by
  have inv : final.Recovering := by
    refine Machine.run_preserves_of_meets ?_ met ran PluginWorker.Recovering.fresh
    intro s action t inv ok stepped
    exact inv.moves ok (PluginWorker.step_moves stepped)
  exact inv.fit held

/-- A JSON reader and printer, as far as two health checks go. -/
def healthSerde : Serde where
  fromStr := fun text =>
    if text = "\x7b\"id\":1,\"ok\":true,\"result\":\x7b\x7d\x7d\n" then
      .ok (.object [("id", .nat 1), ("ok", .bool true), ("result", .object [])])
    else if text = "\x7b\"id\":2,\"ok\":true,\"result\":\x7b\x7d\x7d\n" then
      .ok (.object [("id", .nat 2), ("ok", .bool true), ("result", .object [])])
    else .error "EOF while parsing a value at line 1 column 0"
  fromStrVec := fun _ => .error "EOF while parsing a value at line 1 column 0"
  print := fun request =>
    if (request.get "id").bind Value.asU64 = some 1 then
      "\x7b\"id\":1,\"method\":\"health\",\"params\":\x7b\x7d,\"protocol_version\":1\x7d"
    else "\x7b\"id\":2,\"method\":\"health\",\"params\":\x7b\x7d,\"protocol_version\":1\x7d"

/-- A health check that is answered late, and the next one. -/
def lateAnswer : List PluginAction :=
  [.begin "health" (.object []), .acquire 0 true, .write 0 100, .deadline 0,
    .emit (Text.utf8 "\x7b\"id\":1,\"ok\":true,\"result\":\x7b\x7d\x7d\n"),
    .begin "health" (.object []), .acquire 1 true]

theorem recovers_lateAnswer :
    ∃ final, (pluginMachine healthSerde).run {} lateAnswer = some final ∧
      (final.holder = some 1 ∧ final.retired.map (·.failed) = [true]) ∧
      final.process.failed = false := by
  obtain ⟨final, ran, shown⟩ : ∃ final, (pluginMachine healthSerde).run {} lateAnswer = some final ∧
      (final.holder = some 1 ∧ final.retired.map (·.failed) = [true]) :=
    Machine.run_exists (by decide +kernel)
  exact ⟨final, ran, shown, recovers healthSerde (by decide +kernel) ran (by simp [shown.1])⟩

/-- A module that exits while it should answer, and the next health check. -/
def exitAndGoOn : List PluginAction :=
  [.begin "health" (.object []), .acquire 0 true, .write 0 100, .exit, .read 0,
    .begin "health" (.object []), .acquire 1 true]

/-- The second request has the pipes of the process that is gone. -/
theorem dead_module_kept :
    ∃ final, (pluginMachine healthSerde).run {} exitAndGoOn = some final ∧
      final.holder = some 1 ∧ final.retired = [] ∧ final.process.failed = true ∧
      final.process.alive = false :=
  Machine.run_exists (by decide +kernel)

end Machine

end MajsoulManager.Watch
