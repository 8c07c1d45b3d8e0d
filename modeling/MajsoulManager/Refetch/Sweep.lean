/-
# Refetch.Sweep — the walk over the known games

`one_known_games_pass` and the loop around it, `refetch_service.rs`.  A pass reads
the catalogue page by page, hands the games it does not hold to the sessions, and
books their outcomes as they come back, in any order and for several pages at once.
The cursor in PostgreSQL may move over the pages at the front that are done
(`PendingPages`).

What the databases and the sessions answer is the environment's: every turn of the
loop carries it (`Turn`).
-/
import MajsoulManager.Theory.Machine
import MajsoulManager.Ingest.Calls

namespace MajsoulManager.Refetch

open MajsoulManager.Theory
open MajsoulManager.Store
open MajsoulManager.Ingest

set_option autoImplicit false

/-! ## One game -/

inductive RefetchError where
  | unserved
  | refused (why : String)
  deriving DecidableEq

inductive Unconvertible where
  | noUuid
  | convertFailed
  | wrongGame
  | truncated
  deriving DecidableEq

inductive Outcome where
  | replaced
  | refused
  | unreadable
  | unconvertible (why : Unconvertible)
  | duplicate
  | unserved
  deriving DecidableEq

/-- What one attempt of `ingest_one` comes to. -/
inductive Ingested where
  | accepted (duplicate : Bool)
  | backlogged (lag : Nat)
  | failed (error : String)
  deriving DecidableEq

/-- What the world answers to one game.  An `error` is a task that died. -/
structure GameRun where
  fetched : Except RefetchError Bytes
  sessions : Nat
  converted : Except String (Option Bytes)
  ingested : List (Except String Ingested)

/-- A backlog is waited out; `none` while it lasts. -/
def ingestLoop : List (Except String Ingested) → Option (Except String Outcome)
  | [] => none
  | .error died :: _ => some (.error died)
  | .ok (.accepted true) :: _ => some (.ok .duplicate)
  | .ok (.accepted false) :: _ => some (.ok .replaced)
  | .ok (.backlogged _) :: rest => ingestLoop rest
  | .ok (.failed error) :: _ => some (.error error)

def claimTimeoutSecs : Nat := 180

def oneGame (run : GameRun) : Option (Except String Outcome) :=
  match run.fetched with
  | .error .unserved =>
      if run.sessions = 0 then
        some (.error ("没有会话接手补抓请求（等了 " ++ toString claimTimeoutSecs ++
          " 秒，当前登录会话为 0）"))
      else some (.ok .unserved)
  | .error (.refused _) => some (.ok .refused)
  | .ok _ =>
      match run.converted with
      | .error died => some (.error died)
      | .ok none => some (.ok (.unconvertible .convertFailed))
      | .ok (some _) => ingestLoop run.ingested

/-! ## Pages in flight -/

structure SweepPosition where
  startedAt : DateTime
  uuid : String
  deriving DecidableEq

structure PageCommit where
  position : SweepPosition
  rows : Nat
  present : Nat
  outstanding : Nat
  unserved : Bool
  deriving DecidableEq

structure PendingPages where
  pages : List PageCommit := []
  done : Nat := 0
  deriving DecidableEq

structure Committed where
  position : SweepPosition
  rows : Nat
  present : Nat
  deriving DecidableEq

/-- The pages, and the number of the one taken. -/
def PendingPages.push (pending : PendingPages) (page : PageCommit) : PendingPages × Nat :=
  ({ pending with pages := pending.pages ++ [page] }, pending.done + pending.pages.length)

def PageCommit.book (page : PageCommit) (unserved : Bool) : PageCommit :=
  { page with
    outstanding := page.outstanding - 1
    unserved := page.unserved || unserved }

/-- Book one game; one for a page that has left the front is dropped. -/
def PendingPages.answered (pending : PendingPages) (page : Nat) (unserved : Bool) : PendingPages :=
  if page < pending.done then pending
  else { pending with pages := pending.pages.modify (page - pending.done) (·.book unserved) }

def PageCommit.finished (page : PageCommit) : Bool := page.outstanding == 0 && !page.unserved

/-- The loop of `committable`, with what it has committed so far. -/
def committableFrom : List PageCommit → Nat → Option Committed → Option Committed × PendingPages
  | [], done, committed => (committed, ⟨[], done⟩)
  | page :: rest, done, committed =>
      if page.finished then
        committableFrom rest (done + 1)
          (some
            { position := page.position
              rows := (committed.map (·.rows)).getD 0 + page.rows
              present := (committed.map (·.present)).getD 0 + page.present })
      else (committed, ⟨page :: rest, done⟩)

def PendingPages.committable (pending : PendingPages) : Option Committed × PendingPages :=
  committableFrom pending.pages pending.done none

/-! ## Rounds -/

structure PassOutcome where
  scanned : Nat
  replaced : Nat
  finished : Bool
  deriving DecidableEq

inductive WalkStop where
  | done
  | stalled
  | exhausted
  deriving DecidableEq

structure WalkTally where
  passes : Nat := 0
  stumbles : Nat := 0
  deriving DecidableEq

def maxPasses : Nat := 12

def maxStumbles : Nat := 10

def WalkTally.after (tally : WalkTally) (outcome : PassOutcome) : WalkTally × Option WalkStop :=
  let stumbles := if outcome.finished || 0 < outcome.replaced then 0 else tally.stumbles + 1
  if maxStumbles ≤ stumbles then ({ tally with stumbles }, some .stalled)
  else if outcome.finished = false then ({ tally with stumbles }, none)
  else
    let passes := tally.passes + 1
    if outcome.replaced = 0 then (⟨passes, stumbles⟩, some .done)
    else (⟨passes, stumbles⟩, if maxPasses ≤ passes then some .exhausted else none)

/-! ## The pass -/

/-- The console's counters. -/
structure Progress where
  scanned : Nat := 0
  present : Nat := 0
  replaced : Nat := 0
  duplicates : Nat := 0
  refused : Nat := 0
  unconvertible : Nat := 0
  unreadable : Nat := 0
  position : Option DateTime := none
  deriving DecidableEq

/-- The variables of `one_known_games_pass`.  The last two are history: the pages
read, by number, and the games that were taken off the queue unasked. -/
structure Pass where
  readingFrom : Option SweepPosition
  fetching : List (Nat × String) := []
  pending : PendingPages := {}
  queued : List (Nat × String) := []
  listedEverything : Bool := false
  unserved : Nat := 0
  scanned : Nat := 0
  replaced : Nat := 0
  pages : List (List SweepPosition) := []
  dropped : List (Nat × String) := []
  deriving DecidableEq

/-- How a pass ended, what the walk made of it, and the games it listed. -/
structure PassEnd where
  outcome : PassOutcome
  stop : Option WalkStop
  listed : List SweepPosition
  deriving DecidableEq

/-- The walk and its cursor.  The last three are history: the games that got an
answer, the pages the cursor has moved past since it was clear, and the passes that
ended. -/
structure Sweep where
  cursor : Option SweepPosition := none
  tally : Option WalkTally := none
  pass : Option Pass := none
  progress : Progress := {}
  answered : List String := []
  behind : List (List SweepPosition) := []
  ended : List PassEnd := []
  deriving DecidableEq

/-- The task that is joined. -/
inductive Joined where
  | died (error : String)
  | game (run : GameRun)

/-- What the world answers in one turn of the loop: whether the generation is this
walk's, the page and the claims read, whether the cursor write lands, which task in
flight comes back and how, whether the cursor is cleared, and whether the
generation is this walk's after the pass. -/
structure Turn where
  current : Bool := true
  listing : Except String (List SweepPosition) := .ok []
  held : Except String (List Hash) := .ok []
  lands : Bool := true
  index : Nat := 0
  joined : Joined := .died ""
  clears : Bool := true
  stillCurrent : Bool := true

def gameClaimHash (crates : Crates) (uuid : String) : Hash :=
  crates.sha256 (utf8 (gameScopeKey uuid))

def unclaimed (crates : Crates) (uuids : List String) (held : List Hash) : List String :=
  uuids.filter fun uuid => !held.contains (gameClaimHash crates uuid)

section

variable (crates : Crates) (inFlight : Nat)

/-- The walk is over, with an error or for another configuration. -/
def Sweep.abandon (sweep : Sweep) : Sweep := { sweep with tally := none, pass := none }

/-- The pass is over, and the walk decides whether there is another. -/
def Sweep.conclude (sweep : Sweep) (pass : Pass) (finished stillCurrent : Bool) : Sweep :=
  let outcome : PassOutcome := ⟨pass.scanned, pass.replaced, finished⟩
  if stillCurrent then
    let (tally, stop) := (sweep.tally.getD {}).after outcome
    { sweep with
      tally := if stop.isSome then none else some tally
      pass := none
      ended := sweep.ended ++ [⟨outcome, stop, pass.pages.flatten⟩] }
  else
    { sweep with
      tally := none
      pass := none
      ended := sweep.ended ++ [⟨outcome, none, pass.pages.flatten⟩] }

/-- A page that was read, with the claims of its games. -/
def Pass.takePage (pass : Pass) (page : List SweepPosition) (last : SweepPosition)
    (held : List Hash) : Pass :=
  let wanted := unclaimed crates (page.map (·.uuid)) held
  let (pending, number) := pass.pending.push
    { position := last
      rows := page.length
      present := page.length - wanted.length
      outstanding := wanted.length
      unserved := false }
  { pass with
    pending
    queued := pass.queued ++ wanted.map fun uuid => (number, uuid)
    readingFrom := some last
    pages := pass.pages ++ [page] }

/-- The games of a page that are stored already. -/
def heldGames (page : List SweepPosition) (held : List Hash) : List String :=
  (page.map (·.uuid)).filter fun uuid => held.contains (gameClaimHash crates uuid)

/-- Read ahead while the queue is short and every request was served. -/
def Sweep.readAhead (sweep : Sweep) (pass : Pass) (turn : Turn) : Except String (Sweep × Pass) :=
  if !pass.listedEverything && pass.unserved == 0 && pass.queued.length < inFlight then do
    let page ← turn.listing
    match page.getLast? with
    | none => .ok (sweep, { pass with listedEverything := true })
    | some last => do
        let held ← turn.held
        .ok ({ sweep with answered := sweep.answered ++ heldGames crates page held },
          pass.takePage crates page last held)
  else .ok (sweep, pass)

/-- Move the cursor over the pages that are done; a write that does not land is
only reported. -/
def Sweep.commit (sweep : Sweep) (pass : Pass) (lands : Bool) : Sweep × Pass :=
  let (committed, pending) := pass.pending.committable
  match committed with
  | none => (sweep, { pass with pending })
  | some done =>
      ({ sweep with
          cursor := if lands then some done.position else sweep.cursor
          behind := if lands then sweep.behind ++ pass.pages.take pending.done else sweep.behind
          progress :=
            { sweep.progress with
              scanned := sweep.progress.scanned + done.rows
              present := sweep.progress.present + done.present
              position := some done.position.startedAt } },
        { pass with pending, scanned := pass.scanned + done.rows })

/-- Fill the free slots from the queue. -/
def Pass.feed (pass : Pass) : Pass :=
  { pass with
    fetching := pass.fetching ++ pass.queued.take (inFlight - pass.fetching.length)
    queued := pass.queued.drop (inFlight - pass.fetching.length) }

/-- The counters after one outcome. -/
def Progress.book (progress : Progress) : Outcome → Progress
  | .replaced => { progress with replaced := progress.replaced + 1 }
  | .duplicate => { progress with duplicates := progress.duplicates + 1 }
  | .refused | .unserved => { progress with refused := progress.refused + 1 }
  | .unconvertible _ => { progress with unconvertible := progress.unconvertible + 1 }
  | .unreadable => { progress with unreadable := progress.unreadable + 1 }

/-- Book one game that came back.  An error counts as a refusal, and its game as
served; a request nobody served empties the queue. -/
def Sweep.book (sweep : Sweep) (pass : Pass) (game : Nat × String)
    (result : Except String Outcome) : Sweep × Pass :=
  match result with
  | .error _ =>
      ({ sweep with progress := { sweep.progress with refused := sweep.progress.refused + 1 } },
        { pass with pending := pass.pending.answered game.1 false })
  | .ok .unserved =>
      ({ sweep with progress := sweep.progress.book .unserved },
        { pass with
          pending := pass.pending.answered game.1 true
          unserved := pass.unserved + 1
          queued := []
          dropped := pass.dropped ++ pass.queued })
  | .ok outcome =>
      ({ sweep with
          progress := sweep.progress.book outcome
          answered := sweep.answered ++ [game.2] },
        { pass with
          pending := pass.pending.answered game.1 false
          replaced := if outcome = .replaced then pass.replaced + 1 else pass.replaced })

/-- Nothing is in the air: the pass is over, or the next turn reads on. -/
def Sweep.idle (sweep : Sweep) (pass : Pass) (turn : Turn) : Sweep :=
  if pass.queued = [] ∧ (pass.listedEverything = true ∨ 0 < pass.unserved) then
    if 0 < pass.unserved then sweep.conclude pass false turn.stillCurrent
    else if turn.clears then
      { sweep with cursor := none, behind := [] }.conclude pass true turn.stillCurrent
    else sweep.abandon
  else { sweep with pass := some pass }

/-- Wait for one task. -/
def Sweep.join (sweep : Sweep) (pass : Pass) (turn : Turn) : Option Sweep :=
  match pass.fetching with
  | [] => some (sweep.idle pass turn)
  | _ :: _ => do
      let game ← pass.fetching[turn.index]?
      match turn.joined with
      | .died _ => some sweep.abandon
      | .game run => do
          let result ← oneGame run
          let (sweep, pass) :=
            sweep.book { pass with fetching := pass.fetching.eraseIdx turn.index } game result
          some { sweep with pass := some pass }

/-- One turn of the loop. -/
def Sweep.turn (sweep : Sweep) (pass : Pass) (turn : Turn) : Option Sweep :=
  if turn.current = false then some (sweep.conclude pass false turn.stillCurrent)
  else
    match sweep.readAhead crates inFlight pass turn with
    | .error _ => some sweep.abandon
    | .ok (sweep, pass) =>
        let (sweep, pass) := sweep.commit pass turn.lands
        sweep.join (pass.feed inFlight) turn

/-- What can happen to the sweep: an operator starts a walk, a pass begins, the loop
takes a turn, or the process stops. -/
inductive Action where
  | start
  | begin (sweepFrom : Option DateTime)
  | turn (turn : Turn)
  | halt

def Sweep.begin (sweep : Sweep) (sweepFrom : Option DateTime) : Sweep :=
  { sweep with
    pass := some
      { readingFrom := sweep.cursor.or (sweepFrom.map fun startedAt => ⟨startedAt, ""⟩) } }

def Sweep.step (sweep : Sweep) (action : Action) : Option Sweep :=
  match action with
  | .start => some { sweep with tally := some {}, pass := none, progress := {} }
  | .begin sweepFrom =>
      if sweep.tally.isSome ∧ sweep.pass = none then some (sweep.begin sweepFrom) else none
  | .turn turn => do
      let pass ← sweep.pass
      sweep.turn crates inFlight pass turn
  | .halt => some sweep.abandon

def sweepMachine : Machine Sweep Action where
  Start sweep := sweep = {}
  step := Sweep.step crates inFlight

end

end MajsoulManager.Refetch
