/-
# Ingest.Calls — concurrent `ingest_one` calls over one claim table and one topic

Every await of an ingest is a step of its own: the insert of the claim, the
lookup of the row it met, the produce, and the delete that abandons the claim.
The action carries what the outside world did: whether a request took effect and
whether its answer came back.  A call may be cancelled while any of them is
outstanding.

`step_cases` says everything one step can do.
-/
import MajsoulManager.Ingest.Keys

namespace MajsoulManager.Ingest

open MajsoulManager.Theory
open MajsoulManager.Record
open MajsoulManager.Store

set_option autoImplicit false

/-! ## The claim table -/

abbrev Hash := Vector UInt8 32

/-- A row of `ingest_idempotency`. -/
structure ClaimRow where
  recordId : Uuid
  contentSha256 : String
  expires : Bool
  deriving DecidableEq

/-- The table by its primary key. -/
abbrev ClaimTable := Hash → Option ClaimRow

/-- `INSERT ... ON CONFLICT (key_hash) DO NOTHING`. -/
def ClaimTable.insert (table : ClaimTable) (hash : Hash) (row : ClaimRow) : ClaimTable :=
  fun other => if other = hash then (table hash).or (some row) else table other

/-- `DELETE ... WHERE key_hash = $1 AND record_id = $2`. -/
def ClaimTable.abandon (table : ClaimTable) (hash : Hash) (id : Uuid) : ClaimTable :=
  fun other => (table other).filter fun row => !(other == hash && row.recordId == id)

/-! ## Calls -/

/-- What an `ingest_one` call is given. -/
structure Request where
  source : String
  key : String
  playedAt : Option DateTime
  raw : Bytes
  majsoulPb : Option Bytes

/-- Where a call stands: one phase for each request it may be waiting on, and
the ways it can be over. -/
inductive Phase where
  | inserting
  | lookingUp
  | producing (message : IngestMessage)
  | abandoning
  | accepted
  | existing (id : Uuid)
  | failed
  | cancelled
  deriving DecidableEq

def Phase.finished : Phase → Bool
  | inserting | lookingUp | producing _ | abandoning => false
  | accepted | existing _ | failed | cancelled => true

/-- A call past its checks: its record parses, and its id is drawn. -/
structure Call where
  id : Uuid
  request : Request
  metadata : Metadata
  phase : Phase

def Call.scoped (call : Call) : String × KeyScope :=
  scopedKey call.metadata call.request.source call.request.key

def Call.hash (crates : Crates) (call : Call) : Hash := crates.sha256 (utf8 call.scoped.1)

/-- The row the call's insert writes. -/
def Call.row (crates : Crates) (call : Call) : ClaimRow where
  recordId := call.id
  contentSha256 := crates.digest call.request.raw
  expires := call.scoped.2.expires

/-- The message of a claim that was new. -/
def Call.message (now : DateTime) (call : Call) : IngestMessage :=
  IngestMessage.new now call.id call.request.source call.request.playedAt call.request.raw
    call.request.majsoulPb

/-- The id a call returned success with. -/
def Call.answer (call : Call) : Option Uuid :=
  match call.phase with
  | .accepted => some call.id
  | .existing id => some id
  | _ => none

/-- What the call makes of the row its insert met: none is a claim abandoned
meanwhile, and a caller's key promises its content. -/
def Call.resolve (crates : Crates) (call : Call) : Option ClaimRow → Phase
  | none => .failed
  | some row =>
      if call.scoped.2.contentMustMatch && row.contentSha256 != crates.digest call.request.raw then
        .failed
      else .existing row.recordId

/-! ## The machine -/

/-- What the calls share, and the calls. -/
structure Intake where
  table : ClaimTable
  topic : List IngestMessage
  calls : List Call

inductive Action where
  /-- A call comes in, against the sampled lag, and draws its id. -/
  | enter (id : Uuid) (request : Request) (lag maxLag : Int)
  | insert (id : Uuid) (now : DateTime) (landed answered : Bool)
  | lookup (id : Uuid) (answered : Bool)
  | produce (id : Uuid) (landed answered : Bool)
  | abandon (id : Uuid) (landed answered : Bool)
  /-- The client disconnects; the request that is outstanding may still land. -/
  | cancel (id : Uuid) (landed : Bool)

/-- What a call does to the shared state, and where it stands afterwards. -/
structure Effect where
  table : ClaimTable
  appended : List IngestMessage
  phase : Phase

/-- One await of one call.  An answer that came back says that the request took
effect. -/
def Call.step (crates : Crates) (table : ClaimTable) (call : Call) : Action → Option Effect
  | .insert _ now landed answered =>
      match call.phase with
      | .inserting =>
          if answered && !landed then none
          else
            let after := if landed then table.insert (call.hash crates) (call.row crates) else table
            let phase := if answered then
                if (table (call.hash crates)).isSome then .lookingUp
                else .producing (call.message now)
              else .failed
            some ⟨after, [], phase⟩
      | _ => none
  | .lookup _ answered =>
      match call.phase with
      | .lookingUp =>
          let phase := if answered then call.resolve crates (table (call.hash crates)) else .failed
          some ⟨table, [], phase⟩
      | _ => none
  | .produce _ landed answered =>
      match call.phase with
      | .producing message =>
          if answered && !landed then none
          else
            let phase := if answered then Phase.accepted else .abandoning
            some ⟨table, if landed then [message] else [], phase⟩
      | _ => none
  | .abandon _ landed answered =>
      match call.phase with
      | .abandoning =>
          if answered && !landed then none
          else
            -- a delete that fails is reported, not returned
            some ⟨if landed then table.abandon (call.hash crates) call.id else table, [], .failed⟩
      | _ => none
  | .cancel _ landed =>
      match call.phase with
      | .inserting =>
          let after := if landed then table.insert (call.hash crates) (call.row crates) else table
          some ⟨after, [], .cancelled⟩
      | .lookingUp => some ⟨table, [], .cancelled⟩
      | .producing message => some ⟨table, if landed then [message] else [], .cancelled⟩
      | .abandoning =>
          let after := if landed then table.abandon (call.hash crates) call.id else table
          some ⟨after, [], .cancelled⟩
      | _ => none
  | .enter .. => none

def Action.id : Action → Uuid
  | .enter id _ _ _ | .insert id _ _ _ | .lookup id _ | .produce id _ _ | .abandon id _ _
  | .cancel id _ => id

/-- Moves the call of that id. -/
def setPhase (id : Uuid) (phase : Phase) (calls : List Call) : List Call :=
  calls.map fun call => if call.id = id then { call with phase } else call

def Intake.apply (state : Intake) (id : Uuid) (effect : Effect) : Intake where
  table := effect.table
  topic := state.topic ++ effect.appended
  calls := setPhase id effect.phase state.calls

/-- The checks before the claim: a call that is refused leaves nothing behind. -/
def Intake.enter (crates : Crates) (state : Intake) (id : Uuid) (request : Request)
    (lag maxLag : Int) : Intake :=
  if maxLag ≤ lag then state
  else
    match parseMetadata crates.serde request.raw with
    | .error _ => state
    | .ok metadata => { state with calls := ⟨id, request, metadata, .inserting⟩ :: state.calls }

def Intake.step (crates : Crates) (state : Intake) (action : Action) : Option Intake :=
  match action, state.calls.find? (·.id == action.id) with
  -- ids are random: one that was drawn before does not come again
  | .enter id request lag maxLag, none => some (state.enter crates id request lag maxLag)
  | action, some call => (call.step crates state.table action).map (state.apply action.id)
  | _, none => none

def ingestMachine (crates : Crates) : Machine Intake Action where
  Start := fun state => (∀ hash, state.table hash = none) ∧ state.topic = [] ∧ state.calls = []
  step := Intake.step crates

/-! ## What a step can do -/

section Steps

variable {crates : Crates} {table : ClaimTable}

/-- Every move of one call. -/
inductive Call.Moves (crates : Crates) (table : ClaimTable) (call : Call) :
    Action → Effect → Prop
  | took {id : Uuid} {now : DateTime} (standing : call.phase = .inserting)
      (free : table (call.hash crates) = none) :
      Moves crates table call (.insert id now true true)
        ⟨table.insert (call.hash crates) (call.row crates), [], .producing (call.message now)⟩
  | met {id : Uuid} {now : DateTime} {row : ClaimRow} (standing : call.phase = .inserting)
      (held : table (call.hash crates) = some row) :
      Moves crates table call (.insert id now true true) ⟨table, [], .lookingUp⟩
  | unheard {id : Uuid} {now : DateTime} (landed : Bool) (standing : call.phase = .inserting) :
      Moves crates table call (.insert id now landed false)
        ⟨if landed then table.insert (call.hash crates) (call.row crates) else table, [], .failed⟩
  | resolved {id : Uuid} (standing : call.phase = .lookingUp) :
      Moves crates table call (.lookup id true)
        ⟨table, [], call.resolve crates (table (call.hash crates))⟩
  | unresolved {id : Uuid} (standing : call.phase = .lookingUp) :
      Moves crates table call (.lookup id false) ⟨table, [], .failed⟩
  | stored {id : Uuid} {message : IngestMessage} (standing : call.phase = .producing message) :
      Moves crates table call (.produce id true true) ⟨table, [message], .accepted⟩
  | undone {id : Uuid} {message : IngestMessage} (landed : Bool)
      (standing : call.phase = .producing message) :
      Moves crates table call (.produce id landed false)
        ⟨table, if landed then [message] else [], .abandoning⟩
  | released {id : Uuid} (landed answered : Bool) (standing : call.phase = .abandoning) :
      Moves crates table call (.abandon id landed answered)
        ⟨if landed then table.abandon (call.hash crates) call.id else table, [], .failed⟩
  | cancelInsert {id : Uuid} (landed : Bool) (standing : call.phase = .inserting) :
      Moves crates table call (.cancel id landed)
        ⟨if landed then table.insert (call.hash crates) (call.row crates) else table, [],
          .cancelled⟩
  | cancelLookup {id : Uuid} (landed : Bool) (standing : call.phase = .lookingUp) :
      Moves crates table call (.cancel id landed) ⟨table, [], .cancelled⟩
  | cancelProduce {id : Uuid} {message : IngestMessage} (landed : Bool)
      (standing : call.phase = .producing message) :
      Moves crates table call (.cancel id landed)
        ⟨table, if landed then [message] else [], .cancelled⟩
  | cancelAbandon {id : Uuid} (landed : Bool) (standing : call.phase = .abandoning) :
      Moves crates table call (.cancel id landed)
        ⟨if landed then table.abandon (call.hash crates) call.id else table, [], .cancelled⟩

/-- An insert that meets a row changes nothing. -/
theorem ClaimTable.insert_of_some {hash : Hash} {held : ClaimRow} (row : ClaimRow)
    (taken : table hash = some held) : table.insert hash row = table := by
  funext other
  by_cases same : other = hash
  · simp [ClaimTable.insert, same, taken]
  · simp [ClaimTable.insert, same]

theorem Call.moves_of_step {call : Call} {action : Action} {effect : Effect}
    (stepped : call.step crates table action = some effect) :
    call.Moves crates table action effect := by
  cases action with
  | enter id request lag maxLag => cases stepped
  | insert id now landed answered =>
      cases standing : call.phase <;> simp only [Call.step, standing, reduceCtorEq] at stepped
      cases answered with
      | false =>
          cases stepped
          exact .unheard landed standing
      | true =>
          cases landed with
          | false => cases stepped
          | true =>
              cases held : table (call.hash crates) with
              | none =>
                  simp only [held] at stepped
                  cases stepped
                  exact .took standing held
              | some row =>
                  simp only [held, ClaimTable.insert_of_some _ held] at stepped
                  cases stepped
                  exact .met standing held
  | lookup id answered =>
      cases standing : call.phase <;> simp only [Call.step, standing, reduceCtorEq] at stepped
      cases answered with
      | false =>
          cases stepped
          exact .unresolved standing
      | true =>
          cases stepped
          exact .resolved standing
  | produce id landed answered =>
      cases standing : call.phase <;> simp only [Call.step, standing, reduceCtorEq] at stepped
      cases answered with
      | false =>
          cases stepped
          exact .undone landed standing
      | true =>
          cases landed with
          | false => cases stepped
          | true =>
              cases stepped
              exact .stored standing
  | abandon id landed answered =>
      cases standing : call.phase <;> simp only [Call.step, standing, reduceCtorEq] at stepped
      split at stepped
      · cases stepped
      · cases stepped
        exact .released landed answered standing
  | cancel id landed =>
      cases standing : call.phase <;> simp only [Call.step, standing, reduceCtorEq] at stepped <;>
        cases stepped
      · exact .cancelInsert landed standing
      · exact .cancelLookup landed standing
      · exact .cancelProduce landed standing
      · exact .cancelAbandon landed standing

def Action.Enters (action : Action) : Prop :=
  ∃ id request lag maxLag, action = .enter id request lag maxLag

/-- **Everything a step can do**: refuse a call, let one in, or move one. -/
theorem step_cases {state next : Intake} {action : Action}
    (stepped : state.step crates action = some next) :
    (action.Enters ∧ next = state) ∨
      (∃ call : Call, action.Enters ∧ call.phase = .inserting ∧ (∀ other ∈ state.calls, other.id ≠ call.id) ∧
        parseMetadata crates.serde call.request.raw = .ok call.metadata ∧
        next = { state with calls := call :: state.calls }) ∨
      ∃ call ∈ state.calls, ∃ effect, call.id = action.id ∧
        call.Moves crates state.table action effect ∧ next = state.apply call.id effect := by
  cases found : state.calls.find? (·.id == action.id) with
  | none =>
      have fresh : ∀ other ∈ state.calls, other.id ≠ action.id := by
        simpa using found
      cases action with
      | enter id request lag maxLag =>
          simp only [Intake.step, found, Intake.enter, Option.some.injEq] at stepped
          have enters : (Action.enter id request lag maxLag).Enters := ⟨_, _, _, _, rfl⟩
          split at stepped
          · exact .inl ⟨enters, stepped.symm⟩
          · split at stepped
            · exact .inl ⟨enters, stepped.symm⟩
            · rename_i metadata parsed
              exact .inr (.inl ⟨_, enters, rfl, fresh, parsed, stepped.symm⟩)
      | _ => simp [Intake.step, found] at stepped
  | some call =>
      have member := List.mem_of_find?_eq_some found
      have same : call.id = action.id := by simpa using List.find?_some found
      obtain ⟨effect, moved, rfl⟩ : ∃ effect, call.step crates state.table action = some effect ∧
          state.apply action.id effect = next := by
        cases action <;> simpa [Intake.step, found] using stepped
      exact .inr (.inr ⟨call, member, effect, same, Call.moves_of_step moved, by rw [same]⟩)

end Steps

end MajsoulManager.Ingest
