/-
# Watch.Registry — what the console shows of the games that are collected

`WatchRegistry` of `watch.rs`.  A record has two states, one of the uuid and one of the
conversion, and an event sets one or both; the summary counts a record by either, and a
full registry gives up a record that either says is over.  The seven events lead to seven
pairs of states, each counted once (`WatchEventKind.states`), if every event sets the pair.
`Fetching` sets only the first state: a game fetched again after its conversion failed is
both pending and failed, and may be given up while it is fetched (`refetched_counted_twice`).

The records are a `HashMap`: which of the oldest records is given up is in the action.
-/
import MajsoulManager.Theory.Instants
import MajsoulManager.Watch.Collector

namespace MajsoulManager.Watch

open MajsoulManager.Theory

set_option autoImplicit false

def maxRecentRecords : Nat := 10000

inductive WatchEventKind where
  | live | pending | fetching | converting | completed | fetchFailed | conversionFailed
  deriving DecidableEq

structure WatchEvent where
  uuid : String
  event : WatchEventKind
  modeId : Option Int32 := none
  startedAt : Option DateTime := none
  message : Option String := none
  recordId : Option (BitVec 128) := none
  deriving DecidableEq

inductive UuidState where
  | live | pending | fetching | fetched | failed
  deriving DecidableEq

inductive ConversionState where
  | waiting | converting | completed | failed
  deriving DecidableEq

structure WatchRecord where
  uuid : String
  uuidState : UuidState
  conversionState : ConversionState
  modeId : Option Int32
  startedAt : Option DateTime
  updatedAt : DateTime
  attempts : Nat
  message : Option String
  recordId : Option (BitVec 128)
  deriving DecidableEq

namespace WatchRecord

/-- `or_insert_with` of `apply`. -/
def fresh (event : WatchEvent) (now : DateTime) : WatchRecord where
  uuid := event.uuid
  uuidState := .live
  conversionState := .waiting
  modeId := event.modeId
  startedAt := event.startedAt
  updatedAt := now
  attempts := 0
  message := none
  recordId := none

/-- The match of `apply` on the kind of the event. -/
def enter (record : WatchRecord) : WatchEventKind → WatchRecord
  | .live => { record with uuidState := .live, conversionState := .waiting }
  | .pending => { record with uuidState := .pending, conversionState := .waiting }
  | .fetching =>
      { record with uuidState := .fetching, attempts := min (record.attempts + 1) (2 ^ 32 - 1) }
  | .converting => { record with uuidState := .fetched, conversionState := .converting }
  | .completed => { record with uuidState := .fetched, conversionState := .completed }
  | .fetchFailed => { record with uuidState := .failed, conversionState := .waiting }
  | .conversionFailed => { record with uuidState := .fetched, conversionState := .failed }

def update (record : WatchRecord) (event : WatchEvent) (now : DateTime) : WatchRecord :=
  { record with
    modeId := event.modeId.or record.modeId
    startedAt := event.startedAt.or record.startedAt
    updatedAt := now
    message := event.message
    recordId := event.recordId.or record.recordId }.enter event.event

/-- A record that a full registry may give up. -/
def terminal (record : WatchRecord) : Bool :=
  record.uuidState = .failed || record.conversionState = .completed ||
    record.conversionState = .failed

def states (record : WatchRecord) : UuidState × ConversionState :=
  (record.uuidState, record.conversionState)

end WatchRecord

/-! ## The registry -/

inductive WatchError where
  | invalidUuid
  deriving DecidableEq

abbrev Registry := List WatchRecord

namespace Registry

/-- `entry(..).or_insert_with(..)`. -/
def entry (records : Registry) (event : WatchEvent) (now : DateTime) : WatchRecord :=
  (records.find? (·.uuid == event.uuid)).getD (.fresh event now)

def remove (records : Registry) (uuid : String) : Registry := records.filter (·.uuid != uuid)

def put (records : Registry) (record : WatchRecord) : Registry :=
  records.remove record.uuid ++ [record]

/-- The records may give up `victim`: one of the oldest that are over, if there are too
many. -/
def MayEvict (records : Registry) (victim : Option String) : Prop :=
  if maxRecentRecords < records.length then
    match victim with
    | none => ∀ record ∈ records, record.terminal = false
    | some uuid => ∃ record ∈ records, record.uuid = uuid ∧ record.terminal = true ∧
        ∀ other ∈ records, other.terminal = true → record.updatedAt ≤ other.updatedAt
  else victim = none

instance (records : Registry) (victim : Option String) : Decidable (records.MayEvict victim) := by
  unfold MayEvict
  split
  · cases victim <;> infer_instance
  · infer_instance

/-- `apply`: the record as the event leaves it, and the records. -/
def apply (records : Registry) (event : WatchEvent) (now : DateTime) (victim : Option String) :
    Except WatchError WatchRecord × Registry :=
  if registryAccepts event.uuid then
    let record := (records.entry event now).update event now
    (.ok record, victim.elim (records.put record) (records.put record).remove)
  else (.error .invalidUuid, records)

end Registry

/-! ## The summary -/

structure WatchSummary where
  total : Nat := 0
  live : Nat := 0
  pending : Nat := 0
  converting : Nat := 0
  completed : Nat := 0
  failed : Nat := 0
  items : List WatchRecord := []

def stateMatches (record : WatchRecord) (state : String) : Bool :=
  if state = "live" then record.uuidState = .live
  else if state = "pending" then record.uuidState = .pending || record.uuidState = .fetching
  else if state = "fetching" then record.uuidState = .fetching
  else if state = "converting" then record.conversionState = .converting
  else if state = "completed" then record.conversionState = .completed
  else if state = "failed" then record.uuidState = .failed || record.conversionState = .failed
  else true

/-- The body of the loop of `summary`. -/
def WatchSummary.count (summary : WatchSummary) (item : WatchRecord) : WatchSummary :=
  let summary :=
    match item.uuidState with
    | .live => { summary with live := summary.live + 1 }
    | .pending | .fetching => { summary with pending := summary.pending + 1 }
    | .fetched | .failed => summary
  let summary :=
    if item.conversionState = .converting then { summary with converting := summary.converting + 1 }
    else summary
  let summary :=
    if item.conversionState = .completed then { summary with completed := summary.completed + 1 }
    else summary
  if item.uuidState = .failed ∨ item.conversionState = .failed then
    { summary with failed := summary.failed + 1 }
  else summary

/-- `all` is the records, the newest first. -/
def Registry.summary (all : List WatchRecord) (state : Option String) (limit : Nat) : WatchSummary :=
  { all.foldl WatchSummary.count ({ total := all.length } : WatchSummary) with
    items := (all.filter fun item => state.all (stateMatches item)).take limit }

/-- The counters a record may be in. -/
inductive Counter where
  | live | pending | converting | completed | failed
  deriving DecidableEq

def WatchSummary.of (summary : WatchSummary) : Counter → Nat
  | .live => summary.live
  | .pending => summary.pending
  | .converting => summary.converting
  | .completed => summary.completed
  | .failed => summary.failed

def WatchRecord.counted (record : WatchRecord) : Counter → Bool
  | .live => record.uuidState = .live
  | .pending => record.uuidState = .pending || record.uuidState = .fetching
  | .converting => record.conversionState = .converting
  | .completed => record.conversionState = .completed
  | .failed => record.uuidState = .failed || record.conversionState = .failed

theorem WatchSummary.of_count (summary : WatchSummary) (item : WatchRecord) (counter : Counter) :
    (summary.count item).of counter = summary.of counter + (item.counted counter).toNat := by
  unfold count WatchRecord.counted
  cases item.uuidState <;> cases item.conversionState <;> cases counter <;> rfl

/-- **A counter is the number of the records it counts.** -/
theorem Registry.of_summary (all : List WatchRecord) (state : Option String) (limit : Nat)
    (counter : Counter) : (Registry.summary all state limit).of counter = all.countP (·.counted counter) := by
  have fold : ∀ start : WatchSummary,
      (all.foldl WatchSummary.count start).of counter = start.of counter + all.countP (·.counted counter) := by
    induction all with
    | nil => exact fun start => rfl
    | cons item rest ih =>
        intro start
        rw [List.foldl_cons, ih, WatchSummary.of_count, List.countP_cons, Nat.add_assoc]
        congr 1
        cases item.counted counter with
        | false => exact Nat.zero_add _
        | true => exact Nat.add_comm _ _
  have counted := fold { total := all.length }
  have start : WatchSummary.of { total := all.length } counter = 0 := by cases counter <;> rfl
  rw [start, Nat.zero_add] at counted
  rw [← counted]
  cases counter <;> rfl

theorem Registry.total_summary (all : List WatchRecord) (state : Option String) (limit : Nat) :
    (Registry.summary all state limit).total = all.length := by
  have count : ∀ (summary : WatchSummary) item, (summary.count item).total = summary.total := by
    intro summary item
    unfold WatchSummary.count
    cases item.uuidState <;> cases item.conversionState <;> rfl
  have fold : ∀ start : WatchSummary, (all.foldl WatchSummary.count start).total = start.total := by
    induction all with
    | nil => exact fun start => rfl
    | cons item rest ih => exact fun start => (ih (start.count item)).trans (count start item)
  exact fold { total := all.length }

/-! ## Runs -/

/-- The two states an event of this kind is about. -/
def WatchEventKind.states : WatchEventKind → UuidState × ConversionState
  | .live => (.live, .waiting)
  | .pending => (.pending, .waiting)
  | .fetching => (.fetching, .waiting)
  | .converting => (.fetched, .converting)
  | .completed => (.fetched, .completed)
  | .fetchFailed => (.failed, .waiting)
  | .conversionFailed => (.fetched, .failed)

/-- The game is not waited for any more. -/
def WatchEventKind.Over : WatchEventKind → Prop
  | .completed | .fetchFailed | .conversionFailed => True
  | .live | .pending | .fetching | .converting => False

instance : DecidablePred WatchEventKind.Over
  | .completed | .fetchFailed | .conversionFailed => .isTrue trivial
  | .live | .pending | .fetching | .converting => .isFalse id

/-- The records, the events that were taken, the newest first, and the records given up
with the last event of each. -/
structure RegistryRun where
  records : Registry := []
  events : List WatchEvent := []
  evicted : List (String × Option WatchEventKind) := []
  deriving DecidableEq

def lastEvent (events : List WatchEvent) (uuid : String) : Option WatchEventKind :=
  (events.find? (·.uuid == uuid)).map (·.event)

structure Applied where
  event : WatchEvent
  now : DateTime
  victim : Option String := none

def registryMachine : Machine RegistryRun Applied where
  Start run := run = {}
  step run action :=
    match run.records.apply action.event action.now action.victim with
    | (.error _, records) => if action.victim = none then some { run with records } else none
    | (.ok record, records) =>
        if (run.records.put record).MayEvict action.victim then
          let events := action.event :: run.events
          some
            { records, events
              evicted := run.evicted ++
                action.victim.toList.map fun uuid => (uuid, lastEvent events uuid) }
        else none

/-- An event that sets one state finds the other as it leaves it. -/
def Coherent (run : RegistryRun) (action : Applied) : Prop :=
  action.event.event = .fetching →
    ∀ record ∈ run.records, record.uuid = action.event.uuid → record.conversionState = .waiting

instance (run : RegistryRun) (action : Applied) : Decidable (Coherent run action) := by
  unfold Coherent
  infer_instance

/-- The registry's books: each record in one counter, none given up that is waited for, and
too many only while too many are. -/
structure Accounted (run : RegistryRun) : Prop where
  counted : ∀ record ∈ run.records, ∃! counter, record.counted counter = true
  summed : ∀ all state limit, all.Perm run.records →
    let summary := Registry.summary all state limit
    summary.live + summary.pending + summary.converting + summary.completed + summary.failed =
      summary.total
  evicted : ∀ uuid last, (uuid, last) ∈ run.evicted → ∃ kind ∈ last, kind.Over
  bounded : maxRecentRecords < run.records.length →
    maxRecentRecords < run.records.countP fun record =>
      (lastEvent run.events record.uuid).any fun kind => !decide kind.Over

/-! ## One record -/

namespace WatchRecord

theorem enter_uuid (record : WatchRecord) (kind : WatchEventKind) :
    (record.enter kind).uuid = record.uuid := by
  cases kind <;> rfl

theorem enter_states (record : WatchRecord) (kind : WatchEventKind) :
    (record.enter kind).states =
      if kind = .fetching then (.fetching, record.conversionState) else kind.states := by
  cases kind <;> rfl

theorem update_uuid (record : WatchRecord) (event : WatchEvent) (now : DateTime) :
    (record.update event now).uuid = record.uuid :=
  enter_uuid ..

theorem update_states (record : WatchRecord) (event : WatchEvent) (now : DateTime) :
    (record.update event now).states =
      if event.event = .fetching then (.fetching, record.conversionState)
      else event.event.states :=
  enter_states ..

/-- A record in the states of one event is in one counter. -/
theorem counted_of_states {record : WatchRecord} {kind : WatchEventKind}
    (states : record.states = kind.states) : ∃! counter, record.counted counter = true := by
  obtain ⟨uuid, conversion⟩ := Prod.mk.inj states
  refine ⟨match kind with
    | .live => .live
    | .pending | .fetching => .pending
    | .converting => .converting
    | .completed => .completed
    | .fetchFailed | .conversionFailed => .failed, ?_, ?_⟩
  · cases kind <;> simp [counted, uuid, conversion]
  · intro counter
    cases kind <;> cases counter <;> simp [counted, uuid, conversion]

/-- One that is fetched while the conversion of an earlier fetch is not cleared is in two. -/
theorem not_counted_of_refetched {record : WatchRecord} (fetching : record.uuidState = .fetching)
    (conversion : record.conversionState ≠ .waiting) :
    ¬ ∃! counter, record.counted counter = true := by
  rintro ⟨counter, -, only⟩
  have pending := only .pending (by simp [counted, fetching])
  cases state : record.conversionState with
  | waiting => exact conversion state
  | converting => cases pending.trans (only .converting (by simp [counted, state])).symm
  | completed => cases pending.trans (only .completed (by simp [counted, state])).symm
  | failed => cases pending.trans (only .failed (by simp [counted, state])).symm

theorem terminal_of_states {record : WatchRecord} {kind : WatchEventKind}
    (states : record.states = kind.states) : record.terminal = true ↔ kind.Over := by
  obtain ⟨uuid, conversion⟩ := Prod.mk.inj states
  cases kind <;> simp [terminal, uuid, conversion, WatchEventKind.Over]

end WatchRecord

/-! ## One event -/

namespace Registry

variable {records : Registry}

theorem entry_uuid (records : Registry) (event : WatchEvent) (now : DateTime) :
    (records.entry event now).uuid = event.uuid := by
  unfold entry
  cases found : records.find? (·.uuid == event.uuid) with
  | none => rfl
  | some record => simpa using List.find?_some found

theorem mem_remove {record : WatchRecord} {uuid : String} :
    record ∈ records.remove uuid ↔ record ∈ records ∧ record.uuid ≠ uuid := by
  simp [remove]

theorem mem_put {record new : WatchRecord} :
    record ∈ records.put new ↔ record = new ∨ record ∈ records ∧ record.uuid ≠ new.uuid := by
  rw [put, List.mem_append, List.mem_singleton, mem_remove]
  exact or_comm

/-- No two records under one uuid. -/
def Unique (records : Registry) : Prop := (records.map (·.uuid)).Nodup

theorem Unique.remove (unique : records.Unique) (uuid : String) : (records.remove uuid).Unique :=
  unique.sublist (List.filter_sublist.map _)

theorem Unique.put (unique : records.Unique) (record : WatchRecord) : (records.put record).Unique := by
  rw [Unique, Registry.put, List.map_append, List.nodup_append]
  refine ⟨unique.remove _, List.nodup_singleton _, ?_⟩
  intro uuid member other only same
  obtain ⟨old, kept, rfl⟩ := List.mem_map.mp member
  rw [List.map_singleton, List.mem_singleton] at only
  exact (mem_remove.mp kept).2 (same.trans only)

theorem Unique.eq (unique : records.Unique) {a b : WatchRecord} (memberA : a ∈ records)
    (memberB : b ∈ records) (same : a.uuid = b.uuid) : a = b :=
  List.inj_on_of_nodup_map unique memberA memberB same

/-- One record for each uuid, and uuids that `apply` takes. -/
structure Keyed (records : Registry) : Prop where
  unique : records.Unique
  valid : ∀ record ∈ records, registryAccepts record.uuid = true

theorem Keyed.empty : Keyed [] where
  unique := List.nodup_nil
  valid _ member := absurd member List.not_mem_nil

theorem Keyed.remove (keyed : records.Keyed) (uuid : String) : (records.remove uuid).Keyed where
  unique := keyed.unique.remove uuid
  valid record member := keyed.valid record (mem_remove.mp member).1

theorem Keyed.put (keyed : records.Keyed) {record : WatchRecord}
    (valid : registryAccepts record.uuid = true) : (records.put record).Keyed where
  unique := keyed.unique.put record
  valid other member := by
    rcases mem_put.mp member with rfl | ⟨old, -⟩
    · exact valid
    · exact keyed.valid other old

theorem length_put_le (record : WatchRecord) : (records.put record).length ≤ records.length + 1 := by
  rw [put, List.length_append, List.length_singleton]
  exact Nat.succ_le_succ (List.length_filter_le ..)

theorem length_remove_lt {record : WatchRecord} (member : record ∈ records) :
    (records.remove record.uuid).length < records.length := by
  rw [remove, List.length_filter_lt_length_iff_exists]
  exact ⟨record, member, by simp⟩

/-- The found record is the one under the uuid. -/
theorem entry_eq (unique : records.Unique) {record : WatchRecord} {event : WatchEvent}
    (now : DateTime) (member : record ∈ records) (same : record.uuid = event.uuid) :
    records.entry event now = record := by
  unfold entry
  cases found : records.find? (·.uuid == event.uuid) with
  | none => exact absurd same (by simpa using List.find?_eq_none.mp found record member)
  | some other =>
      have under : other.uuid = event.uuid := by simpa using List.find?_some found
      exact unique.eq (List.mem_of_find?_eq_some found) member (under.trans same.symm)

/-- The entry's conversion is what the event leaves, if the event is coherent. -/
theorem entry_waiting {event : WatchEvent} (now : DateTime)
    (coherent : ∀ record ∈ records, record.uuid = event.uuid → record.conversionState = .waiting) :
    (records.entry event now).conversionState = .waiting := by
  unfold entry
  cases found : records.find? (·.uuid == event.uuid) with
  | none => rfl
  | some record =>
      exact coherent record (List.mem_of_find?_eq_some found) (by simpa using List.find?_some found)

end Registry

theorem lastEvent_cons (event : WatchEvent) (events : List WatchEvent) (uuid : String) :
    lastEvent (event :: events) uuid =
      if event.uuid = uuid then some event.event else lastEvent events uuid := by
  rw [lastEvent, List.find?_cons]
  by_cases same : event.uuid = uuid
  · rw [if_pos same, beq_iff_eq.mpr same]
    rfl
  · rw [if_neg same, beq_eq_false_iff_ne.mpr same]
    rfl

/-- What a step does: nothing, or it puts one record and may give one up. -/
theorem registry_step_cases {run next : RegistryRun} {action : Applied}
    (stepped : registryMachine.step run action = some next) :
    next = run ∧ registryAccepts action.event.uuid = false ∨
      ∃ record, record = (run.records.entry action.event action.now).update action.event action.now ∧
        (run.records.put record).MayEvict action.victim ∧
        next.records = action.victim.elim (run.records.put record) (run.records.put record).remove ∧
        registryAccepts action.event.uuid = true ∧
        next.events = action.event :: run.events ∧
        next.evicted = run.evicted ++
          action.victim.toList.map fun uuid => (uuid, lastEvent next.events uuid) := by
  unfold registryMachine Registry.apply at stepped
  dsimp only at stepped
  cases valid : registryAccepts action.event.uuid with
  | false =>
      rw [valid] at stepped
      simp only [Bool.false_eq_true, if_false, Option.ite_none_right_eq_some, Option.some.injEq]
        at stepped
      exact .inl ⟨stepped.2.symm, rfl⟩
  | true =>
      rw [valid] at stepped
      simp only [if_true, Option.ite_none_right_eq_some, Option.some.injEq] at stepped
      obtain ⟨may, rfl⟩ := stepped
      exact .inr ⟨_, rfl, may, rfl, rfl, rfl, rfl⟩

/-! ## Every run -/

/-- What a coherent run keeps: every record is in the states of its last event. -/
structure Follows (run : RegistryRun) : Prop where
  follows : ∀ record ∈ run.records, ∃ kind, lastEvent run.events record.uuid = some kind ∧
    record.states = kind.states
  evicted : ∀ uuid last, (uuid, last) ∈ run.evicted → ∃ kind ∈ last, kind.Over
  room : maxRecentRecords < run.records.length → ∀ record ∈ run.records, record.terminal = false

theorem follows_start : Follows {} where
  follows _ member := absurd member List.not_mem_nil
  evicted _ _ member := absurd member List.not_mem_nil
  room _ _ member := absurd member List.not_mem_nil

theorem keyed_step {run next : RegistryRun} {action : Applied} (keyed : run.records.Keyed)
    (stepped : registryMachine.step run action = some next) : next.records.Keyed := by
  rcases registry_step_cases stepped with ⟨rfl, -⟩ | ⟨record, made, -, records, accepted, -, -⟩
  · exact keyed
  · have valid : registryAccepts record.uuid = true := by
      rw [made, WatchRecord.update_uuid, Registry.entry_uuid]
      exact accepted
    rw [records]
    cases action.victim with
    | none => exact keyed.put valid
    | some uuid => exact (keyed.put valid).remove uuid

/-- The records an eviction leaves are among those before it. -/
theorem mem_of_mem_elim {records : Registry} {victim : Option String} {record : WatchRecord}
    (member : record ∈ victim.elim records records.remove) : record ∈ records := by
  cases victim with
  | none => exact member
  | some uuid => exact (Registry.mem_remove.mp member).1

/-- **The eviction leaves room**, unless no record is over. -/
theorem room_after {records : Registry} {new : WatchRecord} {victim : Option String}
    (room : maxRecentRecords < records.length → ∀ record ∈ records, record.terminal = false)
    (may : (records.put new).MayEvict victim) :
    let after := victim.elim (records.put new) (records.put new).remove
    maxRecentRecords < after.length → ∀ record ∈ after, record.terminal = false := by
  intro after full record member
  unfold Registry.MayEvict at may
  cases victim with
  | none =>
      rw [if_pos (show _ < (records.put new).length from full)] at may
      exact may record member
  | some uuid =>
      have shrunk : after.length ≤ (records.put new).length := List.length_filter_le ..
      rw [if_pos (by omega)] at may
      obtain ⟨victim, held, rfl, ended, -⟩ := may
      have less : after.length < (records.put new).length := Registry.length_remove_lt held
      have grown := @Registry.length_put_le records new
      have none := room (by omega)
      obtain ⟨kept, other⟩ := Registry.mem_remove.mp member
      -- Only the record of the event can be over, and it is the one given up.
      have itself : victim = new := by
        rcases Registry.mem_put.mp held with same | ⟨old, -⟩
        · exact same
        · rw [none victim old] at ended
          cases ended
      rcases Registry.mem_put.mp kept with rfl | ⟨old, -⟩
      · exact absurd (congrArg WatchRecord.uuid itself.symm) other
      · exact none record old

theorem Follows.step {run next : RegistryRun} {action : Applied} (follows : Follows run)
    (coherent : Coherent run action) (stepped : registryMachine.step run action = some next) :
    Follows next := by
  rcases registry_step_cases stepped with ⟨rfl, -⟩ | ⟨new, made, may, records, -, events, evicted⟩
  · exact follows
  · have uuid : new.uuid = action.event.uuid := by
      rw [made, WatchRecord.update_uuid, Registry.entry_uuid]
    have states : new.states = action.event.event.states := by
      rw [made, WatchRecord.update_states]
      split
      · rename_i fetching
        rw [Registry.entry_waiting _ (coherent fetching), fetching]
        rfl
      · rfl
    have put : ∀ record ∈ run.records.put new, ∃ kind,
        lastEvent next.events record.uuid = some kind ∧ record.states = kind.states := by
      intro record member
      rw [events, lastEvent_cons]
      rcases Registry.mem_put.mp member with rfl | ⟨old, other⟩
      · exact ⟨_, if_pos uuid.symm, states⟩
      · rw [if_neg (fun same => other (same.symm.trans uuid.symm))]
        exact follows.follows record old
    refine ⟨?_, ?_, ?_⟩
    · intro record member
      rw [records] at member
      exact put record (mem_of_mem_elim member)
    · intro uuid last member
      rw [evicted] at member
      rcases List.mem_append.mp member with before | now
      · exact follows.evicted uuid last before
      · obtain ⟨victim, chosen, same⟩ := List.mem_map.mp now
        obtain ⟨rfl, rfl⟩ := Prod.mk.inj same
        rw [Option.mem_toList] at chosen
        rw [chosen, Registry.MayEvict] at may
        split at may
        · obtain ⟨record, held, rfl, ended, -⟩ := may
          obtain ⟨kind, last, states⟩ := put record held
          exact ⟨kind, last, (WatchRecord.terminal_of_states states).mp ended⟩
        · cases may
    · rw [records]
      exact room_after follows.room may

/-- **Records in one counter each are the sum of the counters.** -/
theorem sum_counters {all : List WatchRecord}
    (once : ∀ record ∈ all, ∃! counter, record.counted counter = true) :
    all.countP (·.counted .live) + all.countP (·.counted .pending) +
      all.countP (·.counted .converting) + all.countP (·.counted .completed) +
        all.countP (·.counted .failed) = all.length := by
  induction all with
  | nil => rfl
  | cons record rest ih =>
      obtain ⟨here, later⟩ := List.forall_mem_cons.mp once
      have sum := ih later
      obtain ⟨counter, yes, only⟩ := here
      have others : ∀ other, other ≠ counter → record.counted other = false := by
        intro other apart
        by_contra counted
        exact apart (only other (by simpa using counted))
      simp only [List.countP_cons, List.length_cons]
      cases counter with
      | live =>
          simp only [yes, others .pending nofun, others .converting nofun, others .completed nofun,
            others .failed nofun, if_true, if_false, Bool.false_eq_true]
          omega
      | pending =>
          simp only [yes, others .live nofun, others .converting nofun, others .completed nofun,
            others .failed nofun, if_true, if_false, Bool.false_eq_true]
          omega
      | converting =>
          simp only [yes, others .live nofun, others .pending nofun, others .completed nofun,
            others .failed nofun, if_true, if_false, Bool.false_eq_true]
          omega
      | completed =>
          simp only [yes, others .live nofun, others .pending nofun, others .converting nofun,
            others .failed nofun, if_true, if_false, Bool.false_eq_true]
          omega
      | failed =>
          simp only [yes, others .live nofun, others .pending nofun, others .converting nofun,
            others .completed nofun, if_true, if_false, Bool.false_eq_true]
          omega

/-- Records that follow their last events are in the registry's books. -/
theorem Follows.accounted {run : RegistryRun} (follows : Follows run) : Accounted run where
  counted record member := by
    obtain ⟨kind, -, states⟩ := follows.follows record member
    exact WatchRecord.counted_of_states states
  summed all state limit same := by
    have once : ∀ record ∈ all, ∃! counter, record.counted counter = true := by
      intro record member
      obtain ⟨kind, -, states⟩ := follows.follows record (same.mem_iff.mp member)
      exact WatchRecord.counted_of_states states
    have counters := Registry.of_summary all state limit
    have total := Registry.total_summary all state limit
    have sum := sum_counters once
    rw [← counters, ← counters, ← counters, ← counters, ← counters] at sum
    exact sum.trans total.symm
  evicted := follows.evicted
  bounded full := by
    have unfinished : run.records.countP (fun record =>
        (lastEvent run.events record.uuid).any fun kind => !decide kind.Over) =
          run.records.length := by
      rw [List.countP_eq_length]
      intro record member
      obtain ⟨kind, last, states⟩ := follows.follows record member
      have open_ : ¬ kind.Over := by
        rw [← WatchRecord.terminal_of_states states, follows.room full record member]
        exact Bool.false_ne_true
      rw [last]
      simpa using open_
    rw [unfinished]
    exact full

/-- **The registry's books are right all along a run exactly when every event of it is
coherent**: when no fetch begins on a record whose conversion is not `waiting`. -/
theorem registry_accounted_iff {actions : List Applied} {final : RegistryRun}
    (ran : registryMachine.run {} actions = some final) :
    (∀ first middle, first <+: actions → registryMachine.run {} first = some middle →
        Accounted middle) ↔
      registryMachine.Meets Coherent {} actions := by
  constructor
  · intro throughout
    refine Machine.meets_of_throughout (Q := fun run => run.records.Keyed)
      (fun _ _ _ keyed stepped => keyed_step keyed stepped) ?_ ran .empty throughout
    intro run action next keyed _ incoherent stepped accounted
    obtain ⟨fetching, record, member, same, conversion⟩ :
        action.event.event = .fetching ∧ ∃ record ∈ run.records, record.uuid = action.event.uuid ∧
          record.conversionState ≠ .waiting := by
      simpa [Coherent] using incoherent
    rcases registry_step_cases stepped with ⟨-, refused⟩ | ⟨new, made, -, records, -, events, evicted⟩
    · rw [← same, keyed.valid record member] at refused
      cases refused
    · rw [Registry.entry_eq keyed.unique _ member same] at made
      have uuid : new.uuid = action.event.uuid := by rw [made, WatchRecord.update_uuid, same]
      have states := WatchRecord.update_states record action.event action.now
      rw [← made, if_pos fetching] at states
      obtain ⟨fetched, kept⟩ := Prod.mk.inj states
      by_cases given : action.victim = some new.uuid
      · -- The record is given up while it is fetched.
        have last : lastEvent next.events new.uuid = some .fetching := by
          rw [events, lastEvent_cons, if_pos uuid.symm, fetching]
        have gone : (new.uuid, lastEvent next.events new.uuid) ∈ next.evicted := by
          rw [evicted, given]
          simp
        obtain ⟨kind, is_, ended⟩ := accounted.evicted _ _ gone
        rw [last] at is_
        cases is_
        exact ended
      · -- It stays, in two counters.
        have stays : new ∈ next.records := by
          rw [records]
          cases chosen : action.victim with
          | none => exact Registry.mem_put.mpr (.inl rfl)
          | some victim =>
              refine Registry.mem_remove.mpr ⟨Registry.mem_put.mpr (.inl rfl), ?_⟩
              rintro rfl
              exact given chosen
        exact WatchRecord.not_counted_of_refetched fetched (kept ▸ conversion)
          (accounted.counted new stays)
  · intro met first middle before ran
    have follows : Follows middle := Machine.run_preserves_of_meets
      (fun _ _ _ follows coherent stepped => follows.step coherent stepped)
      (Machine.meets_of_initial before met) ran follows_start
    exact follows.accounted

/-- These events of one game, all at one time. -/
def eventsOf (kinds : List WatchEventKind) : List Applied :=
  kinds.map fun event =>
    { event := { uuid := "260723-a", event }
      now := .ofParts 0 0 rfl }

theorem registry_accounted_iff_collected : ∃ final,
    registryMachine.run {} (eventsOf [.live, .pending, .fetching, .converting, .completed]) =
      some final ∧ final.records.length = 1 ∧ Accounted final := by
  obtain ⟨final, ran, one⟩ : ∃ final,
      registryMachine.run {} (eventsOf [.live, .pending, .fetching, .converting, .completed]) =
        some final ∧ final.records.length = 1 :=
    Machine.run_exists (by decide +kernel)
  have met : registryMachine.Meets Coherent {}
      (eventsOf [.live, .pending, .fetching, .converting, .completed]) := by decide +kernel
  exact ⟨final, ran, one, (registry_accounted_iff ran).mpr met _ final (List.prefix_refl _) ran⟩

/-- A game is fetched, its conversion fails, and it is fetched again. -/
theorem refetched_counted_twice : ∃ final,
    registryMachine.run {} (eventsOf [.fetching, .converting, .conversionFailed, .fetching]) =
      some final ∧
      ((Registry.summary final.records none 10).pending = 1 ∧
        (Registry.summary final.records none 10).failed = 1 ∧
          (Registry.summary final.records none 10).total = 1) ∧ ¬ Accounted final := by
  obtain ⟨final, ran, shown⟩ : ∃ final,
      registryMachine.run {} (eventsOf [.fetching, .converting, .conversionFailed, .fetching]) =
        some final ∧
        ((Registry.summary final.records none 10).pending = 1 ∧
          (Registry.summary final.records none 10).failed = 1 ∧
            (Registry.summary final.records none 10).total = 1) :=
    Machine.run_exists (by decide +kernel)
  refine ⟨final, ran, shown, fun accounted => ?_⟩
  have sum := accounted.summed final.records none 10 (List.Perm.refl _)
  dsimp only at sum
  omega

end MajsoulManager.Watch
