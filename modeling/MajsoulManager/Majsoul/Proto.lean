/-
# Majsoul.Proto — the record a game server answers with

`proto.rs`, from `decode_wrapper` on.  The head names the game, its mode, its
players and its settlement; the body is a list of actions in one of two
containers, told apart by a version number.
-/
import Mathlib.Data.List.Sort
import MajsoulManager.Majsoul.Schema

namespace MajsoulManager.Majsoul

open MajsoulManager.Theory
open MajsoulManager.Store

set_option autoImplicit false

/-! ## Wrappers and actions -/

@[ext] structure Wrapper where
  name : String := ""
  data : Bytes := []
  deriving DecidableEq

def wrapperArms : List (Arm Wrapper) :=
  [ textArm 1 fun name wrapper => { wrapper with name := name }
  , bytesArm 2 fun data wrapper => { wrapper with data := data } ]

def decodeWrapper (buf : Bytes) : Outcome Error Wrapper := parseMessage wrapperArms {} buf

structure RecordAction where
  name : String
  data : Bytes
  passedMs : Option UInt32
  deriving DecidableEq

/-- A wrapper without a name is no action. -/
def actionOf (passedMs : Option UInt32) (wrapper : Wrapper) : List RecordAction :=
  if wrapper.name = "" then [] else [⟨wrapper.name, wrapper.data, passedMs⟩]

def decodeOldFormatRecords (rawRecords : List Bytes) : Outcome Error (List RecordAction) := do
  let actions ← rawRecords.mapM fun raw => actionOf none <$> decodeWrapper raw
  .ok actions.flatten

@[ext] structure GameAction where
  resultData : Option Bytes := none
  passedMs : Option UInt32 := none

def gameActionArms : List (Arm GameAction) :=
  [ varintArm 1 fun passed action => { action with passedMs := some passed.toUInt32 }
  , bytesArm 3 fun data action => { action with resultData := some data } ]

/-- The action a `GameAction` carries; an absent or empty result carries none. -/
def resultAction (action : GameAction) : Outcome Error (List RecordAction) :=
  match action.resultData with
  | none | some [] => .ok []
  | some result => actionOf action.passedMs <$> decodeWrapper result

def readAction (bytes : Bytes) : Outcome Error (List RecordAction) := do
  let action ← parseMessage gameActionArms {} bytes
  resultAction action

def decodeNewFormatActions (actionsData : List Bytes) : Outcome Error (List RecordAction) := do
  let actions ← actionsData.mapM readAction
  .ok actions.flatten

@[ext] structure GameDetailRecords where
  version : UInt32 := 0
  rawRecords : List Bytes := []
  actionsData : List Bytes := []

def detailArms : List (Arm GameDetailRecords) :=
  [ bytesArm 1 fun data detail => { detail with rawRecords := detail.rawRecords ++ [data] }
  , varintArm 2 fun version detail => { detail with version := version.toUInt32 }
  , bytesArm 3 fun data detail => { detail with actionsData := detail.actionsData ++ [data] } ]

/-- The version decides which of the two containers is read. -/
def decodeDetail (detail : GameDetailRecords) : Outcome Error (List RecordAction) :=
  if detail.version < 210715 ∧ detail.rawRecords ≠ [] then
    decodeOldFormatRecords detail.rawRecords
  else if detail.actionsData ≠ [] then decodeNewFormatActions detail.actionsData
  else .ok []

def decodeRecords (compressedData : Option Bytes) : Outcome Error (List RecordAction) :=
  match compressedData with
  | none => .ok []
  | some bytes => do
      let wrapper ← decodeWrapper bytes
      let detail ← parseMessage detailArms {} wrapper.data
      decodeDetail detail

/-! ## Players -/

/-- One seat's settlement. -/
@[ext] structure PlayerResult where
  seat : UInt32 := 0
  totalPoint : Int32 := 0
  partPoint1 : Int32 := 0
  partPoint2 : Int32 := 0
  gradingScore : Int32 := 0
  deriving DecidableEq

/-- `as i32`. -/
def asI32 (value : UInt64) : Int32 := value.toUInt32.toInt32

def playerResultArms : List (Arm PlayerResult) :=
  [ varintArm 1 fun v result => { result with seat := v.toUInt32 }
  , varintArm 2 fun v result => { result with totalPoint := asI32 v }
  , varintArm 3 fun v result => { result with partPoint1 := asI32 v }
  , varintArm 4 fun v result => { result with partPoint2 := asI32 v }
  , varintArm 5 fun v result => { result with gradingScore := asI32 v } ]

def decodePlayerResult (data : Bytes) : Outcome Error PlayerResult :=
  parseMessage playerResultArms {} data

@[ext] structure AccountLevel where
  id : UInt32 := 0
  score : Int32 := 0
  deriving DecidableEq

def accountLevelArms : List (Arm AccountLevel) :=
  [ varintArm 1 fun v level => { level with id := v.toUInt32 }
  , varintArm 2 fun v level => { level with score := asI32 v } ]

def decodeAccountLevel (data : Bytes) : Outcome Error AccountLevel :=
  parseMessage accountLevelArms {} data

/-- `level` is the four-player ladder and `level3` the three-player one. -/
@[ext] structure PlayerAccountMeta where
  accountId : UInt64 := 0
  seat : UInt32 := 0
  nickname : String := ""
  level : AccountLevel := {}
  level3 : AccountLevel := {}
  deriving DecidableEq

def playerAccountArms : List (Arm PlayerAccountMeta) :=
  [ varintArm 1 fun v account => { account with accountId := v }
  , varintArm 2 fun v account => { account with seat := v.toUInt32 }
  , textArm 3 fun name account => { account with nickname := name }
  , arm 7 2 decodeAccountLevel fun level account => { account with level := level }
  , arm 8 2 decodeAccountLevel fun level account => { account with level3 := level } ]

def decodePlayerAccount (data : Bytes) : Outcome Error PlayerAccountMeta :=
  parseMessage playerAccountArms {} data

/-! ## The head -/

def lookModeId (field : Field) : Outcome Error (Option Int32) :=
  if field.number = 2 ∧ field.wireType = 0 then do
    let value ← ofExcept (extractVarint field.data)
    .ok (some (asI32 value))
  else .ok none

def lookMeta (field : Field) : Outcome Error (Option Int32) :=
  if field.number = 3 ∧ field.wireType = 2 then findField lookModeId field.data else .ok none

/-- `config.meta.mode_id`, the first there is. -/
def decodeConfigModeId (data : Bytes) : Outcome Error Int32 := do
  let found ← findField lookMeta data
  .ok (found.getD 0)

/-- The variables of `decode_game_record`. -/
structure Answer where
  uuid : String := ""
  startTime : UInt32 := 0
  endTime : UInt32 := 0
  modeId : Int32 := 0
  playerAccounts : List PlayerAccountMeta := []
  result : List PlayerResult := []
  compressedData : Option Bytes := none

/-- An error code other than zero is a refusal. -/
def refuseCode (data : Bytes) : Outcome Error Unit := do
  let code ← ofExcept (extractVarint data)
  if code = 0 then .ok () else .err ["Game record error code: " ++ toString code.toNat]

def errorArms : List (Arm Answer) := [ arm 1 0 refuseCode fun _ answer => answer ]

def resultArms : List (Arm Answer) :=
  [ arm 1 2 decodePlayerResult fun item answer =>
      { answer with result := answer.result ++ [item] } ]

def headArms : List (Arm Answer) :=
  [ textArm 1 fun uuid answer => { answer with uuid := uuid }
  , varintArm 2 fun v answer => { answer with startTime := v.toUInt32 }
  , varintArm 3 fun v answer => { answer with endTime := v.toUInt32 }
  , arm 5 2 decodeConfigModeId fun mode answer => { answer with modeId := mode }
  , arm 11 2 decodePlayerAccount fun account answer =>
      { answer with playerAccounts := answer.playerAccounts ++ [account] }
  , arm 12 2 (parseInto resultArms) fun change answer => change answer ]

/-- An empty error message is none. -/
def readError (data : Bytes) : Outcome Error (Answer → Answer) :=
  if data = [] then .ok id else parseInto errorArms data

def answerArms : List (Arm Answer) :=
  [ arm 1 2 readError fun change answer => change answer
  , arm 3 2 (parseInto headArms) fun change answer => change answer
  , bytesArm 4 fun data answer => { answer with compressedData := some data } ]

structure GameRecord where
  uuid : String
  startTime : UInt32
  endTime : UInt32
  modeId : Int32
  playerAccounts : List PlayerAccountMeta
  result : List PlayerResult
  records : List RecordAction

/-- The nicknames, in the order of the accounts. -/
def GameRecord.playerNames (record : GameRecord) : List String :=
  record.playerAccounts.map (·.nickname)

/-- `sort_by_key`, which is stable. -/
def sortBySeat {α : Type} (seat : α → UInt32) (items : List α) : List α :=
  items.insertionSort fun a b => seat a ≤ seat b

def decodeGameRecord (raw : Bytes) : Outcome Error GameRecord := do
  let answer ← parseMessage answerArms {} raw
  let records ← decodeRecords answer.compressedData
  .ok
    { uuid := answer.uuid
      startTime := answer.startTime
      endTime := answer.endTime
      modeId := answer.modeId
      playerAccounts := sortBySeat (·.seat) answer.playerAccounts
      result := sortBySeat (·.seat) answer.result
      records := records }

/-! ## Where decoding panics -/

/-- A message without tiles, whose own walk reaches a length that wraps. -/
def plainHazard {σ : Type} (arms : List (Arm σ)) (data : Bytes) : Prop :=
  MessageHazard (Accepts arms) (fun _ => False) data

theorem plainHazard_nil {σ : Type} (arms : List (Arm σ)) : ¬ plainHazard arms [] := by
  simp [plainHazard, MessageHazard, Reaches, wireFields, wireEnding, splitFields]

theorem decodeWrapper_panics (buf : Bytes) :
    (decodeWrapper buf).Panics ↔ plainHazard wrapperArms buf :=
  parseMessage_panics wrapperArms (by decide) (by simp [wrapperArms]) {} buf

theorem decodePlayerResult_panics (data : Bytes) :
    (decodePlayerResult data).Panics ↔ plainHazard playerResultArms data :=
  parseMessage_panics playerResultArms (by decide) (by simp [playerResultArms]) {} data

theorem decodeAccountLevel_panics (data : Bytes) :
    (decodeAccountLevel data).Panics ↔ plainHazard accountLevelArms data :=
  parseMessage_panics accountLevelArms (by decide) (by simp [accountLevelArms]) {} data

/-- The walk of an account, or of one of its two levels, reaches a length that wraps. -/
def accountHazard (data : Bytes) : Prop :=
  MessageHazard (Accepts playerAccountArms)
    (fun field => inField 7 (plainHazard accountLevelArms) field ∨
      inField 8 (plainHazard accountLevelArms) field) data

theorem decodePlayerAccount_panics (data : Bytes) :
    (decodePlayerAccount data).Panics ↔ accountHazard data := by
  refine parseMessage_panics playerAccountArms (by decide) (fun field => ?_) {} data
  simp [playerAccountArms, armPanics_arm decodeAccountLevel_panics]

/-- The walk of a config, or of a meta it looks into, reaches a length that wraps
before a mode is found. -/
def configHazard (data : Bytes) : Prop :=
  MessageHazard (fun field => lookMeta field = .ok none)
    (inField 3 (MessageHazard (fun field => lookModeId field = .ok none) fun _ => False)) data

theorem lookModeId_panics (field : Field) : ¬ (lookModeId field).Panics := by
  unfold lookModeId
  split
  · simp [Outcome.bind_panics]
  · simp

theorem lookMeta_panics (field : Field) :
    (lookMeta field).Panics ↔
      inField 3 (MessageHazard (fun inner => lookModeId inner = .ok none) fun _ => False)
        field := by
  have quiet : ∀ found, (lookModeId found).Panics ↔ False :=
    fun found => iff_of_false (lookModeId_panics found) id
  have inner := findField_panics quiet field.data
  unfold lookMeta inField
  split
  · rename_i here
    rw [inner]
    simp [here]
  · rename_i other
    simp only [Outcome.ok_panics, false_iff]
    rintro ⟨number, wire, -⟩
    exact other ⟨number, wire⟩

theorem decodeConfigModeId_panics (data : Bytes) :
    (decodeConfigModeId data).Panics ↔ configHazard data := by
  rw [decodeConfigModeId, Outcome.bind_panics, findField_panics lookMeta_panics]
  simp [configHazard]

/-- The walk of a head, or of a message in it, reaches a length that wraps. -/
def headHazard (data : Bytes) : Prop :=
  MessageHazard (Accepts headArms)
    (fun field => inField 5 configHazard field ∨ inField 11 accountHazard field ∨
      inField 12
        (MessageHazard (Accepts resultArms) (inField 1 (plainHazard playerResultArms))) field)
    data

theorem parseInto_headArms_panics (data : Bytes) :
    (parseInto headArms data).Panics ↔ headHazard data := by
  have items : ∀ data, (parseInto resultArms data).Panics ↔
      MessageHazard (Accepts resultArms) (inField 1 (plainHazard playerResultArms)) data := by
    refine parseInto_panics resultArms (by decide) fun field => ?_
    simp [resultArms, armPanics_arm decodePlayerResult_panics]
  refine parseInto_panics headArms (by decide) (fun field => ?_) data
  simp [headArms, armPanics_arm items, armPanics_arm decodeConfigModeId_panics,
    armPanics_arm decodePlayerAccount_panics]

theorem refuseCode_panics (data : Bytes) : ¬ (refuseCode data).Panics := by
  unfold refuseCode
  rw [Outcome.bind_panics]
  rintro (impossible | ⟨code, -, impossible⟩)
  · exact ofExcept_panics _ impossible
  · split at impossible <;> cases impossible

theorem readError_panics (data : Bytes) :
    (readError data).Panics ↔ plainHazard errorArms data := by
  unfold readError
  split
  · rename_i empty
    simp [empty, plainHazard_nil]
  · refine parseInto_panics errorArms (by decide) (fun field => ?_) data
    rw [errorArms, armPanics_safe]
    · simp
    · intro inner
      simp [arm, Outcome.map_panics, refuseCode_panics]

/-- The walk of the answer, of its error or of its head reaches a length that wraps. -/
def answerHazard (raw : Bytes) : Prop :=
  MessageHazard (Accepts answerArms)
    (fun field => inField 1 (plainHazard errorArms) field ∨ inField 3 headHazard field) raw

theorem parseMessage_answerArms_panics (raw : Bytes) :
    (parseMessage answerArms {} raw).Panics ↔ answerHazard raw := by
  refine parseMessage_panics answerArms (by decide) (fun field => ?_) {} raw
  simp [answerArms, armPanics_arm readError_panics, armPanics_arm parseInto_headArms_panics]

/-- The first of some messages to panic, the ones before it read. -/
def firstHazard {α β : Type} (read : α → Outcome Error β) (hazard : α → Prop) (items : List α) :
    Prop :=
  ∃ before item after, items = before ++ item :: after ∧ (∀ earlier ∈ before, (read earlier).Returns) ∧
    hazard item

theorem mapM_panics_first {α β : Type} {read : α → Outcome Error β} {hazard : α → Prop}
    (hazards : ∀ item, (read item).Panics ↔ hazard item) (items : List α) :
    (items.mapM read).Panics ↔ firstHazard read hazard items := by
  rw [Outcome.mapM_panics]
  simp only [firstHazard, hazards]

/-- A new container's action whose own walk, or whose wrapper's, reaches a length
that wraps. -/
def actionHazard (bytes : Bytes) : Prop :=
  plainHazard gameActionArms bytes ∨
    ∃ action result, parseMessage gameActionArms {} bytes = .ok action ∧
      action.resultData = some result ∧ plainHazard wrapperArms result

theorem resultAction_panics (action : GameAction) :
    (resultAction action).Panics ↔
      ∃ result, action.resultData = some result ∧ plainHazard wrapperArms result := by
  unfold resultAction
  split
  · rename_i absent
    simp [absent]
  · rename_i empty
    simp [empty, plainHazard_nil]
  · rename_i result _ present
    rw [Outcome.map_panics, decodeWrapper_panics]
    simp [present]

theorem readAction_panics (bytes : Bytes) : (readAction bytes).Panics ↔ actionHazard bytes := by
  have walk : (parseMessage gameActionArms {} bytes).Panics ↔ plainHazard gameActionArms bytes :=
    parseMessage_panics gameActionArms (by decide) (by simp [gameActionArms]) {} bytes
  unfold readAction actionHazard
  rw [Outcome.bind_panics, walk]
  simp only [resultAction_panics]
  refine or_congr_right ⟨?_, ?_⟩
  · rintro ⟨action, parsed, result, present, here⟩
    exact ⟨action, result, parsed, present, here⟩
  · rintro ⟨action, result, parsed, present, here⟩
    exact ⟨action, parsed, result, present, here⟩

/-- The container that is read holds a message that panics. -/
def detailHazard (detail : GameDetailRecords) : Prop :=
  if detail.version < 210715 ∧ detail.rawRecords ≠ [] then
    firstHazard decodeWrapper (plainHazard wrapperArms) detail.rawRecords
  else firstHazard readAction actionHazard detail.actionsData

theorem decodeDetail_panics (detail : GameDetailRecords) :
    (decodeDetail detail).Panics ↔ detailHazard detail := by
  unfold decodeDetail detailHazard
  split
  · rw [decodeOldFormatRecords, Outcome.bind_panics,
      mapM_panics_first fun raw => Outcome.map_panics.trans (decodeWrapper_panics raw)]
    simp [firstHazard, Outcome.map_returns]
  · split
    · rw [decodeNewFormatActions, Outcome.bind_panics, mapM_panics_first readAction_panics]
      simp
    · rename_i empty
      have none : detail.actionsData = [] := by simpa using empty
      simp [firstHazard, none]

/-- The wrapper of the body, the body, or the container in it panics. -/
def recordsHazard (bytes : Bytes) : Prop :=
  plainHazard wrapperArms bytes ∨
    ∃ wrapper, decodeWrapper bytes = .ok wrapper ∧
      (plainHazard detailArms wrapper.data ∨
        ∃ detail, parseMessage detailArms {} wrapper.data = .ok detail ∧ detailHazard detail)

theorem decodeRecords_panics (compressed : Option Bytes) :
    (decodeRecords compressed).Panics ↔ ∃ bytes, compressed = some bytes ∧ recordsHazard bytes := by
  cases compressed with
  | none => simp [decodeRecords]
  | some bytes =>
      have walk : ∀ data, (parseMessage detailArms {} data).Panics ↔ plainHazard detailArms data :=
        parseMessage_panics detailArms (by decide) (by simp [detailArms]) {}
      simp only [decodeRecords, recordsHazard, Outcome.bind_panics, decodeWrapper_panics, walk,
        decodeDetail_panics, Option.some.injEq, exists_eq_left']

/-- **Where decoding a record panics.** -/
def recordHazard (raw : Bytes) : Prop :=
  answerHazard raw ∨
    ∃ answer bytes, parseMessage answerArms {} raw = .ok answer ∧
      answer.compressedData = some bytes ∧ recordsHazard bytes

theorem decodeGameRecord_panics (raw : Bytes) :
    (decodeGameRecord raw).Panics ↔ recordHazard raw := by
  simp only [decodeGameRecord, recordHazard, Outcome.bind_panics, parseMessage_answerArms_panics,
    decodeRecords_panics, Outcome.ok_panics, and_false, exists_false, or_false]
  refine or_congr_right ⟨?_, ?_⟩
  · rintro ⟨answer, parsed, bytes, present, here⟩
    exact ⟨answer, bytes, parsed, present, here⟩
  · rintro ⟨answer, bytes, parsed, present, here⟩
    exact ⟨answer, parsed, bytes, present, here⟩

end MajsoulManager.Majsoul
