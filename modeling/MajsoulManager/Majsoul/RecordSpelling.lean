/-
# Majsoul.RecordSpelling — a game record, written

The messages around the events: wrappers, actions, players, the head with its
config, and the answer they are all part of.  For each, what its fields say and
that `Majsoul.Proto` reads it back.
-/
import MajsoulManager.Majsoul.Slots
import MajsoulManager.Majsoul.Proto

namespace MajsoulManager.Majsoul

open MajsoulManager.Theory
open MajsoulManager.Store

set_option autoImplicit false

/-! ## Wrappers and actions -/

/-- The fields of a wrapper. -/
structure WrapperFields (e : Wrapper) (fields : List Field) : Prop where
  name : textAt fields 1 e.name
  data : bytesAt fields 2 e.data

theorem wrapper_lenses :
    Lens wrapperArms (·.name) 1 ∧
    Lens wrapperArms (·.data) 2 := by
  refine ⟨?_, ?_⟩ <;> repeat' first
    | exact lens_nil _ _
    | refine lens_other (by decide) (fun _ _ => rfl) ?_
    | refine lens_sets (fun _ _ _ => rfl) ?_

theorem decodeWrapper_spelled {e : Wrapper} {buf : Bytes}
    (spelled : SpelledBy WrapperFields e buf) :
    decodeWrapper buf = .ok e := by
  obtain ⟨fields, written, s⟩ := spelled
  have name : Slot wrapperArms {} fields 1 (·.name) e.name :=
    slot_text rfl (fun _ _ => rfl) rfl s.name
  have data : Slot wrapperArms {} fields 2 (·.data) e.data :=
    slot_bytes rfl (fun _ _ => rfl) rfl s.data
  obtain ⟨final, parsed, read⟩ := parseMessage_spelled wrapperArms written {} (by
    simp only [wrapperArms, List.forall_mem_cons]
    exact ⟨name.accepted, data.accepted, by simp⟩)
  obtain ⟨l₁, l₂⟩ := wrapper_lenses
  rw [decodeWrapper, parsed]
  exact congrArg Outcome.ok (Wrapper.ext
    (name.final l₁ read) (data.final l₂ read))

/-- Some bytes that are either there or not. -/
def optBytesAt (fields : List Field) (number : UInt32) (data : Option Bytes) : Prop :=
  group fields number = (data.map (bytesField number)).toList

theorem slot_optBytes {σ : Type} {arms : List (Arm σ)} {init : σ} {fields : List Field}
    {number : UInt32} {get : σ → Option Bytes} {change : Bytes → σ → σ} {data : Option Bytes}
    (found : armAt arms number 2 = some (bytesArm number change))
    (sets : ∀ x v, get (change x v) = some x) (start : get init = none)
    (spelled : optBytesAt fields number data) : Slot arms init fields number get data := by
  cases data with
  | none => exact ⟨init, by rw [spelled]; rfl, start⟩
  | some bytes =>
      refine ⟨change bytes init, ?_, sets bytes init⟩
      rw [spelled, Option.map_some, Option.toList_some, readFields_delimited found rfl]
      rfl

/-- The fields of an action of the new container. -/
structure GameActionFields (e : GameAction) (fields : List Field) : Prop where
  resultData : optBytesAt fields 3 e.resultData
  passedMs : optU32At fields 1 e.passedMs

theorem gameAction_lenses :
    Lens gameActionArms (·.resultData) 3 ∧
    Lens gameActionArms (·.passedMs) 1 := by
  refine ⟨?_, ?_⟩ <;> repeat' first
    | exact lens_nil _ _
    | refine lens_other (by decide) (fun _ _ => rfl) ?_
    | refine lens_sets (fun _ _ _ => rfl) ?_

theorem parseGameAction_spelled {e : GameAction} {buf : Bytes}
    (spelled : SpelledBy GameActionFields e buf) :
    parseMessage gameActionArms {} buf = .ok e := by
  obtain ⟨fields, written, s⟩ := spelled
  have resultData : Slot gameActionArms {} fields 3 (·.resultData) e.resultData :=
    slot_optBytes rfl (fun _ _ => rfl) rfl s.resultData
  have passedMs : Slot gameActionArms {} fields 1 (·.passedMs) e.passedMs :=
    slot_optU32 rfl (fun _ _ => rfl) rfl s.passedMs
  obtain ⟨final, parsed, read⟩ := parseMessage_spelled gameActionArms written {} (by
    simp only [gameActionArms, List.forall_mem_cons]
    exact ⟨passedMs.accepted, resultData.accepted, by simp⟩)
  obtain ⟨l₁, l₂⟩ := gameAction_lenses
  rw [parsed]
  exact congrArg Outcome.ok (GameAction.ext
    (resultData.final l₁ read) (passedMs.final l₂ read))

/-- The fields of the body: both containers, and the version that chooses. -/
structure GameDetailRecordsFields (e : GameDetailRecords) (fields : List Field) : Prop where
  version : u32At fields 2 e.version
  rawRecords : messagesAt fields 1 (fun item data => data = item) e.rawRecords
  actionsData : messagesAt fields 3 (fun item data => data = item) e.actionsData

theorem detail_lenses :
    Lens detailArms (·.version) 2 ∧
    Lens detailArms (·.rawRecords) 1 ∧
    Lens detailArms (·.actionsData) 3 := by
  refine ⟨?_, ?_, ?_⟩ <;> repeat' first
    | exact lens_nil _ _
    | refine lens_other (by decide) (fun _ _ => rfl) ?_
    | refine lens_sets (fun _ _ _ => rfl) ?_
    | refine lens_appends (fun _ _ => rfl) ?_

theorem parseGameDetailRecords_spelled {e : GameDetailRecords} {buf : Bytes}
    (spelled : SpelledBy GameDetailRecordsFields e buf) :
    parseMessage detailArms {} buf = .ok e := by
  obtain ⟨fields, written, s⟩ := spelled
  have version : Slot detailArms {} fields 2 (·.version) e.version :=
    slot_u32 rfl (fun _ _ => rfl) rfl s.version
  have rawRecords : Slot detailArms {} fields 1 (·.rawRecords) e.rawRecords :=
    slot_messages rfl (fun _ _ => congrArg Outcome.ok) (fun _ _ => rfl) rfl s.rawRecords
  have actionsData : Slot detailArms {} fields 3 (·.actionsData) e.actionsData :=
    slot_messages rfl (fun _ _ => congrArg Outcome.ok) (fun _ _ => rfl) rfl s.actionsData
  obtain ⟨final, parsed, read⟩ := parseMessage_spelled detailArms written {} (by
    simp only [detailArms, List.forall_mem_cons]
    exact ⟨rawRecords.accepted, version.accepted, actionsData.accepted, by simp⟩)
  obtain ⟨l₁, l₂, l₃⟩ := detail_lenses
  rw [parsed]
  exact congrArg Outcome.ok (GameDetailRecords.ext
    (version.final l₁ read) (rawRecords.final l₂ read) (actionsData.final l₃ read))

/-! ## Players -/

/-- The fields of one seat's settlement. -/
structure PlayerResultFields (e : PlayerResult) (fields : List Field) : Prop where
  seat : u32At fields 1 e.seat
  totalPoint : i32At fields 2 e.totalPoint
  partPoint1 : i32At fields 3 e.partPoint1
  partPoint2 : i32At fields 4 e.partPoint2
  gradingScore : i32At fields 5 e.gradingScore

theorem playerResult_lenses :
    Lens playerResultArms (·.seat) 1 ∧
    Lens playerResultArms (·.totalPoint) 2 ∧
    Lens playerResultArms (·.partPoint1) 3 ∧
    Lens playerResultArms (·.partPoint2) 4 ∧
    Lens playerResultArms (·.gradingScore) 5 := by
  refine ⟨?_, ?_, ?_, ?_, ?_⟩ <;> repeat' first
    | exact lens_nil _ _
    | refine lens_other (by decide) (fun _ _ => rfl) ?_
    | refine lens_sets (fun _ _ _ => rfl) ?_

theorem decodePlayerResult_spelled {e : PlayerResult} {buf : Bytes}
    (spelled : SpelledBy PlayerResultFields e buf) :
    decodePlayerResult buf = .ok e := by
  obtain ⟨fields, written, s⟩ := spelled
  have seat : Slot playerResultArms {} fields 1 (·.seat) e.seat :=
    slot_u32 rfl (fun _ _ => rfl) rfl s.seat
  have totalPoint : Slot playerResultArms {} fields 2 (·.totalPoint) e.totalPoint :=
    slot_i32 rfl (fun _ _ => rfl) rfl s.totalPoint
  have partPoint1 : Slot playerResultArms {} fields 3 (·.partPoint1) e.partPoint1 :=
    slot_i32 rfl (fun _ _ => rfl) rfl s.partPoint1
  have partPoint2 : Slot playerResultArms {} fields 4 (·.partPoint2) e.partPoint2 :=
    slot_i32 rfl (fun _ _ => rfl) rfl s.partPoint2
  have gradingScore : Slot playerResultArms {} fields 5 (·.gradingScore) e.gradingScore :=
    slot_i32 rfl (fun _ _ => rfl) rfl s.gradingScore
  obtain ⟨final, parsed, read⟩ := parseMessage_spelled playerResultArms written {} (by
    simp only [playerResultArms, List.forall_mem_cons]
    exact ⟨seat.accepted, totalPoint.accepted, partPoint1.accepted, partPoint2.accepted,
    gradingScore.accepted, by simp⟩)
  obtain ⟨l₁, l₂, l₃, l₄, l₅⟩ := playerResult_lenses
  rw [decodePlayerResult, parsed]
  exact congrArg Outcome.ok (PlayerResult.ext
    (seat.final l₁ read) (totalPoint.final l₂ read) (partPoint1.final l₃ read)
    (partPoint2.final l₄ read) (gradingScore.final l₅ read))

/-- The fields of a rank. -/
structure AccountLevelFields (e : AccountLevel) (fields : List Field) : Prop where
  id : u32At fields 1 e.id
  score : i32At fields 2 e.score

theorem accountLevel_lenses :
    Lens accountLevelArms (·.id) 1 ∧
    Lens accountLevelArms (·.score) 2 := by
  refine ⟨?_, ?_⟩ <;> repeat' first
    | exact lens_nil _ _
    | refine lens_other (by decide) (fun _ _ => rfl) ?_
    | refine lens_sets (fun _ _ _ => rfl) ?_

theorem decodeAccountLevel_spelled {e : AccountLevel} {buf : Bytes}
    (spelled : SpelledBy AccountLevelFields e buf) :
    decodeAccountLevel buf = .ok e := by
  obtain ⟨fields, written, s⟩ := spelled
  have id : Slot accountLevelArms {} fields 1 (·.id) e.id :=
    slot_u32 rfl (fun _ _ => rfl) rfl s.id
  have score : Slot accountLevelArms {} fields 2 (·.score) e.score :=
    slot_i32 rfl (fun _ _ => rfl) rfl s.score
  obtain ⟨final, parsed, read⟩ := parseMessage_spelled accountLevelArms written {} (by
    simp only [accountLevelArms, List.forall_mem_cons]
    exact ⟨id.accepted, score.accepted, by simp⟩)
  obtain ⟨l₁, l₂⟩ := accountLevel_lenses
  rw [decodeAccountLevel, parsed]
  exact congrArg Outcome.ok (AccountLevel.ext
    (id.final l₁ read) (score.final l₂ read))

/-- The fields of a player. -/
structure PlayerAccountMetaFields (e : PlayerAccountMeta) (fields : List Field) : Prop where
  accountId : varintAt fields 1 e.accountId
  seat : u32At fields 2 e.seat
  nickname : textAt fields 3 e.nickname
  level : messageAt fields 7 (SpelledBy AccountLevelFields) {} e.level
  level3 : messageAt fields 8 (SpelledBy AccountLevelFields) {} e.level3

theorem playerAccount_lenses :
    Lens playerAccountArms (·.accountId) 1 ∧
    Lens playerAccountArms (·.seat) 2 ∧
    Lens playerAccountArms (·.nickname) 3 ∧
    Lens playerAccountArms (·.level) 7 ∧
    Lens playerAccountArms (·.level3) 8 := by
  refine ⟨?_, ?_, ?_, ?_, ?_⟩ <;> repeat' first
    | exact lens_nil _ _
    | refine lens_other (by decide) (fun _ _ => rfl) ?_
    | refine lens_sets (fun _ _ _ => rfl) ?_

theorem decodePlayerAccount_spelled {e : PlayerAccountMeta} {buf : Bytes}
    (spelled : SpelledBy PlayerAccountMetaFields e buf) :
    decodePlayerAccount buf = .ok e := by
  obtain ⟨fields, written, s⟩ := spelled
  have accountId : Slot playerAccountArms {} fields 1 (·.accountId) e.accountId :=
    slot_varint id rfl (fun _ _ => rfl) rfl s.accountId
  have seat : Slot playerAccountArms {} fields 2 (·.seat) e.seat :=
    slot_u32 rfl (fun _ _ => rfl) rfl s.seat
  have nickname : Slot playerAccountArms {} fields 3 (·.nickname) e.nickname :=
    slot_text rfl (fun _ _ => rfl) rfl s.nickname
  have level : Slot playerAccountArms {} fields 7 (·.level) e.level :=
    slot_message rfl (fun _ _ => decodeAccountLevel_spelled) (fun _ _ => rfl) rfl s.level
  have level3 : Slot playerAccountArms {} fields 8 (·.level3) e.level3 :=
    slot_message rfl (fun _ _ => decodeAccountLevel_spelled) (fun _ _ => rfl) rfl s.level3
  obtain ⟨final, parsed, read⟩ := parseMessage_spelled playerAccountArms written {} (by
    simp only [playerAccountArms, List.forall_mem_cons]
    exact ⟨accountId.accepted, seat.accepted, nickname.accepted, level.accepted, level3.accepted,
    by simp⟩)
  obtain ⟨l₁, l₂, l₃, l₄, l₅⟩ := playerAccount_lenses
  rw [decodePlayerAccount, parsed]
  exact congrArg Outcome.ok (PlayerAccountMeta.ext
    (accountId.final l₁ read) (seat.final l₂ read) (nickname.final l₃ read) (level.final l₄ read)
    (level3.final l₅ read))

/-! ## The mode -/

theorem lookFields_group {α : Type} {look : Field → Outcome Error (Option α)} (number : UInt32)
    (skips : ∀ field, field.number ≠ number → look field = .ok none) (fields : List Field) :
    lookFields look fields = lookFields look (group fields number) := by
  induction fields with
  | nil => rfl
  | cons field rest ih =>
      by_cases mine : field.number = number
      · rw [group, List.filter_cons_of_pos (by simp [mine]), lookFields, lookFields, ih]
        rfl
      · rw [group, List.filter_cons_of_neg (by simp [mine]), lookFields, skips field mine,
          Outcome.ok_bind, ih]
        rfl

/-- The fields of a config's `meta`. -/
def MetaFields (modeId : Int32) (fields : List Field) : Prop := i32At fields 2 modeId

/-- The fields of a config. -/
def ConfigFields (modeId : Int32) (fields : List Field) : Prop :=
  messageAt fields 3 (SpelledBy MetaFields) 0 modeId

theorem lookModeId_spelled {modeId : Int32} {fields : List Field}
    (spelled : MetaFields modeId fields) :
    ∃ found, lookFields lookModeId fields = .ok found ∧ found.getD 0 = modeId := by
  rw [lookFields_group 2 (fun field other => by simp [lookModeId, other])]
  rcases spelled with spelled | ⟨zero, spelled⟩
  · refine ⟨some modeId, ?_, rfl⟩
    have value : lookModeId (varintField 2 (signExtend modeId)) = .ok (some modeId) := by
      rw [lookModeId, if_pos ⟨rfl, rfl⟩]
      simp [varintField, extractVarint_encode, ofExcept, asI32, signExtend, asI32_signExtend]
    rw [spelled, lookFields, value]
    rfl
  · refine ⟨none, by rw [spelled]; rfl, ?_⟩
    rw [← asI32_signExtend modeId]
    change (0 : Int32) = (signExtend modeId).toUInt32.toInt32
    rw [zero]
    rfl

theorem decodeConfigModeId_spelled {modeId : Int32} {buf : Bytes}
    (spelled : SpelledBy ConfigFields modeId buf) : decodeConfigModeId buf = .ok modeId := by
  obtain ⟨fields, written, spelled⟩ := spelled
  rw [decodeConfigModeId, findField_written _ written,
    lookFields_group 3 (fun field other => by simp [lookMeta, other])]
  rcases spelled with ⟨data, ⟨inner, innerWritten, inside⟩, only⟩ | ⟨rfl, only⟩
  · obtain ⟨found, looked, value⟩ := lookModeId_spelled inside
    have here : lookMeta (bytesField 3 data) = .ok found := by
      rw [lookMeta, if_pos ⟨rfl, rfl⟩]
      exact (findField_written _ innerWritten).trans looked
    rw [only, lookFields, here]
    cases found with
    | none => simpa [lookFields] using value
    | some mode => simpa using value
  · rw [only]
    rfl

/-! ## Loops on the outer loop's variables -/

section Into

variable {σ β : Type} {arms : List (Arm σ)}

theorem readFields_into (arms : List (Arm σ)) {fields : List Field}
    (accepted : ∀ field ∈ fields, (readArms arms field).Returns) (before : σ → σ) :
    ∃ change,
      readFields (fun field => (fun c (b : σ → σ) => c ∘ b) <$> readArms arms field) before fields =
        .ok change ∧
      ∀ v, readFields (readArms arms) (before v) fields = .ok (change v) := by
  induction fields generalizing before with
  | nil => exact ⟨before, rfl, fun v => rfl⟩
  | cons field rest ih =>
      obtain ⟨⟨c, here⟩, later⟩ := List.forall_mem_cons.mp accepted
      obtain ⟨change, composed, same⟩ := ih later (c ∘ before)
      refine ⟨change, ?_, fun v => ?_⟩
      · rw [readFields, here]
        exact composed
      · rw [readFields, here]
        exact same v

/-- A nested loop does to the variables what its fields do. -/
theorem parseInto_spelled (arms : List (Arm σ)) {fields : List Field} {buf : Bytes}
    (written : Written fields buf)
    (groups : ∀ a ∈ arms, ∀ field ∈ fields, field.number = a.number →
      (readArms arms field).Returns) :
    ∃ change, parseInto arms buf = .ok change ∧
      ∀ v, readFields (readArms arms) v fields = .ok (change v) := by
  obtain ⟨change, composed, same⟩ := readFields_into arms (accepted_of_groups groups) id
  exact ⟨change, by rw [parseInto, readMessage_written _ _ written, composed], same⟩

/-- What every arm's change satisfies, and composing keeps, a nested loop satisfies. -/
theorem parseInto_invariant {P : (σ → σ) → Prop} (start : P id)
    (composes : ∀ c b, P c → P b → P (c ∘ b))
    (kept : ∀ a ∈ arms, ∀ data change, a.act data = .ok change → P change) {buf : Bytes}
    {change : σ → σ} (parsed : parseInto arms buf = .ok change) : P change := by
  refine readMessage_invariant (fun field lifted accepted before holds => ?_) start parsed
  obtain ⟨c, read, rfl⟩ := Outcome.map_eq_ok.mp accepted
  refine composes c before ?_ holds
  unfold readArms at read
  split at read
  · rename_i a found
    exact kept a (List.mem_of_find?_eq_some found) field.data c read
  · cases read
    exact start

/-- A nested loop works on each component alone. -/
theorem lens_into {get : σ → β} {number : UInt32} (lens : Lens arms get number) {buf : Bytes}
    {change : σ → σ} (parsed : parseInto arms buf = .ok change) (v w : σ) (same : get v = get w) :
    get (change v) = get (change w) := by
  have holds : ∀ v w, get v = get w → get (change v) = get (change w) := by
    refine parseInto_invariant (P := fun c => ∀ v w, get v = get w → get (c v) = get (c w))
      (fun v w same => same) (fun c b first second v w same => first _ _ (second v w same)) ?_
      parsed
    intro a member data c acted v w same
    have touched := lens a member data c acted
    split at touched
    · exact touched v w same
    · rw [touched v, touched w, same]
  exact holds v w same

/-- A nested loop without an arm for the component leaves it alone. -/
theorem keeps_into {get : σ → β} {number : UInt32} (lens : Lens arms get number)
    (unused : ∀ a ∈ arms, a.number ≠ number) {buf : Bytes} {change : σ → σ}
    (parsed : parseInto arms buf = .ok change) : ∀ v, get (change v) = get v := by
  refine parseInto_invariant (P := fun c => ∀ v, get (c v) = get v) (fun v => rfl)
    (fun c b first second v => (first (b v)).trans (second v)) ?_ parsed
  intro a member data c acted
  have touched := lens a member data c acted
  rwa [if_neg (unused a member)] at touched

/-- An arm whose parser restricts what it can change. -/
theorem lens_parsed {τ : Type} {get : σ → β} {number other : UInt32} {wireType : UInt8}
    {parse : Bytes → Outcome Error τ} {change : τ → σ → σ}
    (touched : ∀ data x, parse data = .ok x →
      if other = number then ∀ v w, get v = get w → get (change x v) = get (change x w)
      else ∀ v, get (change x v) = get v)
    (rest : Lens arms get number) :
    Lens (arm other wireType parse change :: arms) get number := by
  refine List.forall_mem_cons.mpr ⟨?_, rest⟩
  intro data change' acted
  obtain ⟨x, parsed, rfl⟩ := Outcome.map_eq_ok.mp acted
  exact touched data x parsed

end Into

/-! ## The head -/

/-- The fields of the settlement. -/
def ResultFields (results : List PlayerResult) (fields : List Field) : Prop :=
  messagesAt fields 1 (SpelledBy PlayerResultFields) results

/-- The settlement only appends results. -/
theorem parseInto_resultArms_shape {buf : Bytes} {change : Answer → Answer}
    (parsed : parseInto resultArms buf = .ok change) :
    ∃ items, ∀ v, change v = { v with result := v.result ++ items } := by
  refine parseInto_invariant
    (P := fun c : Answer → Answer => ∃ items, ∀ v, c v = { v with result := v.result ++ items })
    ⟨[], fun v => by simp⟩ ?_ ?_ parsed
  · rintro c b ⟨later, c_eq⟩ ⟨earlier, b_eq⟩
    exact ⟨earlier ++ later, fun v => by simp [c_eq, b_eq]⟩
  · intro a member data c acted
    obtain rfl := List.mem_singleton.mp member
    obtain ⟨item, -, rfl⟩ := Outcome.map_eq_ok.mp acted
    exact ⟨[item], fun v => rfl⟩

theorem results_foldl (results : List PlayerResult) (v : Answer) :
    (results.foldl (fun v item => { v with result := v.result ++ [item] }) v).result =
      v.result ++ results := by
  induction results generalizing v with
  | nil => exact (List.append_nil _).symm
  | cons item rest ih =>
      rw [List.foldl_cons, ih]
      exact List.append_assoc _ _ _

theorem parseInto_resultArms_spelled {results : List PlayerResult} {buf : Bytes}
    (spelled : SpelledBy ResultFields results buf) :
    ∃ change, parseInto resultArms buf = .ok change ∧
      ∀ v, (change v).result = v.result ++ results := by
  obtain ⟨fields, written, spelled⟩ := spelled
  have slot : ∀ v, Slot resultArms v fields 1 (·.result) (v.result ++ results) := by
    intro v
    rw [← results_foldl results v]
    exact slot_fold rfl (fun _ _ => decodePlayerResult_spelled) spelled
  have lens : Lens resultArms (·.result) 1 := lens_appends (fun _ _ => rfl) (lens_nil _ _)
  obtain ⟨change, parsed, same⟩ := parseInto_spelled resultArms written (by
    simp only [resultArms, List.forall_mem_cons]
    exact ⟨(slot {}).accepted, by simp⟩)
  exact ⟨change, parsed, fun v => (slot v).final lens (same v)⟩

/-- What the head of a record says, accounts and results in the order they are written. -/
structure Head where
  uuid : String := ""
  startTime : UInt32 := 0
  endTime : UInt32 := 0
  modeId : Int32 := 0
  accounts : List PlayerAccountMeta := []
  results : List PlayerResult := []

/-- The fields of a head. -/
structure HeadFields (head : Head) (fields : List Field) : Prop where
  uuid : textAt fields 1 head.uuid
  startTime : u32At fields 2 head.startTime
  endTime : u32At fields 3 head.endTime
  modeId : messageAt fields 5 (SpelledBy ConfigFields) 0 head.modeId
  accounts : messagesAt fields 11 (SpelledBy PlayerAccountMetaFields) head.accounts
  results : messageAt fields 12 (SpelledBy ResultFields) [] head.results

theorem lens_results {β : Type} {get : Answer → β} {arms : List (Arm Answer)} {number : UInt32}
    (differ : 12 ≠ number) (keeps : ∀ (v : Answer) items, get { v with result := items } = get v)
    (rest : Lens arms get number) :
    Lens (arm 12 2 (parseInto resultArms) (fun change answer => change answer) :: arms) get
      number := by
  refine lens_parsed (fun data change parsed => ?_) rest
  rw [if_neg differ]
  intro v
  obtain ⟨items, shape⟩ := parseInto_resultArms_shape parsed
  rw [shape]
  exact keeps v _

theorem head_lenses :
    Lens headArms (·.uuid) 1 ∧
    Lens headArms (·.startTime) 2 ∧
    Lens headArms (·.endTime) 3 ∧
    Lens headArms (·.modeId) 5 ∧
    Lens headArms (·.playerAccounts) 11 := by
  refine ⟨?_, ?_, ?_, ?_, ?_⟩ <;> repeat' first
    | exact lens_nil _ _
    | refine lens_results (by decide) (fun _ _ => rfl) ?_
    | refine lens_other (by decide) (fun _ _ => rfl) ?_
    | refine lens_sets (fun _ _ _ => rfl) ?_
    | refine lens_appends (fun _ _ => rfl) ?_

theorem head_result_lens : Lens headArms (·.result) 12 := by
  repeat' first
    | exact lens_nil _ _
    | refine lens_other (by decide) (fun _ _ => rfl) ?_
  refine lens_parsed (fun data change parsed => ?_) (lens_nil _ _)
  rw [if_pos rfl]
  intro v w same
  obtain ⟨items, shape⟩ := parseInto_resultArms_shape parsed
  rw [shape, shape]
  exact congrArg (· ++ items) same

/-- **A written head reads back.** -/
theorem parseInto_headArms_spelled {head : Head} {buf : Bytes}
    (spelled : SpelledBy HeadFields head buf) :
    ∃ change, parseInto headArms buf = .ok change ∧
      (change {}).uuid = head.uuid ∧ (change {}).startTime = head.startTime ∧
      (change {}).endTime = head.endTime ∧ (change {}).modeId = head.modeId ∧
      (change {}).playerAccounts = head.accounts ∧ (change {}).result = head.results := by
  obtain ⟨fields, written, s⟩ := spelled
  have uuid : Slot headArms {} fields 1 (·.uuid) head.uuid :=
    slot_text rfl (fun _ _ => rfl) rfl s.uuid
  have startTime : Slot headArms {} fields 2 (·.startTime) head.startTime :=
    slot_u32 rfl (fun _ _ => rfl) rfl s.startTime
  have endTime : Slot headArms {} fields 3 (·.endTime) head.endTime :=
    slot_u32 rfl (fun _ _ => rfl) rfl s.endTime
  have modeId : Slot headArms {} fields 5 (·.modeId) head.modeId :=
    slot_message rfl (fun _ _ => decodeConfigModeId_spelled) (fun _ _ => rfl) rfl s.modeId
  have accounts : Slot headArms {} fields 11 (·.playerAccounts) head.accounts :=
    slot_messages rfl (fun _ _ => decodePlayerAccount_spelled) (fun _ _ => rfl) rfl s.accounts
  have results : Slot headArms {} fields 12 (·.result) head.results := by
    rcases s.results with ⟨data, inner, only⟩ | ⟨none, only⟩
    · obtain ⟨change, parsed, appended⟩ := parseInto_resultArms_spelled inner
      refine ⟨change {}, ?_, by simpa using appended {}⟩
      rw [only, readFields_delimited rfl parsed]
      rfl
    · exact ⟨{}, by rw [only]; rfl, none.symm⟩
  obtain ⟨change, parsed, same⟩ := parseInto_spelled headArms written (by
    simp only [headArms, List.forall_mem_cons]
    exact ⟨uuid.accepted, startTime.accepted, endTime.accepted, modeId.accepted,
      accounts.accepted, results.accepted, by simp⟩)
  obtain ⟨l₁, l₂, l₃, l₄, l₅⟩ := head_lenses
  exact ⟨change, parsed, uuid.final l₁ (same {}), startTime.final l₂ (same {}),
    endTime.final l₃ (same {}), modeId.final l₄ (same {}), accounts.final l₅ (same {}),
    results.final head_result_lens (same {})⟩

/-! ## The answer -/

/-- The two containers of the actions. -/
inductive Container where
  | old
  | new
  deriving DecidableEq

/-- An action of the old container is a wrapper on its own. -/
def OldAction (action : RecordAction) : Bytes → Prop :=
  SpelledBy WrapperFields ⟨action.name, action.data⟩

/-- An action of the new container is the result of a `GameAction`. -/
def NewAction (action : RecordAction) (data : Bytes) : Prop :=
  ∃ result, OldAction action result ∧ SpelledBy GameActionFields ⟨some result, action.passedMs⟩ data

/-- The new container's actions, between `GameAction`s without a result. -/
inductive NewActions : List RecordAction → List Bytes → Prop
  | nil : NewActions [] []
  | idle {actions : List RecordAction} {data : Bytes} {more : List Bytes} {action : GameAction}
      (spelled : SpelledBy GameActionFields action data)
      (idle : action.resultData = none ∨ action.resultData = some [])
      (rest : NewActions actions more) : NewActions actions (data :: more)
  | action {action : RecordAction} {actions : List RecordAction} {data : Bytes} {more : List Bytes}
      (spelled : NewAction action data) (rest : NewActions actions more) :
      NewActions (action :: actions) (data :: more)

/-- What the body holds in either container. -/
def Container.Holds : Container → List RecordAction → GameDetailRecords → Prop
  | .old, actions, detail => detail.version < 210715 ∧
      List.Forall₂ OldAction actions detail.rawRecords ∧ (actions = [] → detail.actionsData = [])
  | .new, actions, detail =>
      (210715 ≤ detail.version ∨ detail.rawRecords = []) ∧ NewActions actions detail.actionsData

/-- The old container has no clock. -/
def Container.kept : Container → RecordAction → RecordAction
  | .old, action => { action with passedMs := none }
  | .new, action => action

/-- The bytes of the body: a wrapper of any name around both containers. -/
def Container.Spells (container : Container) (actions : List RecordAction) (body : Bytes) : Prop :=
  ∃ name inner detail, SpelledBy WrapperFields ⟨name, inner⟩ body ∧
    SpelledBy GameDetailRecordsFields detail inner ∧ container.Holds actions detail

/-- An error without a code, or with code zero. -/
def NoErrorFields (_ : Unit) (fields : List Field) : Prop := varintAt fields 1 0

/-- The fields of the answer a record comes in. -/
structure AnswerFields (container : Container) (head : Head) (actions : List RecordAction)
    (fields : List Field) : Prop where
  error : messageAt fields 1 (SpelledBy NoErrorFields) () ()
  head : messageAt fields 3 (SpelledBy HeadFields) {} head
  body : messageAt fields 4 container.Spells [] actions

theorem decodeWrapper_oldAction {action : RecordAction} {data : Bytes}
    (spelled : OldAction action data) : decodeWrapper data = .ok ⟨action.name, action.data⟩ :=
  decodeWrapper_spelled spelled

theorem actionOf_named {passedMs : Option UInt32} {wrapper : Wrapper} (named : wrapper.name ≠ "") :
    actionOf passedMs wrapper = [⟨wrapper.name, wrapper.data, passedMs⟩] := if_neg named

theorem decodeOldFormatRecords_spelled {actions : List RecordAction} {datas : List Bytes}
    (spelled : List.Forall₂ OldAction actions datas)
    (named : ∀ action ∈ actions, action.name ≠ "") :
    decodeOldFormatRecords datas = .ok (actions.map Container.old.kept) := by
  have mapped : (datas.mapM fun raw => actionOf none <$> decodeWrapper raw) =
      .ok (actions.map fun action => [Container.old.kept action]) := by
    induction spelled with
    | nil => rfl
    | cons here _ ih =>
        obtain ⟨name, later⟩ := List.forall_mem_cons.mp named
        rw [List.mapM_cons, decodeWrapper_oldAction here, Outcome.map_ok, actionOf_named name,
          ih later]
        rfl
  rw [decodeOldFormatRecords, mapped, Outcome.ok_bind]
  exact congrArg Outcome.ok (by simp [← List.flatMap_def, ← List.map_eq_flatMap])

/-- A wrapper with a name is not empty. -/
theorem oldAction_ne_nil {action : RecordAction} {data : Bytes} (spelled : OldAction action data)
    (named : action.name ≠ "") : data ≠ [] := by
  intro empty
  have read := decodeWrapper_oldAction spelled
  rw [empty] at read
  have blank : decodeWrapper [] = .ok {} := rfl
  rw [blank] at read
  injection read with same
  exact named (congrArg Wrapper.name same).symm

theorem readAction_newAction {action : RecordAction} {data : Bytes}
    (spelled : NewAction action data) (named : action.name ≠ "") :
    readAction data = .ok [action] := by
  obtain ⟨result, wrapped, around⟩ := spelled
  rw [readAction, parseGameAction_spelled around, Outcome.ok_bind, resultAction]
  cases result with
  | nil => exact absurd rfl (oldAction_ne_nil wrapped named)
  | cons byte more =>
      change actionOf action.passedMs <$> decodeWrapper (byte :: more) = _
      rw [decodeWrapper_oldAction wrapped, Outcome.map_ok, actionOf_named named]

theorem readAction_idle {action : GameAction} {data : Bytes}
    (spelled : SpelledBy GameActionFields action data)
    (idle : action.resultData = none ∨ action.resultData = some []) :
    readAction data = .ok [] := by
  rw [readAction, parseGameAction_spelled spelled, Outcome.ok_bind, resultAction]
  rcases idle with idle | idle <;> rw [idle]

theorem decodeNewFormatActions_spelled {actions : List RecordAction} {datas : List Bytes}
    (spelled : NewActions actions datas) (named : ∀ action ∈ actions, action.name ≠ "") :
    decodeNewFormatActions datas = .ok actions := by
  have mapped : ∃ lists, datas.mapM readAction = .ok lists ∧ lists.flatten = actions := by
    induction spelled with
    | nil => exact ⟨[], rfl, rfl⟩
    | idle here idle _ ih =>
        obtain ⟨lists, mapped, flat⟩ := ih named
        refine ⟨[] :: lists, ?_, flat⟩
        rw [List.mapM_cons, readAction_idle here idle, mapped]
        rfl
    | action here _ ih =>
        obtain ⟨name, later⟩ := List.forall_mem_cons.mp named
        obtain ⟨lists, mapped, flat⟩ := ih later
        refine ⟨[_] :: lists, ?_, congrArg (List.cons _) flat⟩
        rw [List.mapM_cons, readAction_newAction here name, mapped]
        rfl
  obtain ⟨lists, mapped, flat⟩ := mapped
  rw [decodeNewFormatActions, mapped, Outcome.ok_bind, flat]

/-- **Both containers hold the same actions.** -/
theorem decodeDetail_spelled {container : Container} {actions : List RecordAction}
    {detail : GameDetailRecords} (holds : container.Holds actions detail)
    (named : ∀ action ∈ actions, action.name ≠ "") :
    decodeDetail detail = .ok (actions.map container.kept) := by
  cases container with
  | old =>
      obtain ⟨early, spelled, alone⟩ := holds
      by_cases none : actions = []
      · rw [none, List.forall₂_nil_left_iff] at spelled
        simp [decodeDetail, spelled, alone none, none]
      · have some : detail.rawRecords ≠ [] := by
          intro empty
          rw [empty, List.forall₂_nil_right_iff] at spelled
          exact none spelled
        rw [decodeDetail, if_pos ⟨early, some⟩]
        exact decodeOldFormatRecords_spelled spelled named
  | new =>
      obtain ⟨late, spelled⟩ := holds
      have same : actions.map Container.new.kept = actions := List.map_id actions
      have passed : ¬(detail.version < 210715 ∧ detail.rawRecords ≠ []) := by
        rintro ⟨early, some⟩
        rcases late with late | empty
        · exact absurd early (UInt32.not_lt.mpr late)
        · exact some empty
      rw [decodeDetail, if_neg passed, same]
      split
      · exact decodeNewFormatActions_spelled spelled named
      · rename_i empty
        rw [not_ne_iff.mp empty] at spelled
        cases spelled
        rfl

theorem decodeRecords_spelled {container : Container} {actions : List RecordAction} {body : Bytes}
    (spelled : container.Spells actions body) (named : ∀ action ∈ actions, action.name ≠ "") :
    decodeRecords (some body) = .ok (actions.map container.kept) := by
  obtain ⟨name, inner, detail, outer, middle, holds⟩ := spelled
  rw [decodeRecords, decodeWrapper_spelled outer, Outcome.ok_bind,
    parseGameDetailRecords_spelled middle, Outcome.ok_bind, decodeDetail_spelled holds named]

theorem readError_keeps {data : Bytes} {change : Answer → Answer}
    (read : readError data = .ok change) : ∀ v, change v = v := by
  unfold readError at read
  split at read
  · cases read
    exact fun v => rfl
  · have lens : Lens errorArms id 2 := lens_other (by decide) (fun _ _ => rfl) (lens_nil _ _)
    exact keeps_into lens (by decide) read

theorem readError_spelled {data : Bytes} (spelled : SpelledBy NoErrorFields () data) :
    (readError data).Returns := by
  obtain ⟨fields, written, none⟩ := spelled
  unfold readError
  split
  · simp
  · have slot : Slot errorArms {} fields 1 (fun _ => ()) () := by
      rcases none with none | ⟨-, none⟩
      · refine ⟨{}, ?_, rfl⟩
        rw [none]
        rfl
      · exact ⟨{}, by rw [none]; rfl, rfl⟩
    obtain ⟨change, parsed, -⟩ := parseInto_spelled errorArms written (by
      simp only [errorArms, List.forall_mem_cons]
      exact ⟨slot.accepted, by simp⟩)
    exact ⟨change, parsed⟩

theorem lens_error {β : Type} {get : Answer → β} {arms : List (Arm Answer)} {number : UInt32}
    (differ : 1 ≠ number) (rest : Lens arms get number) :
    Lens (arm 1 2 readError (fun change answer => change answer) :: arms) get number := by
  refine lens_parsed (fun data change read => ?_) rest
  rw [if_neg differ]
  intro v
  rw [readError_keeps read]

/-- What the head's loop says of a component, the answer's loop says under number 3. -/
theorem lens_head {β : Type} {get : Answer → β} {number : UInt32} (inner : Lens headArms get number)
    (keeps : ∀ (v : Answer) data, get { v with compressedData := data } = get v) :
    Lens answerArms get 3 := by
  refine lens_error (by decide) (lens_parsed (fun data change parsed => ?_)
    (lens_other (by decide) (fun data v => keeps v (some data)) (lens_nil _ _)))
  rw [if_pos rfl]
  exact lens_into inner parsed

theorem head_keeps_body : Lens headArms (·.compressedData) 4 := by
  repeat' first
    | exact lens_nil _ _
    | refine lens_results (by decide) (fun _ _ => rfl) ?_
    | refine lens_other (by decide) (fun _ _ => rfl) ?_

theorem lens_body : Lens answerArms (·.compressedData) 4 := by
  refine lens_error (by decide) (lens_parsed (fun data change parsed => ?_)
    (lens_sets (fun _ _ _ => rfl) (lens_nil _ _)))
  rw [if_neg (by decide)]
  exact keeps_into head_keeps_body (by decide) parsed

/-- The head's variables, once its field is read. -/
theorem readFields_head {fields : List Field} {head : Head}
    (spelled : messageAt fields 3 (SpelledBy HeadFields) {} head) :
    ∃ alone, readFields (readArms answerArms) {} (group fields 3) = .ok alone ∧
      alone.uuid = head.uuid ∧ alone.startTime = head.startTime ∧ alone.endTime = head.endTime ∧
      alone.modeId = head.modeId ∧ alone.playerAccounts = head.accounts ∧
      alone.result = head.results := by
  rcases spelled with ⟨data, inner, only⟩ | ⟨rfl, only⟩
  · obtain ⟨change, parsed, components⟩ := parseInto_headArms_spelled inner
    refine ⟨change {}, ?_, components⟩
    rw [only, readFields_delimited rfl parsed]
    rfl
  · exact ⟨{}, by rw [only]; rfl, rfl, rfl, rfl, rfl, rfl, rfl⟩

theorem slot_error {fields : List Field}
    (spelled : messageAt fields 1 (SpelledBy NoErrorFields) () ()) :
    Slot answerArms {} fields 1 (fun _ => ()) () := by
  rcases spelled with ⟨data, inner, only⟩ | ⟨-, only⟩
  · obtain ⟨change, read⟩ := readError_spelled inner
    refine ⟨change {}, ?_, rfl⟩
    rw [only, readFields_delimited rfl read]
    rfl
  · exact ⟨{}, by rw [only]; rfl, rfl⟩

/-- The body's bytes, if the answer carries any. -/
theorem slot_body {fields : List Field} {container : Container} {actions : List RecordAction}
    (spelled : messageAt fields 4 container.Spells [] actions) :
    ∃ body, Slot answerArms {} fields 4 (·.compressedData) body ∧
      ((∃ bytes, body = some bytes ∧ container.Spells actions bytes) ∨
        (body = none ∧ actions = [])) := by
  rcases spelled with ⟨data, inner, only⟩ | ⟨none, only⟩
  · refine ⟨some data, ⟨{ compressedData := some data }, ?_, rfl⟩, .inl ⟨data, rfl, inner⟩⟩
    rw [only, readFields_delimited rfl rfl]
    rfl
  · exact ⟨_, ⟨{}, by rw [only]; rfl, rfl⟩, .inr ⟨rfl, none⟩⟩

/-- What decoding leaves of a head and some actions. -/
def Head.record (head : Head) (actions : List RecordAction) : GameRecord where
  uuid := head.uuid
  startTime := head.startTime
  endTime := head.endTime
  modeId := head.modeId
  playerAccounts := sortBySeat (·.seat) head.accounts
  result := sortBySeat (·.seat) head.results
  records := actions

/-- **A written answer decodes to its head and its actions.** -/
theorem decodeGameRecord_spelled {container : Container} {head : Head}
    {actions : List RecordAction} {fields : List Field} {raw : Bytes} (written : Written fields raw)
    (spelled : AnswerFields container head actions fields)
    (named : ∀ action ∈ actions, action.name ≠ "") :
    decodeGameRecord raw = .ok (head.record (actions.map container.kept)) := by
  have error := slot_error spelled.error
  obtain ⟨alone, read₃, hUuid, hStart, hEnd, hMode, hAccounts, hResults⟩ :=
    readFields_head spelled.head
  obtain ⟨body, bodySlot, bodySpelled⟩ := slot_body spelled.body
  have uuid : Slot answerArms {} fields 3 (·.uuid) head.uuid := ⟨alone, read₃, hUuid⟩
  have startTime : Slot answerArms {} fields 3 (·.startTime) head.startTime :=
    ⟨alone, read₃, hStart⟩
  have endTime : Slot answerArms {} fields 3 (·.endTime) head.endTime := ⟨alone, read₃, hEnd⟩
  have modeId : Slot answerArms {} fields 3 (·.modeId) head.modeId := ⟨alone, read₃, hMode⟩
  have accounts : Slot answerArms {} fields 3 (·.playerAccounts) head.accounts :=
    ⟨alone, read₃, hAccounts⟩
  have results : Slot answerArms {} fields 3 (·.result) head.results := ⟨alone, read₃, hResults⟩
  obtain ⟨answer, parsed, read⟩ := parseMessage_spelled answerArms written {} (by
    simp only [answerArms, List.forall_mem_cons]
    exact ⟨error.accepted, uuid.accepted, bodySlot.accepted, by simp⟩)
  obtain ⟨l₁, l₂, l₃, l₄, l₅⟩ := head_lenses
  have records : decodeRecords answer.compressedData = .ok (actions.map container.kept) := by
    rw [bodySlot.final lens_body read]
    rcases bodySpelled with ⟨bytes, rfl, inner⟩ | ⟨rfl, rfl⟩
    · exact decodeRecords_spelled inner named
    · rfl
  rw [decodeGameRecord, parsed, Outcome.ok_bind, records, Outcome.ok_bind, Head.record,
    uuid.final (lens_head l₁ fun _ _ => rfl) read,
    startTime.final (lens_head l₂ fun _ _ => rfl) read,
    endTime.final (lens_head l₃ fun _ _ => rfl) read,
    modeId.final (lens_head l₄ fun _ _ => rfl) read,
    accounts.final (lens_head l₅ fun _ _ => rfl) read,
    results.final (lens_head head_result_lens fun _ _ => rfl) read]

end MajsoulManager.Majsoul
