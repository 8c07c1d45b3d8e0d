/-
# Majsoul.RoundTrip — decoding undoes encoding

A game is a head and a list of events, each with the clock its action carries.  It
is written as an answer: fields in any order, unknown fields among them, repeated
numbers packed or not, the actions in the old container or in the new one.  Reading
the answer gives the game back, players and results in the order of their seats.
-/
import MajsoulManager.Majsoul.EventSpelling
import MajsoulManager.Majsoul.RecordSpelling
import MajsoulManager.Majsoul.Convert

namespace MajsoulManager.Majsoul

open MajsoulManager.Theory
open MajsoulManager.Store

set_option autoImplicit false

/-! ## Games -/

structure Game where
  head : Head
  events : List TimedEvent

/-- The action that carries an event. -/
def SpellsEvent (event : TimedEvent) (action : RecordAction) : Prop :=
  action.name = event.2.name ∧ event.2.Spells action.data ∧ action.passedMs = event.1

/-- `raw` is an encoding of the game whose actions are `actions`. -/
def Game.WrittenAs (game : Game) (container : Container) (actions : List RecordAction)
    (raw : Bytes) : Prop :=
  List.Forall₂ SpellsEvent game.events actions ∧
    ∃ fields, Written fields raw ∧ AnswerFields container game.head actions fields

/-- The old container has no clock. -/
def Container.clocked : Container → TimedEvent → TimedEvent
  | .old, event => (none, event.2)
  | .new, event => event

theorem GameEvent.name_ne_empty (event : GameEvent) : event.name ≠ "" := by
  cases event <;> simp [GameEvent.name]

theorem named_of_spellsEvent {events : List TimedEvent} {actions : List RecordAction}
    (spelled : List.Forall₂ SpellsEvent events actions) :
    ∀ action ∈ actions, action.name ≠ "" := by
  induction spelled with
  | nil => simp
  | cons here _ ih =>
      refine List.forall_mem_cons.mpr ⟨?_, ih⟩
      rw [here.1]
      exact GameEvent.name_ne_empty _

theorem timedEvent_kept {event : TimedEvent} {action : RecordAction} (container : Container)
    (spelled : SpellsEvent event action) :
    timedEvent (container.kept action) = .ok [container.clocked event] := by
  obtain ⟨name, data, clock⟩ := spelled
  have read : parseRecordAction action.name action.data = .ok (some event.2) := by
    rw [name]
    exact parseRecordAction_spelled data
  cases container with
  | old =>
      rw [timedEvent, Container.kept, read]
      rfl
  | new =>
      rw [timedEvent, Container.kept, read, clock]
      rfl

/-- The events come out of the actions that carry them. -/
theorem parseActions_kept {events : List TimedEvent} {actions : List RecordAction}
    (container : Container) (spelled : List.Forall₂ SpellsEvent events actions) :
    parseActions (actions.map container.kept) = .ok (events.map container.clocked) := by
  have mapped : (actions.map container.kept).mapM timedEvent =
      .ok (events.map fun event => [container.clocked event]) := by
    induction spelled with
    | nil => rfl
    | cons here _ ih =>
        rw [List.map_cons, List.mapM_cons, timedEvent_kept container here, ih]
        rfl
  rw [parseActions, mapped, Outcome.ok_bind]
  exact congrArg Outcome.ok (by simp [← List.flatMap_def, ← List.map_eq_flatMap])

/-! ## Seats -/

section Seats

variable {α : Type} (seat : α → UInt32)

/-- `sorted` is `items` by seat, those of one seat in the order they came. -/
def StablySorted (items sorted : List α) : Prop :=
  sorted.Pairwise (fun a b => seat a ≤ seat b) ∧
    ∀ s, sorted.filter (fun a => seat a = s) = items.filter fun a => seat a = s

theorem sortBySeat_pairwise (items : List α) :
    (sortBySeat seat items).Pairwise fun a b => seat a ≤ seat b := by
  have total : Std.Total fun a b => seat a ≤ seat b := ⟨fun a b => UInt32.le_total (seat a) (seat b)⟩
  have trans : IsTrans α fun a b => seat a ≤ seat b := ⟨fun _ _ _ => UInt32.le_trans⟩
  exact List.pairwise_insertionSort _ items

theorem sortBySeat_filter (items : List α) (s : UInt32) :
    (sortBySeat seat items).filter (fun a => seat a = s) = items.filter fun a => seat a = s := by
  have total : Std.Total fun a b => seat a ≤ seat b := ⟨fun a b => UInt32.le_total (seat a) (seat b)⟩
  have trans : IsTrans α fun a b => seat a ≤ seat b := ⟨fun _ _ _ => UInt32.le_trans⟩
  -- all of one seat is in order already, so the sort keeps it as a sublist
  have level : (items.filter fun a => seat a = s).Pairwise fun a b => seat a ≤ seat b := by
    rw [List.pairwise_filter]
    refine List.pairwise_of_forall fun a b first second => ?_
    rw [of_decide_eq_true first, of_decide_eq_true second]
    exact UInt32.le_refl s
  have kept : (items.filter fun a => seat a = s).Sublist (sortBySeat seat items) :=
    List.sublist_insertionSort level List.filter_sublist
  have within := kept.filter fun a => seat a = s
  rw [List.filter_filter] at within
  simp only [Bool.and_self] at within
  have sized := ((List.perm_insertionSort (fun a b => seat a ≤ seat b) items).filter
    fun a => seat a = s).length_eq
  exact (within.eq_of_length sized.symm).symm

theorem sortBySeat_stable (items : List α) : StablySorted seat items (sortBySeat seat items) :=
  ⟨sortBySeat_pairwise seat items, sortBySeat_filter seat items⟩

end Seats

/-! ## The round trip -/

theorem kept_of_clockless {action : RecordAction} (clockless : action.passedMs = none) :
    Container.old.kept action = Container.new.kept action := by
  cases action
  cases clockless
  rfl

theorem kept_of_new (actions : List RecordAction) :
    (actions.map Container.new.kept).map Container.old.kept = actions.map Container.old.kept := by
  rw [List.map_map]
  rfl

/-- **Decoding undoes encoding**, for every game and every way of writing it, and
for every number.  The two containers give the same actions, but for the clock the
old one has no place for. -/
theorem decodeGameRecord_written :
    (∀ (game : Game) (container : Container) (actions : List RecordAction) (raw : Bytes),
      game.WrittenAs container actions raw →
        ∃ record, decodeGameRecord raw = .ok record ∧
          record.uuid = game.head.uuid ∧ record.startTime = game.head.startTime ∧
          record.endTime = game.head.endTime ∧ record.modeId = game.head.modeId ∧
          StablySorted (·.seat) game.head.accounts record.playerAccounts ∧
          StablySorted (·.seat) game.head.results record.result ∧
          record.records = actions.map container.kept ∧
          parseActions record.records = .ok (game.events.map container.clocked)) ∧
      (∀ (game : Game) (actions : List RecordAction) (older newer : Bytes),
        game.WrittenAs .old actions older → game.WrittenAs .new actions newer →
          ∃ before after, decodeGameRecord older = .ok before ∧ decodeGameRecord newer = .ok after ∧
            before.records = after.records.map Container.old.kept ∧
            ((∀ action ∈ actions, action.passedMs = none) → before.records = after.records)) ∧
      ∀ (value : UInt64) (rest : Bytes),
        decodeVarint (encodeVarint value ++ rest) = .ok (value, (encodeVarint value).length) := by
  refine ⟨?_, ?_, decodeVarint_encodeVarint⟩
  · rintro game container actions raw ⟨events, fields, written, answer⟩
    exact ⟨_, decodeGameRecord_spelled written answer (named_of_spellsEvent events), rfl, rfl, rfl,
      rfl, sortBySeat_stable _ _, sortBySeat_stable _ _, rfl, parseActions_kept container events⟩
  · rintro game actions older newer ⟨events, _, oldWritten, old⟩ ⟨-, _, newWritten, new⟩
    have named := named_of_spellsEvent events
    refine ⟨_, _, decodeGameRecord_spelled oldWritten old named,
      decodeGameRecord_spelled newWritten new named, (kept_of_new actions).symm, ?_⟩
    intro clockless
    exact List.map_congr_left fun action member => kept_of_clockless (clockless action member)

/-! ## A game of one draw -/

theorem varintField_formed (number : UInt32) (value : UInt64) :
    (varintField number value).WellFormed :=
  .inl ⟨rfl, value, decodeVarint_self value⟩

theorem bytesField_formed (number : UInt32) (data : Bytes) : (bytesField number data).WellFormed :=
  .inr (.inr (.inl rfl))

/-- A draw, with a field nobody knows. -/
def drawFields : List Field := [varintField 1 2, varintField 9 7, textField 2 "5m"]

def drawAction : RecordAction := ⟨".lq.RecordDealTile", encodeFields drawFields, some 1500⟩

def drawWrapper : List Field := [textField 1 drawAction.name, bytesField 2 drawAction.data]

def drawGameAction : List Field := [varintField 1 1500, bytesField 3 (encodeFields drawWrapper)]

def drawDetail : List Field := [varintField 2 210715, bytesField 3 (encodeFields drawGameAction)]

def drawBody : List Field := [bytesField 2 (encodeFields drawDetail)]

/-- Two players in the order east, south; the loser is settled below zero. -/
def drawHead : List Field :=
  [ textField 1 "game"
  , bytesField 11 (encodeFields [varintField 2 1])
  , bytesField 11 (encodeFields [])
  , bytesField 12 (encodeFields [bytesField 1 (encodeFields [varintField 2 (signExtend (-5))])]) ]

def drawAnswer : List Field :=
  [bytesField 4 (encodeFields drawBody), bytesField 3 (encodeFields drawHead)]

def drawGame : Game where
  head := { uuid := "game", accounts := [{ seat := 1 }, {}], results := [{ totalPoint := -5 }] }
  events := [(some 1500, .dealTile { seat := 2, tile := "5m" })]

theorem written_self {fields : List Field} (formed : ∀ field ∈ fields, field.WellFormed)
    (fits : (encodeFields fields).length < 2 ^ 63) : Written fields (encodeFields fields) :=
  ⟨formed, rfl, fits⟩

theorem drawEvent_spelled :
    SpelledBy DealTileFields { seat := 2, tile := "5m" } (encodeFields drawFields) :=
  ⟨drawFields, written_self
    (by simp [drawFields, textField, varintField_formed, bytesField_formed]) (by decide +kernel),
    .inl rfl, .inl ⟨.suited .m 5, by decide, by decide⟩, ⟨[], rfl, by decide⟩⟩

theorem drawAction_spelled : NewAction drawAction (encodeFields drawGameAction) := by
  refine ⟨encodeFields drawWrapper, ?_, ?_⟩
  · exact ⟨drawWrapper, written_self (by simp [drawWrapper, textField, bytesField_formed])
      (by decide +kernel), .inl rfl, .inl rfl⟩
  · exact ⟨drawGameAction,
      written_self (by simp [drawGameAction, varintField_formed, bytesField_formed])
      (by decide +kernel), by unfold optBytesAt; rfl, by unfold optU32At; rfl⟩

theorem drawBody_spelled : Container.new.Spells [drawAction] (encodeFields drawBody) := by
  refine ⟨"", encodeFields drawDetail, ⟨210715, [], [encodeFields drawGameAction]⟩, ?_, ?_, ?_⟩
  · exact ⟨drawBody, written_self (by simp [drawBody, bytesField_formed]) (by decide +kernel),
      .inr ⟨rfl, by decide +kernel⟩, .inl rfl⟩
  · exact ⟨drawDetail, written_self (by simp [drawDetail, varintField_formed, bytesField_formed])
      (by decide +kernel), .inl rfl, ⟨[], .nil, by decide +kernel⟩, ⟨_, .cons rfl .nil, rfl⟩⟩
  · exact ⟨.inl (by decide), .action drawAction_spelled .nil⟩

theorem drawHead_spelled : SpelledBy HeadFields drawGame.head (encodeFields drawHead) := by
  have first : SpelledBy PlayerAccountMetaFields { seat := 1 } (encodeFields [varintField 2 1]) :=
    ⟨_, written_self (by simp [varintField_formed]) (by decide), .inr ⟨rfl, rfl⟩, .inl rfl,
      .inr ⟨rfl, rfl⟩, .inr ⟨rfl, rfl⟩, .inr ⟨rfl, rfl⟩⟩
  have second : SpelledBy PlayerAccountMetaFields {} (encodeFields []) :=
    ⟨_, written_self (by simp) (by decide), .inr ⟨rfl, rfl⟩, .inr ⟨rfl, rfl⟩, .inr ⟨rfl, rfl⟩,
      .inr ⟨rfl, rfl⟩, .inr ⟨rfl, rfl⟩⟩
  have settled : SpelledBy PlayerResultFields { totalPoint := -5 }
      (encodeFields [varintField 2 (signExtend (-5))]) :=
    ⟨_, written_self (by simp [varintField_formed]) (by decide +kernel), .inr ⟨rfl, rfl⟩, .inl rfl,
      .inr ⟨rfl, rfl⟩, .inr ⟨rfl, rfl⟩, .inr ⟨rfl, rfl⟩⟩
  have results : SpelledBy ResultFields [{ totalPoint := -5 }]
      (encodeFields [bytesField 1 (encodeFields [varintField 2 (signExtend (-5))])]) :=
    ⟨_, written_self (by simp [bytesField_formed]) (by decide +kernel), _, .cons settled .nil, rfl⟩
  exact ⟨drawHead, written_self (by simp [drawHead, textField, bytesField_formed])
    (by decide +kernel), .inl (by decide +kernel), .inr ⟨rfl, by decide +kernel⟩,
    .inr ⟨rfl, by decide +kernel⟩, .inr ⟨rfl, by decide +kernel⟩,
    ⟨_, .cons first (.cons second .nil), rfl⟩, .inl ⟨_, results, rfl⟩⟩

theorem drawGame_written : drawGame.WrittenAs .new [drawAction] (encodeFields drawAnswer) :=
  ⟨.cons ⟨rfl, drawEvent_spelled, rfl⟩ .nil, drawAnswer,
    written_self (by simp [drawAnswer, bytesField_formed]) (by decide +kernel),
    .inr ⟨rfl, by decide +kernel⟩, .inl ⟨_, drawHead_spelled, by decide +kernel⟩,
    .inl ⟨_, drawBody_spelled, by decide +kernel⟩⟩

/-- The round trip, on a game of one draw. -/
theorem decodeGameRecord_draw :
    drawGame.WrittenAs .new [drawAction] (encodeFields drawAnswer) ∧
      ∃ record, decodeGameRecord (encodeFields drawAnswer) = .ok record ∧
        record.uuid = "game" ∧ record.records = [drawAction] ∧
        parseActions record.records = .ok drawGame.events := by
  refine ⟨drawGame_written, ?_⟩
  obtain ⟨record, decoded, uuid, -, -, -, -, -, records, events⟩ :=
    decodeGameRecord_written.1 drawGame .new [drawAction] _ drawGame_written
  exact ⟨record, decoded, uuid, records, events⟩

end MajsoulManager.Majsoul
