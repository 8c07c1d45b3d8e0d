/-
# Majsoul.Convert — a game record as mjai events

`convert.rs`, with `modes.rs`.  The converter walks the events of a game with
five variables; an event's mjai objects and the variables after it depend on
those before it alone (`convertEvent`).  Expanding a concealed kan is the only
step that can panic, and no parsed event makes it (`eventsToMjai_returns`).
-/
import MajsoulManager.Majsoul.Events
import MajsoulManager.Record.Mjai

namespace MajsoulManager.Majsoul

open MajsoulManager.Theory
open MajsoulManager.Store
open MajsoulManager.Record

set_option autoImplicit false

/-! ## The header -/

/-- A rank by its level id. -/
def getDanName (levelId : UInt32) : String :=
  let id := levelId.toNat
  let tier (base : Nat) : Option String :=
    if base + 101 ≤ id ∧ id ≤ base + 103 then some ("初心★" ++ toString (id - (base + 100)))
    else if base + 201 ≤ id ∧ id ≤ base + 203 then some ("雀士★" ++ toString (id - (base + 200)))
    else if base + 301 ≤ id ∧ id ≤ base + 303 then some ("雀傑★" ++ toString (id - (base + 300)))
    else if base + 401 ≤ id ∧ id ≤ base + 403 then some ("雀豪★" ++ toString (id - (base + 400)))
    else if base + 501 ≤ id ∧ id ≤ base + 503 then some ("雀聖★" ++ toString (id - (base + 500)))
    else if id = base + 601 then some "魂天"
    else if base + 602 ≤ id ∧ id ≤ base + 620 then some ("魂天Lv" ++ toString (id - (base + 600)))
    else if base + 701 ≤ id ∧ id ≤ base + 720 then some ("魂天Lv" ++ toString (id - (base + 700)))
    else none
  ((tier 10000).or (tier 20000)).getD ("Rank " ++ toString id)

structure GameMetadata where
  modeId : Int32
  room : String
  gameLength : String
  players : UInt8
  year : Int32
  deriving DecidableEq

/-- The twelve ranked modes. -/
def modeMetadata (mode : Int32) : Option (String × String × UInt8) :=
  if mode = 8 then some ("gold", "east", 4)
  else if mode = 9 then some ("gold", "south", 4)
  else if mode = 11 then some ("jade", "east", 4)
  else if mode = 12 then some ("jade", "south", 4)
  else if mode = 15 then some ("throne", "east", 4)
  else if mode = 16 then some ("throne", "south", 4)
  else if mode = 21 then some ("gold", "east", 3)
  else if mode = 22 then some ("gold", "south", 3)
  else if mode = 23 then some ("jade", "east", 3)
  else if mode = 24 then some ("jade", "south", 3)
  else if mode = 25 then some ("throne", "east", 3)
  else if mode = 26 then some ("throne", "south", 3)
  else none

/-- The year of a uuid that starts with `YYMMDD`. -/
def uuidYear (uuid : String) : Option Int32 := do
  let date ← Text.getPrefix uuid 6
  let year ← Text.parseI32 (← Text.getPrefix date 2)
  some (2000 + year)

/-- What the record says about itself. -/
def GameMetadata.of (record : GameRecord) : Option GameMetadata := do
  let (room, gameLength, players) ← modeMetadata record.modeId
  let year ← uuidYear record.uuid
  some { modeId := record.modeId, room, gameLength, players, year }

/-! ## JSON -/

def u32 (n : UInt32) : Value := .number (.posInt n.toUInt64)

def texts (items : List String) : Value := .array (items.map .string)

def ints (items : List Int32) : Value := .array (items.map .int)

/-- An object of the given type. -/
def mjai (type : String) (fields : List (String × Value)) : Value :=
  .object (("type", .string type) :: fields)

def metadataFields (metadata : GameMetadata) : List (String × Value) :=
  [ ("mode_id", .int metadata.modeId)
  , ("room", .string metadata.room)
  , ("game_length", .string metadata.gameLength)
  , ("players", .number (.posInt metadata.players.toUInt64))
  , ("year", .int metadata.year) ]

/-- The ladder of the table that was played. -/
def levelOf (record : GameRecord) (account : PlayerAccountMeta) : AccountLevel :=
  if record.playerNames.length = 3 then account.level3 else account.level

def majsoulHeader (record : GameRecord) (metadata : Option GameMetadata) : Value :=
  let levels := record.playerAccounts.map (levelOf record)
  .object
    ([ ("uuid", .string record.uuid)
     , ("start_time", u32 record.startTime)
     , ("end_time", u32 record.endTime)
     , ("account_ids", .array (record.playerAccounts.map fun a => .number (.posInt a.accountId)))
     , ("level_ids", .array (levels.map fun level => u32 level.id))
     , ("ranks", texts (levels.map fun level => getDanName level.id))
     , ("level_scores", ints (levels.map (·.score))) ] ++
     (metadata.map metadataFields).getD [])

def startGame (record : GameRecord) (metadata : Option GameMetadata) : Value :=
  mjai "start_game"
    [ ("names", texts record.playerNames)
    , ("majsoul", majsoulHeader record metadata) ]

def resultItem (player : PlayerResult) : Value :=
  .object
    [ ("seat", u32 player.seat)
    , ("total_point", .int player.totalPoint)
    , ("part_point_1", .int player.partPoint1)
    , ("part_point_2", .int player.partPoint2)
    , ("grading_score", .int player.gradingScore) ]

def endGame (record : GameRecord) : Value :=
  mjai "end_game"
    [ ("scores", ints (record.result.map (·.partPoint1)))
    , ("majsoul_result", .array (record.result.map resultItem)) ]

/-! ## The walk over the events -/

/-- The variables of `events_to_mjai`. -/
structure Converter where
  pendingReach : Option UInt32 := none
  lastDiscarder : Option UInt32 := none
  kanPendingChankan : Option UInt32 := none
  revealedDoras : List String := []
  previousMs : UInt32 := 0
  deriving DecidableEq

/-- The seat a called tile came from. -/
def calledFrom (froms : List UInt32) (seat : UInt32) (lastDiscarder : Option UInt32) : UInt32 :=
  froms.getLast?.getD (lastDiscarder.getD seat)

def doraEvent (marker : String) : Value := mjai "dora" [("dora_marker", .string marker)]

/-- The indicators that have not been announced yet. -/
def newDoras (revealed faceUp : List String) : List Value :=
  (faceUp.drop revealed.length).map doraEvent

def revealDoras (revealed faceUp : List String) : List String :=
  if revealed.length < faceUp.length then faceUp else revealed

/-- Four tiles, one of them red for a five of a suit. -/
def generateAnkanTiles (tile : String) : Outcome Error (List String) :=
  if 2 ≤ tile.utf8ByteSize then do
    let num ← Outcome.index tile.toList 0
    let suit ← Outcome.index tile.toList 1
    if num = '5' ∧ (suit = 'm' ∨ suit = 'p' ∨ suit = 's') then
      let regular := String.ofList ['5', suit]
      .ok [String.ofList ['5', suit, 'r'], regular, regular, regular]
    else .ok (List.replicate 4 tile)
  else .ok (List.replicate 4 tile)

def reachAccepted (pendingReach : Option UInt32) : List Value :=
  match pendingReach with
  | some actor => [mjai "reach_accepted" [("actor", u32 actor)]]
  | none => []

def endKyoku : Value := mjai "end_kyoku" []

def bakaze (chang : UInt32) : String :=
  if chang = 0 then "E" else if chang = 1 then "S" else if chang = 2 then "W" else "N"

def startKyoku (numPlayers : Nat) (e : NewRound) : Value :=
  mjai "start_kyoku"
    [ ("bakaze", .string (bakaze e.chang))
    , ("dora_marker", .string e.doraMarker)
    , ("kyoku", u32 (e.ju + 1))
    , ("honba", u32 e.ben)
    , ("kyotaku", u32 e.liqibang)
    , ("oya", u32 e.ju)
    , ("scores", ints e.scores)
    , ("tehais", .array ((e.tiles.take numPlayers).map texts)) ]

def callName : ChiPengGangType → String
  | .chi => "chi"
  | .pon => "pon"
  | .daiminkan => "daiminkan"

def callEvent (e : ChiPengGang) (target : UInt32) : Value :=
  mjai (callName e.callType)
    [ ("actor", u32 e.seat)
    , ("target", u32 target)
    , ("pai", .string (e.tiles.getLast?.getD ""))
    , ("consumed", texts e.tiles.dropLast) ]

/-- A tsumo pays itself; a ron is on the seat whose added kan can still be robbed,
or on the last discard. -/
def huleTarget (kanPendingChankan lastDiscarder : Option UInt32) (win : HuleInfo) : UInt32 :=
  if win.zimo then win.seat
  else ((kanPendingChankan.filter (· != win.seat)).or lastDiscarder).getD 0

def meldValue (meld : Meld) : Value :=
  .object [("type", .string meld.kind), ("consumed", texts meld.tiles)]

def horaEvent (e : Hule) (win : HuleInfo) (target : UInt32) : Value :=
  mjai "hora"
    [ ("actor", u32 win.seat)
    , ("target", u32 target)
    , ("pai", .string win.huTile)
    , ("hora_tehais", texts win.hand)
    , ("hora_furos", .array (win.melds.map meldValue))
    , ("fu", u32 win.fu)
    , ("fan", u32 win.han)
    , ("yakuman", .bool win.yiman)
    , ("riichi", .bool win.riichi)
    , ("dora_markers", texts (if win.doras = [] then e.doras else win.doras))
    , ("uradora_markers", texts win.uraDoras)
    , ("yakus", .array (win.yakus.map fun yaku => .array [.string yaku.name, u32 yaku.val]))
    , ("yaku_ids", .array (win.yakus.map fun yaku => u32 yaku.id))
    , ("deltas", ints e.deltaScores)
    , ("scores", ints e.scores)
    , ("majsoul_points", .object
        [ ("ron", .int win.pointRong)
        , ("tsumo_dealer", .int win.pointZimoQin)
        , ("tsumo_non_dealer", .int win.pointZimoXian) ]) ]

def drawEvent (e : NoTile) : Value :=
  mjai "ryukyoku"
    [ ("reason", .string "fanpai")
    , ("tenpais", .array (e.tenpai.map .bool))
    , ("liujumanguan", .bool e.liujumanguan)
    , ("tenpai_hands", .array (e.tenpaiHands.map texts))
    , ("scores", ints e.scores)
    , ("deltas", ints e.deltaScores) ]

def abortReason (liujuType : UInt32) : String :=
  if liujuType = 1 then "yao9"
  else if liujuType = 2 then "kaze4"
  else if liujuType = 3 then "kan4"
  else if liujuType = 4 then "reach4"
  else if liujuType = 5 then "ron3"
  else "unknown"

def abortEvent (e : LiuJu) : Value :=
  mjai "ryukyoku"
    [ ("reason", .string (abortReason e.liujuType))
    , ("actor", (e.seat.map u32).getD .null)
    , ("tehai", texts e.tiles) ]

def reachEvent (e : DiscardTile) : List Value :=
  if e.isLiqi || e.isWliqi then [mjai "reach" [("actor", u32 e.seat)]] else []

def discardEvent (e : DiscardTile) : Value :=
  mjai "dahai"
    [("actor", u32 e.seat), ("pai", .string e.tile), ("tsumogiri", .bool e.moqie)]

/-- The objects of a kan, before the indicators it turned. -/
def kanEvent (e : AnGangAddGang) : Outcome Error Value :=
  match e.gangType with
  | .ankan => do
      let consumed ← generateAnkanTiles e.tiles
      .ok (mjai "ankan" [("actor", u32 e.seat), ("consumed", texts consumed)])
  | .kakan => .ok (mjai "kakan" [("actor", u32 e.seat), ("pai", .string e.tiles)])

/-- An added kan can be robbed; a concealed one cannot. -/
def robbable (e : AnGangAddGang) : Option UInt32 :=
  match e.gangType with
  | .kakan => some e.seat
  | .ankan => none

/-- One event: its mjai objects, and the variables after it. -/
def convertEvent (numPlayers : Nat) (c : Converter) (event : GameEvent) :
    Outcome Error (List Value × Converter) :=
  match event with
  | .newRound e =>
      .ok (startKyoku numPlayers e :: (e.doras.drop 1).map doraEvent,
        { c with pendingReach := none, revealedDoras := e.doras })
  | .dealTile e =>
      .ok (reachAccepted c.pendingReach ++
          mjai "tsumo" [("actor", u32 e.seat), ("pai", .string e.tile)] ::
            newDoras c.revealedDoras e.doras,
        { c with pendingReach := none, revealedDoras := revealDoras c.revealedDoras e.doras })
  | .discardTile e =>
      .ok (reachEvent e ++ discardEvent e :: newDoras c.revealedDoras e.doras,
        { c with
          lastDiscarder := some e.seat
          kanPendingChankan := none
          pendingReach := if e.isLiqi || e.isWliqi then some e.seat else c.pendingReach
          revealedDoras := revealDoras c.revealedDoras e.doras })
  | .chiPengGang e =>
      .ok (reachAccepted c.pendingReach ++ [callEvent e (calledFrom e.froms e.seat c.lastDiscarder)],
        { c with pendingReach := none })
  | .anGangAddGang e => do
      let kan ← kanEvent e
      .ok (kan :: newDoras c.revealedDoras e.doras,
        { c with
          kanPendingChankan := robbable e
          revealedDoras := revealDoras c.revealedDoras e.doras })
  | .hule e =>
      .ok (e.hules.map (fun win =>
          horaEvent e win (huleTarget c.kanPendingChankan c.lastDiscarder win)) ++ [endKyoku],
        { c with pendingReach := none })
  | .noTile e =>
      .ok (reachAccepted c.pendingReach ++ [drawEvent e, endKyoku], { c with pendingReach := none })
  | .liuJu e =>
      .ok (reachAccepted c.pendingReach ++ [abortEvent e, endKyoku], { c with pendingReach := none })
  | .baBei e =>
      .ok (mjai "nukidora"
            [("actor", u32 e.seat), ("pai", .string "N"), ("tsumogiri", .bool e.moqie)] ::
          newDoras c.revealedDoras e.doras,
        { c with revealedDoras := revealDoras c.revealedDoras e.doras })

/-- The gap goes to the first object of an event, the others took no time. -/
def stampEvents (gap : UInt32) : List Value → Outcome Error (List Value)
  | [] => .ok []
  | first :: rest => do
      let first ← first.set "dt_ms" (u32 gap)
      let rest ← rest.mapM fun event => event.set "dt_ms" (u32 0)
      .ok (first :: rest)

/-- `saturating_sub`. -/
def gapSince (previous passed : UInt32) : UInt32 :=
  if previous ≤ passed then passed - previous else 0

def stamp (passedMs : Option UInt32) (out : List Value × Converter) :
    Outcome Error (List Value × Converter) :=
  match passedMs with
  | none => .ok out
  | some passed => do
      let stamped ← stampEvents (gapSince out.2.previousMs passed) out.1
      .ok (stamped, { out.2 with previousMs := passed })

abbrev TimedEvent := Option UInt32 × GameEvent

def convertTimed (numPlayers : Nat) (c : Converter) (event : TimedEvent) :
    Outcome Error (List Value × Converter) := do
  let out ← convertEvent numPlayers c event.2
  stamp event.1 out

def convertAll (numPlayers : Nat) : Converter → List TimedEvent →
    Outcome Error (List Value × Converter)
  | c, [] => .ok ([], c)
  | c, event :: rest => do
      let (out, c) ← convertTimed numPlayers c event
      let (more, c) ← convertAll numPlayers c rest
      .ok (out ++ more, c)

def eventsToMjai (record : GameRecord) (events : List TimedEvent)
    (metadata : Option GameMetadata) : Outcome Error (List Value) := do
  let (body, _) ← convertAll record.playerNames.length {} events
  .ok (startGame record metadata :: (body ++ [endGame record]))

/-! ## The bytes of a record -/

/-- The third-party printer and compressor. -/
structure Output where
  serde : Serde
  gzip : Bytes → Bytes

/-- One line an event. -/
def ndjson (serde : Serde) (events : List Value) : Bytes :=
  (String.join (events.map fun event => serde.print event ++ "\n")).toUTF8.data.toList

/-- The event of an action, if it is one, with the clock of the action. -/
def timedEvent (action : RecordAction) : Outcome Error (List TimedEvent) :=
  (fun event => (event.map fun e => (action.passedMs, e)).toList) <$>
    parseRecordAction action.name action.data

def parseActions (actions : List RecordAction) : Outcome Error (List TimedEvent) := do
  let events ← actions.mapM timedEvent
  .ok events.flatten

/-- What the caller knows beats what the record says. -/
def chosenMetadata (metadata : Option GameMetadata) (record : GameRecord) : Option GameMetadata :=
  metadata.or (GameMetadata.of record)

/-- The events of a record that holds any. -/
def emitEvents (record : GameRecord) (metadata : Option GameMetadata) :
    Outcome Error (List Value) :=
  if record.records = [] then .err ["no game records in decoded record"]
  else do
    let events ← parseActions record.records
    eventsToMjai record events (chosenMetadata metadata record)

/-- The record's uuid, and its events, compressed. -/
def convertRecordBytes (output : Output) (raw : Bytes) (metadata : Option GameMetadata) :
    Outcome Error (String × Bytes) :=
  if raw.length < 20 then .err ["record too small (" ++ toString raw.length ++ " bytes)"]
  else do
    let record ← (decodeGameRecord raw).mapErr ("Failed to decode game record" :: ·)
    let events ← emitEvents record metadata
    .ok (record.uuid, output.gzip (ndjson output.serde events))

/-! ## The walk never panics on parsed events -/

theorem generateAnkanTiles_returns {tile : String} (safe : ¬ LoneChar tile) :
    (generateAnkanTiles tile).Returns := by
  unfold generateAnkanTiles
  split
  · rename_i bytes
    cases chars : tile.toList with
    | nil =>
        have none := utf8ByteSize_of_toList_nil chars
        omega
    | cons num rest =>
        cases rest with
        | nil => exact absurd ⟨bytes, by simp [chars]⟩ safe
        | cons suit rest =>
            simp only [Outcome.index, List.getElem?_cons_zero, List.getElem?_cons_succ,
              Outcome.ok_bind]
            split <;> simp
  · simp

theorem kanEvent_returns {e : AnGangAddGang} (safe : ¬ LoneChar e.tiles) :
    (kanEvent e).Returns := by
  unfold kanEvent
  split
  · obtain ⟨consumed, expanded⟩ := generateAnkanTiles_returns safe
    rw [expanded]
    simp
  · simp

theorem convertEvent_returns (numPlayers : Nat) (c : Converter) {event : GameEvent}
    (safe : event.Safe) : (convertEvent numPlayers c event).Returns := by
  cases event with
  | anGangAddGang e =>
      obtain ⟨kan, returned⟩ := kanEvent_returns safe
      simp [convertEvent, returned]
  | _ => simp [convertEvent]

theorem mjai_isObject (type : String) (fields : List (String × Value)) :
    (mjai type fields).isObject = true := rfl

theorem kanEvent_isObject {e : AnGangAddGang} {kan : Value} (made : kanEvent e = .ok kan) :
    kan.isObject = true := by
  unfold kanEvent at made
  split at made
  · obtain ⟨consumed, -, same⟩ := Outcome.bind_eq_ok.mp made
    cases same
    rfl
  · cases made
    rfl

theorem reachAccepted_isObject (pendingReach : Option UInt32) :
    ∀ v ∈ reachAccepted pendingReach, v.isObject = true := by
  cases pendingReach <;> simp [reachAccepted, mjai_isObject]

theorem doraEvents_isObject (markers : List String) :
    ∀ v ∈ markers.map doraEvent, v.isObject = true := by
  intro v member
  obtain ⟨marker, -, rfl⟩ := List.mem_map.mp member
  rfl

theorem newDoras_isObject (revealed faceUp : List String) :
    ∀ v ∈ newDoras revealed faceUp, v.isObject = true := doraEvents_isObject _

theorem reachEvent_isObject (e : DiscardTile) : ∀ v ∈ reachEvent e, v.isObject = true := by
  unfold reachEvent
  split <;> simp [mjai_isObject]

/-- Every event of the stream is an object. -/
theorem convertEvent_isObject {numPlayers : Nat} {c : Converter} {event : GameEvent}
    {out : List Value × Converter} (converted : convertEvent numPlayers c event = .ok out) :
    ∀ v ∈ out.1, v.isObject = true := by
  cases event with
  | newRound e =>
      cases converted
      simp only [List.forall_mem_cons]
      exact ⟨rfl, doraEvents_isObject _⟩
  | dealTile e =>
      cases converted
      simp only [List.forall_mem_append, List.forall_mem_cons]
      exact ⟨reachAccepted_isObject _, rfl, newDoras_isObject _ _⟩
  | discardTile e =>
      cases converted
      simp only [List.forall_mem_append, List.forall_mem_cons]
      exact ⟨reachEvent_isObject e, rfl, newDoras_isObject _ _⟩
  | chiPengGang e =>
      cases converted
      simp only [List.forall_mem_append, List.forall_mem_cons]
      exact ⟨reachAccepted_isObject _, rfl, by simp⟩
  | anGangAddGang e =>
      obtain ⟨kan, made, same⟩ := Outcome.bind_eq_ok.mp converted
      cases same
      simp only [List.forall_mem_cons]
      exact ⟨kanEvent_isObject made, newDoras_isObject _ _⟩
  | hule e =>
      cases converted
      simp [horaEvent, endKyoku, mjai_isObject, or_imp, forall_and]
  | noTile e =>
      cases converted
      simp only [List.forall_mem_append, List.forall_mem_cons]
      exact ⟨reachAccepted_isObject _, rfl, rfl, by simp⟩
  | liuJu e =>
      cases converted
      simp only [List.forall_mem_append, List.forall_mem_cons]
      exact ⟨reachAccepted_isObject _, rfl, rfl, by simp⟩
  | baBei e =>
      cases converted
      simp only [List.forall_mem_cons]
      exact ⟨rfl, newDoras_isObject _ _⟩

/-- The stamps of an event's objects: the gap, then zeros. -/
def stamped (gap : UInt32) : List Value → List Value
  | [] => []
  | first :: rest =>
      first.insert "dt_ms" (u32 gap) :: rest.map fun event => event.insert "dt_ms" (u32 0)

theorem stampEvents_eq (gap : UInt32) {out : List Value} (objects : ∀ v ∈ out, v.isObject = true) :
    stampEvents gap out = .ok (stamped gap out) := by
  cases out with
  | nil => rfl
  | cons first rest =>
      obtain ⟨here, later⟩ := List.forall_mem_cons.mp objects
      have all : (rest.mapM fun event => event.set "dt_ms" (u32 0) : Outcome Error (List Value)) =
          .ok (rest.map fun event => event.insert "dt_ms" (u32 0)) :=
        Outcome.mapM_of_ok fun v member => Value.set_of_isObject (later v member) _ _
      simp only [stampEvents, stamped, Value.set_of_isObject here, all, Outcome.ok_bind]

theorem stamp_eq {passedMs : Option UInt32} {out : List Value × Converter}
    (objects : ∀ v ∈ out.1, v.isObject = true) :
    stamp passedMs out = .ok
      (match passedMs with
        | none => out
        | some passed =>
            (stamped (gapSince out.2.previousMs passed) out.1,
              { out.2 with previousMs := passed })) := by
  cases passedMs with
  | none => rfl
  | some passed => simp only [stamp, stampEvents_eq _ objects, Outcome.ok_bind]

theorem convertTimed_returns (numPlayers : Nat) (c : Converter) {event : TimedEvent}
    (safe : event.2.Safe) : (convertTimed numPlayers c event).Returns := by
  obtain ⟨out, converted⟩ := convertEvent_returns numPlayers c safe
  rw [convertTimed, converted, Outcome.ok_bind, stamp_eq (convertEvent_isObject converted)]
  simp

theorem convertAll_returns (numPlayers : Nat) (c : Converter) {events : List TimedEvent}
    (safe : ∀ event ∈ events, event.2.Safe) : (convertAll numPlayers c events).Returns := by
  induction events generalizing c with
  | nil => simp [convertAll]
  | cons event rest ih =>
      obtain ⟨here, later⟩ := List.forall_mem_cons.mp safe
      obtain ⟨⟨out, next⟩, converted⟩ := convertTimed_returns numPlayers c here
      obtain ⟨⟨more, last⟩, done⟩ := ih next later
      simp only [convertAll, converted, done, Outcome.ok_bind, Outcome.ok_returns]

/-- **On safe events the converter always returns.** -/
theorem eventsToMjai_returns (record : GameRecord) {events : List TimedEvent}
    (metadata : Option GameMetadata) (safe : ∀ event ∈ events, event.2.Safe) :
    (eventsToMjai record events metadata).Returns := by
  obtain ⟨⟨body, c⟩, done⟩ := convertAll_returns record.playerNames.length {} safe
  rw [eventsToMjai, done]
  simp

/-- What was parsed is safe. -/
theorem parseActions_safe {actions : List RecordAction} {events : List TimedEvent}
    (parsed : parseActions actions = .ok events) : ∀ event ∈ events, event.2.Safe := by
  obtain ⟨lists, mapped, same⟩ := Outcome.bind_eq_ok.mp parsed
  cases same
  intro event member
  obtain ⟨list, listed, inside⟩ := List.mem_flatten.mp member
  obtain ⟨action, -, read⟩ := Outcome.mem_of_mapM_ok mapped listed
  obtain ⟨found, got, rfl⟩ := Outcome.map_eq_ok.mp read
  cases found with
  | none => simp at inside
  | some e =>
      simp only [Option.map_some, Option.toList_some, List.mem_singleton] at inside
      subst inside
      exact parseRecordAction_safe got

/-- One event and the rest of a walk. -/
theorem convertAll_cons_ok {numPlayers : Nat} {c d : Converter} {event : TimedEvent}
    {rest : List TimedEvent} {out : List Value}
    (done : convertAll numPlayers c (event :: rest) = .ok (out, d)) :
    ∃ here next later, convertTimed numPlayers c event = .ok (here, next) ∧
      convertAll numPlayers next rest = .ok (later, d) ∧ out = here ++ later := by
  obtain ⟨⟨here, next⟩, first, done⟩ := Outcome.bind_eq_ok.mp done
  obtain ⟨⟨later, last⟩, second, same⟩ := Outcome.bind_eq_ok.mp done
  cases same
  exact ⟨here, next, later, first, second, rfl⟩

theorem stamped_isObject (gap : UInt32) {out : List Value} (objects : ∀ v ∈ out, v.isObject = true) :
    ∀ v ∈ stamped gap out, v.isObject = true := by
  have inserted : ∀ (v : Value) (item : Value), (v.insert "dt_ms" item).isObject = true := by
    intro v item
    cases v <;> rfl
  cases out with
  | nil => exact objects
  | cons first rest => simp [stamped, inserted]

theorem convertTimed_isObject {numPlayers : Nat} {c d : Converter} {event : TimedEvent}
    {out : List Value} (converted : convertTimed numPlayers c event = .ok (out, d)) :
    ∀ v ∈ out, v.isObject = true := by
  obtain ⟨⟨plain, next⟩, made, stamping⟩ := Outcome.bind_eq_ok.mp converted
  have objects := convertEvent_isObject made
  rw [stamp_eq objects] at stamping
  cases clock : event.1 with
  | none =>
      rw [clock] at stamping
      cases stamping
      exact objects
  | some passed =>
      rw [clock] at stamping
      cases stamping
      exact stamped_isObject _ objects

/-- Every event the walk makes is an object. -/
theorem convertAll_isObject {numPlayers : Nat} {c d : Converter} {events : List TimedEvent}
    {out : List Value} (done : convertAll numPlayers c events = .ok (out, d)) :
    ∀ v ∈ out, v.isObject = true := by
  induction events generalizing c out with
  | nil =>
      cases done
      simp
  | cons event rest ih =>
      obtain ⟨here, next, later, first, second, rfl⟩ := convertAll_cons_ok done
      exact List.forall_mem_append.mpr ⟨convertTimed_isObject first, ih second⟩

/-- What a record emits opens with its header, and is objects throughout. -/
theorem emitEvents_ok {record : GameRecord} {metadata : Option GameMetadata} {events : List Value}
    (emitted : emitEvents record metadata = .ok events) :
    (∃ rest, events = startGame record (chosenMetadata metadata record) :: rest) ∧
      ∀ v ∈ events, v.isObject = true := by
  unfold emitEvents at emitted
  split at emitted
  · cases emitted
  · obtain ⟨timed, -, emitted⟩ := Outcome.bind_eq_ok.mp emitted
    obtain ⟨⟨body, last⟩, walked, same⟩ := Outcome.bind_eq_ok.mp emitted
    cases same
    refine ⟨⟨_, rfl⟩, ?_⟩
    simp only [List.forall_mem_cons, List.forall_mem_append]
    exact ⟨rfl, convertAll_isObject walked, rfl, by simp⟩

end MajsoulManager.Majsoul
