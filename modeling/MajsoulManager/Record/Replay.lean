/-
# Record.Replay — per-seat statistics read off an event stream

`replay.rs`, event by event.  Counters are the machine integers of the source and
wrap as a release build's do; vectors are read and written through the partial
operations of `Outcome`, so that every index and every split the source makes is
a place where the model can panic.
-/
import MajsoulManager.Record.Mjai

namespace MajsoulManager.Record

open MajsoulManager.Theory

set_option autoImplicit false

/-- What one seat did across one game. -/
structure SeatStats where
  seat : UInt8 := 0
  player : String := ""
  placement : UInt8 := 0
  finalScore : Int32 := 0
  settledPoint : Int32 := 0
  gradingScore : Int32 := 0
  levelId : UInt32 := 0
  busted : Bool := false
  hands : UInt16 := 0
  handsAsDealer : UInt16 := 0
  maxDealerStreak : UInt16 := 0
  netPoints : Int32 := 0
  wins : UInt16 := 0
  winsTsumo : UInt16 := 0
  winPoints : Int32 := 0
  winTurns : UInt32 := 0
  dealIns : UInt16 := 0
  dealInPoints : Int32 := 0
  riichi : UInt16 := 0
  riichiWins : UInt16 := 0
  riichiDealIns : UInt16 := 0
  riichiTurns : UInt32 := 0
  riichiFirst : UInt16 := 0
  riichiChasing : UInt16 := 0
  riichiChased : UInt16 := 0
  riichiNet : Int32 := 0
  called : UInt16 := 0
  calledWins : UInt16 := 0
  draws : UInt16 := 0
  drawsTenpai : UInt16 := 0
  riichiIppatsu : UInt16 := 0
  riichiUraHits : UInt16 := 0
  yakuman : UInt16 := 0
  maxHan : UInt16 := 0
  deriving DecidableEq, Repr

structure GameStats where
  seats : UInt8
  detailed : Bool
  players : List SeatStats
  deriving DecidableEq, Repr

/-- Per-hand scratch state, reset at every `start_kyoku`. -/
structure Hand where
  dealer : Nat
  kyotaku : Int32
  turns : List UInt16
  riichiTurn : List (Option UInt16)
  ippatsu : List Bool
  called : List Bool
  deltas : Option (List Int32)
  deriving DecidableEq, Repr

def Hand.new (seats : Nat) : Hand where
  dealer := 0
  kyotaku := 0
  turns := List.replicate seats 0
  riichiTurn := List.replicate seats none
  ippatsu := List.replicate seats false
  called := List.replicate seats false
  deltas := none

/-- What the event loop carries from one event to the next. -/
structure Replay where
  players : List SeatStats
  hand : Hand
  started : Bool
  streak : List UInt16
  lastScores : Option (List Int32)
  deriving DecidableEq, Repr

/-! ## Reading events -/

def kind (event : Value) : Option String := (event.get "type").bind Value.asStr

def seatOf (event : Value) (field : String) (seats : Nat) : Option Nat :=
  ((event.get field).bind Value.asU64).bind fun seat =>
    if seat.toNat < seats then some seat.toNat else none

def array (value : Option Value) : List Value := (value.bind Value.asArray).getD []

def asI32 (value : Value) : Int32 := (value.asI64.getD 0).toInt32

def intArray (value : Option Value) : Option (List Int32) :=
  (value.bind Value.asArray).map fun items => items.map asI32

def levels (start : Value) : List UInt32 :=
  (array ((start.get "majsoul").bind (·.get "level_ids"))).map fun level =>
    (level.asU64.getD 0).toUInt32

/-- The seat an entry of `majsoul_result` names; an entry without one is seat 0. -/
def resultSeat (player : Value) : Nat := (((player.get "seat").bind Value.asU64).getD 0).toNat

def resultPoints (player : Value) : Int32 × Int32 :=
  ((((player.get "total_point").bind Value.asI64).getD 0).toInt32,
    (((player.get "grading_score").bind Value.asI64).getD 0).toInt32)

/-- How many pairs the allocator grants one vector.  No vector is ever granted
more than `isize::MAX` bytes, and a pair takes eight. -/
structure Heap where
  pairs : Nat
  pairs_lt : pairs < 2 ^ 60

/-- `Vec::resize`: growing past what the allocator grants does not return. -/
def resize (heap : Heap) (out : List (Int32 × Int32)) (length : Nat) :
    Outcome Empty (List (Int32 × Int32)) :=
  if length ≤ out.length then .ok (out.take length)
  else if heap.pairs < length then .panic
  else .ok (out ++ List.replicate (length - out.length) (0, 0))

/-- One entry of the settlement.  `seat + 1` wraps at the width of `usize`. -/
def settleEntry (heap : Heap) (out : List (Int32 × Int32)) (player : Value) :
    Outcome Empty (List (Int32 × Int32)) := do
  let seat := resultSeat player
  let out ← if out.length ≤ seat then resize heap out ((seat + 1) % 2 ^ 64) else .ok out
  Outcome.update out seat fun _ => resultPoints player

def settlement (heap : Heap) (endGame : Value) : Outcome Empty (List (Int32 × Int32)) :=
  (array (endGame.get "majsoul_result")).foldlM (settleEntry heap) []

def yakuIppatsu : Nat := 30

def ippatsu (hora : Value) (reconstructed : Bool) : Bool :=
  match (hora.get "yaku_ids").bind Value.asArray with
  | some ids => ids.any fun id => id.asU64.map UInt64.toNat == some yakuIppatsu
  | none => reconstructed

/-- A red five counts as its own tile. -/
def normalise (tile : String) : String := Text.trimEndMatches tile 'r'

def winds : List String := ["E", "S", "W", "N"]

def dragons : List String := ["P", "F", "C"]

/-- The tile an indicator makes a dora.  A suited indicator is split after its
first byte. -/
def doraFrom (marker : String) : Outcome Empty (Option String) :=
  if marker ∈ winds then .ok (some (winds.getD ((winds.idxOf marker + 1) % 4) ""))
  else if marker ∈ dragons then .ok (some (dragons.getD ((dragons.idxOf marker + 1) % 3) ""))
  else do
    let (number, suit) ← Text.splitFirstByte (normalise marker)
    if number.isDigit then
      .ok (some (toString ((number.toNat - 48) % 9 + 1) ++ suit))
    else .ok none

/-- The tiles of a winning hand, the winning tile included. -/
def horaTiles (hora : Value) : List String :=
  (array (hora.get "hora_tehais") ++ (hora.get "pai").toList).filterMap Value.asStr

def uradoraMarkers (hora : Value) : List String :=
  (array (hora.get "uradora_markers")).filterMap Value.asStr

/-- Whether a dora is in the hand. -/
def hits (tiles : List String) (dora : Option String) : Bool :=
  dora.any fun dora => tiles.any fun tile => normalise tile == dora

/-- Indicators are turned into dora one at a time, up to the first that hits. -/
def uraHitFrom (tiles : List String) : List String → Outcome Empty Bool
  | [] => .ok false
  | marker :: rest => do
      let dora ← doraFrom marker
      if hits tiles dora then .ok true else uraHitFrom tiles rest

def uraHit (hora : Value) : Outcome Empty Bool := uraHitFrom (horaTiles hora) (uradoraMarkers hora)

/-! ## One event at a time -/

/-- The deal, for one seat: the dealer's streak grows, another seat's ends. -/
def dealSeat (dealer : Nat) (acc : List SeatStats × List UInt16) (seat : Nat) :
    Outcome Empty (List SeatStats × List UInt16) := do
  let stats ← Outcome.index acc.1 seat
  let stats := { stats with hands := stats.hands + 1 }
  if seat = dealer then
    let streak ← Outcome.update acc.2 seat (· + 1)
    let held ← Outcome.index streak seat
    let stats := { stats with
      handsAsDealer := stats.handsAsDealer + 1
      maxDealerStreak := max stats.maxDealerStreak held }
    let players ← Outcome.update acc.1 seat fun _ => stats
    .ok (players, streak)
  else
    let streak ← Outcome.update acc.2 seat fun _ => 0
    let players ← Outcome.update acc.1 seat fun _ => stats
    .ok (players, streak)

def stepStartKyoku (seats : Nat) (s : Replay) (event : Value) : Outcome Empty Replay := do
  let dealer := (((event.get "oya").bind Value.asU64).getD 0).toNat
  let hand := { Hand.new seats with
    dealer := dealer
    kyotaku := (((event.get "kyotaku").bind Value.asI64).getD 0).toInt32 }
  let (players, streak) ←
    (List.range s.players.length).foldlM (dealSeat dealer) (s.players, s.streak)
  .ok { players, hand, started := true, streak
        lastScores := (intArray (event.get "scores")).or s.lastScores }

def stepTsumo (seats : Nat) (s : Replay) (event : Value) : Outcome Empty Replay :=
  match seatOf event "actor" seats with
  | none => .ok s
  | some seat => do
      let turns ← Outcome.update s.hand.turns seat (· + 1)
      .ok { s with hand := { s.hand with turns } }

def stepDahai (seats : Nat) (s : Replay) (event : Value) : Outcome Empty Replay :=
  match seatOf event "actor" seats with
  | none => .ok s
  | some seat => do
      let declared ← Outcome.index s.hand.riichiTurn seat
      if declared.isSome then
        let ippatsu ← Outcome.update s.hand.ippatsu seat fun _ => false
        .ok { s with hand := { s.hand with ippatsu } }
      else .ok s

/-- How many seats have declared riichi in the hand. -/
def Hand.declarations (hand : Hand) : Nat := (hand.riichiTurn.filter Option.isSome).length

/-- A later declaration, counted for another seat that had declared before it. -/
def chaseSeat (riichiTurn : List (Option UInt16)) (seat : Nat) (players : List SeatStats)
    (other : Nat) : Outcome Empty (List SeatStats) := do
  let declared ← Outcome.index riichiTurn other
  Outcome.updateIf (other ≠ seat && declared.isSome) players other fun stats =>
    { stats with riichiChased := stats.riichiChased + 1 }

def stepReachAccepted (seats : Nat) (s : Replay) (event : Value) : Outcome Empty Replay :=
  match seatOf event "actor" seats with
  | none => .ok s
  | some seat => do
      let declared ← Outcome.index s.hand.riichiTurn seat
      if declared.isSome then .ok s
      else
        let earlier := s.hand.declarations
        let turn ← Outcome.index s.hand.turns seat
        let riichiTurn ← Outcome.update s.hand.riichiTurn seat fun _ => some turn
        let ippatsu ← Outcome.update s.hand.ippatsu seat fun _ => true
        let players ← Outcome.update s.players seat fun stats =>
          { stats with
            riichi := stats.riichi + 1
            riichiTurns := stats.riichiTurns + turn.toUInt32
            riichiFirst := if earlier = 0 then stats.riichiFirst + 1 else stats.riichiFirst
            riichiChasing :=
              if earlier = 0 then stats.riichiChasing else stats.riichiChasing + 1 }
        let players ← if earlier = 0 then .ok players
          else (List.range riichiTurn.length).foldlM (chaseSeat riichiTurn seat) players
        .ok { s with players, hand := { s.hand with riichiTurn, ippatsu } }

/-- Any of the five calls: it ends every live ippatsu. -/
def stepCall (seats : Nat) (s : Replay) (event : Value) : Outcome Empty Replay := do
  let called ← match seatOf event "actor" seats with
    | some seat => Outcome.update s.hand.called seat fun _ => true
    | none => .ok s.hand.called
  .ok { s with hand := { s.hand with called, ippatsu := s.hand.ippatsu.map fun _ => false } }

/-- The ura dora of a riichi win. -/
def countUra (event : Value) (actor : Nat) (players : List SeatStats) :
    Outcome Empty (List SeatStats) :=
  if (array (event.get "uradora_markers")).isEmpty then .ok players
  else do
    let hit ← uraHit event
    Outcome.updateIf hit players actor fun stats =>
      { stats with riichiUraHits := stats.riichiUraHits + 1 }

/-- The riichi half of a win: ippatsu and ura dora are counted for a declared
seat alone. -/
def countRiichiWin (hand : Hand) (event : Value) (actor : Nat) (players : List SeatStats) :
    Outcome Empty (List SeatStats) := do
  let declared ← Outcome.index hand.riichiTurn actor
  if declared.isSome then
    let players ← Outcome.update players actor fun stats =>
      { stats with riichiWins := stats.riichiWins + 1 }
    let window ← Outcome.index hand.ippatsu actor
    let players ← Outcome.updateIf (ippatsu event window) players actor fun stats =>
      { stats with riichiIppatsu := stats.riichiIppatsu + 1 }
    countUra event actor players
  else .ok players

/-- What a win is worth without the riichi sticks it swept up. -/
def countWinPoints (hand : Hand) (actor : Nat) (players : List SeatStats) :
    Outcome Empty (List SeatStats) :=
  match hand.deltas.bind (·[actor]?) with
  | none => .ok players
  | some gain =>
      let sticks := hand.kyotaku + Int32.ofNat hand.declarations
      Outcome.update players actor fun stats =>
        { stats with winPoints := stats.winPoints + (gain - 1000 * sticks) }

/-- What the seat that dealt in paid, as a magnitude. -/
def countLoss (hand : Hand) (target : Nat) (players : List SeatStats) :
    Outcome Empty (List SeatStats) :=
  match hand.deltas.bind (·[target]?) with
  | none => .ok players
  | some loss => Outcome.update players target fun stats =>
      { stats with dealInPoints := stats.dealInPoints + -loss }

def countDealIn (hand : Hand) (actor target : Nat) (players : List SeatStats) :
    Outcome Empty (List SeatStats) :=
  if target = actor then .ok players
  else do
    let players ← Outcome.update players target fun stats =>
      { stats with dealIns := stats.dealIns + 1 }
    let declared ← Outcome.index hand.riichiTurn target
    let players ← Outcome.updateIf declared.isSome players target fun stats =>
      { stats with riichiDealIns := stats.riichiDealIns + 1 }
    countLoss hand target players

def countHan (event : Value) (actor : Nat) (players : List SeatStats) :
    Outcome Empty (List SeatStats) :=
  match (event.get "fan").bind Value.asU64 with
  | none => .ok players
  | some fan =>
      let han := UInt16.ofNat (min fan.toNat 65535)
      if (event.get "yakuman").bind Value.asBool = some true then
        Outcome.update players actor fun stats => { stats with yakuman := stats.yakuman + 1 }
      else
        Outcome.update players actor fun stats => { stats with maxHan := max stats.maxHan han }

def stepHora (seats : Nat) (s : Replay) (event : Value) : Outcome Empty Replay :=
  match seatOf event "actor" seats with
  | none => .ok s
  | some actor => do
      let target := (seatOf event "target" seats).getD actor
      let hand := { s.hand with deltas := (intArray (event.get "deltas")).or s.hand.deltas }
      let lastScores := (intArray (event.get "scores")).or s.lastScores
      let turn ← Outcome.index hand.turns actor
      let called ← Outcome.index hand.called actor
      let players ← Outcome.update s.players actor fun stats =>
        { stats with
          wins := stats.wins + 1
          winTurns := stats.winTurns + turn.toUInt32
          winsTsumo := if target = actor then stats.winsTsumo + 1 else stats.winsTsumo
          calledWins := if called then stats.calledWins + 1 else stats.calledWins }
      let players ← countRiichiWin hand event actor players
      let players ← countWinPoints hand actor players
      let players ← countDealIn hand actor target players
      let players ← countHan event actor players
      .ok { s with players, hand, lastScores }

def stepRyukyoku (s : Replay) (event : Value) : Outcome Empty Replay :=
  let tenpais := (event.get "tenpais").bind Value.asArray
  let tenpai := fun (seat : Nat) =>
    ((tenpais.bind (·[seat]?)).bind Value.asBool) == some true
  .ok { s with
    hand := { s.hand with deltas := (intArray (event.get "deltas")).or s.hand.deltas }
    lastScores := (intArray (event.get "scores")).or s.lastScores
    players := s.players.mapIdx fun seat stats =>
      { stats with
        draws := stats.draws + 1
        drawsTenpai := if tenpai seat then stats.drawsTenpai + 1 else stats.drawsTenpai } }

/-- What the hand moved for one seat; a declared riichi's own stick is not in the
deltas. -/
def closeSeat (hand : Hand) (players : List SeatStats) (seat : Nat) :
    Outcome Empty (List SeatStats) := do
  let declared ← Outcome.index hand.riichiTurn seat
  let called ← Outcome.index hand.called seat
  let movement :=
    ((hand.deltas.getD [])[seat]?).getD 0 - (if declared.isSome then 1000 else 0)
  Outcome.update players seat fun stats =>
    { stats with
      netPoints := stats.netPoints + movement
      riichiNet := if declared.isSome then stats.riichiNet + movement else stats.riichiNet
      called := if called then stats.called + 1 else stats.called }

/-- A hand's deltas count once, whatever number of wins reported them. -/
def stepEndKyoku (s : Replay) : Outcome Empty Replay :=
  if s.started then do
    let players ← (List.range s.players.length).foldlM (closeSeat s.hand) s.players
    .ok { s with players, hand := { s.hand with deltas := none } }
  else .ok s

def stepEndGame (heap : Heap) (seats : Nat) (s : Replay) (event : Value) :
    Outcome Empty Replay := do
  let lastScores := match intArray (event.get "scores") with
    | some scores => if scores.length = seats then some scores else s.lastScores
    | none => s.lastScores
  let results ← settlement heap event
  .ok { s with
    lastScores
    players := s.players.mapIdx fun seat stats =>
      match results[seat]? with
      | some result => { stats with settledPoint := result.1, gradingScore := result.2 }
      | none => stats }

def step (heap : Heap) (seats : Nat) (s : Replay) (event : Value) : Outcome Empty Replay :=
  match kind event with
  | some "start_kyoku" => stepStartKyoku seats s event
  | some "tsumo" => stepTsumo seats s event
  | some "dahai" => stepDahai seats s event
  | some "reach_accepted" => stepReachAccepted seats s event
  | some "pon" | some "chi" | some "daiminkan" | some "kakan" | some "ankan" =>
      stepCall seats s event
  | some "hora" => stepHora seats s event
  | some "ryukyoku" => stepRyukyoku s event
  | some "end_kyoku" => stepEndKyoku s
  | some "end_game" => stepEndGame heap seats s event
  | _ => .ok s

/-! ## One game -/

/-- The names of a game's seats, an unnamed seat under the empty name. -/
def seatNames (events : List Value) : Option (List String) := do
  let start ← events.find? fun event => kind event == some "start_game"
  let names ← (← start.get "names").asArray
  some (names.map fun name => name.asStr.getD "")

def isDetailed (event : Value) : Bool :=
  match kind event with
  | some "hora" => (event.get "yaku_ids").isSome
  | some "ryukyoku" => (event.get "tenpais").isSome
  | some "end_game" => (event.get "majsoul_result").isSome
  | _ => false

def openSeats (start : Value) (names : List String) : List SeatStats :=
  names.mapIdx fun seat player =>
    { seat := UInt8.ofNat seat, player
      levelId := ((levels start)[seat]?).getD 0 }

/-- Higher score first, ties to the lower seat; the key is the wrapped negation
of the score. -/
def placementOrder (players : List SeatStats) : List Nat :=
  (List.range players.length).mergeSort fun a b =>
    let score := fun seat => (-((players[seat]?).map SeatStats.finalScore).getD 0 : Int32)
    score a < score b || (score a == score b && a ≤ b)

def assignPlacements (players : List SeatStats) : Outcome Empty (List SeatStats) :=
  (placementOrder players).zipIdx.foldlM
    (fun players (seat, rank) =>
      Outcome.update players seat fun stats => { stats with placement := UInt8.ofNat rank + 1 })
    players

/-- The scores the game closed on; a seat missing from them has none. -/
def closeScores (s : Replay) : List SeatStats :=
  let scores := s.lastScores.getD []
  s.players.mapIdx fun seat stats =>
    let score := (scores[seat]?).getD 0
    { stats with finalScore := score, busted := score < 0 }

/-- Reads one game.  `none` when the stream is not a game this can score. -/
def replay (heap : Heap) (events : List Value) : Outcome Empty (Option GameStats) :=
  match events.find? fun event => kind event == some "start_game", seatNames events with
  | some start, some names =>
      if names.length < 2 then .ok none
      else do
        let opened : Replay :=
          { players := openSeats start names
            hand := Hand.new names.length
            started := false
            streak := List.replicate names.length 0
            lastScores := none }
        let s ← events.foldlM (step heap names.length) opened
        if s.started then
          let players ← assignPlacements (closeScores s)
          .ok (some ⟨UInt8.ofNat names.length, events.any isDetailed, players⟩)
        else .ok none
  | _, _ => .ok none

end MajsoulManager.Record
