/-
# Record.ReplayEvents — what an event is to the game

Who wins, who pays and who declares is read off an event alone, whatever the state
it meets.  `SeatMoved` says in these words what an event does to the row of one seat,
`HandMoved` what it does to the hand and to the scores.
-/
import MajsoulManager.Record.ReplaySeats

namespace MajsoulManager.Record

open MajsoulManager.Theory

set_option autoImplicit false

/-! ## What an event is to a seat -/

/-- The seat a win belongs to. -/
def winner (seats : Nat) (event : Value) : Option Nat :=
  if kind event = some "hora" then seatOf event "actor" seats else none

/-- The seat a win is paid by; a win without one is a self-draw. -/
def payer (seats : Nat) (event : Value) (actor : Nat) : Nat :=
  (seatOf event "target" seats).getD actor

def selfDrawn (seats : Nat) (event : Value) : Option Nat :=
  (winner seats event).filter fun actor => payer seats event actor = actor

def loser (seats : Nat) (event : Value) : Option Nat :=
  (winner seats event).bind fun actor =>
    if payer seats event actor = actor then none else some (payer seats event actor)

def deals (event : Value) : Bool := kind event == some "start_kyoku"

def drawsOut (event : Value) : Bool := kind event == some "ryukyoku"

def closes (event : Value) : Bool := kind event == some "end_kyoku"

/-- The seat whose riichi is accepted. -/
def accepter (seats : Nat) (event : Value) : Option Nat :=
  if kind event = some "reach_accepted" then seatOf event "actor" seats else none

/-- The sticks on the table when the hand is dealt. -/
def tableSticks (deal : Value) : Int32 := (((deal.get "kyotaku").bind Value.asI64).getD 0).toInt32

/-- The settlement that an event reports. -/
def settles (seats : Nat) (event : Value) : Option (List Int32) :=
  if (winner seats event).isSome || drawsOut event then intArray (event.get "deltas") else none

/-- The scores that an event tells. -/
def tells (seats : Nat) (event : Value) : Option (List Int32) :=
  if deals event || (winner seats event).isSome || drawsOut event then
    intArray (event.get "scores")
  else if kind event = some "end_game" then
    (intArray (event.get "scores")).filter (·.length = seats)
  else none

/-- A seat that wins or pays is one of the game. -/
theorem winner_lt {seats seat : Nat} {event : Value} (wins : winner seats event = some seat) :
    seat < seats := by
  unfold winner at wins
  split at wins
  · exact seatOf_lt wins
  · cases wins

theorem loser_lt {seats seat : Nat} {event : Value} (loses : loser seats event = some seat) :
    seat < seats := by
  obtain ⟨actor, wins, paid⟩ := Option.bind_eq_some_iff.mp loses
  split at paid
  · cases paid
  · cases paid
    unfold payer
    cases aimed : seatOf event "target" seats with
    | none => exact winner_lt wins
    | some target => exact seatOf_lt aimed

/-- **A win is a self-draw or a deal-in**, and not both. -/
theorem selfDrawn_or_loser (seats : Nat) (event : Value) :
    (winner seats event).isSome = ((selfDrawn seats event).isSome || (loser seats event).isSome) ∧
      ((selfDrawn seats event).isSome && (loser seats event).isSome) = false := by
  unfold selfDrawn loser
  cases winner seats event with
  | none => simp
  | some actor =>
      by_cases self : payer seats event actor = actor <;> simp [Option.filter_some, self]

/-! ## What it does to its row -/

/-- What a win is worth to its seat, without the sticks it swept up. -/
def Hand.worth (hand : Hand) (event : Value) (seat : Nat) : Int32 :=
  (((hand.settling event).deltas.bind (·[seat]?)).map (· - 1000 * hand.sticks)).getD 0

/-- What the seat that dealt in pays. -/
def Hand.cost (hand : Hand) (event : Value) (seat : Nat) : Int32 :=
  (((hand.settling event).deltas.bind (·[seat]?)).map (-·)).getD 0

/-- What a hand moves for a seat when it closes. -/
def Hand.movement (hand : Hand) (seat : Nat) : Int32 :=
  hand.delta seat - if hand.declared seat then 1000 else 0

/-- The row of one seat across one event. -/
structure SeatMoved (seats : Nat) (s : Replay) (event : Value) (seat : Nat) (held : UInt16)
    (stats stats' : SeatStats) : Prop where
  hands : stats'.hands = if deals event then stats.hands + 1 else stats.hands
  draws : stats'.draws = if drawsOut event then stats.draws + 1 else stats.draws
  wins : stats'.wins =
    if winner seats event = some seat then stats.wins + 1 else stats.wins
  winsTsumo : stats'.winsTsumo =
    if selfDrawn seats event = some seat then stats.winsTsumo + 1 else stats.winsTsumo
  dealIns : stats'.dealIns =
    if loser seats event = some seat then stats.dealIns + 1 else stats.dealIns
  riichiWins : stats'.riichiWins = stats.riichiWins ∨
    winner seats event = some seat ∧ stats'.riichiWins = stats.riichiWins + 1
  calledWins : stats'.calledWins = stats.calledWins ∨
    winner seats event = some seat ∧ stats'.calledWins = stats.calledWins + 1
  dealer : stats'.handsAsDealer = stats.handsAsDealer ∧
      stats'.maxDealerStreak = stats.maxDealerStreak ∨
    deals event = true ∧ stats'.handsAsDealer = stats.handsAsDealer + 1 ∧
      stats'.maxDealerStreak = max stats.maxDealerStreak (held + 1)
  riichi : stats'.riichi = stats.riichi ∧ stats'.riichiFirst = stats.riichiFirst ∧
      stats'.riichiChasing = stats.riichiChasing ∨
    stats'.riichi = stats.riichi + 1 ∧
      (stats'.riichiFirst = stats.riichiFirst + 1 ∧ stats'.riichiChasing = stats.riichiChasing ∨
        stats'.riichiFirst = stats.riichiFirst ∧ stats'.riichiChasing = stats.riichiChasing + 1)
  riichiChased : stats'.riichiChased = stats.riichiChased ∨
    stats'.riichiChased = stats.riichiChased + 1
  winPoints : stats'.winPoints =
    if winner seats event = some seat then stats.winPoints + s.hand.worth event seat
    else stats.winPoints
  dealInPoints : stats'.dealInPoints =
    if loser seats event = some seat then stats.dealInPoints + s.hand.cost event seat
    else stats.dealInPoints
  netPoints : stats'.netPoints =
    if closes event && s.started then stats.netPoints + s.hand.movement seat else stats.netPoints
  riichiNet : stats'.riichiNet =
    if closes event && s.started && s.hand.declared seat then
      stats.riichiNet + s.hand.movement seat
    else stats.riichiNet

namespace SeatStats

/-- The size of a win and its points are no counters of wins. -/
theorem rated_scored (event : Value) (gain : Option Int32) (sticks : Int32) (stats : SeatStats) :
    ∃ yakuman maxHan, (stats.scored gain sticks).rated event =
      { stats with
        yakuman, maxHan
        winPoints := stats.winPoints + ((gain.map (· - 1000 * sticks)).getD 0) } := by
  have scored : stats.scored gain sticks =
      { stats with winPoints := stats.winPoints + ((gain.map (· - 1000 * sticks)).getD 0) } := by
    cases gain with
    | none => simp [SeatStats.scored]
    | some gain => rfl
  rw [scored, rated]
  split
  · exact ⟨stats.yakuman, stats.maxHan, rfl⟩
  · split
    · exact ⟨stats.yakuman + 1, stats.maxHan, rfl⟩
    · rename_i fan _ _
      exact ⟨stats.yakuman, max stats.maxHan (UInt16.ofNat (min fan.toNat 65535)), rfl⟩

/-- A loss that is not told costs nothing. -/
theorem dealtIn_cost (declared : Bool) (loss : Option Int32) (stats : SeatStats) :
    stats.dealtIn declared loss =
      { stats with
        dealIns := stats.dealIns + 1
        riichiDealIns := if declared then stats.riichiDealIns + 1 else stats.riichiDealIns
        dealInPoints := stats.dealInPoints + (loss.map (-·)).getD 0 } := by
  cases loss with
  | none => simp [SeatStats.dealtIn]
  | some loss => rfl

end SeatStats

/-- **One event, one seat.** -/
theorem Moves.seat {seats : Nat} {s t : Replay} {event : Value} (moves : Moves seats s event t)
    {seat : Nat} {stats' : SeatStats} (here : t.players[seat]? = some stats') :
    ∃ stats, s.players[seat]? = some stats ∧
      SeatMoved seats s event seat ((s.streak[seat]?).getD 0) stats stats' := by
  cases moves with
  | deal named oya table =>
      obtain ⟨stats, found, rfl⟩ := Option.map_eq_some_iff.mp (List.getElem?_mapIdx ▸ here)
      refine ⟨stats, found, ?_⟩
      unfold SeatStats.dealt
      split <;> constructor <;> simp [deals, drawsOut, closes, winner, selfDrawn, loser, named]
  | accept named actor first =>
      obtain ⟨stats, found, rfl⟩ := Option.map_eq_some_iff.mp (List.getElem?_mapIdx ▸ here)
      refine ⟨stats, found, ?_⟩
      split
      · unfold SeatStats.accepted
        by_cases alone : s.hand.declarations = 0 <;>
        constructor <;> simp [deals, drawsOut, closes, winner, selfDrawn, loser, named, alone]
      · split <;> constructor <;>
        simp [SeatStats.chased, deals, drawsOut, closes, winner, selfDrawn, loser, named]
  | @win actor target turn window ura named wins loses =>
      obtain ⟨stats, found, rfl⟩ := Option.map_eq_some_iff.mp (List.getElem?_mapIdx ▸ here)
      refine ⟨stats, found, ?_⟩
      have won : winner seats event = some actor := by rw [winner, if_pos named, wins]
      have paid : payer seats event actor = target := loses.symm
      by_cases self : seat = actor
      · -- the winner: what it scored and how large the win was count no wins
        subst self
        obtain ⟨yakuman, maxHan, same⟩ := SeatStats.rated_scored event
          ((s.hand.settling event).deltas.bind (·[seat]?)) s.hand.sticks
          ((stats.won turn (target = seat) (s.hand.hasCalled seat)).riichiWon
            (s.hand.declared seat) window ura)
        rw [if_pos rfl, same]
        constructor <;> simp [deals, drawsOut, closes, named, won, selfDrawn, loser, paid,
          Option.filter_some, SeatStats.won, SeatStats.riichiWon, Hand.worth]
      · rw [if_neg self]
        by_cases pays : seat = target
        · subst pays
          rw [if_pos rfl, SeatStats.dealtIn_cost]
          constructor <;> simp [deals, drawsOut, closes, named, won, selfDrawn, loser, paid,
            Option.filter_some, Hand.cost, self, Ne.symm self]
        · rw [if_neg pays]
          constructor <;> simp [deals, drawsOut, closes, named, won, selfDrawn, loser, paid,
            Option.filter_some, Ne.symm self, Ne.symm pays]
  | draw named =>
      obtain ⟨stats, found, rfl⟩ := Option.map_eq_some_iff.mp (List.getElem?_mapIdx ▸ here)
      refine ⟨stats, found, ?_⟩
      constructor <;> simp [SeatStats.drawn, deals, drawsOut, closes, winner, selfDrawn, loser, named]
  | close named started =>
      obtain ⟨stats, found, rfl⟩ := Option.map_eq_some_iff.mp (List.getElem?_mapIdx ▸ here)
      refine ⟨stats, found, ?_⟩
      constructor <;> simp [SeatStats.closed, Hand.movement, deals, drawsOut, closes, winner,
        selfDrawn, loser, named, started]
  | finish named scores =>
      obtain ⟨stats, found, rfl⟩ := Option.map_eq_some_iff.mp (List.getElem?_mapIdx ▸ here)
      refine ⟨stats, found, ?_⟩
      unfold SeatStats.settled
      split <;> constructor <;> simp [deals, drawsOut, closes, winner, selfDrawn, loser, named]
  | idle noDeal noDraw noEnd accepts wins shut =>
      have noWin : winner seats event = none := by
        unfold winner
        split
        · exact wins (by assumption)
        · rfl
      have noClose : (closes event && s.started) = false := by
        by_cases ends : kind event = some "end_kyoku" <;> simp [closes, ends, shut]
      refine ⟨stats', here, ?_⟩
      constructor <;> simp [deals, drawsOut, noClose, noDeal, noDraw, selfDrawn, loser, noWin]

/-! ## What it does to the hand -/

/-- The hand and the scores across one event. -/
structure HandMoved (seats : Nat) (s : Replay) (event : Value) (t : Replay) : Prop where
  started : t.started = (s.started || deals event)
  scores : t.lastScores = (tells seats event).or s.lastScores
  dealt : deals event = true → (∀ seat, t.hand.declared seat = false) ∧
    t.hand.deltas = none ∧ t.hand.kyotaku = tableSticks event
  table : deals event = false → t.hand.kyotaku = s.hand.kyotaku
  declared : deals event = false → ∀ seat, t.hand.declared seat = true ↔
    s.hand.declared seat = true ∨ accepter seats event = some seat
  deltas : deals event = false → closes event = false →
    t.hand.deltas = (settles seats event).or s.hand.deltas

theorem declared_modify {hand : Hand} {seat : Nat} {turn : UInt16} {ippatsu : List Bool}
    (inside : seat < hand.riichiTurn.length) (other : Nat) :
    ({ hand with riichiTurn := hand.riichiTurn.modify seat fun _ => some turn, ippatsu } :
      Hand).declared other = true ↔ hand.declared other = true ∨ other = seat := by
  unfold Hand.declared
  simp only [List.getElem?_modify]
  by_cases same : seat = other
  · subst same
    simp [List.getElem?_eq_getElem inside]
  · simp [same, Ne.symm same]

/-- **One event, the hand.** -/
theorem Moves.hand {seats : Nat} {declared : List Nat} {s t : Replay} {event : Value}
    (tracks : Tracks seats declared s) (moves : Moves seats s event t) :
    HandMoved seats s event t := by
  have quiet : kind event ≠ some "reach_accepted" → ∀ seat, s.hand.declared seat = true ↔
      s.hand.declared seat = true ∨ accepter seats event = some seat := by
    intro named seat
    simp [accepter, named]
  cases moves with
  | deal named oya table =>
      constructor <;>
      simp [deals, closes, drawsOut, tells, winner, settles, named, Hand.declared, Hand.new,
        List.getElem?_replicate, tableSticks, table]
      intro seat
      split <;> rfl
  | @accept seat turn ippatsu named actor first =>
      have inside : seat < s.hand.riichiTurn.length := tracks.riichiTurn ▸ seatOf_lt actor
      have accepts : accepter seats event = some seat := by rw [accepter, if_pos named, actor]
      constructor
      case declared =>
        intro _ other
        rw [declared_modify inside, accepts, Option.some.injEq, eq_comm (a := seat)]
      all_goals simp [deals, closes, drawsOut, tells, winner, settles, named]
  | win named wins loses =>
      constructor <;>
      simp [deals, closes, drawsOut, tells, winner, settles, accepter, named, wins, Hand.settling,
        Hand.declared]
  | draw named =>
      constructor <;>
      simp [deals, closes, drawsOut, tells, winner, settles, accepter, named, Hand.settling,
        Hand.declared]
  | close named started =>
      constructor <;>
      simp [deals, closes, drawsOut, tells, winner, settles, accepter, named, Hand.declared]
  | finish named scores =>
      constructor <;>
      simp [deals, closes, drawsOut, tells, winner, settles, accepter, named, scores]
  | idle noDeal noDraw noEnd accepts wins shut =>
      have noWin : winner seats event = none := by
        unfold winner
        split
        · exact wins (by assumption)
        · rfl
      have known : ∀ seat, accepter seats event = some seat → s.hand.declared seat = true := by
        intro seat accepted
        unfold accepter at accepted
        split at accepted
        · exact accepts (by assumption) seat accepted
        · cases accepted
      constructor
      case declared => exact fun _ seat => ⟨.inl, Or.rec id (known seat)⟩
      all_goals simp [deals, drawsOut, tells, settles, noDeal, noDraw, noEnd, noWin]

/-! ## Who has declared -/

/-- The declarations of a hand after one more event: only a seat's first one counts. -/
def declaring (seats : Nat) (declarers : List Nat) (event : Value) : List Nat :=
  match accepter seats event with
  | some seat => if seat ∈ declarers then declarers else declarers ++ [seat]
  | none => declarers

/-- The seats that declare in a hand, in the order of their first declarations. -/
def declarers (seats : Nat) (hand : List Value) : List Nat := hand.foldl (declaring seats) []

/-- What is known of the declarations of the hand: who, each once. -/
structure Declarers (seats : Nat) (declared : List Nat) (s : Replay) : Prop where
  distinct : declared.Nodup
  known : ∀ seat, s.hand.declared seat = true ↔ seat ∈ declared
  below : ∀ seat ∈ declared, seat < seats

theorem accepter_lt {seats seat : Nat} {event : Value}
    (accepts : accepter seats event = some seat) : seat < seats := by
  unfold accepter at accepts
  split at accepts
  · exact seatOf_lt accepts
  · cases accepts

/-- Nobody has declared in a hand that is being dealt. -/
theorem HandMoved.opens {seats : Nat} {s t : Replay} {event : Value}
    (moved : HandMoved seats s event t) (deal : deals event = true) : Declarers seats [] t := by
  refine ⟨List.nodup_nil, fun seat => ?_, by simp⟩
  simp [(moved.dealt deal).1 seat]

/-- **The declarations of a hand** follow its events. -/
theorem Declarers.step {seats : Nat} {declared : List Nat} {s t : Replay} {event : Value}
    (known : Declarers seats declared s) (moved : HandMoved seats s event t)
    (noDeal : deals event = false) : Declarers seats (declaring seats declared event) t := by
  have here := moved.declared noDeal
  unfold declaring
  cases accepts : accepter seats event with
  | none =>
      refine ⟨known.distinct, fun seat => ?_, known.below⟩
      simp [here, accepts, known.known]
  | some seat =>
      show Declarers seats (if seat ∈ declared then declared else declared ++ [seat]) t
      by_cases already : seat ∈ declared
      · rw [if_pos already]
        refine ⟨known.distinct, fun other => ?_, known.below⟩
        rw [here, known.known, accepts]
        constructor
        · rintro (old | same)
          · exact old
          · exact Option.some.inj same ▸ already
        · exact .inl
      · rw [if_neg already]
        constructor
        · exact List.nodup_append.mpr ⟨known.distinct, List.nodup_singleton _, by
            simpa using fun a member (same : a = seat) => already (same ▸ member)⟩
        · intro other
          rw [here, known.known, accepts, List.mem_append, List.mem_singleton, Option.some.injEq,
            eq_comm (a := seat)]
        · intro other member
          rcases List.mem_append.mp member with old | new
          · exact known.below other old
          · exact List.mem_singleton.mp new ▸ accepter_lt accepts

theorem countP_mem_range {declared : List Nat} {n : Nat} (distinct : declared.Nodup)
    (below : ∀ seat ∈ declared, seat < n) :
    (List.range n).countP (fun seat => decide (seat ∈ declared)) = declared.length := by
  rw [List.countP_eq_length_filter]
  apply List.Perm.length_eq
  rw [List.perm_ext_iff_of_nodup (List.nodup_range.filter _) distinct]
  intro seat
  simp only [List.mem_filter, List.mem_range, decide_eq_true_eq]
  exact ⟨And.right, fun member => ⟨below seat member, member⟩⟩

/-- The declarations the replay counts are those of the hand. -/
theorem Declarers.count {seats : Nat} {declared : List Nat} {s : Replay}
    (known : Declarers seats declared s) (sized : s.hand.riichiTurn.length = seats) :
    s.hand.declarations = declared.length := by
  have rows : s.hand.riichiTurn =
      (List.range seats).map fun seat => (s.hand.riichiTurn[seat]?).getD none := by
    apply List.ext_getElem (by simp [sized])
    intro seat here there
    simp [List.getElem?_eq_getElem here]
  rw [← countP_mem_range known.distinct known.below, Hand.declarations,
    ← List.countP_eq_length_filter, rows, List.countP_map]
  apply List.countP_congr
  intro seat _
  rw [decide_eq_true_eq, ← known.known]
  rfl

/-! ## Small games -/

def mjaiEvent (name : String) (fields : List (String × Value)) : Value :=
  .object (("type", .string name) :: fields)

def smallHeap : Heap := ⟨10, by decide⟩

def doubleRonStart : Value :=
  mjaiEvent "start_game" [("names", .array [.string "p0", .string "p1", .string "p2", .string "p3"])]

def doubleRonDeal : Value :=
  mjaiEvent "start_kyoku"
    [("oya", .nat 0), ("scores", .array [.nat 25000, .nat 25000, .nat 25000, .nat 25000])]

/-- One of two wins on the same discard of seat 0, which report the same settlement. -/
def doubleRon (actor : Nat) : Value :=
  mjaiEvent "hora"
    [ ("actor", .nat actor), ("target", .nat 0)
    , ("deltas", .array [.int (-8000), .nat 5000, .nat 3000, .nat 0]) ]

def doubleRonGame : List Value :=
  [ doubleRonStart, doubleRonDeal
  , mjaiEvent "tsumo" [("actor", .nat 0)]
  , mjaiEvent "dahai" [("actor", .nat 0), ("pai", .string "1m")]
  , doubleRon 1, doubleRon 2
  , mjaiEvent "end_kyoku" [], mjaiEvent "end_game" [] ]

end MajsoulManager.Record
