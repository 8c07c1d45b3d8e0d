/-
# Record.ReplayPoints — the points a game moves

A stream whose deals and closes alternate falls into hands (`hands`).  What a hand
moves for a seat is read off its own events: the settlement it reported last, and the
stick of a riichi that was accepted in it.  The replay books a hand when it closes
(`Booked`), so the net points of a seat are the sum over the finished hands, and the
scores a game tells are those sums wherever each hand is dealt with the scores of the
one before it.
-/
import MajsoulManager.Record.ReplayPlacements
import MajsoulManager.Record.ReplayEvents

namespace MajsoulManager.Record

open MajsoulManager.Theory

set_option autoImplicit false

/-! ## Hands -/

/-- A hand: its deal, and what came before it closed or the next one was dealt. -/
structure PlayedHand where
  deal : Value
  events : List Value := []
  finished : Bool := false

namespace PlayedHand

variable (seats : Nat) (hand : PlayedHand) (seat : Nat)

/-- The settlement the hand reported last. -/
def deltas : Option (List Int32) := (hand.events.filterMap (settles seats)).getLast?

def delta : Int := (((hand.deltas seats).bind (·[seat]?)).getD 0).toInt

def declared : Bool := hand.events.any fun event => accepter seats event = some seat

def movement : Int := hand.delta seats seat - if hand.declared seats seat then 1000 else 0

/-- A hand that is cut short moves nothing. -/
def moved : Int := if hand.finished then hand.movement seats seat else 0

/-- The score a seat is dealt in with. -/
def score : Option Int := ((intArray (hand.deal.get "scores")).bind (·[seat]?)).map Int32.toInt

end PlayedHand

/-- A stream as it is cut into hands. -/
structure Cut where
  done : List PlayedHand := []
  current : Option PlayedHand := none

def Cut.step (cut : Cut) (event : Value) : Cut :=
  if deals event then
    { done := cut.done ++ cut.current.toList, current := some { deal := event } }
  else if closes event then
    { done := cut.done ++ (cut.current.map fun hand => { hand with finished := true }).toList }
  else
    { cut with current := cut.current.map fun hand => { hand with events := hand.events ++ [event] } }

def cut (events : List Value) : Cut := events.foldl Cut.step {}

def hands (events : List Value) : List PlayedHand :=
  (cut events).done ++ (cut events).current.toList

theorem cut_concat (before : List Value) (event : Value) :
    cut (before ++ [event]) = (cut before).step event := by
  simp [cut]

/-- Only a hand that is still open can grow. -/
theorem cut_current_open {events : List Value} {hand : PlayedHand}
    (current : (cut events).current = some hand) : hand.finished = false := by
  induction events using List.reverseRecOn generalizing hand with
  | nil => cases current
  | append_singleton before event ih =>
      rw [cut_concat] at current
      unfold Cut.step at current
      split at current
      · cases current
        rfl
      · split at current
        · cases current
        · obtain ⟨earlier, was, rfl⟩ := Option.map_eq_some_iff.mp current
          have same := ih was
          exact same

/-! ## Deals and closes -/

theorem closes_not_deals {event : Value} (ends : closes event = true) : deals event = false := by
  have named : kind event = some "end_kyoku" := by simpa [closes] using ends
  simp [deals, named]

def boundaries (events : List Value) : List Value :=
  events.filter fun event => deals event || closes event

/-- Deals and closes alternate, a deal first. -/
structure Alternates (events : List Value) : Prop where
  first : ∀ event ∈ (boundaries events).head?, deals event = true
  switches : (boundaries events).IsChain fun event next => deals event ≠ deals next

theorem Alternates.earlier {before after : List Value} (alternates : Alternates (before ++ after)) :
    Alternates before := by
  have split : boundaries (before ++ after) = boundaries before ++ boundaries after :=
    List.filter_append _ _
  obtain ⟨first, switches⟩ := alternates
  rw [split] at first switches
  refine ⟨fun event head => first event ?_, (List.isChain_append.mp switches).1⟩
  rw [List.head?_append, Option.mem_def.mp head, Option.some_or]
  rfl

/-- A hand is open as long as the last boundary was a deal. -/
theorem cut_current_isSome (events : List Value) :
    (cut events).current.isSome = (boundaries events).getLast?.any deals := by
  induction events using List.reverseRecOn with
  | nil => rfl
  | append_singleton before event ih =>
      rw [cut_concat, boundaries, List.filter_append]
      unfold Cut.step
      by_cases deal : deals event = true
      · simp [deal]
      · by_cases close : closes event = true
        · simp [deal, close]
        · simpa [deal, close, boundaries] using ih

/-- A close finds the hand it closes. -/
theorem Alternates.closing {before : List Value} {event : Value}
    (alternates : Alternates (before ++ [event])) (ends : closes event = true) :
    ∃ hand, (cut before).current = some hand := by
  have noDeal := closes_not_deals ends
  have split : boundaries (before ++ [event]) = boundaries before ++ [event] := by
    simp [boundaries, ends]
  obtain ⟨first, switches⟩ := alternates
  rw [split] at first switches
  have opened := cut_current_isSome before
  cases last : (boundaries before).getLast? with
  | none =>
      rw [List.getLast?_eq_none_iff.mp last] at first
      rw [first event rfl] at noDeal
      cases noDeal
  | some boundary =>
      have differs := (List.isChain_append.mp switches).2.2 boundary last event rfl
      rw [last, Option.any_some] at opened
      rw [noDeal, Bool.ne_false_iff] at differs
      rw [differs] at opened
      exact Option.isSome_iff_exists.mp opened

/-! ## The sums -/

/-- What the finished hands that count moved for a seat. -/
def netOver (seats : Nat) (events : List Value) (seat : Nat) (counts : PlayedHand → Bool) : Int :=
  (((hands events).filter fun hand => hand.finished && counts hand).map
    fun hand => hand.movement seats seat).sum

def netExactly (seats : Nat) (events : List Value) (seat : Nat) : Int :=
  netOver seats events seat fun _ => true

def riichiNetExactly (seats : Nat) (events : List Value) (seat : Nat) : Int :=
  netOver seats events seat fun hand => hand.declared seats seat

section Sums

variable {seats seat : Nat} {before : List Value} {event : Value} {counts : PlayedHand → Bool}

/-- An open hand has moved nothing yet. -/
theorem netOver_done : netOver seats before seat counts =
    ((((cut before).done.filter fun hand => hand.finished && counts hand)).map
      fun hand => hand.movement seats seat).sum := by
  unfold netOver hands
  rw [List.filter_append]
  cases current : (cut before).current with
  | none => simp
  | some hand => simp [cut_current_open current]

/-- The sums stand until a hand closes. -/
theorem netOver_keeps (more : closes event = false) :
    netOver seats (before ++ [event]) seat counts = netOver seats before seat counts := by
  by_cases deal : deals event = true
  · rw [netOver_done, cut_concat, Cut.step, if_pos deal]
    rfl
  · rw [netOver_done, netOver_done, cut_concat, Cut.step, if_neg deal, if_neg (by simp [more])]

theorem netOver_closes {hand : PlayedHand} (current : (cut before).current = some hand)
    (ends : closes event = true)
    (same : counts { hand with finished := true } = counts hand) :
    netOver seats (before ++ [event]) seat counts =
      netOver seats before seat counts + if counts hand then hand.movement seats seat else 0 := by
  have noDeal : ¬ deals event = true := by simp [closes_not_deals ends]
  rw [netOver_done, netOver_done, cut_concat, Cut.step, if_neg noDeal, if_pos ends]
  simp only [current, Option.map_some, Option.toList_some, List.filter_append, List.map_append,
    List.sum_append, List.filter_singleton, same, Bool.true_and]
  cases counts hand
  · simp
  · simp [PlayedHand.movement, PlayedHand.delta, PlayedHand.deltas, PlayedHand.declared]

end Sums

/-- The scores told last. -/
def told (seats : Nat) (events : List Value) : Option (List Int32) :=
  (events.filterMap (tells seats)).getLast?

theorem getLast?_filterMap_concat {α β : Type} (f : α → Option β) (items : List α) (item : α) :
    ((items ++ [item]).filterMap f).getLast? = (f item).or (items.filterMap f).getLast? := by
  rw [List.filterMap_append, List.getLast?_append]
  cases read : f item <;> simp [read]

/-! ## What the replay has booked -/

/-- The hand of the replay is the open hand of the stream. -/
structure Plays (seats : Nat) (hand : PlayedHand) (s : Replay) : Prop where
  started : s.started = true
  declared : ∀ seat, s.hand.declared seat = hand.declared seats seat
  deltas : s.hand.deltas = hand.deltas seats

/-- The replay moves for a seat what the hand does. -/
theorem Plays.movement {seats : Nat} {hand : PlayedHand} {s : Replay} (plays : Plays seats hand s)
    (seat : Nat) : s.hand.movement seat = Int32.ofInt (hand.movement seats seat) := by
  have entry : ((s.hand.deltas.getD [])[seat]?) = s.hand.deltas.bind (·[seat]?) := by
    cases s.hand.deltas <;> rfl
  rw [Hand.movement, Hand.delta, entry, plays.declared, plays.deltas, PlayedHand.movement,
    Int32.ofInt_sub, PlayedHand.delta, Int32.ofInt_toInt]
  split <;> rfl

/-- An open hand takes every event but its close. -/
theorem Plays.step {seats : Nat} {hand : PlayedHand} {s t : Replay} {event : Value}
    (plays : Plays seats hand s) (moved : HandMoved seats s event t) (noDeal : deals event = false)
    (more : closes event = false) :
    Plays seats { hand with events := hand.events ++ [event] } t := by
  constructor
  · rw [moved.started, plays.started, Bool.true_or]
  · intro seat
    rw [Bool.eq_iff_iff, moved.declared noDeal, plays.declared]
    simp [PlayedHand.declared]
  · rw [moved.deltas noDeal more, plays.deltas]
    exact (getLast?_filterMap_concat _ _ _).symm

/-- A deal opens a hand of its own. -/
theorem HandMoved.plays {seats : Nat} {s t : Replay} {event : Value}
    (moved : HandMoved seats s event t) (deal : deals event = true) :
    Plays seats { deal := event } t := by
  obtain ⟨nobody, unsettled, -⟩ := moved.dealt deal
  constructor
  · rw [moved.started, deal, Bool.or_true]
  · exact nobody
  · exact unsettled

/-- What the replay has booked after some events. -/
structure Booked (seats : Nat) (before : List Value) (s : Replay) : Prop where
  scores : s.lastScores = told seats before
  plays : ∀ hand, (cut before).current = some hand → Plays seats hand s
  net : ∀ seat stats, s.players[seat]? = some stats →
    stats.netPoints = Int32.ofInt (netExactly seats before seat)
  riichiNet : ∀ seat stats, s.players[seat]? = some stats →
    stats.riichiNet = Int32.ofInt (riichiNetExactly seats before seat)

/-- **One event of the books.** -/
theorem Booked.step {seats : Nat} {declared : List Nat} {s t : Replay} {before : List Value}
    {event : Value} (booked : Booked seats before s) (tracks : Tracks seats declared s)
    (moves : Moves seats s event t) (alternates : Alternates (before ++ [event])) :
    Booked seats (before ++ [event]) t := by
  have moved := moves.hand tracks
  have scores : t.lastScores = told seats (before ++ [event]) := by
    rw [moved.scores, booked.scores]
    exact (getLast?_filterMap_concat _ _ _).symm
  by_cases ends : closes event = true
  · obtain ⟨hand, current⟩ := alternates.closing ends
    have plays := booked.plays hand current
    constructor
    · exact scores
    · intro hand opened
      rw [cut_concat, Cut.step, if_neg (by simp [closes_not_deals ends]), if_pos ends] at opened
      cases opened
    · intro seat stats' here
      obtain ⟨stats, found, row⟩ := moves.seat here
      have grown : netExactly seats (before ++ [event]) seat =
          netExactly seats before seat + hand.movement seats seat :=
        netOver_closes current ends rfl
      rw [row.netPoints, ends, plays.started, booked.net seat stats found, plays.movement, grown,
        Int32.ofInt_add]
      rfl
    · intro seat stats' here
      obtain ⟨stats, found, row⟩ := moves.seat here
      have grown : riichiNetExactly seats (before ++ [event]) seat = riichiNetExactly seats before seat +
          if hand.declared seats seat then hand.movement seats seat else 0 :=
        netOver_closes current ends rfl
      rw [row.riichiNet, ends, plays.started, plays.declared, booked.riichiNet seat stats found,
        plays.movement, grown, Int32.ofInt_add]
      cases hand.declared seats seat
      · simp
      · rfl
  · have more : closes event = false := by simpa using ends
    constructor
    · exact scores
    · intro hand opened
      rw [cut_concat, Cut.step, if_neg ends] at opened
      split at opened
      · rename_i deal
        cases opened
        exact moved.plays deal
      · rename_i noDeal
        obtain ⟨earlier, current, rfl⟩ := Option.map_eq_some_iff.mp opened
        exact (booked.plays earlier current).step moved (by simpa using noDeal) more
    · intro seat stats' here
      obtain ⟨stats, found, row⟩ := moves.seat here
      have kept : netExactly seats (before ++ [event]) seat = netExactly seats before seat :=
        netOver_keeps more
      rw [row.netPoints, more, booked.net seat stats found, kept]
      rfl
    · intro seat stats' here
      obtain ⟨stats, found, row⟩ := moves.seat here
      have kept : riichiNetExactly seats (before ++ [event]) seat =
          riichiNetExactly seats before seat := netOver_keeps more
      rw [row.riichiNet, more, booked.riichiNet seat stats found, kept]
      rfl

theorem opening_booked (start : Value) (names : List String) :
    Booked names.length [] (opening start names) := by
  constructor
  · rfl
  · intro hand opened
    cases opened
  · intro seat stats here
    obtain ⟨player, -, rfl⟩ := Option.map_eq_some_iff.mp (List.getElem?_mapIdx ▸ here)
    rfl
  · intro seat stats here
    obtain ⟨player, -, rfl⟩ := Option.map_eq_some_iff.mp (List.getElem?_mapIdx ▸ here)
    rfl

/-- **The books of a stream** whose deals and closes alternate. -/
theorem run_booked {heap : Heap} {start : Value} {names : List String} {events : List Value}
    {t : Replay} (ran : events.foldlM (step heap names.length) (opening start names) = .ok t)
    (alternates : Alternates events) : Booked names.length events t := by
  have whole := run_opening (P := fun before s => Alternates before →
      Booked names.length before s) ?_ (fun _ => opening_booked start names) ran
  · exact whole.2 alternates
  · intro before s event t tracks booked moves alternates
    exact (booked alternates.earlier).step tracks moves alternates

/-! ## The scores a game tells -/

/-- The score a seat starts the game with. -/
def startingScore (events : List Value) (seat : Nat) : Option Int :=
  (hands events).head?.bind (·.score seat)

/-- The score of a seat that is told last. -/
def closingScore (seats : Nat) (events : List Value) (seat : Nat) : Option Int :=
  ((told seats events).bind (·[seat]?)).map Int32.toInt

/-- Every hand is dealt with the scores the hand before it left. -/
def Chained (seats : Nat) (events : List Value) (seat : Nat) : Prop :=
  (hands events).IsChain fun hand next =>
    next.score seat = (hand.score seat).map (· + hand.moved seats seat)

/-- The scores told last are the ones the last hand left. -/
def ClosesOnLast (seats : Nat) (events : List Value) (seat : Nat) : Prop :=
  ∀ last ∈ (hands events).getLast?,
    closingScore seats events seat = (last.score seat).map (· + last.moved seats seat)

/-- Where every entry starts where the one before it ended, the last one ends on the
sum of all. -/
theorem chain_telescopes {α : Type} {score : α → Option Int} {moved : α → Int} {first : α}
    {rest : List α} {start : Int}
    (chained : (first :: rest).IsChain fun a b => score b = (score a).map (· + moved a))
    (opens : score first = some start) :
    ∃ last ∈ (first :: rest).getLast?,
      (score last).map (· + moved last) = some (start + ((first :: rest).map moved).sum) := by
  induction rest generalizing first start with
  | nil => exact ⟨first, rfl, by simp [opens]⟩
  | cons second rest ih =>
      obtain ⟨follows, chained⟩ := List.isChain_cons_cons.mp chained
      rw [opens, Option.map_some] at follows
      obtain ⟨last, ends, left⟩ := ih chained follows
      refine ⟨last, by simpa using ends, ?_⟩
      rw [left, List.map_cons (l := second :: rest), List.sum_cons, ← Int.add_assoc]

theorem sum_moved (seats seat : Nat) (played : List PlayedHand) :
    (played.map fun hand => hand.moved seats seat).sum =
      ((played.filter fun hand => hand.finished && true).map
        fun hand => hand.movement seats seat).sum := by
  induction played with
  | nil => rfl
  | cons hand rest ih =>
      rw [List.map_cons, List.sum_cons, ih]
      cases ends : hand.finished <;> simp [PlayedHand.moved, ends]

/-- A game whose scores follow its hands ends on the sum of them. -/
theorem closingScore_eq {seats seat : Nat} {events : List Value} {start : Int}
    (chained : Chained seats events seat) (closes : ClosesOnLast seats events seat)
    (opens : startingScore events seat = some start) :
    closingScore seats events seat = some (start + netExactly seats events seat) := by
  unfold startingScore at opens
  unfold Chained at chained
  have net : netExactly seats events seat =
      ((hands events).map fun hand => hand.moved seats seat).sum := (sum_moved _ _ _).symm
  rw [net]
  unfold ClosesOnLast at closes
  cases played : hands events with
  | nil => simp [played] at opens
  | cons first rest =>
      rw [played] at opens chained closes
      obtain ⟨last, ends, left⟩ := chain_telescopes chained opens
      rw [closes last ends, left]

/-! ## A scored game -/

/-- A sum of points that a counter can hold. -/
def Fits (points : Int) : Prop := -2 ^ 31 ≤ points ∧ points < 2 ^ 31

/-- **The net points of a seat** are what its finished hands moved, and the scores say
the same wherever they follow the hands. -/
structure Nets (seats : Nat) (events : List Value) (seat : Nat) (stats : SeatStats) : Prop where
  net : Fits (netExactly seats events seat) →
    stats.netPoints.toInt = netExactly seats events seat
  riichiNet : Fits (riichiNetExactly seats events seat) →
    stats.riichiNet.toInt = riichiNetExactly seats events seat
  fromScores : Fits (netExactly seats events seat) → Chained seats events seat →
    ClosesOnLast seats events seat → ∀ start, startingScore events seat = some start →
      stats.netPoints.toInt = stats.finalScore.toInt - start

/-- **A hand is settled once**, for every stream whose deals and closes alternate,
whatever came between them. -/
theorem replay_nets (heap : Heap) {events : List Value} {names : List String} {stats : GameStats}
    (scored : replay heap events = .ok (some stats)) (named : seatNames events = some names)
    (alternates : Alternates events) {seat : Nat} {row : SeatStats}
    (here : stats.players[seat]? = some row) : Nets names.length events seat row := by
  obtain ⟨start, names', t, -, named', -, ran, -, placed⟩ := replay_eq_some scored
  rw [named, Option.some.injEq] at named'
  subst named'
  have booked := run_booked ran alternates
  obtain ⟨before, found, rfl⟩ := placed_row placed here
  have net : Fits (netExactly names.length events seat) →
      before.netPoints.toInt = netExactly names.length events seat := by
    intro fits
    rw [booked.net seat before found, Int32.toInt_ofInt_of_le fits.1 fits.2]
  constructor
  · exact net
  · intro fits
    show before.riichiNet.toInt = _
    rw [booked.riichiNet seat before found, Int32.toInt_ofInt_of_le fits.1 fits.2]
  · intro fits chained closes first opens
    have ends := closingScore_eq chained closes opens
    obtain ⟨score, told, exact_⟩ := Option.map_eq_some_iff.mp ends
    have final : ((t.lastScores.getD [])[seat]?).getD 0 = score := by
      rw [booked.scores]
      obtain ⟨scores, last, entry⟩ := Option.bind_eq_some_iff.mp told
      rw [last, Option.getD_some, entry, Option.getD_some]
    show before.netPoints.toInt = (((t.lastScores.getD [])[seat]?).getD 0).toInt - first
    rw [net fits, final, exact_]
    omega

/-- A row of a scored game, by what the loop left of it. -/
theorem replay_row {heap : Heap} {events : List Value} {start : Value} {names : List String}
    {t : Replay} {seat : Nat} {score net : Int32}
    (opens : events.find? (fun event => kind event == some "start_game") = some start)
    (named : seatNames events = some names) (enough : 2 ≤ names.length)
    (ran : events.foldlM (step heap names.length) (opening start names) = .ok t)
    (started : t.started = true) (moved : (t.players[seat]?).map SeatStats.netPoints = some net)
    (told : (t.lastScores.getD [])[seat]? = some score) :
    ∃ stats row, replay heap events = .ok (some stats) ∧ stats.players[seat]? = some row ∧
      row.netPoints = net ∧ row.finalScore = score := by
  obtain ⟨stats, scored, placed⟩ := replay_of_started opens named enough ran started
  obtain ⟨before, found, same⟩ := Option.map_eq_some_iff.mp moved
  have inside : seat < stats.players.length := by
    rw [placed_length placed]
    exact (List.getElem?_eq_some_iff.mp found).1
  have here := List.getElem?_eq_getElem inside
  obtain ⟨row, there, shape⟩ := placed_row placed here
  rw [found, Option.some.injEq] at there
  refine ⟨stats, _, scored, here, ?_, ?_⟩
  · rw [shape, ← there]
    exact same
  · rw [shape]
    show ((t.lastScores.getD [])[seat]?).getD 0 = score
    rw [told, Option.getD_some]

/-- **Scores that are not told again stay behind**: the double ron moves eight thousand
points of seat 0, and the game closes on the scores it was dealt with. -/
theorem netPoints_off_the_scores :
    ∃ stats row, replay smallHeap doubleRonGame = .ok (some stats) ∧
      stats.players[0]? = some row ∧ Alternates doubleRonGame ∧
      Fits (netExactly 4 doubleRonGame 0) ∧ Chained 4 doubleRonGame 0 ∧
      startingScore doubleRonGame 0 = some 25000 ∧
      row.netPoints.toInt ≠ row.finalScore.toInt - 25000 := by
  have ran : (doubleRonGame.foldlM (step smallHeap 4)
      (opening doubleRonStart ["p0", "p1", "p2", "p3"])).Yields fun t => t.started = true ∧
        (t.players[0]?).map SeatStats.netPoints = some (-8000 : Int32) ∧
        (t.lastScores.getD [])[0]? = some 25000 := by decide +kernel
  obtain ⟨t, ran, started, moved, told⟩ := ran
  have named : seatNames doubleRonGame = some ["p0", "p1", "p2", "p3"] := rfl
  obtain ⟨stats, row, scored, here, net, final⟩ :=
    replay_row rfl named (by decide) ran started moved told
  refine ⟨stats, row, scored, here, ⟨by decide, by decide⟩, ⟨by decide, by decide⟩, ?_, rfl, ?_⟩
  · exact List.isChain_singleton _
  · rw [net, final]
    decide

def riichiStart : Value := mjaiEvent "start_game" [("names", .array [.string "east", .string "south"])]

/-- A riichi wins the first hand, the second one is drawn, and the scores are told. -/
def riichiGame : List Value :=
  [ riichiStart
  , mjaiEvent "start_kyoku" [("oya", .nat 0), ("scores", .array [.nat 25000, .nat 25000])]
  , mjaiEvent "reach_accepted" [("actor", .nat 0)]
  , mjaiEvent "hora"
      [("actor", .nat 0), ("target", .nat 1), ("deltas", .array [.nat 9000, .int (-8000)])]
  , mjaiEvent "end_kyoku" []
  , mjaiEvent "start_kyoku" [("oya", .nat 0), ("scores", .array [.nat 33000, .nat 17000])]
  , mjaiEvent "ryukyoku" [("deltas", .array [.int (-1500), .nat 1500])]
  , mjaiEvent "end_kyoku" []
  , mjaiEvent "end_game" [("scores", .array [.nat 31500, .nat 18500])] ]

/-- **The net points of that game** are its hands', and its scores'. -/
theorem replay_nets_of_riichi :
    ∃ stats row, replay smallHeap riichiGame = .ok (some stats) ∧ stats.players[0]? = some row ∧
      row.netPoints.toInt = 6500 ∧ row.riichiNet.toInt = 8000 ∧
      row.netPoints.toInt = row.finalScore.toInt - 25000 := by
  have ran : (riichiGame.foldlM (step smallHeap 2) (opening riichiStart ["east", "south"])).Yields
      fun t => t.started = true ∧ (t.players[0]?).map SeatStats.netPoints = some (6500 : Int32) ∧
        (t.lastScores.getD [])[0]? = some 31500 := by decide +kernel
  obtain ⟨t, ran, started, moved, told⟩ := ran
  have named : seatNames riichiGame = some ["east", "south"] := rfl
  obtain ⟨stats, row, scored, here, -, -⟩ := replay_row rfl named (by decide) ran started moved told
  have nets : Nets 2 riichiGame 0 row := replay_nets smallHeap scored named ⟨by decide, by decide⟩ here
  have net : netExactly 2 riichiGame 0 = 6500 := by decide +kernel
  have riichiNet : riichiNetExactly 2 riichiGame 0 = 8000 := by decide +kernel
  have fits : Fits (netExactly 2 riichiGame 0) := by
    rw [net]
    exact ⟨by decide, by decide⟩
  refine ⟨stats, row, scored, here, net ▸ nets.net fits, riichiNet ▸ nets.riichiNet ?_,
    nets.fromScores fits ?_ ?_ 25000 rfl⟩
  · rw [riichiNet]
    exact ⟨by decide, by decide⟩
  · exact .cons_cons rfl (List.isChain_singleton _)
  · intro last ends
    cases ends
    rfl

end MajsoulManager.Record
