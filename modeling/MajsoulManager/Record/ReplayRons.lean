/-
# Record.ReplayRons — what a hand of rons is worth

Several wins on one discard report one settlement (`RonHand`).  The replay reads it
once for each of them: every win credits its seat with its own entry, less all the
sticks on the table, and every win charges the discarder the whole of the loss.  So
the winners and the discarder agree on what was paid exactly when the wins past the
first one neither repeat a loss nor drop a stick (`ron_balance_iff`).
-/
import MajsoulManager.Record.ReplayEvents

namespace MajsoulManager.Record

open MajsoulManager.Theory

set_option autoImplicit false

/-! ## Points of a seat -/

def wonBy (s : Replay) (seat : Nat) : Int32 := ((s.players[seat]?).map SeatStats.winPoints).getD 0

def paidBy (s : Replay) (seat : Nat) : Int32 :=
  ((s.players[seat]?).map SeatStats.dealInPoints).getD 0

theorem Moves.seats {seats : Nat} {s t : Replay} {event : Value} (moves : Moves seats s event t) :
    t.players.length = s.players.length := by
  cases moves <;> simp

section Points

variable {seats : Nat} {declared : List Nat} {s t : Replay} {event : Value} {seat : Nat}

/-- A column of the rows that an event adds to for one seat. -/
theorem Moves.column {column : SeatStats → Int32} {who : Option Nat} {gain : Int32}
    (tracks : Tracks seats declared s) (moves : Moves seats s event t)
    (inside : who = some seat → seat < seats)
    (moved : ∀ held stats stats', SeatMoved seats s event seat held stats stats' →
      column stats' = if who = some seat then column stats + gain else column stats) :
    ((t.players[seat]?).map column).getD 0 =
      ((s.players[seat]?).map column).getD 0 + if who = some seat then gain else 0 := by
  cases here : t.players[seat]? with
  | none =>
      have gone : s.players[seat]? = none := by
        rw [List.getElem?_eq_none_iff, ← moves.seats]
        exact List.getElem?_eq_none_iff.mp here
      have nobody : who ≠ some seat := by
        intro named
        have past := List.getElem?_eq_none_iff.mp gone
        rw [tracks.players] at past
        exact absurd (inside named) (by omega)
      simp [gone, nobody]
  | some stats' =>
      obtain ⟨stats, found, row⟩ := moves.seat here
      rw [found, Option.map_some, Option.map_some, Option.getD_some, Option.getD_some, moved _ _ _ row]
      split <;> simp

theorem Moves.wonBy (tracks : Tracks seats declared s) (moves : Moves seats s event t) :
    wonBy t seat =
      wonBy s seat + if winner seats event = some seat then s.hand.worth event seat else 0 :=
  moves.column tracks winner_lt fun _ _ _ row => row.winPoints

theorem Moves.paidBy (tracks : Tracks seats declared s) (moves : Moves seats s event t) :
    paidBy t seat =
      paidBy s seat + if loser seats event = some seat then s.hand.cost event seat else 0 :=
  moves.column tracks loser_lt fun _ _ _ row => row.dealInPoints

/-- Without a win, nobody wins or pays. -/
theorem Moves.points_kept (tracks : Tracks seats declared s) (moves : Moves seats s event t)
    (noWin : winner seats event = none) (seat : Nat) :
    Record.wonBy t seat = Record.wonBy s seat ∧ Record.paidBy t seat = Record.paidBy s seat := by
  rw [moves.wonBy tracks, moves.paidBy tracks]
  simp [loser, noWin]

end Points

/-! ## A hand of rons -/

/-- A hand that ends in wins on one discard, all of which report the same settlement. -/
structure RonHand (seats : Nat) where
  deal : Value
  play : List Value
  rons : List Value
  close : Value
  target : Nat
  deltas : List Int32
  dealt : deals deal = true
  plays : ∀ event ∈ play, deals event = false ∧ closes event = false ∧ winner seats event = none
  closed : closes close = true
  some_ : rons ≠ []
  wins : ∀ ron ∈ rons, ∃ actor, winner seats ron = some actor ∧ actor ≠ target
  aimed : ∀ ron ∈ rons, seatOf ron "target" seats = some target
  reports : ∀ ron ∈ rons, intArray (ron.get "deltas") = some deltas
  sized : deltas.length = seats
  distinct : (rons.filterMap (winner seats)).Nodup

namespace RonHand

variable {seats : Nat} (hand : RonHand seats)

def events : List Value := hand.deal :: (hand.play ++ hand.rons ++ [hand.close])

def winners : List Nat := hand.rons.filterMap (winner seats)

/-- The seats that neither win nor pay. -/
def others : List Nat :=
  (List.range seats).filter fun seat => seat ≠ hand.target && !hand.winners.contains seat

def delta (seat : Nat) : Int32 := (hand.deltas[seat]?).getD 0

/-- The sticks on the table when the hand ends. -/
def sticks : Int32 := tableSticks hand.deal + Int32.ofNat (declarers seats hand.play).length

/-- What the settlement moves adds up to the sticks it sweeps up. -/
def ZeroSum : Prop := hand.deltas.sum = 1000 * hand.sticks

/-- What the discarder paid. -/
def loss : Int32 := -hand.delta hand.target

/-- The wins past the first one. -/
def repeats : Int32 := Int32.ofNat (hand.rons.length - 1)

/-- The winners gained what the discarder is charged, and that is what it paid. -/
structure Balances (s t : Replay) : Prop where
  won : (hand.winners.map fun seat => wonBy t seat - wonBy s seat).sum =
    paidBy t hand.target - paidBy s hand.target
  paid : paidBy t hand.target - paidBy s hand.target = hand.loss

/-- What is known of the hand on its way: who has declared, and the sticks it was dealt
with. -/
structure Under (declared : List Nat) (s : Replay) : Prop where
  known : Declarers seats declared s
  table : s.hand.kyotaku = tableSticks hand.deal

variable {hand} {heap : Heap} {base : List Value} {s t : Replay}

/-- Before the first win nothing is won or paid. -/
theorem played (tracks : Tracks seats (declaredSeats seats base) s) (under : hand.Under [] s)
    (ran : hand.play.foldlM (step heap seats) s = .ok t) :
    Tracks seats (declaredSeats seats (base ++ hand.play)) t ∧
      hand.Under (declarers seats hand.play) t ∧
      ∀ seat, wonBy t seat = wonBy s seat ∧ paidBy t seat = paidBy s seat := by
  apply run_inner (P := fun inner t => hand.Under (declarers seats inner) t ∧
    ∀ seat, wonBy t seat = wonBy s seat ∧ paidBy t seat = paidBy s seat) ?_ tracks
    ⟨under, fun _ => ⟨rfl, rfl⟩⟩ ran
  rintro inner s' event t' member tracks ⟨under, kept⟩ moves
  obtain ⟨noDeal, -, noWin⟩ := hand.plays event member
  have moved := moves.hand tracks
  have grown : declarers seats (inner ++ [event]) =
      declaring seats (declarers seats inner) event := by simp [declarers]
  rw [grown]
  refine ⟨⟨under.known.step moved noDeal, (moved.table noDeal).trans under.table⟩, fun seat => ?_⟩
  obtain ⟨won, paid⟩ := moves.points_kept tracks noWin seat
  exact ⟨won.trans (kept seat).1, paid.trans (kept seat).2⟩

/-- The sticks the replay counts are those of the hand. -/
theorem Under.sticks (under : hand.Under (declarers seats hand.play) s)
    (sized : s.hand.riichiTurn.length = seats) : s.hand.sticks = hand.sticks := by
  rw [Hand.sticks, under.table, under.known.count sized]
  rfl

theorem delta_eq {seat : Nat} (inside : seat < seats) :
    hand.deltas[seat]? = some (hand.delta seat) := by
  rw [delta, List.getElem?_eq_getElem (hand.sized.symm ▸ inside), Option.getD_some]

/-- What a ron is worth to its winner, and what it costs the discarder. -/
theorem ron_points {ron : Value} (member : ron ∈ hand.rons) (sticks : s.hand.sticks = hand.sticks)
    {seat : Nat} (inside : seat < seats) :
    s.hand.worth ron seat = hand.delta seat - 1000 * hand.sticks ∧
      s.hand.cost ron seat = -hand.delta seat := by
  have settled : (s.hand.settling ron).deltas = some hand.deltas := by
    rw [Hand.settling, hand.reports ron member]
    rfl
  unfold Hand.worth Hand.cost
  rw [settled, Option.bind_some, delta_eq inside, sticks]
  exact ⟨rfl, rfl⟩

theorem ron_loser {ron : Value} (member : ron ∈ hand.rons) : loser seats ron = some hand.target := by
  obtain ⟨actor, won, other⟩ := hand.wins ron member
  rw [loser, won, Option.bind_some, payer, hand.aimed ron member, Option.getD_some,
    if_neg (Ne.symm other)]

theorem ron_quiet {ron : Value} (member : ron ∈ hand.rons) :
    deals ron = false ∧ accepter seats ron = none := by
  obtain ⟨actor, won, -⟩ := hand.wins ron member
  have named : kind ron = some "hora" := by
    unfold winner at won
    split at won
    · assumption
    · cases won
  simp [deals, accepter, named]

/-- After some of its wins: every one credits its seat, and all of them charge the
discarder. -/
theorem ronned (tracks : Tracks seats (declaredSeats seats base) s)
    (under : hand.Under (declarers seats hand.play) s)
    (ran : hand.rons.foldlM (step heap seats) s = .ok t) :
    Tracks seats (declaredSeats seats (base ++ hand.rons)) t ∧
      hand.Under (declarers seats hand.play) t ∧
      (∀ seat, wonBy t seat = wonBy s seat +
        Int32.ofNat (hand.rons.countP fun ron => winner seats ron = some seat) *
          (hand.delta seat - 1000 * hand.sticks)) ∧
      paidBy t hand.target = paidBy s hand.target + Int32.ofNat hand.rons.length * hand.loss := by
  apply run_inner (P := fun inner t => hand.Under (declarers seats hand.play) t ∧
    (∀ seat, wonBy t seat = wonBy s seat +
      Int32.ofNat (inner.countP fun ron => winner seats ron = some seat) *
        (hand.delta seat - 1000 * hand.sticks)) ∧
    paidBy t hand.target = paidBy s hand.target + Int32.ofNat inner.length * hand.loss) ?_ tracks
    ⟨under, fun seat => by simp, by simp⟩ ran
  rintro inner s' ron t' member tracks ⟨under, won, paid⟩ moves
  obtain ⟨noDeal, nobody⟩ := ron_quiet member
  have moved := moves.hand tracks
  have sticks := under.sticks tracks.riichiTurn
  refine ⟨⟨?_, (moved.table noDeal).trans under.table⟩, fun seat => ?_, ?_⟩
  · have known := under.known.step moved noDeal
    rwa [declaring, nobody] at known
  · rw [moves.wonBy tracks, won, List.countP_append, List.countP_singleton]
    by_cases wins : winner seats ron = some seat
    · rw [(ron_points member sticks (winner_lt wins)).1]
      simp only [wins, if_true, decide_true, Int32.ofNat_add]
      grind
    · simp [wins]
  · have aimed := ron_loser member
    rw [moves.paidBy tracks, paid, if_pos aimed, (ron_points member sticks (loser_lt aimed)).2,
      List.length_append, List.length_singleton, Int32.ofNat_add, loss]
    grind

/-- Over the whole hand. -/
theorem ended (tracks : Tracks seats (declaredSeats seats base) s)
    (ran : hand.events.foldlM (step heap seats) s = .ok t) :
    (∀ seat, wonBy t seat = wonBy s seat +
      Int32.ofNat (hand.rons.countP fun ron => winner seats ron = some seat) *
        (hand.delta seat - 1000 * hand.sticks)) ∧
    paidBy t hand.target = paidBy s hand.target + Int32.ofNat hand.rons.length * hand.loss := by
  unfold events at ran
  rw [List.foldlM_cons] at ran
  obtain ⟨fresh, opens, ran⟩ := Outcome.bind_eq_ok.mp ran
  rw [List.foldlM_append, List.foldlM_append] at ran
  obtain ⟨last, ran, closes⟩ := Outcome.bind_eq_ok.mp ran
  obtain ⟨middle, plays, ran⟩ := Outcome.bind_eq_ok.mp ran
  have noWin : ∀ {event}, kind event ≠ some "hora" → winner seats event = none := by
    intro event named
    rw [winner, if_neg named]
  -- the deal
  have moves := step_moves tracks opens
  have moved := moves.hand tracks
  obtain ⟨-, -, table⟩ := moved.dealt hand.dealt
  have dealt := moves.points_kept tracks
    (noWin (by simpa using fun named => by simpa [deals, named] using hand.dealt))
  have freshTracks : Tracks seats (declaredSeats seats (base ++ [hand.deal])) fresh := by
    have once := run_moves (P := fun _ _ => True) (fun _ _ _ _ _ _ _ _ => trivial) tracks trivial
      (show [hand.deal].foldlM (step heap seats) s = .ok fresh by
        rw [List.foldlM_cons, opens]
        rfl)
    exact once.1
  -- up to the first win, the wins, and the close
  obtain ⟨middleTracks, under, quiet⟩ := played freshTracks ⟨moved.opens hand.dealt, table⟩ plays
  obtain ⟨lastTracks, -, won, paid⟩ := ronned middleTracks under ran
  have closing : step heap seats last hand.close = .ok t := by
    rw [List.foldlM_cons] at closes
    obtain ⟨_, closing, same⟩ := Outcome.bind_eq_ok.mp closes
    cases same
    exact closing
  have shut := (step_moves lastTracks closing).points_kept lastTracks
    (noWin (by simpa using fun named => by simpa [Record.closes, named] using hand.closed))
  refine ⟨fun seat => ?_, ?_⟩
  · rw [(shut seat).1, won, (quiet seat).1, (dealt seat).1]
  · rw [(shut hand.target).2, paid, (quiet hand.target).2, (dealt hand.target).2]

end RonHand

/-! ## Sums of points -/

theorem perm_sum {xs ys : List Int32} (same : xs.Perm ys) : xs.sum = ys.sum := by
  induction same with
  | nil => rfl
  | cons x _ ih => rw [List.sum_cons, List.sum_cons, ih]
  | swap x y rest =>
      simp only [List.sum_cons]
      grind
  | trans _ _ first second => rw [first, second]

theorem sum_less {α : Type} (f : α → Int32) (c : Int32) (items : List α) :
    (items.map fun item => f item - c).sum = (items.map f).sum - Int32.ofNat items.length * c := by
  induction items with
  | nil => simp
  | cons item rest ih =>
      rw [List.map_cons, List.sum_cons, ih, List.map_cons, List.sum_cons, List.length_cons,
        Int32.ofNat_add]
      grind

namespace RonHand

variable {seats : Nat} {hand : RonHand seats}

theorem winners_length : hand.winners.length = hand.rons.length := by
  rw [winners, List.length_filterMap_eq_countP, List.countP_eq_length]
  intro ron member
  obtain ⟨actor, won, -⟩ := hand.wins ron member
  rw [won]
  rfl

/-- A winner wins once. -/
theorem wins_once {seat : Nat} (wins : seat ∈ hand.winners) :
    hand.rons.countP (fun ron => winner seats ron = some seat) = 1 := by
  have once := List.count_eq_one_of_mem hand.distinct wins
  rw [List.count_filterMap] at once
  rw [← once]
  apply List.countP_congr
  simp

theorem target_lt : hand.target < seats := by
  obtain ⟨ron, member⟩ := List.exists_mem_of_ne_nil _ hand.some_
  exact seatOf_lt (hand.aimed ron member)

/-- Winners, discarder and the others are all the seats. -/
theorem seats_perm : (hand.winners ++ hand.target :: hand.others).Perm (List.range seats) := by
  have apart : hand.target ∉ hand.winners := by
    intro member
    obtain ⟨ron, listed, won⟩ := List.mem_filterMap.mp member
    obtain ⟨actor, won', other⟩ := hand.wins ron listed
    rw [won, Option.some.injEq] at won'
    exact other won'.symm
  have inside : ∀ seat ∈ hand.winners, seat < seats := by
    intro seat member
    obtain ⟨ron, -, won⟩ := List.mem_filterMap.mp member
    exact winner_lt won
  have below := hand.target_lt
  rw [List.perm_ext_iff_of_nodup _ List.nodup_range]
  · intro seat
    by_cases wins : seat ∈ hand.winners
    · simp [wins, inside seat wins]
    · by_cases pays : seat = hand.target
      · simp [pays, below]
      · simp [wins, pays, others]
  · refine List.nodup_append.mpr ⟨hand.distinct, List.nodup_cons.mpr ⟨by simp [others],
      List.nodup_range.filter _⟩, ?_⟩
    intro seat wins other member same
    subst same
    rcases List.mem_cons.mp member with rfl | among
    · exact apart wins
    · simp [others, wins] at among

/-- The settlement, by who it is to. -/
theorem deltas_sum : hand.deltas.sum =
    (hand.winners.map hand.delta).sum + (hand.delta hand.target + (hand.others.map hand.delta).sum) := by
  have entries : hand.deltas = (List.range seats).map hand.delta := by
    apply List.ext_getElem (by simp [hand.sized])
    intro seat here there
    simp [delta, List.getElem?_eq_getElem here]
  rw [entries, ← perm_sum (hand.seats_perm.map hand.delta), List.map_append, List.sum_append,
    List.map_cons, List.sum_cons]

end RonHand

/-- **Winners and discarder agree** on what was paid exactly when the wins past the first
neither repeat a loss nor leave the others out of balance with the sticks. -/
theorem ron_balance_iff (heap : Heap) {start : Value} {names : List String} {before : List Value}
    {s t : Replay} (hand : RonHand names.length) (zeroSum : hand.ZeroSum)
    (reached : before.foldlM (step heap names.length) (opening start names) = .ok s)
    (ran : hand.events.foldlM (step heap names.length) s = .ok t) :
    hand.Balances s t ↔ hand.repeats * hand.loss = 0 ∧
      (hand.others.map hand.delta).sum + hand.repeats * (1000 * hand.sticks) = 0 := by
  have tracks : Tracks names.length (declaredSeats names.length before) s :=
    (run_opening (P := fun _ _ => True) (fun _ _ _ _ _ _ _ => trivial) trivial reached).1
  obtain ⟨won, paid⟩ := hand.ended tracks ran
  have gains : (hand.winners.map fun seat => wonBy t seat - wonBy s seat) =
      hand.winners.map fun seat => hand.delta seat - 1000 * hand.sticks := by
    apply List.map_congr_left
    intro seat wins
    rw [won, hand.wins_once wins]
    grind
  have count : Int32.ofNat hand.rons.length = hand.repeats + 1 := by
    have some := List.length_pos_iff.mpr hand.some_
    have grown := Int32.ofNat_add (hand.rons.length - 1) 1
    rwa [Nat.sub_add_cancel some] at grown
  have settled := hand.deltas_sum
  rw [zeroSum] at settled
  constructor
  · rintro ⟨balance, exact_⟩
    rw [gains, sum_less, hand.winners_length, paid, count] at balance
    rw [paid, count] at exact_
    unfold RonHand.loss at *
    constructor <;> grind
  · rintro ⟨once, level⟩
    constructor
    · rw [gains, sum_less, hand.winners_length, paid, count]
      unfold RonHand.loss at *
      grind
    · rw [paid, count]
      grind

/-! ## One win and two -/

/-- Seat 1 wins on a discard of seat 0, and takes the stick that lay on the table. -/
def oneRon : RonHand 4 where
  deal := mjaiEvent "start_kyoku" [("oya", .nat 0), ("kyotaku", .nat 1)]
  play := [mjaiEvent "tsumo" [("actor", .nat 0)]]
  rons := [mjaiEvent "hora" [("actor", .nat 1), ("target", .nat 0),
    ("deltas", .array [.int (-3900), .nat 4900, .nat 0, .nat 0])]]
  close := mjaiEvent "end_kyoku" []
  target := 0
  deltas := [-3900, 4900, 0, 0]
  dealt := by decide
  plays := by decide
  closed := by decide
  some_ := by simp
  wins := by
    intro ron member
    cases List.mem_singleton.mp member
    exact ⟨1, rfl, by decide⟩
  aimed := by decide
  reports := by decide
  sized := rfl
  distinct := by decide

/-- **One win balances**, the stick left out. -/
theorem oneRon_balances :
    ∃ s t, [doubleRonStart].foldlM (step smallHeap 4)
        (opening doubleRonStart ["p0", "p1", "p2", "p3"]) = .ok s ∧
      oneRon.events.foldlM (step smallHeap 4) s = .ok t ∧ oneRon.Balances s t ∧
      oneRon.loss = 3900 := by
  have ran : (oneRon.events.foldlM (step smallHeap 4)
      (opening doubleRonStart ["p0", "p1", "p2", "p3"])).Yields fun _ => True := by decide +kernel
  obtain ⟨t, ran, -⟩ := ran
  have reached : [doubleRonStart].foldlM (step smallHeap 4)
      (opening doubleRonStart ["p0", "p1", "p2", "p3"]) =
        .ok (opening doubleRonStart ["p0", "p1", "p2", "p3"]) := rfl
  have zeroSum : oneRon.deltas.sum = 1000 * oneRon.sticks := by decide +kernel
  have law := @ron_balance_iff smallHeap doubleRonStart ["p0", "p1", "p2", "p3"] _ _ _ oneRon zeroSum
    reached ran
  exact ⟨_, t, reached, ran, law.mpr (by decide +kernel), by decide⟩

/-- The double ron of `doubleRonGame`. -/
def twoRons : RonHand 4 where
  deal := doubleRonDeal
  play := [mjaiEvent "tsumo" [("actor", .nat 0)],
    mjaiEvent "dahai" [("actor", .nat 0), ("pai", .string "1m")]]
  rons := [doubleRon 1, doubleRon 2]
  close := mjaiEvent "end_kyoku" []
  target := 0
  deltas := [-8000, 5000, 3000, 0]
  dealt := by decide
  plays := by decide
  closed := by decide
  some_ := by simp
  wins := by
    intro ron member
    rcases List.mem_pair.mp member with rfl | rfl
    · exact ⟨1, rfl, by decide⟩
    · exact ⟨2, rfl, by decide⟩
  aimed := by decide
  reports := by decide
  sized := rfl
  distinct := by decide

/-- **Two wins charge the discarder twice**: it paid eight thousand points, which is what
the winners gained, and is charged sixteen thousand. -/
theorem twoRons_charged_twice :
    twoRons.ZeroSum ∧ doubleRonGame = doubleRonStart :: (twoRons.events ++ [mjaiEvent "end_game" []]) ∧
      ∃ s t, [doubleRonStart].foldlM (step smallHeap 4)
          (opening doubleRonStart ["p0", "p1", "p2", "p3"]) = .ok s ∧
        twoRons.events.foldlM (step smallHeap 4) s = .ok t ∧
        twoRons.loss = 8000 ∧
        (twoRons.winners.map fun seat => wonBy t seat - wonBy s seat).sum = 8000 ∧
        paidBy t 0 - paidBy s 0 = 16000 ∧ ¬ twoRons.Balances s t := by
  have zeroSum : twoRons.deltas.sum = 1000 * twoRons.sticks := by decide +kernel
  refine ⟨zeroSum, rfl, ?_⟩
  have ran : (twoRons.events.foldlM (step smallHeap 4)
      (opening doubleRonStart ["p0", "p1", "p2", "p3"])).Yields fun t =>
        (twoRons.winners.map fun seat =>
          wonBy t seat - wonBy (opening doubleRonStart ["p0", "p1", "p2", "p3"]) seat).sum = 8000 ∧
        paidBy t 0 - paidBy (opening doubleRonStart ["p0", "p1", "p2", "p3"]) 0 = 16000 := by
    decide +kernel
  obtain ⟨t, ran, won, paid⟩ := ran
  refine ⟨_, t, rfl, ran, by decide, won, paid, fun balances => ?_⟩
  have same : (16000 : Int32) = twoRons.loss := paid.symm.trans balances.paid
  revert same
  decide

end MajsoulManager.Record
