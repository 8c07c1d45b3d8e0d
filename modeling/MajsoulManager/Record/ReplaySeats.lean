/-
# Record.ReplaySeats — what one event does to each seat

The replay writes its seats one index at a time.  Whatever an event writes, it comes
to one edit per seat, which reads that seat's row and the hand but no other row;
`Moves` lists those edits, one constructor for each kind of event that counts, and
`step_moves` says that a step of the replay is one of them.  Everything that holds
of a whole stream is derived from `Moves`.
-/
import MajsoulManager.Record.ReplayHazard
import MajsoulManager.Theory.Edits

namespace MajsoulManager.Record

open MajsoulManager.Theory

set_option autoImplicit false

/-! ## The edits -/

/-- Whether a seat has declared riichi in the hand. -/
def Hand.declared (hand : Hand) (seat : Nat) : Bool := ((hand.riichiTurn[seat]?).getD none).isSome

def Hand.hasCalled (hand : Hand) (seat : Nat) : Bool := (hand.called[seat]?).getD false

/-- What the hand's settlement moves for a seat. -/
def Hand.delta (hand : Hand) (seat : Nat) : Int32 := ((hand.deltas.getD [])[seat]?).getD 0

def Hand.sticks (hand : Hand) : Int32 := hand.kyotaku + Int32.ofNat hand.declarations

namespace SeatStats

def dealt (dealer seat : Nat) (held : UInt16) (stats : SeatStats) : SeatStats :=
  if seat = dealer then
    { stats with
      hands := stats.hands + 1
      handsAsDealer := stats.handsAsDealer + 1
      maxDealerStreak := max stats.maxDealerStreak (held + 1) }
  else { stats with hands := stats.hands + 1 }

def accepted (earlier : Nat) (turn : UInt16) (stats : SeatStats) : SeatStats :=
  { stats with
    riichi := stats.riichi + 1
    riichiTurns := stats.riichiTurns + turn.toUInt32
    riichiFirst := if earlier = 0 then stats.riichiFirst + 1 else stats.riichiFirst
    riichiChasing := if earlier = 0 then stats.riichiChasing else stats.riichiChasing + 1 }

def chased (stats : SeatStats) : SeatStats := { stats with riichiChased := stats.riichiChased + 1 }

def won (turn : UInt16) (tsumo called : Bool) (stats : SeatStats) : SeatStats :=
  { stats with
    wins := stats.wins + 1
    winTurns := stats.winTurns + turn.toUInt32
    winsTsumo := if tsumo then stats.winsTsumo + 1 else stats.winsTsumo
    calledWins := if called then stats.calledWins + 1 else stats.calledWins }

def riichiWon (declared window ura : Bool) (stats : SeatStats) : SeatStats :=
  { stats with
    riichiWins := if declared then stats.riichiWins + 1 else stats.riichiWins
    riichiIppatsu := if window then stats.riichiIppatsu + 1 else stats.riichiIppatsu
    riichiUraHits := if ura then stats.riichiUraHits + 1 else stats.riichiUraHits }

def scored (gain : Option Int32) (sticks : Int32) (stats : SeatStats) : SeatStats :=
  match gain with
  | none => stats
  | some gain => { stats with winPoints := stats.winPoints + (gain - 1000 * sticks) }

def dealtIn (declared : Bool) (loss : Option Int32) (stats : SeatStats) : SeatStats :=
  { stats with
    dealIns := stats.dealIns + 1
    riichiDealIns := if declared then stats.riichiDealIns + 1 else stats.riichiDealIns
    dealInPoints :=
      match loss with
      | none => stats.dealInPoints
      | some loss => stats.dealInPoints + -loss }

/-- The size of a win, under its own counter for a yakuman. -/
def rated (event : Value) (stats : SeatStats) : SeatStats :=
  match (event.get "fan").bind Value.asU64 with
  | none => stats
  | some fan =>
      if (event.get "yakuman").bind Value.asBool = some true then
        { stats with yakuman := stats.yakuman + 1 }
      else { stats with maxHan := max stats.maxHan (UInt16.ofNat (min fan.toNat 65535)) }

def drawn (tenpai : Bool) (stats : SeatStats) : SeatStats :=
  { stats with
    draws := stats.draws + 1
    drawsTenpai := if tenpai then stats.drawsTenpai + 1 else stats.drawsTenpai }

def closed (declared called : Bool) (delta : Int32) (stats : SeatStats) : SeatStats :=
  let movement := delta - (if declared then 1000 else 0)
  { stats with
    netPoints := stats.netPoints + movement
    riichiNet := if declared then stats.riichiNet + movement else stats.riichiNet
    called := if called then stats.called + 1 else stats.called }

def settled (result : Option (Int32 × Int32)) (stats : SeatStats) : SeatStats :=
  match result with
  | some result => { stats with settledPoint := result.1, gradingScore := result.2 }
  | none => stats

end SeatStats

/-- The settlement an event reports, and the one the hand had before it. -/
def Hand.settling (hand : Hand) (event : Value) : Hand :=
  { hand with deltas := (intArray (event.get "deltas")).or hand.deltas }

/-- One event of the replay, as an edit of every seat. -/
inductive Moves (seats : Nat) (s : Replay) (event : Value) : Replay → Prop where
  | deal {dealer : Nat} {kyotaku : Int32} (named : kind event = some "start_kyoku")
      (oya : dealer = (((event.get "oya").bind Value.asU64).getD 0).toNat)
      (table : kyotaku = (((event.get "kyotaku").bind Value.asI64).getD 0).toInt32) :
      Moves seats s event
        { players := s.players.mapIdx fun seat stats =>
            stats.dealt dealer seat ((s.streak[seat]?).getD 0)
          hand := { Hand.new seats with dealer, kyotaku }
          started := true
          streak := s.streak.mapIdx fun seat held => if seat = dealer then held + 1 else 0
          lastScores := (intArray (event.get "scores")).or s.lastScores }
  | accept {seat : Nat} {turn : UInt16} {ippatsu : List Bool}
      (named : kind event = some "reach_accepted") (actor : seatOf event "actor" seats = some seat)
      (first : s.hand.declared seat = false) :
      Moves seats s event
        { s with
          players := s.players.mapIdx fun other stats =>
            if other = seat then stats.accepted s.hand.declarations turn
            else if s.hand.declared other then stats.chased else stats
          hand := { s.hand with
            riichiTurn := s.hand.riichiTurn.modify seat fun _ => some turn
            ippatsu } }
  | win {actor target : Nat} {turn : UInt16} {window ura : Bool}
      (named : kind event = some "hora") (winner : seatOf event "actor" seats = some actor)
      (loser : target = (seatOf event "target" seats).getD actor) :
      Moves seats s event
        { s with
          players := s.players.mapIdx fun seat stats =>
            if seat = actor then
              ((((stats.won turn (target = actor) (s.hand.hasCalled actor)).riichiWon
                (s.hand.declared actor) window ura).scored
                  ((s.hand.settling event).deltas.bind (·[actor]?)) s.hand.sticks).rated event)
            else if seat = target then
              stats.dealtIn (s.hand.declared target) ((s.hand.settling event).deltas.bind (·[target]?))
            else stats
          hand := s.hand.settling event
          lastScores := (intArray (event.get "scores")).or s.lastScores }
  | draw {tenpai : Nat → Bool} (named : kind event = some "ryukyoku") :
      Moves seats s event
        { s with
          players := s.players.mapIdx fun seat stats => stats.drawn (tenpai seat)
          hand := s.hand.settling event
          lastScores := (intArray (event.get "scores")).or s.lastScores }
  | close (named : kind event = some "end_kyoku") (open_ : s.started = true) :
      Moves seats s event
        { s with
          players := s.players.mapIdx fun seat stats =>
            stats.closed (s.hand.declared seat) (s.hand.hasCalled seat) (s.hand.delta seat)
          hand := { s.hand with deltas := none } }
  | finish {results : List (Int32 × Int32)} {lastScores : Option (List Int32)}
      (named : kind event = some "end_game")
      (scores : lastScores = ((intArray (event.get "scores")).filter
        (·.length = seats)).or s.lastScores) :
      Moves seats s event
        { s with
          lastScores
          players := s.players.mapIdx fun seat stats => stats.settled results[seat]? }
  | idle {turns : List UInt16} {ippatsu called : List Bool}
      (deals : kind event ≠ some "start_kyoku") (draws : kind event ≠ some "ryukyoku")
      (ends : kind event ≠ some "end_game")
      (accepts : kind event = some "reach_accepted" → ∀ seat,
        seatOf event "actor" seats = some seat → s.hand.declared seat = true)
      (wins : kind event = some "hora" → seatOf event "actor" seats = none)
      (closes : kind event = some "end_kyoku" → s.started = false) :
      Moves seats s event { s with hand := { s.hand with turns, ippatsu, called } }

/-! ## Every step is one of them -/

section Steps

variable {seats : Nat} {declared : List Nat} {s t : Replay} {event : Value}

/-- One turn of the deal, on the rows it has come to. -/
theorem dealSeat_turn {dealer i : Nat} {players : List SeatStats} {streak : List UInt16}
    {acc next : List SeatStats × List UInt16}
    (reached : acc.1 = editBelow i (fun seat stats =>
        stats.dealt dealer seat ((streak[seat]?).getD 0)) players ∧
      acc.2 = editBelow i (fun seat held => if seat = dealer then held + 1 else 0) streak)
    (turned : dealSeat dealer acc i = .ok next) :
    next.1 = editBelow (i + 1) (fun seat stats =>
        stats.dealt dealer seat ((streak[seat]?).getD 0)) players ∧
      next.2 = editBelow (i + 1) (fun seat held => if seat = dealer then held + 1 else 0) streak := by
  obtain ⟨rows, runs⟩ := reached
  unfold dealSeat at turned
  obtain ⟨stats, read, turned⟩ := Outcome.bind_eq_ok.mp turned
  rw [Outcome.index_eq_ok, rows, getElem?_editBelow_self] at read
  split at turned
  · rename_i deals
    obtain ⟨runs', wrote, turned⟩ := Outcome.bind_eq_ok.mp turned
    obtain ⟨-, rfl⟩ := Outcome.update_eq_ok.mp wrote
    obtain ⟨held, long, turned⟩ := Outcome.bind_eq_ok.mp turned
    obtain ⟨rows', written, same⟩ := Outcome.bind_eq_ok.mp turned
    obtain ⟨-, rfl⟩ := Outcome.update_eq_ok.mp written
    cases same
    rw [Outcome.index_eq_ok, List.getElem?_modify_eq, runs, getElem?_editBelow_self] at long
    obtain ⟨before, was, rfl⟩ := Option.map_eq_some_iff.mp long
    constructor
    · rw [rows]
      apply modify_editBelow
      intro row here
      rw [read, Option.some.injEq] at here
      subst here
      rw [SeatStats.dealt, if_pos deals, was]
      rfl
    · rw [runs]
      apply modify_editBelow
      intro row here
      rw [if_pos deals]
  · rename_i other
    obtain ⟨runs', wrote, turned⟩ := Outcome.bind_eq_ok.mp turned
    obtain ⟨-, rfl⟩ := Outcome.update_eq_ok.mp wrote
    obtain ⟨rows', written, same⟩ := Outcome.bind_eq_ok.mp turned
    obtain ⟨-, rfl⟩ := Outcome.update_eq_ok.mp written
    cases same
    constructor
    · rw [rows]
      apply modify_editBelow
      intro row here
      rw [read, Option.some.injEq] at here
      subst here
      rw [SeatStats.dealt, if_neg other]
    · rw [runs]
      apply modify_editBelow
      intro row here
      rw [if_neg other]

theorem stepStartKyoku_moves (tracks : Tracks seats declared s)
    (named : kind event = some "start_kyoku") (stepped : stepStartKyoku seats s event = .ok t) :
    Moves seats s event t := by
  unfold stepStartKyoku at stepped
  obtain ⟨acc, dealt, same⟩ := Outcome.bind_eq_ok.mp stepped
  cases same
  obtain ⟨rows, runs⟩ := Outcome.foldlM_range (fun _ _ _ reached turned =>
    dealSeat_turn reached turned) ⟨by rw [editBelow_zero], by rw [editBelow_zero]⟩ dealt
  rw [editBelow_length (Nat.le_refl _)] at rows
  rw [editBelow_length (by rw [tracks.streak, tracks.players])] at runs
  rw [rows, runs]
  exact .deal named rfl rfl

/-- The step leaves the seats and the settlement alone. -/
theorem moves_idle {turns : List UInt16} {ippatsu called : List Bool}
    (quiet : ∀ name ∈ ["start_kyoku", "ryukyoku", "end_game", "reach_accepted", "hora", "end_kyoku"],
      kind event ≠ some name) :
    Moves seats s event { s with hand := { s.hand with turns, ippatsu, called } } := by
  simp only [List.forall_mem_cons, List.not_mem_nil, false_implies, implies_true, and_true] at quiet
  obtain ⟨deals, draws, ends, accepts, wins, closes⟩ := quiet
  exact .idle deals draws ends (fun named => absurd named accepts)
    (fun named => absurd named wins) (fun named => absurd named closes)

theorem declared_of_index {hand : Hand} {seat : Nat} {turn : Option UInt16}
    (read : (Outcome.index hand.riichiTurn seat : Outcome Empty _) = .ok turn) :
    hand.declared seat = turn.isSome := by
  rw [Outcome.index_eq_ok] at read
  rw [Hand.declared, read]
  rfl

theorem chaseSeat_turn {riichiTurn : List (Option UInt16)} {seat i : Nat}
    {players rows next : List SeatStats}
    (reached : rows = editBelow i (fun other stats =>
      if other ≠ seat ∧ ((riichiTurn[other]?).getD none).isSome then stats.chased else stats) players)
    (turned : chaseSeat riichiTurn seat rows i = .ok next) :
    next = editBelow (i + 1) (fun other stats =>
      if other ≠ seat ∧ ((riichiTurn[other]?).getD none).isSome then stats.chased
      else stats) players := by
  unfold chaseSeat at turned
  obtain ⟨declared, read, turned⟩ := Outcome.bind_eq_ok.mp turned
  rw [Outcome.index_eq_ok] at read
  rw [← Outcome.updateIf_eq_ok turned, reached]
  apply modify_editBelow
  intro row here
  rw [read]
  simp only [SeatStats.chased, Option.getD_some, Bool.and_eq_true, decide_eq_true_eq]

theorem not_declared_of_none {hand : Hand} (none : hand.declarations = 0) (seat : Nat) :
    hand.declared seat = false := by
  rw [Hand.declarations, List.length_eq_zero_iff, List.filter_eq_nil_iff] at none
  unfold Hand.declared
  cases read : hand.riichiTurn[seat]? with
  | none => rfl
  | some turn => simpa using none turn (List.mem_of_getElem? read)

/-- The rows of a declaration, once the seats before it have been chased. -/
theorem accept_rows {hand : Hand} {seat : Nat} {turn : UInt16} {players : List SeatStats}
    {accepted : SeatStats → SeatStats} :
    ((players.modify seat accepted).mapIdx fun other stats =>
        if other ≠ seat ∧ (((hand.riichiTurn.modify seat fun _ => some turn)[other]?).getD
          none).isSome then stats.chased else stats) =
      players.mapIdx fun other stats =>
        if other = seat then accepted stats
        else if hand.declared other then stats.chased else stats := by
  apply List.ext_getElem?
  intro other
  simp only [List.getElem?_mapIdx, List.getElem?_modify, Hand.declared]
  by_cases same : seat = other
  · subst same
    cases players[seat]? <;> simp
  · have apart : other ≠ seat := Ne.symm same
    by_cases chased : ((hand.riichiTurn[other]?).getD none).isSome = true <;>
      simp [same, apart, chased]

/-- Nobody has declared yet, so nobody is chased. -/
theorem accept_rows_alone {hand : Hand} {seat : Nat} {players : List SeatStats}
    {accepted : SeatStats → SeatStats} (none : hand.declarations = 0) :
    players.modify seat accepted =
      players.mapIdx fun other stats =>
        if other = seat then accepted stats
        else if hand.declared other then stats.chased else stats := by
  apply List.ext_getElem?
  intro other
  simp only [List.getElem?_mapIdx, List.getElem?_modify, not_declared_of_none none]
  by_cases same : seat = other
  · subst same
    cases players[seat]? <;> simp
  · have apart : other ≠ seat := Ne.symm same
    cases players[other]? <;> simp [same, apart]

/-- A declaration is counted once for its seat, and once for each seat that declared
before it. -/
theorem stepReachAccepted_moves (tracks : Tracks seats declared s)
    (named : kind event = some "reach_accepted") (stepped : stepReachAccepted seats s event = .ok t) :
    Moves seats s event t := by
  have still : ∀ seat, seatOf event "actor" seats = some seat → s.hand.declared seat = true →
      Moves seats s event s := by
    intro seat actor declares
    refine .idle (by simp [named]) (by simp [named]) (by simp [named]) ?_ (by simp [named])
      (by simp [named])
    intro _ other actor'
    rw [actor, Option.some.injEq] at actor'
    exact actor' ▸ declares
  unfold stepReachAccepted at stepped
  cases actor : seatOf event "actor" seats with
  | none =>
      rw [actor] at stepped
      cases stepped
      exact .idle (by simp [named]) (by simp [named]) (by simp [named]) (by simp [actor])
        (by simp [named]) (by simp [named])
  | some seat =>
      rw [actor] at stepped
      obtain ⟨turn, read, stepped⟩ := Outcome.bind_eq_ok.mp stepped
      have declares := declared_of_index read
      by_cases already : turn.isSome = true
      · rw [if_pos already] at stepped
        cases stepped
        exact still seat actor (declares.trans already)
      · rw [if_neg already] at stepped
        have first : s.hand.declared seat = false := by simpa [already] using declares
        obtain ⟨drawn, -, stepped⟩ := Outcome.bind_eq_ok.mp stepped
        obtain ⟨riichiTurn, wrote, stepped⟩ := Outcome.bind_eq_ok.mp stepped
        obtain ⟨-, rfl⟩ := Outcome.update_eq_ok.mp wrote
        obtain ⟨ippatsu, -, stepped⟩ := Outcome.bind_eq_ok.mp stepped
        obtain ⟨written, wrote, stepped⟩ := Outcome.bind_eq_ok.mp stepped
        have counted : s.players.modify seat (fun stats =>
            stats.accepted s.hand.declarations drawn) = written := (Outcome.update_eq_ok.mp wrote).2
        split at stepped
        · rename_i none
          cases stepped
          rw [← counted, accept_rows_alone none]
          exact .accept named actor first
        · obtain ⟨players, chased, same⟩ := Outcome.bind_eq_ok.mp stepped
          cases same
          have enough : written.length ≤
              (s.hand.riichiTurn.modify seat fun _ => some drawn).length := by
            simp [← counted, tracks.players, tracks.riichiTurn]
          have rows := Outcome.foldlM_range (P := fun i rows => rows = editBelow i _ written)
            (fun _ _ _ reached turned => chaseSeat_turn reached turned)
            (editBelow_zero _ _).symm chased
          rw [editBelow_length enough, ← counted, accept_rows] at rows
          rw [rows]
          exact .accept named actor first

theorem stepTsumo_moves (named : kind event = some "tsumo")
    (stepped : stepTsumo seats s event = .ok t) : Moves seats s event t := by
  unfold stepTsumo at stepped
  split at stepped
  · cases stepped
    exact moves_idle (by simp [named])
  · obtain ⟨turns, -, same⟩ := Outcome.bind_eq_ok.mp stepped
    cases same
    exact moves_idle (by simp [named])

theorem stepDahai_moves (named : kind event = some "dahai")
    (stepped : stepDahai seats s event = .ok t) : Moves seats s event t := by
  unfold stepDahai at stepped
  split at stepped
  · cases stepped
    exact moves_idle (by simp [named])
  · obtain ⟨turn, -, stepped⟩ := Outcome.bind_eq_ok.mp stepped
    split at stepped
    · obtain ⟨ippatsu, -, same⟩ := Outcome.bind_eq_ok.mp stepped
      cases same
      exact moves_idle (by simp [named])
    · cases stepped
      exact moves_idle (by simp [named])

theorem stepCall_moves (named : kind event ∈ [some "pon", some "chi", some "daiminkan",
    some "kakan", some "ankan"]) (stepped : stepCall seats s event = .ok t) :
    Moves seats s event t := by
  have quiet : ∀ name ∈ ["start_kyoku", "ryukyoku", "end_game", "reach_accepted", "hora",
      "end_kyoku"], kind event ≠ some name := by
    generalize kind event = read at named
    revert read
    simp
  unfold stepCall at stepped
  split at stepped
  · obtain ⟨called, -, same⟩ := Outcome.bind_eq_ok.mp stepped
    cases same
    exact moves_idle quiet
  · cases stepped
    exact moves_idle quiet

/-! ### The parts of a win -/

variable {hand : Hand} {actor target : Nat} {players out : List SeatStats}

theorem modify_modify_self {rows : List SeatStats} {i : Nat} {f g : SeatStats → SeatStats} :
    (rows.modify i f).modify i g = rows.modify i fun row => g (f row) := by
  apply List.ext_getElem?
  intro j
  simp only [List.getElem?_modify]
  by_cases same : i = j <;> cases rows[j]? <;> simp [same]

theorem countUra_moves (counted : countUra event actor players = .ok out) :
    ∃ ura : Bool, players.modify actor (fun stats =>
      if ura then { stats with riichiUraHits := stats.riichiUraHits + 1 } else stats) = out := by
  unfold countUra at counted
  split at counted
  · cases counted
    exact ⟨false, List.modify_id _ _⟩
  · obtain ⟨hit, -, counted⟩ := Outcome.bind_eq_ok.mp counted
    exact ⟨hit, Outcome.updateIf_eq_ok counted⟩

theorem countRiichiWin_moves (counted : countRiichiWin hand event actor players = .ok out) :
    ∃ window ura : Bool,
      players.modify actor (SeatStats.riichiWon (hand.declared actor) window ura) = out := by
  unfold countRiichiWin at counted
  obtain ⟨turn, read, counted⟩ := Outcome.bind_eq_ok.mp counted
  rw [declared_of_index read]
  split at counted
  · rename_i declares
    obtain ⟨won, wrote, counted⟩ := Outcome.bind_eq_ok.mp counted
    obtain ⟨-, rfl⟩ := Outcome.update_eq_ok.mp wrote
    obtain ⟨window, -, counted⟩ := Outcome.bind_eq_ok.mp counted
    obtain ⟨lit, wrote, counted⟩ := Outcome.bind_eq_ok.mp counted
    obtain ⟨ura, searched⟩ := countUra_moves counted
    refine ⟨ippatsu event window, ura, ?_⟩
    rw [← searched, ← Outcome.updateIf_eq_ok wrote, modify_modify_self, modify_modify_self]
    congr 1
    funext stats
    cases ura <;> cases ippatsu event window <;> simp [SeatStats.riichiWon, declares]
  · rename_i silent
    cases counted
    refine ⟨false, false, ?_⟩
    have same : SeatStats.riichiWon turn.isSome false false = id := by
      funext stats
      simp [SeatStats.riichiWon, silent]
    rw [same, List.modify_id]

theorem countWinPoints_moves (counted : countWinPoints hand actor players = .ok out) :
    players.modify actor (SeatStats.scored (hand.deltas.bind (·[actor]?)) hand.sticks) = out := by
  unfold countWinPoints at counted
  split at counted
  · rename_i none
    cases counted
    rw [none]
    exact List.modify_id _ _
  · rename_i gain some
    rw [some]
    exact (Outcome.update_eq_ok.mp counted).2

theorem countDealIn_moves (counted : countDealIn hand actor target players = .ok out) :
    (if target = actor then players
      else players.modify target (SeatStats.dealtIn (hand.declared target)
        (hand.deltas.bind (·[target]?)))) = out := by
  unfold countDealIn at counted
  by_cases self : target = actor
  · rw [if_pos self] at counted ⊢
    exact Outcome.ok.inj counted
  · rw [if_neg self] at counted ⊢
    obtain ⟨dealt, wrote, counted⟩ := Outcome.bind_eq_ok.mp counted
    obtain ⟨-, rfl⟩ := Outcome.update_eq_ok.mp wrote
    obtain ⟨turn, read, counted⟩ := Outcome.bind_eq_ok.mp counted
    obtain ⟨reached, wrote, counted⟩ := Outcome.bind_eq_ok.mp counted
    have inner := Outcome.updateIf_eq_ok wrote
    rw [modify_modify_self] at inner
    subst inner
    rw [declared_of_index read]
    unfold countLoss at counted
    split at counted
    · rename_i none
      cases counted
      rw [none]
      congr 1
      funext stats
      cases turn.isSome <;> rfl
    · rename_i loss some
      obtain ⟨-, rfl⟩ := Outcome.update_eq_ok.mp counted
      rw [some, modify_modify_self]
      congr 1
      funext stats
      cases turn.isSome <;> rfl

theorem countHan_moves (counted : countHan event actor players = .ok out) :
    players.modify actor (SeatStats.rated event) = out := by
  unfold countHan at counted
  split at counted
  · rename_i none
    cases counted
    have same : SeatStats.rated event = id := by
      funext stats
      simp [SeatStats.rated, none]
    rw [same, List.modify_id]
  · rename_i fan some
    split at counted
    · rename_i yakuman
      rw [← (Outcome.update_eq_ok.mp counted).2]
      congr 1
      funext stats
      simp [SeatStats.rated, some, yakuman]
    · rename_i plain
      rw [← (Outcome.update_eq_ok.mp counted).2]
      congr 1
      funext stats
      simp [SeatStats.rated, some, plain]

/-- The rows of a win: the winner's, and the one of the seat that dealt in. -/
theorem win_rows {won dealt rated : SeatStats → SeatStats} :
    (if target = actor then players.modify actor won
        else (players.modify actor won).modify target dealt).modify actor rated =
      players.mapIdx fun seat stats =>
        if seat = actor then rated (won stats) else if seat = target then dealt stats else stats := by
  apply List.ext_getElem?
  intro seat
  by_cases self : target = actor
  · rw [if_pos self, modify_modify_self, List.getElem?_modify, List.getElem?_mapIdx]
    cases players[seat]? with
    | none => rfl
    | some stats =>
        by_cases winner : seat = actor
        · simp [winner]
        · simp [winner, Ne.symm winner, self]
  · rw [if_neg self]
    simp only [List.getElem?_modify, List.getElem?_mapIdx]
    cases players[seat]? with
    | none => rfl
    | some stats =>
        by_cases winner : seat = actor
        · subst winner
          simp [self]
        · by_cases loser : seat = target
          · subst loser
            simp [winner, Ne.symm winner]
          · simp [winner, Ne.symm winner, loser, Ne.symm loser]

theorem stepHora_moves (named : kind event = some "hora")
    (stepped : stepHora seats s event = .ok t) : Moves seats s event t := by
  unfold stepHora at stepped
  cases winner : seatOf event "actor" seats with
  | none =>
      rw [winner] at stepped
      cases stepped
      exact .idle (by simp [named]) (by simp [named]) (by simp [named]) (by simp [named])
        (fun _ => winner) (by simp [named])
  | some actor =>
      rw [winner] at stepped
      obtain ⟨turn, -, stepped⟩ := Outcome.bind_eq_ok.mp stepped
      obtain ⟨called, calls, stepped⟩ := Outcome.bind_eq_ok.mp stepped
      have hasCalled : s.hand.hasCalled actor = called := by
        rw [Outcome.index_eq_ok] at calls
        simp only at calls
        rw [Hand.hasCalled, calls, Option.getD_some]
      obtain ⟨won, wrote, stepped⟩ := Outcome.bind_eq_ok.mp stepped
      have counted : s.players.modify actor (SeatStats.won turn
          ((seatOf event "target" seats).getD actor = actor) called) = won := by
        rw [← (Outcome.update_eq_ok.mp wrote).2]
        congr 1
        funext stats
        simp [SeatStats.won]
      obtain ⟨riichi, wrote, stepped⟩ := Outcome.bind_eq_ok.mp stepped
      obtain ⟨window, ura, countedRiichi⟩ := countRiichiWin_moves wrote
      obtain ⟨scored, wrote, stepped⟩ := Outcome.bind_eq_ok.mp stepped
      have countedScore := countWinPoints_moves wrote
      obtain ⟨dealt, wrote, stepped⟩ := Outcome.bind_eq_ok.mp stepped
      have countedLoss := countDealIn_moves wrote
      obtain ⟨rated, wrote, same⟩ := Outcome.bind_eq_ok.mp stepped
      have countedHan := countHan_moves wrote
      cases same
      rw [← countedHan, ← countedLoss, ← countedScore, ← countedRiichi, ← counted,
        modify_modify_self, modify_modify_self, win_rows, ← hasCalled]
      exact .win named winner rfl

theorem stepRyukyoku_moves (named : kind event = some "ryukyoku")
    (stepped : stepRyukyoku s event = .ok t) : Moves seats s event t := by
  cases stepped
  let tenpai := fun seat : Nat =>
    ((((event.get "tenpais").bind Value.asArray).bind (·[seat]?)).bind Value.asBool) == some true
  exact @Moves.draw seats s event tenpai named

theorem closeSeat_turn {i : Nat} {rows next : List SeatStats}
    (reached : rows = editBelow i (fun seat stats =>
      stats.closed (hand.declared seat) (hand.hasCalled seat) (hand.delta seat)) players)
    (turned : closeSeat hand rows i = .ok next) :
    next = editBelow (i + 1) (fun seat stats =>
      stats.closed (hand.declared seat) (hand.hasCalled seat) (hand.delta seat)) players := by
  unfold closeSeat at turned
  obtain ⟨turn, read, turned⟩ := Outcome.bind_eq_ok.mp turned
  obtain ⟨called, calls, turned⟩ := Outcome.bind_eq_ok.mp turned
  have hasCalled : hand.hasCalled i = called := by
    rw [Outcome.index_eq_ok] at calls
    rw [Hand.hasCalled, calls, Option.getD_some]
  rw [← (Outcome.update_eq_ok.mp turned).2, reached]
  apply modify_editBelow
  intro row here
  simp only [SeatStats.closed, declared_of_index read, hasCalled, Hand.delta]

theorem stepEndKyoku_moves (named : kind event = some "end_kyoku")
    (stepped : stepEndKyoku s = .ok t) : Moves seats s event t := by
  unfold stepEndKyoku at stepped
  split at stepped
  · rename_i started
    obtain ⟨players, closed, same⟩ := Outcome.bind_eq_ok.mp stepped
    cases same
    have rows := Outcome.foldlM_range (P := fun i rows => rows = editBelow i _ s.players)
      (fun _ _ _ reached turned => closeSeat_turn reached turned) (editBelow_zero _ _).symm closed
    rw [editBelow_length (Nat.le_refl _)] at rows
    rw [rows]
    exact .close named started
  · rename_i unstarted
    cases stepped
    exact .idle (by simp [named]) (by simp [named]) (by simp [named]) (by simp [named])
      (by simp [named]) (fun _ => by simpa using unstarted)

theorem stepEndGame_moves {heap : Heap} (named : kind event = some "end_game")
    (stepped : stepEndGame heap seats s event = .ok t) : Moves seats s event t := by
  unfold stepEndGame at stepped
  obtain ⟨results, -, same⟩ := Outcome.bind_eq_ok.mp stepped
  cases same
  refine @Moves.finish seats s event results _ named ?_
  cases intArray (event.get "scores") with
  | none => rfl
  | some scores =>
      by_cases sized : scores.length = seats <;> simp [Option.filter_some, sized]

/-- **Every event of the replay is one of the moves.** -/
theorem step_moves {heap : Heap} (tracks : Tracks seats declared s)
    (stepped : step heap seats s event = .ok t) : Moves seats s event t := by
  unfold step at stepped
  split at stepped
  · exact stepStartKyoku_moves tracks (by assumption) stepped
  · exact stepTsumo_moves (by assumption) stepped
  · exact stepDahai_moves (by assumption) stepped
  · exact stepReachAccepted_moves tracks (by assumption) stepped
  iterate 5
    · exact stepCall_moves (by simp [*]) stepped
  · exact stepHora_moves (by assumption) stepped
  · exact stepRyukyoku_moves (by assumption) stepped
  · exact stepEndKyoku_moves (by assumption) stepped
  · exact stepEndGame_moves (by assumption) stepped
  · rename_i other
    cases stepped
    exact moves_idle (by simp_all)

end Steps

/-! ## Whole streams -/

/-- What the loop starts from. -/
def opening (start : Value) (names : List String) : Replay where
  players := openSeats start names
  hand := Hand.new names.length
  started := false
  streak := List.replicate names.length 0
  lastScores := none

/-- **The rule of a stream**: what every move keeps of the events before it, holds of
the whole stream. -/
theorem run_moves {heap : Heap} {seats : Nat} {P : List Value → Replay → Prop}
    {before events : List Value}
    (kept : ∀ before s event t, event ∈ events → Tracks seats (declaredSeats seats before) s →
      P before s → Moves seats s event t → P (before ++ [event]) t)
    {s t : Replay} (tracks : Tracks seats (declaredSeats seats before) s)
    (holds : P before s) (ran : events.foldlM (step heap seats) s = .ok t) :
    Tracks seats (declaredSeats seats (before ++ events)) t ∧ P (before ++ events) t := by
  induction events generalizing before s with
  | nil =>
      cases ran
      rw [List.append_nil]
      exact ⟨tracks, holds⟩
  | cons event rest ih =>
      rw [List.foldlM_cons] at ran
      obtain ⟨next, stepped, ran⟩ := Outcome.bind_eq_ok.mp ran
      have safe : ¬ EventHazard heap seats (declaredSeats seats before) event := by
        intro hazard
        have panics := step_panics tracks hazard
        rw [stepped] at panics
        exact Outcome.ok_panics _ panics
      obtain ⟨reached, same, nextTracks⟩ := step_tracks tracks safe
      rw [stepped, Outcome.ok.injEq] at same
      subst same
      have grown : declaredSeats seats (before ++ [event]) =
          declaredAfter seats (declaredSeats seats before) event := by
        simp [declaredSeats]
      have nextHolds : P (before ++ [event]) next :=
        kept before s event next List.mem_cons_self tracks holds (step_moves tracks stepped)
      have onward := ih (fun before s later t member => kept before s later t
        (List.mem_cons_of_mem event member)) (grown ▸ nextTracks) nextHolds ran
      rwa [List.append_assoc, List.singleton_append] at onward

/-- The rule, for a part of a stream that is told apart from what came before it. -/
theorem run_inner {heap : Heap} {seats : Nat} {P : List Value → Replay → Prop}
    {base events : List Value}
    (kept : ∀ inner s event t, event ∈ events → Tracks seats (declaredSeats seats (base ++ inner)) s →
      P inner s → Moves seats s event t → P (inner ++ [event]) t)
    {s t : Replay} (tracks : Tracks seats (declaredSeats seats base) s) (holds : P [] s)
    (ran : events.foldlM (step heap seats) s = .ok t) :
    Tracks seats (declaredSeats seats (base ++ events)) t ∧ P events t := by
  have whole := run_moves (P := fun before t => ∃ inner, before = base ++ inner ∧ P inner t) ?_ tracks
    ⟨[], (List.append_nil _).symm, holds⟩ ran
  · obtain ⟨tracks, inner, same, holds⟩ := whole
    rw [← List.append_cancel_left same] at holds
    exact ⟨tracks, holds⟩
  · rintro before s event t member tracks ⟨inner, rfl, holds⟩ moves
    exact ⟨inner ++ [event], List.append_assoc _ _ _, kept inner s event t member tracks holds moves⟩

/-- The rule, for the whole loop of a game. -/
theorem run_opening {heap : Heap} {start : Value} {names : List String}
    {P : List Value → Replay → Prop} {events : List Value}
    (kept : ∀ before s event t, Tracks names.length (declaredSeats names.length before) s →
      P before s → Moves names.length s event t → P (before ++ [event]) t)
    (opens : P [] (opening start names)) {t : Replay}
    (ran : events.foldlM (step heap names.length) (opening start names) = .ok t) :
    Tracks names.length (declaredSeats names.length events) t ∧ P events t := by
  have tracks : Tracks names.length (declaredSeats names.length []) (opening start names) :=
    Tracks.opened start names
  apply run_moves (fun before s event t _ => kept before s event t) tracks opens ran

/-- What a game that is scored comes from. -/
theorem replay_eq_some {heap : Heap} {events : List Value} {stats : GameStats}
    (scored : replay heap events = .ok (some stats)) :
    ∃ start names t, events.find? (fun event => kind event == some "start_game") = some start ∧
      seatNames events = some names ∧ 2 ≤ names.length ∧
      events.foldlM (step heap names.length) (opening start names) = .ok t ∧ t.started = true ∧
      assignPlacements (closeScores t) = .ok stats.players := by
  unfold replay at scored
  split at scored
  · rename_i start names found named
    split at scored
    · cases scored
    · rename_i enough
      obtain ⟨t, ran, scored⟩ := Outcome.bind_eq_ok.mp scored
      split at scored
      · rename_i started
        obtain ⟨players, placed, same⟩ := Outcome.bind_eq_ok.mp scored
        cases same
        exact ⟨start, names, t, found, named, by omega, ran, started, placed⟩
      · cases scored
  · cases scored

/-- A game whose loop has started a hand is scored. -/
theorem replay_of_started {heap : Heap} {events : List Value} {start : Value} {names : List String}
    {t : Replay} (opens : events.find? (fun event => kind event == some "start_game") = some start)
    (named : seatNames events = some names) (enough : 2 ≤ names.length)
    (ran : events.foldlM (step heap names.length) (opening start names) = .ok t)
    (started : t.started = true) :
    ∃ stats, replay heap events = .ok (some stats) ∧
      assignPlacements (closeScores t) = .ok stats.players := by
  obtain ⟨players, placed, -⟩ := assignPlacements_returns (closeScores t)
  refine ⟨⟨UInt8.ofNat names.length, events.any isDetailed, players⟩, ?_, placed⟩
  have few : ¬ names.length < 2 := by omega
  have looped : events.foldlM (step heap names.length)
      { players := openSeats start names, hand := Hand.new names.length, started := false
        streak := List.replicate names.length 0, lastScores := none } = .ok t := ran
  simp only [replay, opens, named, if_neg few, looped, Outcome.ok_bind, started, if_true, placed]

end MajsoulManager.Record
