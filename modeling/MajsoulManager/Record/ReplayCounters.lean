/-
# Record.ReplayCounters — the counters agree across the seats

Every counter of a seat counts events, or is bounded by one that does
(`SeatTally`).  So what one seat is credited with is another seat's loss: a win is a
self-draw or somebody's deal-in, a declaration is the first of its hand or chases the
ones before it, and a hand or a draw is everyone's.

The counters are sixteen bits wide; a stream of fewer than 65536 events cannot fill
one, whatever its fields hold.
-/
import MajsoulManager.Record.ReplayPlacements
import MajsoulManager.Record.ReplayEvents

namespace MajsoulManager.Record

open MajsoulManager.Theory

set_option autoImplicit false

/-! ## Over a stream -/

/-- The counters of one seat after some events. -/
structure SeatTally (seats : Nat) (before : List Value) (seat : Nat) (held : UInt16)
    (stats : SeatStats) : Prop where
  hands : stats.hands.toNat = before.countP deals
  draws : stats.draws.toNat = before.countP drawsOut
  wins : stats.wins.toNat = before.countP fun event => winner seats event = some seat
  winsTsumo : stats.winsTsumo.toNat = before.countP fun event => selfDrawn seats event = some seat
  dealIns : stats.dealIns.toNat = before.countP fun event => loser seats event = some seat
  riichiWins : stats.riichiWins.toNat ≤ stats.wins.toNat
  calledWins : stats.calledWins.toNat ≤ stats.wins.toNat
  streak : held.toNat ≤ stats.maxDealerStreak.toNat
  dealer : stats.maxDealerStreak.toNat ≤ stats.handsAsDealer.toNat ∧
    stats.handsAsDealer.toNat ≤ stats.hands.toNat
  riichi : stats.riichi.toNat = stats.riichiFirst.toNat + stats.riichiChasing.toNat
  declared : stats.riichi.toNat ≤ before.length
  chased : stats.riichiChased.toNat ≤ before.length

/-- A counter with room left. -/
theorem toNat_succ {n : UInt16} (room : n.toNat + 1 < 65536) : (n + 1).toNat = n.toNat + 1 := by
  rw [UInt16.toNat_add]
  exact Nat.mod_eq_of_lt room

theorem toNat_max (a b : UInt16) : (max a b).toNat = max a.toNat b.toNat := by
  show (if a ≤ b then b else a).toNat = max a.toNat b.toNat
  by_cases below : a ≤ b
  · have order : a.toNat ≤ b.toNat := UInt16.le_iff_toNat_le.mp below
    rw [if_pos below]
    omega
  · have order : ¬ a.toNat ≤ b.toNat := fun order => below (UInt16.le_iff_toNat_le.mpr order)
    rw [if_neg below]
    omega

/-- A counter that goes up with an event counts the events it went up with. -/
theorem counted_step {before : List Value} {event : Value} {p : Value → Bool} {n n' : UInt16}
    (counted : n.toNat = before.countP p) (moved : n' = if p event then n + 1 else n)
    (room : before.length + 1 < 65536) : n'.toNat = (before ++ [event]).countP p := by
  have few : before.countP p ≤ before.length := List.countP_le_length
  rw [List.countP_append, List.countP_singleton, ← counted, moved]
  split
  · exact toNat_succ (by omega)
  · rfl

/-- A counter that is bounded by one that counts wins. -/
theorem bounded_step {before : List Value} {event : Value} {p : Value → Bool} {n n' m m' : UInt16}
    (bounded : n.toNat ≤ m.toNat) (counted : m.toNat = before.countP p)
    (moved : m' = if p event then m + 1 else m)
    (part : n' = n ∨ p event = true ∧ n' = n + 1) (room : before.length + 1 < 65536) :
    n'.toNat ≤ m'.toNat := by
  have few : before.countP p ≤ before.length := List.countP_le_length
  have grown : m.toNat ≤ m'.toNat := by
    rw [moved]
    split
    · rw [toNat_succ (by omega)]
      omega
    · exact Nat.le_refl _
  rcases part with rfl | ⟨here, rfl⟩
  · omega
  · rw [moved, if_pos here, toNat_succ (by omega), toNat_succ (by omega)]
    omega

/-- How the streak of a seat goes on: it stands, ends, or is held for one hand more. -/
def Runs (held held' : UInt16) (stats' : SeatStats) : Prop :=
  held' = held ∨ held' = 0 ∨ held' = held + 1 ∧ (held + 1).toNat ≤ stats'.maxDealerStreak.toNat

/-- **The tally of one seat**, across one event. -/
theorem SeatTally.step {seats seat : Nat} {s : Replay} {before : List Value} {event : Value}
    {held held' : UInt16} {stats stats' : SeatStats} (tally : SeatTally seats before seat held stats)
    (moved : SeatMoved seats s event seat held stats stats') (runs : Runs held held' stats')
    (room : before.length + 1 < 65536) :
    SeatTally seats (before ++ [event]) seat held' stats' := by
  have hands : stats'.hands.toNat = (before ++ [event]).countP deals :=
    counted_step tally.hands moved.hands room
  have wins : stats'.wins.toNat =
      (before ++ [event]).countP fun event => winner seats event = some seat := by
    apply counted_step tally.wins (by simpa using moved.wins) room
  have few : before.countP deals ≤ before.length := List.countP_le_length
  -- the dealer's counters stay below the hands, and the longest streak below them
  obtain ⟨held_le, streak_le, dealer_le⟩ :
      stats.maxDealerStreak.toNat ≤ stats'.maxDealerStreak.toNat ∧
        stats'.maxDealerStreak.toNat ≤ stats'.handsAsDealer.toNat ∧
        stats'.handsAsDealer.toNat ≤ stats'.hands.toNat := by
    have counted := tally.hands
    have dealer := tally.dealer
    rcases moved.dealer with ⟨sameDealer, sameStreak⟩ | ⟨deal, moreDealer, longer⟩
    · rw [sameDealer, sameStreak, hands, List.countP_append]
      omega
    · have streak := tally.streak
      have next : (held + 1).toNat = held.toNat + 1 := toNat_succ (by omega)
      have dealt : stats'.hands.toNat = stats.hands.toNat + 1 := by
        rw [moved.hands, if_pos deal, toNat_succ (by omega)]
      have more : (stats.handsAsDealer + 1).toNat = stats.handsAsDealer.toNat + 1 :=
        toNat_succ (by omega)
      rw [dealt, moreDealer, longer, toNat_max, next, more]
      omega
  constructor
  · exact hands
  · exact counted_step tally.draws moved.draws room
  · exact wins
  · exact counted_step tally.winsTsumo (by simpa using moved.winsTsumo) room
  · exact counted_step tally.dealIns (by simpa using moved.dealIns) room
  · exact bounded_step tally.riichiWins tally.wins (by simpa using moved.wins)
      (by simpa using moved.riichiWins) room
  · exact bounded_step tally.calledWins tally.wins (by simpa using moved.wins)
      (by simpa using moved.calledWins) room
  · have standing := tally.streak
    rcases runs with rfl | rfl | ⟨rfl, longer⟩
    · omega
    · exact Nat.zero_le _
    · exact longer
  · exact ⟨streak_le, dealer_le⟩
  · have declared := tally.declared
    have riichi := tally.riichi
    rcases moved.riichi with ⟨same, first, chasing⟩ | ⟨more, ⟨first, chasing⟩ | ⟨first, chasing⟩⟩
    · rw [same, first, chasing, riichi]
    · rw [more, first, chasing, toNat_succ (by omega), toNat_succ (by omega)]
      omega
    · rw [more, first, chasing, toNat_succ (by omega), toNat_succ (by omega)]
      omega
  · have declared := tally.declared
    rw [List.length_append, List.length_singleton]
    rcases moved.riichi with ⟨same, -⟩ | ⟨more, -⟩
    · rw [same]
      omega
    · rw [more, toNat_succ (by omega)]
      omega
  · have chased := tally.chased
    rw [List.length_append, List.length_singleton]
    rcases moved.riichiChased with same | more
    · rw [same]
      omega
    · rw [more, toNat_succ (by omega)]
      omega

/-- The streaks of the seats: a deal ends all but the dealer's. -/
theorem Moves.runs {seats : Nat} {declared : List Nat} {s t : Replay} {event : Value}
    (tracks : Tracks seats declared s) (moves : Moves seats s event t) {seat : Nat}
    {stats' : SeatStats} (here : t.players[seat]? = some stats') :
    Runs ((s.streak[seat]?).getD 0) ((t.streak[seat]?).getD 0) stats' := by
  cases moves with
  | @deal dealer kyotaku named oya table =>
      obtain ⟨stats, found, rfl⟩ := Option.map_eq_some_iff.mp (List.getElem?_mapIdx ▸ here)
      have inside : seat < s.streak.length := by
        rw [tracks.streak, ← tracks.players]
        exact (List.getElem?_eq_some_iff.mp found).1
      simp only [List.getElem?_mapIdx, List.getElem?_eq_getElem inside, Option.map_some,
        Option.getD_some]
      by_cases deals_ : seat = dealer
      · refine .inr (.inr ⟨if_pos deals_, ?_⟩)
        rw [SeatStats.dealt, if_pos deals_]
        show _ ≤ (max stats.maxDealerStreak _).toNat
        rw [toNat_max]
        exact Nat.le_max_right _ _
      · exact .inr (.inl (if_neg deals_))
  | accept | win | draw | close | finish | idle => exact .inl rfl

/-- What all the seats have been through. -/
def Tallied (seats : Nat) (before : List Value) (s : Replay) : Prop :=
  ∀ seat stats, s.players[seat]? = some stats →
    SeatTally seats before seat ((s.streak[seat]?).getD 0) stats

theorem opening_tallied (start : Value) (names : List String) :
    Tallied names.length [] (opening start names) := by
  intro seat stats here
  obtain ⟨player, -, rfl⟩ := Option.map_eq_some_iff.mp (List.getElem?_mapIdx ▸ here)
  have rests : ((opening start names).streak[seat]?).getD 0 = 0 := by
    unfold opening
    rw [List.getElem?_replicate]
    split <;> rfl
  rw [rests]
  constructor <;> simp

theorem Tallied.step {seats : Nat} {standing before : List Value} {s t : Replay} {event : Value}
    (tracks : Tracks seats (declaredSeats seats standing) s) (tallied : Tallied seats before s)
    (moves : Moves seats s event t) (room : before.length + 1 < 65536) :
    Tallied seats (before ++ [event]) t := by
  intro seat stats' here
  obtain ⟨stats, found, moved⟩ := moves.seat here
  exact (tallied seat stats found).step moved (moves.runs tracks here) room

/-- **Every counter counts**, as long as the stream is short of its width. -/
theorem run_tallied {heap : Heap} {start : Value} {names : List String} {events : List Value}
    {t : Replay} (ran : events.foldlM (step heap names.length) (opening start names) = .ok t)
    (short : events.length < 65536) :
    Tracks names.length (declaredSeats names.length events) t ∧ Tallied names.length events t := by
  have whole := run_opening (P := fun before s => before.length < 65536 →
      Tallied names.length before s) ?_ (fun _ => opening_tallied start names) ran
  · exact ⟨whole.1, whole.2 short⟩
  · intro before s event t tracks tallied moves room
    rw [List.length_append, List.length_singleton] at room
    exact (tallied (by omega)).step tracks moves room

/-! ## Sums over the seats -/

def total (column : SeatStats → UInt16) (players : List SeatStats) : Nat :=
  (players.map fun stats => (column stats).toNat).sum

theorem sum_indicator (seat n : Nat) :
    ((List.range n).map fun i => if seat = i then 1 else 0).sum = if seat < n then 1 else 0 := by
  induction n with
  | zero => rfl
  | succ n ih =>
      rw [List.range_succ, List.map_append, List.sum_append, ih, List.map_singleton,
        List.sum_singleton]
      split_ifs <;> omega

/-- Counting by seat is counting every event that has one. -/
theorem sum_countP {n : Nat} {who : Value → Option Nat}
    (inside : ∀ event seat, who event = some seat → seat < n) (events : List Value) :
    ((List.range n).map fun seat => events.countP fun event => who event = some seat).sum =
      events.countP fun event => (who event).isSome := by
  induction events with
  | nil => simp
  | cons event rest ih =>
      have here : ((List.range n).map fun seat => if who event = some seat then 1 else 0).sum =
          if (who event).isSome then 1 else 0 := by
        cases named : who event with
        | none => simp
        | some seat =>
            simpa [inside event seat named] using sum_indicator seat n
      simp only [List.countP_cons, List.sum_map_add, ih, decide_eq_true_eq, here]

/-- A counter that counts the events of its seat, summed over the seats. -/
theorem total_eq {column : SeatStats → UInt16} {players : List SeatStats} {n : Nat}
    {who : Value → Option Nat} {events : List Value} (sized : players.length = n)
    (inside : ∀ event seat, who event = some seat → seat < n)
    (counts : ∀ seat stats, players[seat]? = some stats →
      (column stats).toNat = events.countP fun event => who event = some seat) :
    total column players = events.countP fun event => (who event).isSome := by
  rw [← sum_countP inside, total]
  congr 1
  apply List.ext_getElem?
  intro seat
  rw [List.getElem?_map, List.getElem?_map]
  by_cases below : seat < n
  · have there : players[seat]? = some players[seat] := List.getElem?_eq_getElem (sized ▸ below)
    rw [there, List.getElem?_range below, Option.map_some, Option.map_some,
      counts seat _ there]
  · have gone : players[seat]? = none := List.getElem?_eq_none (by omega)
    have past : (List.range n)[seat]? = none := List.getElem?_eq_none (by simpa using below)
    rw [gone, past]
    rfl

/-! ## Who chased whom -/

/-- The pairs of an earlier and a later entry. -/
def orderedPairs {α : Type} : List α → List (α × α)
  | [] => []
  | earlier :: later => later.map (earlier, ·) ++ orderedPairs later

/-- One more entry is later than every other. -/
theorem length_orderedPairs_concat {α : Type} (entries : List α) (entry : α) :
    (orderedPairs (entries ++ [entry])).length = (orderedPairs entries).length + entries.length := by
  induction entries with
  | nil => rfl
  | cons first rest ih =>
      simp only [List.cons_append, orderedPairs, List.length_append, List.length_map, ih,
        List.length_cons, List.length_nil]
      omega

/-- **One event of a hand**: a first declaration chases everyone who declared before
it, and nothing else chases anyone. -/
theorem Moves.chases {seats : Nat} {standing declared : List Nat} {s t : Replay} {event : Value}
    (tracks : Tracks seats standing s) (moves : Moves seats s event t) (noDeal : deals event = false)
    (room : ∀ stats ∈ s.players, stats.riichiChased.toNat + 1 < 65536)
    (known : Declarers seats declared s) :
    total SeatStats.riichiChased t.players + (orderedPairs declared).length =
      total SeatStats.riichiChased s.players +
        (orderedPairs (declaring seats declared event)).length := by
  have quiet : (∀ seat, accepter seats event = some seat → s.hand.declared seat = true) →
      declaring seats declared event = declared := by
    intro already
    unfold declaring
    cases accepts : accepter seats event with
    | none => rfl
    | some seat => exact if_pos ((known.known seat).mp (already seat accepts))
  have other : kind event ≠ some "reach_accepted" → declaring seats declared event = declared := by
    intro named
    apply quiet
    intro seat accepts
    rw [accepter, if_neg named] at accepts
    cases accepts
  -- every other move leaves the chased seats alone
  have kept : ∀ edit : Nat → SeatStats → SeatStats,
      (∀ i stats, (edit i stats).riichiChased = stats.riichiChased) →
      total SeatStats.riichiChased (s.players.mapIdx edit) + (orderedPairs declared).length =
        total SeatStats.riichiChased s.players + (orderedPairs declared).length := by
    intro edit same
    unfold total
    rw [map_mapIdx_iff.mpr fun i stats _ => by rw [same i stats]]
  cases moves with
  | deal named oya table => simp [deals, named] at noDeal
  | @accept seat turn ippatsu named actor first =>
      have fresh : seat ∉ declared := by
        intro member
        rw [(known.known seat).mpr member] at first
        cases first
      have grown : declaring seats declared event = declared ++ [seat] := by
        rw [declaring, accepter, if_pos named, actor]
        exact if_neg fresh
      rw [grown]
      let edit := fun other (stats : SeatStats) =>
        if other = seat then stats.accepted s.hand.declarations turn
        else if s.hand.declared other then stats.chased else stats
      have each : ∀ other stats, s.players[other]? = some stats →
          (edit other stats).riichiChased.toNat =
            stats.riichiChased.toNat + if decide (other ∈ declared) then 1 else 0 := by
        intro other stats here
        have few := room stats (List.mem_of_getElem? here)
        by_cases self : other = seat
        · subst self
          simp [edit, fresh, SeatStats.accepted]
        · by_cases earlier : other ∈ declared
          · simp only [edit, self, if_false, (known.known other).mpr earlier, if_true, earlier,
              decide_true]
            exact toNat_succ few
          · have silent : s.hand.declared other = false := by
              rw [← Bool.not_eq_true, known.known]
              exact earlier
            simp [edit, self, silent, earlier]
      have summed := sum_map_mapIdx s.players edit (fun stats => stats.riichiChased.toNat) each
      rw [tracks.players, countP_mem_range known.distinct known.below] at summed
      unfold total
      show ((s.players.mapIdx edit).map _).sum + _ = _
      rw [summed, length_orderedPairs_concat]
      omega
  | @win actor target turn window ura named wins loses =>
      rw [other (by simp [named])]
      refine kept _ fun i stats => ?_
      split
      · obtain ⟨yakuman, maxHan, same⟩ := SeatStats.rated_scored event
          ((s.hand.settling event).deltas.bind (·[actor]?)) s.hand.sticks
          ((stats.won turn (target = actor) (s.hand.hasCalled actor)).riichiWon
            (s.hand.declared actor) window ura)
        rw [same]
        rfl
      · split <;> rfl
  | draw named =>
      rw [other (by simp [named])]
      exact kept _ fun _ _ => rfl
  | close named started =>
      rw [other (by simp [named])]
      exact kept _ fun _ _ => rfl
  | finish named scores =>
      rw [other (by simp [named])]
      refine kept _ fun i stats => ?_
      unfold SeatStats.settled
      split <;> rfl
  | idle _ _ _ accepts _ _ =>
      rw [quiet]
      intro seat accepted
      unfold accepter at accepted
      split at accepted
      · exact accepts (by assumption) seat accepted
      · cases accepted

/-- The seats chased in a hand are the pairs of its declarations. -/
theorem hand_chases {heap : Heap} {seats : Nat} {base hand : List Value} {s t : Replay}
    (tracks : Tracks seats (declaredSeats seats base) s) (tallied : Tallied seats base s)
    (nobody : Declarers seats [] s) (noDeal : ∀ event ∈ hand, deals event = false)
    (short : (base ++ hand).length < 65536) (ran : hand.foldlM (step heap seats) s = .ok t) :
    total SeatStats.riichiChased t.players =
      total SeatStats.riichiChased s.players + (orderedPairs (declarers seats hand)).length := by
  have whole := run_inner (P := fun inner t => (base ++ inner).length < 65536 →
      Tallied seats (base ++ inner) t ∧ Declarers seats (declarers seats inner) t ∧
        total SeatStats.riichiChased t.players = total SeatStats.riichiChased s.players +
          (orderedPairs (declarers seats inner)).length) ?_ tracks
      (fun _ => ⟨(List.append_nil base).symm ▸ tallied, nobody, rfl⟩) ran
  · exact (whole.2 short).2.2
  · intro inner s' event t' member tracks counted moves room
    rw [← List.append_assoc] at room ⊢
    have room : (base ++ inner).length + 1 < 65536 := by
      rwa [List.length_append, List.length_singleton] at room
    obtain ⟨tallied, known, summed⟩ := counted (by omega)
    have few : ∀ stats ∈ s'.players, stats.riichiChased.toNat + 1 < 65536 := by
      intro stats inside
      obtain ⟨seat, here⟩ := List.mem_iff_getElem?.mp inside
      have bounded := (tallied seat stats here).chased
      omega
    have chased := moves.chases tracks (noDeal event member) few known
    have grown : declarers seats (inner ++ [event]) =
        declaring seats (declarers seats inner) event := by simp [declarers]
    rw [grown]
    refine ⟨tallied.step tracks moves room, known.step (moves.hand tracks) (noDeal event member), ?_⟩
    omega

/-- A deal chases nobody. -/
theorem Moves.dealt {seats : Nat} {s t : Replay} {event : Value} (moves : Moves seats s event t)
    (deal : deals event = true) :
    total SeatStats.riichiChased t.players = total SeatStats.riichiChased s.players := by
  have named : kind event = some "start_kyoku" := by simpa [deals] using deal
  cases moves with
  | deal _ oya table =>
      unfold total
      rw [map_mapIdx_iff.mpr fun i stats _ => ?_]
      unfold SeatStats.dealt
      split <;> rfl
  | accept other | win other | draw other | close other | finish other => simp [named] at other
  | idle other => exact absurd named other

/-! ## A scored game -/

/-- **The counters of a game agree across its seats.** -/
structure Agrees (heap : Heap) (opened : Replay) (seats : Nat) (events : List Value)
    (players : List SeatStats) : Prop where
  wins : total SeatStats.wins players = events.countP fun event => (winner seats event).isSome
  dealIns : total SeatStats.dealIns players + total SeatStats.winsTsumo players =
    total SeatStats.wins players
  riichi : ∀ stats ∈ players,
    stats.riichi.toNat = stats.riichiFirst.toNat + stats.riichiChasing.toNat
  /-- In every hand, whatever came before it and whether or not it is finished. -/
  chased : ∀ before deal hand after, events = before ++ deal :: (hand ++ after) →
    deals deal = true → (∀ event ∈ hand, deals event = false) →
      ∃ s t, before.foldlM (step heap seats) opened = .ok s ∧
        (before ++ deal :: hand).foldlM (step heap seats) opened = .ok t ∧
        total SeatStats.riichiChased t.players = total SeatStats.riichiChased s.players +
          (orderedPairs (declarers seats hand)).length
  together : ∀ one ∈ players, ∀ other ∈ players, one.hands = other.hands ∧ one.draws = other.draws
  bounded : ∀ stats ∈ players, stats.winsTsumo ≤ stats.wins ∧ stats.riichiWins ≤ stats.wins ∧
    stats.calledWins ≤ stats.wins
  dealer : ∀ stats ∈ players, stats.maxDealerStreak ≤ stats.handsAsDealer ∧
    stats.handsAsDealer ≤ stats.hands
  places : (players.map fun stats => stats.placement.toNat).Perm (List.range' 1 players.length)
  byScore : (∀ stats ∈ players, Int32.minValue < stats.finalScore) →
    ∀ (i j : Nat) (one other : SeatStats), players[i]? = some one → players[j]? = some other →
      (one.placement < other.placement ↔
        other.finalScore < one.finalScore ∨ one.finalScore = other.finalScore ∧ i < j)

/-- The tally of a row says nothing about its score and its place. -/
theorem SeatTally.placed {seats seat : Nat} {events : List Value} {held : UInt16} {row : SeatStats}
    (tally : SeatTally seats events seat held row) (finalScore : Int32) (busted : Bool)
    (placement : UInt8) :
    SeatTally seats events seat held { row with finalScore, busted, placement } :=
  ⟨tally.hands, tally.draws, tally.wins, tally.winsTsumo, tally.dealIns, tally.riichiWins,
    tally.calledWins, tally.streak, tally.dealer, tally.riichi, tally.declared, tally.chased⟩

/-- A counter is not touched by the scores and the places. -/
theorem placed_total {s : Replay} {players : List SeatStats} {column : SeatStats → UInt16}
    (placed : assignPlacements (closeScores s) = .ok players)
    (same : ∀ (row : SeatStats) finalScore busted placement,
      column { row with finalScore, busted, placement } = column row) :
    total column players = total column s.players := by
  unfold total
  congr 1
  apply List.ext_getElem (by simp [placed_length placed])
  intro seat here there
  have inside : seat < players.length := by simpa using here
  obtain ⟨row, found, shape⟩ := placed_row placed (List.getElem?_eq_getElem inside)
  have inside' : seat < s.players.length := by simpa using there
  rw [List.getElem?_eq_getElem inside', Option.some.injEq] at found
  rw [List.getElem_map, List.getElem_map, shape, same, found]

theorem selfDrawn_lt {seats seat : Nat} {event : Value} (draws : selfDrawn seats event = some seat) :
    seat < seats :=
  winner_lt (Option.filter_eq_some_iff.mp draws).1

theorem countP_split {α : Type} {p q r : α → Bool} (splits : ∀ a, p a = (q a || r a))
    (apart : ∀ a, (q a && r a) = false) (items : List α) :
    items.countP r + items.countP q = items.countP p := by
  induction items with
  | nil => rfl
  | cons item rest ih =>
      have here := splits item
      have alone := apart item
      simp only [List.countP_cons, here]
      cases left : q item <;> cases right : r item
      · simpa using ih
      · simp only [Bool.or_true, if_true, Bool.false_eq_true, if_false]
        omega
      · simp only [Bool.or_false, if_true, Bool.false_eq_true, if_false]
        omega
      · simp [left, right] at alone

/-- **The counters agree**, for every stream of fewer than 65536 events that is scored,
with up to 255 names. -/
theorem replay_counters (heap : Heap) {events : List Value} {start : Value} {names : List String}
    {stats : GameStats} (scored : replay heap events = .ok (some stats))
    (opens : events.find? (fun event => kind event == some "start_game") = some start)
    (named : seatNames events = some names) (short : events.length < 65536)
    (few : names.length ≤ 255) :
    Agrees heap (opening start names) names.length events stats.players := by
  obtain ⟨start', names', t, opens', named', -, ran, -, placed⟩ := replay_eq_some scored
  rw [opens, Option.some.injEq] at opens'
  rw [named, Option.some.injEq] at named'
  subst opens' named'
  obtain ⟨tracks, tallied⟩ := run_tallied ran short
  have sized : stats.players.length = names.length := (placed_length placed).trans tracks.players
  have tallies : ∀ seat row, stats.players[seat]? = some row →
      ∃ held, SeatTally names.length events seat held row := by
    intro seat row here
    obtain ⟨before, found, rfl⟩ := placed_row placed here
    exact ⟨_, (tallied seat before found).placed _ _ _⟩
  have each : ∀ row ∈ stats.players, ∃ seat held, SeatTally names.length events seat held row := by
    intro row member
    obtain ⟨seat, here⟩ := List.mem_iff_getElem?.mp member
    obtain ⟨held, tally⟩ := tallies seat row here
    exact ⟨seat, held, tally⟩
  have wins := total_eq sized (fun _ _ => winner_lt) fun seat row here =>
    (tallies seat row here).choose_spec.wins
  have tsumo := total_eq sized (fun _ _ => selfDrawn_lt) fun seat row here =>
    (tallies seat row here).choose_spec.winsTsumo
  have dealIns := total_eq sized (fun _ _ => loser_lt) fun seat row here =>
    (tallies seat row here).choose_spec.dealIns
  constructor
  · exact wins
  · rw [wins, tsumo, dealIns]
    exact countP_split (fun event => (selfDrawn_or_loser names.length event).1)
      (fun event => (selfDrawn_or_loser names.length event).2) events
  · intro row member
    obtain ⟨seat, held, tally⟩ := each row member
    exact tally.riichi
  · intro before deal hand after shape deals_ noDeal
    subst shape
    rw [List.foldlM_append] at ran
    obtain ⟨s, reached, ran⟩ := Outcome.bind_eq_ok.mp ran
    rw [List.foldlM_cons] at ran
    obtain ⟨fresh, dealt, ran⟩ := Outcome.bind_eq_ok.mp ran
    rw [List.foldlM_append] at ran
    obtain ⟨ended, played, -⟩ := Outcome.bind_eq_ok.mp ran
    have started : (before ++ [deal]).foldlM (step heap names.length) (opening start names) =
        .ok fresh := by
      rw [List.foldlM_append, reached, Outcome.ok_bind, List.foldlM_cons, dealt]
      rfl
    simp only [List.length_append, List.length_cons] at short
    obtain ⟨beforeTracks, -⟩ := run_tallied reached (by omega)
    obtain ⟨freshTracks, freshTallied⟩ := run_tallied started (by simp; omega)
    have moves := step_moves beforeTracks dealt
    refine ⟨s, ended, reached, ?_, ?_⟩
    · rw [List.foldlM_append, reached, Outcome.ok_bind, List.foldlM_cons, dealt, Outcome.ok_bind,
        played]
    · rw [← moves.dealt deals_]
      exact hand_chases freshTracks freshTallied ((moves.hand beforeTracks).opens deals_) noDeal
        (by simp; omega) played
  · intro one first other second
    obtain ⟨seat, held, tally⟩ := each one first
    obtain ⟨seat', held', tally'⟩ := each other second
    exact ⟨UInt16.toNat_inj.mp (tally.hands.trans tally'.hands.symm),
      UInt16.toNat_inj.mp (tally.draws.trans tally'.draws.symm)⟩
  · intro row member
    obtain ⟨seat, held, tally⟩ := each row member
    refine ⟨?_, UInt16.le_iff_toNat_le.mpr tally.riichiWins,
      UInt16.le_iff_toNat_le.mpr tally.calledWins⟩
    rw [UInt16.le_iff_toNat_le, tally.winsTsumo, tally.wins]
    apply List.countP_mono_left
    intro event _ draws
    simpa using (Option.filter_eq_some_iff.mp (of_decide_eq_true draws)).1
  · intro row member
    obtain ⟨seat, held, tally⟩ := each row member
    exact ⟨UInt16.le_iff_toNat_le.mpr tally.dealer.1, UInt16.le_iff_toNat_le.mpr tally.dealer.2⟩
  · exact placements_perm placed (tracks.players.symm ▸ few)
  · intro above i j one other here there
    exact placement_lt_iff placed (tracks.players.symm ▸ few) here there
      (above one (List.mem_of_getElem? here)) (above other (List.mem_of_getElem? there))

/-! ## A game of one hand -/

def chaseStart : Value := mjaiEvent "start_game" [("names", .array [.string "east", .string "south"])]

/-- Both seats declare, and the first one wins on the other's discard. -/
def chaseGame : List Value :=
  [ chaseStart
  , mjaiEvent "start_kyoku" [("oya", .nat 0)]
  , mjaiEvent "reach_accepted" [("actor", .nat 0)]
  , mjaiEvent "reach_accepted" [("actor", .nat 1)]
  , mjaiEvent "hora" [("actor", .nat 0), ("target", .nat 1)]
  , mjaiEvent "end_kyoku" []
  , mjaiEvent "end_game" [] ]

/-- **The counters of that game agree**; one seat of it was chased. -/
theorem replay_counters_on_a_chase :
    ∃ stats, replay smallHeap chaseGame = .ok (some stats) ∧
      Agrees smallHeap (opening chaseStart ["east", "south"]) 2 chaseGame stats.players ∧
      total SeatStats.riichiChased stats.players = 1 := by
  have ran : (chaseGame.foldlM (step smallHeap 2) (opening chaseStart ["east", "south"])).Yields
      fun t => t.started = true ∧ total SeatStats.riichiChased t.players = 1 := by decide +kernel
  obtain ⟨t, ran, started, chased⟩ := ran
  have opens : chaseGame.find? (fun event => kind event == some "start_game") = some chaseStart := rfl
  have named : seatNames chaseGame = some ["east", "south"] := rfl
  obtain ⟨stats, scored, placed⟩ := replay_of_started opens named (by decide) ran started
  exact ⟨stats, scored, replay_counters smallHeap scored opens named (by decide) (by decide),
    chased ▸ placed_total placed fun _ _ _ _ => rfl⟩

end MajsoulManager.Record
