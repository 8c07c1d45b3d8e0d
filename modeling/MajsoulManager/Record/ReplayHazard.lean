/-
# Record.ReplayHazard — exactly which event streams the replay panics on

Every vector of the replay keeps one entry a seat, so none of its indices ever
leaves its range (`Tracks`).  Two things remain.

* `UraHazard`: a riichi winner's ura indicator that is neither an honour nor
  starts with a one byte character is split inside a character.
* a settlement entry whose seat the allocator cannot reach.

`replay_panics` says that a stream makes the replay panic exactly when one of
the two is met (`StreamHazard`), stated on the events alone: which seats have
declared is read off the events before (`declaredSeats`).
-/
import MajsoulManager.Record.Replay

namespace MajsoulManager.Record

open MajsoulManager.Theory

set_option autoImplicit false

/-! ## The hazards, on the events alone -/

/-- An indicator that `doraFrom` cannot split after its first byte. -/
def unsplittable (marker : String) : Bool :=
  !winds.contains marker && !dragons.contains marker &&
    match (normalise marker).toList with
    | [] => true
    | c :: _ => c.utf8Size != 1

/-- The indicator makes a dora that is among the tiles, which ends the search. -/
def makesHit (tiles : List String) (marker : String) : Prop :=
  ∃ dora, doraFrom marker = .ok dora ∧ hits tiles dora = true

/-- An ura indicator that cannot be split, reached before any that hits. -/
def UraHazard (hora : Value) : Prop :=
  ∃ before marker after, uradoraMarkers hora = before ++ marker :: after ∧
    unsplittable marker = true ∧ ∀ earlier ∈ before, ¬ makesHit (horaTiles hora) earlier

/-- The seats that have declared riichi, after one more event. -/
def declaredAfter (seats : Nat) (declared : List Nat) (event : Value) : List Nat :=
  match kind event with
  | some "start_kyoku" => []
  | some "reach_accepted" =>
      match seatOf event "actor" seats with
      | some seat => seat :: declared
      | none => declared
  | _ => declared

def declaredSeats (seats : Nat) (events : List Value) : List Nat :=
  events.foldl (declaredAfter seats) []

def EventHazard (heap : Heap) (seats : Nat) (declared : List Nat) (event : Value) : Prop :=
  (kind event = some "hora" ∧
    ∃ actor, seatOf event "actor" seats = some actor ∧ actor ∈ declared ∧ UraHazard event) ∨
  (kind event = some "end_game" ∧
    ∃ player ∈ array (event.get "majsoul_result"), heap.pairs ≤ resultSeat player)

/-- Some event of a scored stream is a hazard after the events before it. -/
def StreamHazard (heap : Heap) (events : List Value) : Prop :=
  ∃ names, seatNames events = some names ∧ 2 ≤ names.length ∧
    ∃ before event after, events = before ++ event :: after ∧
      EventHazard heap names.length (declaredSeats names.length before) event

/-! ## The two partial readings -/

theorem splitFirstByte_panics {text : String} :
    (Text.splitFirstByte text : Outcome Empty (Char × String)).Panics ↔
      ∀ c rest, text.toList = c :: rest → c.utf8Size ≠ 1 := by
  unfold Text.splitFirstByte
  cases shape : text.toList with
  | nil => simp
  | cons c rest =>
      by_cases one : c.utf8Size = 1
      · simp [one]
      · simp [one]

theorem doraFrom_panics {marker : String} :
    (doraFrom marker).Panics ↔ unsplittable marker = true := by
  unfold doraFrom unsplittable
  by_cases wind : marker ∈ winds
  · simp [wind]
  by_cases dragon : marker ∈ dragons
  · simp [wind, dragon]
  simp only [wind, dragon, if_false, Outcome.bind_panics, splitFirstByte_panics]
  cases shape : (normalise marker).toList with
  | nil => simp [wind, dragon]
  | cons c rest =>
      simp only [wind, dragon, Bool.not_eq_true', bne_iff_ne,
        Bool.and_eq_true, decide_eq_false_iff_not, not_false_eq_true, true_and,
        List.cons.injEq, and_imp, List.contains_eq_mem]
      constructor
      · rintro (bad | ⟨piece, -, later⟩)
        · exact bad c rest rfl rfl
        · split at later <;> simp at later
      · rintro wide
        exact Or.inl fun first others same _ => same ▸ wide

theorem uraHitFrom_panics {tiles markers : List String} :
    (uraHitFrom tiles markers).Panics ↔
      ∃ before marker after, markers = before ++ marker :: after ∧ unsplittable marker = true ∧
        ∀ earlier ∈ before, ¬ makesHit tiles earlier := by
  induction markers with
  | nil => simp [uraHitFrom]
  | cons first rest ih =>
      simp only [uraHitFrom, Outcome.bind_panics, doraFrom_panics]
      constructor
      · rintro (bad | ⟨dora, made, later⟩)
        · exact ⟨[], first, rest, rfl, bad, by simp⟩
        · by_cases hit : hits tiles dora = true
          · simp [hit] at later
          · rw [if_neg hit] at later
            obtain ⟨before, marker, after, rfl, bad, clean⟩ := ih.mp later
            refine ⟨first :: before, marker, after, rfl, bad, ?_⟩
            intro earlier member
            rcases List.mem_cons.mp member with rfl | member
            · rintro ⟨other, also, hit'⟩
              rw [made] at also
              cases also
              exact hit hit'
            · exact clean earlier member
      · rintro ⟨before, marker, after, same, bad, clean⟩
        cases before with
        | nil =>
            simp only [List.nil_append, List.cons.injEq] at same
            exact Or.inl (same.1 ▸ bad)
        | cons c before =>
            simp only [List.cons_append, List.cons.injEq] at same
            obtain ⟨rfl, rfl⟩ := same
            cases made : doraFrom first with
            | panic => exact Or.inl (doraFrom_panics.mp made)
            | err e => cases e
            | ok dora =>
                refine Or.inr ⟨dora, rfl, ?_⟩
                have miss : hits tiles dora ≠ true :=
                  fun hit => clean first (by simp) ⟨dora, made, hit⟩
                rw [if_neg miss]
                exact ih.mpr ⟨before, marker, after, rfl, bad,
                  fun earlier member => clean earlier (by simp [member])⟩

theorem uraHit_panics {hora : Value} : (uraHit hora).Panics ↔ UraHazard hora := uraHitFrom_panics

theorem resultSeat_lt (player : Value) : resultSeat player < 2 ^ 64 := by
  unfold resultSeat
  exact UInt64.toNat_lt _

/-- An entry within the allocator's reach is written; the vector stays within it. -/
theorem settleEntry_returns {heap : Heap} {out : List (Int32 × Int32)} {player : Value}
    (small : out.length ≤ heap.pairs) (near : resultSeat player < heap.pairs) :
    ∃ next, settleEntry heap out player = .ok next ∧ next.length ≤ heap.pairs := by
  have bound := heap.pairs_lt
  unfold settleEntry
  by_cases grows : out.length ≤ resultSeat player
  · have noWrap : (resultSeat player + 1) % 2 ^ 64 = resultSeat player + 1 :=
      Nat.mod_eq_of_lt (by omega)
    have taller : ¬ resultSeat player + 1 ≤ out.length := by omega
    have granted : ¬ heap.pairs < resultSeat player + 1 := by omega
    have reached : resultSeat player <
        (out ++ List.replicate (resultSeat player + 1 - out.length) ((0, 0) : Int32 × Int32)).length := by
      simp
      omega
    simp only [grows, if_true, noWrap, resize, taller, granted, if_false, Outcome.ok_bind,
      Outcome.update_of_lt _ reached]
    refine ⟨_, rfl, ?_⟩
    simp
    omega
  · have reached : resultSeat player < out.length := by omega
    simp only [grows, if_false, Outcome.ok_bind, Outcome.update_of_lt _ reached]
    exact ⟨_, rfl, by simpa using small⟩

/-- An entry past the allocator's reach panics, the wrapped `usize::MAX` included. -/
theorem settleEntry_panics {heap : Heap} {out : List (Int32 × Int32)} {player : Value}
    (small : out.length ≤ heap.pairs) (far : heap.pairs ≤ resultSeat player) :
    (settleEntry heap out player).Panics := by
  have wide := resultSeat_lt player
  have grows : out.length ≤ resultSeat player := by omega
  unfold settleEntry
  by_cases last : resultSeat player = 2 ^ 64 - 1
  · -- the sum wraps to zero, the vector is emptied and the write falls outside it
    have wrapped : (resultSeat player + 1) % 2 ^ 64 = 0 := by simp [last]
    rw [if_pos grows, wrapped]
    simp [resize, Outcome.update]
  · have noWrap : (resultSeat player + 1) % 2 ^ 64 = resultSeat player + 1 :=
      Nat.mod_eq_of_lt (by omega)
    have taller : ¬ resultSeat player + 1 ≤ out.length := by omega
    have refused : heap.pairs < resultSeat player + 1 := by omega
    simp only [grows, if_true, noWrap, resize, taller, refused, if_false, Outcome.panic_bind]
    rfl

theorem settleEntries_panics {heap : Heap} {players : List Value} {out : List (Int32 × Int32)}
    (small : out.length ≤ heap.pairs) :
    (players.foldlM (settleEntry heap) out).Panics ↔
      ∃ player ∈ players, heap.pairs ≤ resultSeat player := by
  induction players generalizing out with
  | nil => simp
  | cons player rest ih =>
      rw [List.foldlM_cons]
      by_cases near : resultSeat player < heap.pairs
      · obtain ⟨next, written, small⟩ := settleEntry_returns small near
        rw [written, Outcome.ok_bind, ih small]
        simp [Nat.not_le.mpr near]
      · have far : heap.pairs ≤ resultSeat player := Nat.not_lt.mp near
        have here := settleEntry_panics small far
        simp only [Outcome.Panics] at here
        simp [here, far]

theorem settlement_panics {heap : Heap} {endGame : Value} :
    (settlement heap endGame).Panics ↔
      ∃ player ∈ array (endGame.get "majsoul_result"), heap.pairs ≤ resultSeat player :=
  settleEntries_panics (by simp)

/-! ## Every vector keeps one entry a seat -/

/-- What the loop keeps: one entry a seat everywhere, and a riichi turn exactly at
the seats that have declared. -/
structure Tracks (seats : Nat) (declared : List Nat) (s : Replay) : Prop where
  players : s.players.length = seats
  streak : s.streak.length = seats
  turns : s.hand.turns.length = seats
  riichiTurn : s.hand.riichiTurn.length = seats
  ippatsu : s.hand.ippatsu.length = seats
  called : s.hand.called.length = seats
  declares : ∀ seat, (∃ turn, s.hand.riichiTurn[seat]? = some (some turn)) ↔ seat ∈ declared

theorem seatOf_lt {event : Value} {field : String} {seats seat : Nat}
    (named : seatOf event field seats = some seat) : seat < seats := by
  unfold seatOf at named
  obtain ⟨number, -, bounded⟩ := Option.bind_eq_some_iff.mp named
  split at bounded
  · cases bounded
    assumption
  · cases bounded

/-- A declared seat's riichi turn, read at a seat of the game. -/
theorem Tracks.index_riichiTurn {seats : Nat} {declared : List Nat} {s : Replay}
    (tracks : Tracks seats declared s) {seat : Nat} (inside : seat < seats) :
    (Outcome.index s.hand.riichiTurn seat : Outcome Empty _).Yields fun turn =>
      turn.isSome = true ↔ seat ∈ declared := by
  have bound : seat < s.hand.riichiTurn.length := tracks.riichiTurn ▸ inside
  refine ⟨s.hand.riichiTurn[seat], Outcome.index_of_lt bound, ?_⟩
  rw [← tracks.declares seat, List.getElem?_eq_getElem bound]
  simp [Option.isSome_iff_exists]

theorem Tracks.opened (start : Value) (names : List String) :
    Tracks names.length []
      { players := openSeats start names, hand := Hand.new names.length, started := false
        streak := List.replicate names.length 0, lastScores := none } where
  players := by simp [openSeats]
  streak := by simp
  turns := by simp [Hand.new]
  riichiTurn := by simp [Hand.new]
  ippatsu := by simp [Hand.new]
  called := by simp [Hand.new]
  declares := by simp [Hand.new, List.getElem?_replicate]

section Steps

variable {seats : Nat} {declared : List Nat} {s : Replay} {event : Value}

theorem dealSeat_yields {dealer seat : Nat} {acc : List SeatStats × List UInt16}
    (inside : seat < seats) (sized : acc.1.length = seats ∧ acc.2.length = seats) :
    (dealSeat dealer acc seat).Yields fun out =>
      out.1.length = seats ∧ out.2.length = seats := by
  unfold dealSeat
  refine (Outcome.index_yields (sized.1 ▸ inside)).bind fun stats _ => ?_
  split
  · refine (Outcome.update_yields _ inside sized.2).bind fun streak streakSized => ?_
    refine (Outcome.index_yields (streakSized ▸ inside)).bind fun held _ => ?_
    refine (Outcome.update_yields _ inside sized.1).bind fun players playersSized => ?_
    exact Outcome.yields_ok ⟨playersSized, streakSized⟩
  · refine (Outcome.update_yields _ inside sized.2).bind fun streak streakSized => ?_
    refine (Outcome.update_yields _ inside sized.1).bind fun players playersSized => ?_
    exact Outcome.yields_ok ⟨playersSized, streakSized⟩

theorem stepStartKyoku_tracks (tracks : Tracks seats declared s) :
    (stepStartKyoku seats s event).Yields (Tracks seats []) := by
  unfold stepStartKyoku
  simp only [tracks.players]
  refine (Outcome.foldlM_yields
    (fun acc seat member sized => dealSeat_yields (List.mem_range.mp member) sized)
    ⟨tracks.players, tracks.streak⟩).bind fun acc sized => ?_
  exact Outcome.yields_ok {
    players := sized.1
    streak := sized.2
    turns := by simp [Hand.new]
    riichiTurn := by simp [Hand.new]
    ippatsu := by simp [Hand.new]
    called := by simp [Hand.new]
    declares := by simp [Hand.new, List.getElem?_replicate] }

theorem stepTsumo_tracks (tracks : Tracks seats declared s) :
    (stepTsumo seats s event).Yields (Tracks seats declared) := by
  unfold stepTsumo
  cases named : seatOf event "actor" seats with
  | none => exact Outcome.yields_ok tracks
  | some seat =>
      refine (Outcome.update_yields _ (seatOf_lt named) tracks.turns).bind fun turns sized => ?_
      exact Outcome.yields_ok { tracks with turns := sized }

theorem stepDahai_tracks (tracks : Tracks seats declared s) :
    (stepDahai seats s event).Yields (Tracks seats declared) := by
  unfold stepDahai
  cases named : seatOf event "actor" seats with
  | none => exact Outcome.yields_ok tracks
  | some seat =>
      have inside := seatOf_lt named
      refine (tracks.index_riichiTurn inside).bind fun turn _ => ?_
      split
      · refine (Outcome.update_yields _ inside tracks.ippatsu).bind fun ippatsu sized => ?_
        exact Outcome.yields_ok { tracks with ippatsu := sized }
      · exact Outcome.yields_ok tracks

theorem chaseSeat_yields {riichiTurn : List (Option UInt16)} {seat other : Nat}
    {players : List SeatStats} (inside : other < seats) (turnsSized : riichiTurn.length = seats)
    (sized : players.length = seats) :
    (chaseSeat riichiTurn seat players other).Yields fun out => out.length = seats := by
  unfold chaseSeat
  refine (Outcome.index_yields (turnsSized ▸ inside)).bind fun declared _ => ?_
  exact Outcome.updateIf_yields _ inside sized

/-- Writing a turn at one seat declares that seat and no other. -/
theorem declares_modify {riichiTurn : List (Option UInt16)} {seat : Nat} {turn : UInt16}
    (declares : ∀ other, (∃ t, riichiTurn[other]? = some (some t)) ↔ other ∈ declared)
    (inside : seat < riichiTurn.length) (other : Nat) :
    (∃ t, (riichiTurn.modify seat fun _ => some turn)[other]? = some (some t)) ↔
      other ∈ seat :: declared := by
  rw [List.mem_cons, ← declares other, List.getElem?_modify]
  by_cases same : seat = other
  · subst same
    simp [List.getElem?_eq_getElem inside]
  · simp [same, Ne.symm same]

theorem stepReachAccepted_tracks (tracks : Tracks seats declared s) :
    (stepReachAccepted seats s event).Yields
      (Tracks seats (match seatOf event "actor" seats with
        | some seat => seat :: declared
        | none => declared)) := by
  unfold stepReachAccepted
  cases named : seatOf event "actor" seats with
  | none => exact Outcome.yields_ok tracks
  | some seat =>
      have inside := seatOf_lt named
      refine (tracks.index_riichiTurn inside).bind fun turn standing => ?_
      by_cases already : turn.isSome = true
      · -- a second declaration in the same hand changes nothing
        rw [if_pos already]
        refine Outcome.yields_ok { tracks with declares := fun other => ?_ }
        rw [tracks.declares other, List.mem_cons]
        constructor
        · exact Or.inr
        · rintro (rfl | member)
          · exact standing.mp already
          · exact member
      · rw [if_neg already]
        have riichiInside : seat < s.hand.riichiTurn.length := tracks.riichiTurn ▸ inside
        refine (Outcome.index_yields (tracks.turns ▸ inside)).bind fun turn _ => ?_
        rw [Outcome.update_of_lt _ riichiInside, Outcome.ok_bind]
        refine (Outcome.update_yields _ inside tracks.ippatsu).bind fun ippatsu ippatsuSized => ?_
        refine (Outcome.update_yields _ inside tracks.players).bind fun players sized => ?_
        have turnsSized : (s.hand.riichiTurn.modify seat fun _ => some turn).length = seats := by
          simpa using tracks.riichiTurn
        have kept : ∀ players : List SeatStats, players.length = seats →
            (Outcome.ok { s with
              players
              hand := { s.hand with
                riichiTurn := s.hand.riichiTurn.modify seat fun _ => some turn
                ippatsu } } : Outcome Empty Replay).Yields (Tracks seats (seat :: declared)) :=
          fun players sized => Outcome.yields_ok { tracks with
            players := sized
            riichiTurn := turnsSized
            ippatsu := ippatsuSized
            declares := declares_modify tracks.declares riichiInside }
        split
        · exact kept players sized
        · refine (Outcome.foldlM_yields (P := fun players => players.length = seats)
            (fun players other member sized => chaseSeat_yields
              (turnsSized ▸ List.mem_range.mp member) turnsSized sized) sized).bind kept

theorem stepCall_tracks (tracks : Tracks seats declared s) :
    (stepCall seats s event).Yields (Tracks seats declared) := by
  have ippatsuSized : (s.hand.ippatsu.map fun _ => false).length = seats := by
    simpa using tracks.ippatsu
  unfold stepCall
  cases named : seatOf event "actor" seats with
  | none => exact Outcome.yields_ok { tracks with ippatsu := ippatsuSized }
  | some seat =>
      refine (Outcome.update_yields _ (seatOf_lt named) tracks.called).bind fun called sized => ?_
      exact Outcome.yields_ok { tracks with ippatsu := ippatsuSized, called := sized }

/-! ### The parts of a win -/

variable {hand : Hand} {actor target : Nat} {players : List SeatStats}

theorem countWinPoints_yields (inside : actor < seats) (sized : players.length = seats) :
    (countWinPoints hand actor players).Yields fun out => out.length = seats := by
  unfold countWinPoints
  split
  · exact Outcome.yields_ok sized
  · exact Outcome.update_yields _ inside sized

theorem countHan_yields (inside : actor < seats) (sized : players.length = seats) :
    (countHan event actor players).Yields fun out => out.length = seats := by
  unfold countHan
  split
  · exact Outcome.yields_ok sized
  · split <;> exact Outcome.update_yields _ inside sized

theorem countLoss_yields (inside : target < seats) (sized : players.length = seats) :
    (countLoss hand target players).Yields fun out => out.length = seats := by
  unfold countLoss
  split
  · exact Outcome.yields_ok sized
  · exact Outcome.update_yields _ inside sized

theorem countDealIn_yields (inside : target < seats) (turnsSized : hand.riichiTurn.length = seats)
    (sized : players.length = seats) :
    (countDealIn hand actor target players).Yields fun out => out.length = seats := by
  unfold countDealIn
  split
  · exact Outcome.yields_ok sized
  · refine (Outcome.update_yields _ inside sized).bind fun players sized => ?_
    refine (Outcome.index_yields (turnsSized ▸ inside)).bind fun declared _ => ?_
    refine (Outcome.updateIf_yields _ inside sized).bind fun players sized => ?_
    exact countLoss_yields inside sized

/-- An ura hazard has markers to search. -/
theorem UraHazard.markers (hazard : UraHazard event) :
    (array (event.get "uradora_markers")).isEmpty = false := by
  obtain ⟨before, marker, after, shape, -, -⟩ := hazard
  cases empty : array (event.get "uradora_markers") with
  | nil => simp [uradoraMarkers, empty] at shape
  | cons first rest => rfl

theorem countUra_yields (inside : actor < seats) (sized : players.length = seats)
    (safe : ¬ UraHazard event) :
    (countUra event actor players).Yields fun out => out.length = seats := by
  unfold countUra
  split
  · exact Outcome.yields_ok sized
  · have searched : (uraHit event).Yields fun _ => True := by
      cases found : uraHit event with
      | ok hit => exact Outcome.yields_ok trivial
      | err impossible => cases impossible
      | panic => exact absurd (uraHit_panics.mp found) safe
    exact searched.bind fun hit _ => Outcome.updateIf_yields _ inside sized

theorem countUra_panics (hazard : UraHazard event) : (countUra event actor players).Panics := by
  unfold countUra
  simp only [hazard.markers, Bool.false_eq_true, if_false, Outcome.bind_panics]
  exact Or.inl (uraHit_panics.mpr hazard)

theorem countRiichiWin_yields (inside : actor < seats) (tracks : Tracks seats declared s)
    (hand_eq : hand.riichiTurn = s.hand.riichiTurn ∧ hand.ippatsu = s.hand.ippatsu)
    (sized : players.length = seats) (safe : actor ∈ declared → ¬ UraHazard event) :
    (countRiichiWin hand event actor players).Yields fun out => out.length = seats := by
  unfold countRiichiWin
  rw [hand_eq.1, hand_eq.2]
  refine (tracks.index_riichiTurn inside).bind fun turn standing => ?_
  split
  · refine (Outcome.update_yields _ inside sized).bind fun players sized => ?_
    refine (Outcome.index_yields (tracks.ippatsu ▸ inside)).bind fun window _ => ?_
    refine (Outcome.updateIf_yields _ inside sized).bind fun players sized => ?_
    exact countUra_yields inside sized (safe (standing.mp (by assumption)))
  · exact Outcome.yields_ok sized

theorem countRiichiWin_panics (inside : actor < seats) (tracks : Tracks seats declared s)
    (hand_eq : hand.riichiTurn = s.hand.riichiTurn ∧ hand.ippatsu = s.hand.ippatsu)
    (sized : players.length = seats) (member : actor ∈ declared) (hazard : UraHazard event) :
    (countRiichiWin hand event actor players).Panics := by
  unfold countRiichiWin
  rw [hand_eq.1, hand_eq.2]
  refine (tracks.index_riichiTurn inside).bind_panics fun turn standing => ?_
  rw [if_pos (standing.mpr member)]
  refine (Outcome.update_yields _ inside sized).bind_panics fun players sized => ?_
  refine (Outcome.index_yields (tracks.ippatsu ▸ inside)).bind_panics fun window _ => ?_
  refine (Outcome.updateIf_yields _ inside sized).bind_panics fun players _ => ?_
  exact countUra_panics hazard

/-- A win is counted unless its winner had declared and its ura indicators cannot
be split. -/
theorem stepHora_tracks (tracks : Tracks seats declared s)
    (safe : ∀ actor, seatOf event "actor" seats = some actor → actor ∈ declared →
      ¬ UraHazard event) :
    (stepHora seats s event).Yields (Tracks seats declared) := by
  unfold stepHora
  cases named : seatOf event "actor" seats with
  | none => exact Outcome.yields_ok tracks
  | some actor =>
      have inside := seatOf_lt named
      have targetInside : (seatOf event "target" seats).getD actor < seats := by
        cases aimed : seatOf event "target" seats with
        | none => exact inside
        | some target => exact seatOf_lt aimed
      refine (Outcome.index_yields (tracks.turns ▸ inside)).bind fun turn _ => ?_
      refine (Outcome.index_yields (tracks.called ▸ inside)).bind fun called _ => ?_
      refine (Outcome.update_yields _ inside tracks.players).bind fun players sized => ?_
      refine (countRiichiWin_yields inside tracks ⟨rfl, rfl⟩ sized (safe actor named)).bind
        fun players sized => ?_
      refine (countWinPoints_yields inside sized).bind fun players sized => ?_
      have turnsSized : ({ s.hand with deltas := (intArray (event.get "deltas")).or s.hand.deltas } :
          Hand).riichiTurn.length = seats := tracks.riichiTurn
      refine (countDealIn_yields targetInside turnsSized sized).bind fun players sized => ?_
      refine (countHan_yields inside sized).bind fun players sized => ?_
      exact Outcome.yields_ok { tracks with players := sized }

theorem stepHora_panics (tracks : Tracks seats declared s) {actor : Nat}
    (named : seatOf event "actor" seats = some actor) (member : actor ∈ declared)
    (hazard : UraHazard event) : (stepHora seats s event).Panics := by
  have inside := seatOf_lt named
  unfold stepHora
  rw [named]
  refine (Outcome.index_yields (tracks.turns ▸ inside)).bind_panics fun turn _ => ?_
  refine (Outcome.index_yields (tracks.called ▸ inside)).bind_panics fun called _ => ?_
  refine (Outcome.update_yields _ inside tracks.players).bind_panics fun players sized => ?_
  exact Outcome.bind_panics.mpr
    (Or.inl (countRiichiWin_panics inside tracks ⟨rfl, rfl⟩ sized member hazard))

theorem stepRyukyoku_tracks (tracks : Tracks seats declared s) :
    (stepRyukyoku s event).Yields (Tracks seats declared) :=
  Outcome.yields_ok { tracks with players := by simpa using tracks.players }

theorem closeSeat_yields {seat : Nat} (tracks : Tracks seats declared s) (inside : seat < seats)
    (sized : players.length = seats) :
    (closeSeat s.hand players seat).Yields fun out => out.length = seats := by
  unfold closeSeat
  refine (Outcome.index_yields (tracks.riichiTurn ▸ inside)).bind fun turn _ => ?_
  refine (Outcome.index_yields (tracks.called ▸ inside)).bind fun called _ => ?_
  exact Outcome.update_yields _ inside sized

theorem stepEndKyoku_tracks (tracks : Tracks seats declared s) :
    (stepEndKyoku s).Yields (Tracks seats declared) := by
  unfold stepEndKyoku
  split
  · refine (Outcome.foldlM_yields (P := fun players => players.length = seats)
      (fun players seat member sized => closeSeat_yields tracks
        (tracks.players ▸ List.mem_range.mp member) sized) tracks.players).bind
      fun players sized => ?_
    exact Outcome.yields_ok { tracks with players := sized }
  · exact Outcome.yields_ok tracks

theorem stepEndGame_tracks {heap : Heap} (tracks : Tracks seats declared s)
    (safe : ¬ (settlement heap event).Panics) :
    (stepEndGame heap seats s event).Yields (Tracks seats declared) := by
  unfold stepEndGame
  cases settled : settlement heap event with
  | ok results =>
      exact Outcome.yields_ok { tracks with players := by simpa using tracks.players }
  | err impossible => cases impossible
  | panic => exact absurd settled safe

theorem declaredAfter_of_ne (deal : kind event ≠ some "start_kyoku")
    (reach : kind event ≠ some "reach_accepted") :
    declaredAfter seats declared event = declared := by
  unfold declaredAfter
  split
  · exact absurd (by assumption) deal
  · exact absurd (by assumption) reach
  · rfl

/-- **One event.**  Away from the hazards an event is counted, and every vector
keeps one entry a seat. -/
theorem step_tracks {heap : Heap} (tracks : Tracks seats declared s)
    (safe : ¬ EventHazard heap seats declared event) :
    (step heap seats s event).Yields (Tracks seats (declaredAfter seats declared event)) := by
  simp only [EventHazard, not_or, not_and, not_exists] at safe
  by_cases deal : kind event = some "start_kyoku"
  · simpa only [step, declaredAfter, deal] using stepStartKyoku_tracks tracks
  by_cases reach : kind event = some "reach_accepted"
  · simpa only [step, declaredAfter, reach] using stepReachAccepted_tracks tracks
  -- every other event leaves the declarations as they are
  rw [declaredAfter_of_ne deal reach]
  unfold step
  split
  · exact absurd (by assumption) deal
  · exact stepTsumo_tracks tracks
  · exact stepDahai_tracks tracks
  · exact absurd (by assumption) reach
  iterate 5
    · exact stepCall_tracks tracks
  · exact stepHora_tracks tracks (safe.1 (by assumption))
  · exact stepRyukyoku_tracks tracks
  · exact stepEndKyoku_tracks tracks
  · refine stepEndGame_tracks tracks fun panics => ?_
    obtain ⟨player, member, far⟩ := settlement_panics.mp panics
    exact safe.2 (by assumption) player member far
  · exact Outcome.yields_ok tracks

theorem step_panics {heap : Heap} (tracks : Tracks seats declared s)
    (hazard : EventHazard heap seats declared event) : (step heap seats s event).Panics := by
  rcases hazard with ⟨isHora, actor, named, member, ura⟩ | ⟨isEnd, far⟩
  · simp only [step, isHora]
    exact stepHora_panics tracks named member ura
  · simp only [step, isEnd]
    exact Outcome.bind_panics.mpr (Or.inl (settlement_panics.mpr far))

end Steps

/-! ## One game -/

/-- The loop panics exactly at a hazard, wherever in the stream it starts. -/
theorem steps_panics {heap : Heap} {seats : Nat} {declared : List Nat} {s : Replay}
    {events : List Value} (tracks : Tracks seats declared s) :
    (events.foldlM (step heap seats) s).Panics ↔
      ∃ before event after, events = before ++ event :: after ∧
        EventHazard heap seats (before.foldl (declaredAfter seats) declared) event := by
  induction events generalizing declared s with
  | nil => simp
  | cons event rest ih =>
      rw [List.foldlM_cons]
      by_cases here : EventHazard heap seats declared event
      · exact iff_of_true (Outcome.bind_panics.mpr (Or.inl (step_panics tracks here)))
          ⟨[], event, rest, rfl, here⟩
      · obtain ⟨t, stepped, tracks⟩ := step_tracks tracks here
        rw [stepped, Outcome.ok_bind, ih tracks]
        constructor
        · rintro ⟨before, later, after, rfl, hazard⟩
          exact ⟨event :: before, later, after, rfl, hazard⟩
        · rintro ⟨before, later, after, same, hazard⟩
          cases before with
          | nil =>
              simp only [List.nil_append, List.cons.injEq] at same
              exact absurd (same.1 ▸ hazard) here
          | cons first before =>
              simp only [List.cons_append, List.cons.injEq] at same
              obtain ⟨rfl, rfl⟩ := same
              exact ⟨before, later, after, rfl, hazard⟩

/-- Placements are written at seats of the game alone. -/
theorem assignPlacements_returns (players : List SeatStats) :
    (assignPlacements players).Yields fun out => out.length = players.length := by
  unfold assignPlacements
  refine Outcome.foldlM_yields (P := fun out : List SeatStats => out.length = players.length)
    ?_ rfl
  rintro out ⟨seat, rank⟩ member sized
  have placed : seat ∈ placementOrder players := (List.mem_zipIdx' member).2 ▸ List.getElem_mem _
  have inside : seat < players.length := by
    simpa [placementOrder] using placed
  exact Outcome.update_yields _ inside sized

/-- **The replay panics exactly on a hazard of its stream.** -/
theorem replay_panics {heap : Heap} {events : List Value} :
    (replay heap events).Panics ↔ StreamHazard heap events := by
  unfold replay StreamHazard
  cases opened : events.find? fun event => kind event == some "start_game" with
  | none =>
      have unnamed : seatNames events = none := by simp [seatNames, opened]
      simp [unnamed]
  | some start =>
      cases named : seatNames events with
      | none => simp
      | some names =>
          by_cases few : names.length < 2
          · simp [few, Nat.not_le.mpr few]
          · have enough : 2 ≤ names.length := Nat.not_lt.mp few
            have closes : ∀ s : Replay,
                ¬ (if s.started then do
                    let players ← assignPlacements (closeScores s)
                    .ok (some ⟨UInt8.ofNat names.length, events.any isDetailed, players⟩)
                  else .ok none : Outcome Empty (Option GameStats)).Panics := by
              intro s
              split
              · refine Outcome.Returns.not_panics (Outcome.Yields.returns (Q := fun _ => True) ?_)
                exact (assignPlacements_returns _).bind fun _ _ => Outcome.yields_ok trivial
              · simp
            simp only [few, if_false, Outcome.bind_panics, closes, and_false, exists_false,
              or_false, steps_panics (Tracks.opened start names), Option.some.injEq]
            constructor
            · rintro found
              exact ⟨names, rfl, enough, found⟩
            · rintro ⟨_, rfl, -, found⟩
              exact found

end MajsoulManager.Record
