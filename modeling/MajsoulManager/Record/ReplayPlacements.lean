/-
# Record.ReplayPlacements — who came first

The seats are ordered by score, ties to the lower seat, and written with their places
one after the other.  `placed_row` says what a scored game's row is; the places are
the numbers from one (`placements_perm`) and go by score (`placement_lt_iff`).

The order compares negated scores, so it is the order of the scores as long as none
of them is the one without a negation.
-/
import MajsoulManager.Record.ReplaySeats

namespace MajsoulManager.Record

open MajsoulManager.Theory

set_option autoImplicit false

variable {players : List SeatStats}

/-- What a seat is ordered by: the wrapped negation of its score. -/
def placementKey (players : List SeatStats) (seat : Nat) : Int32 :=
  -((players[seat]?).map SeatStats.finalScore).getD 0

def placedBefore (players : List SeatStats) (a b : Nat) : Bool :=
  placementKey players a < placementKey players b ||
    (placementKey players a == placementKey players b && a ≤ b)

theorem placedBefore_iff {a b : Nat} :
    placedBefore players a b = true ↔
      (placementKey players a).toInt < (placementKey players b).toInt ∨
        (placementKey players a).toInt = (placementKey players b).toInt ∧ a ≤ b := by
  simp only [placedBefore, Bool.or_eq_true, decide_eq_true_eq, Bool.and_eq_true, beq_iff_eq,
    Int32.lt_iff_toInt_lt, ← Int32.toInt_inj]

theorem placementOrder_perm (players : List SeatStats) :
    (placementOrder players).Perm (List.range players.length) := List.mergeSort_perm _ _

theorem placementOrder_nodup (players : List SeatStats) : (placementOrder players).Nodup :=
  (placementOrder_perm players).nodup_iff.mpr List.nodup_range

theorem placementOrder_sorted (players : List SeatStats) :
    (placementOrder players).Pairwise fun a b => placedBefore players a b = true := by
  apply List.pairwise_mergeSort
  · intro a b c first second
    have first : placedBefore players a b = true := first
    have second : placedBefore players b c = true := second
    show placedBefore players a c = true
    rw [placedBefore_iff] at *
    omega
  · intro a b
    show (placedBefore players a b || placedBefore players b a) = true
    rw [Bool.or_eq_true, placedBefore_iff, placedBefore_iff]
    omega

/-- The seats of a list of distinct seats are written once each, with their places. -/
theorem place_rows {order : List Nat} (distinct : order.Nodup) {first : Nat}
    {rows out : List SeatStats}
    (placed : (order.zipIdx first).foldlM (fun players (seat, rank) =>
      Outcome.update players seat fun stats =>
        { stats with placement := UInt8.ofNat rank + 1 }) rows = (.ok out : Outcome Empty _))
    (seat : Nat) :
    out[seat]? = (rows[seat]?).map fun stats =>
      if seat ∈ order then
        { stats with placement := UInt8.ofNat (first + order.idxOf seat) + 1 }
      else stats := by
  induction order generalizing first rows with
  | nil =>
      cases placed
      simp
  | cons head rest ih =>
      obtain ⟨outside, distinct⟩ := List.nodup_cons.mp distinct
      rw [List.zipIdx_cons, List.foldlM_cons] at placed
      obtain ⟨next, wrote, placed⟩ := Outcome.bind_eq_ok.mp placed
      obtain ⟨-, rfl⟩ := Outcome.update_eq_ok.mp wrote
      rw [ih distinct placed, List.getElem?_modify]
      cases rows[seat]? with
      | none => simp
      | some stats =>
          by_cases same : head = seat
          · subst same
            simp [outside]
          · by_cases later : seat ∈ rest
            · simp [same, Ne.symm same, later, List.idxOf_cons_ne _ same, Nat.add_assoc,
                Nat.add_comm 1]
            · simp [same, Ne.symm same, later]

/-- **The rows of a scored game** are those of the loop, with a score and a place. -/
theorem placed_row {s : Replay} {players : List SeatStats}
    (placed : assignPlacements (closeScores s) = .ok players) {seat : Nat} {stats : SeatStats}
    (here : players[seat]? = some stats) :
    ∃ row, s.players[seat]? = some row ∧ stats =
      { row with
        finalScore := ((s.lastScores.getD [])[seat]?).getD 0
        busted := ((s.lastScores.getD [])[seat]?).getD 0 < 0
        placement := UInt8.ofNat ((placementOrder (closeScores s)).idxOf seat) + 1 } := by
  have rows := place_rows (placementOrder_nodup (closeScores s)) placed seat
  rw [here] at rows
  obtain ⟨closed, found, same⟩ := Option.map_eq_some_iff.mp rows.symm
  have inside : seat ∈ placementOrder (closeScores s) := by
    rw [(placementOrder_perm (closeScores s)).mem_iff, List.mem_range]
    exact (List.getElem?_eq_some_iff.mp found).1
  rw [if_pos inside, Nat.zero_add] at same
  rw [closeScores, List.getElem?_mapIdx] at found
  obtain ⟨row, there, rfl⟩ := Option.map_eq_some_iff.mp found
  exact ⟨row, there, same.symm⟩

theorem placed_length {s : Replay} (placed : assignPlacements (closeScores s) = .ok players) :
    players.length = s.players.length := by
  obtain ⟨out, same, sized⟩ := assignPlacements_returns (closeScores s)
  rw [placed, Outcome.ok.injEq] at same
  rw [same, sized, closeScores, List.length_mapIdx]

/-- The place of a seat, up to 255 of them. -/
theorem toNat_place {order : List Nat} {seat : Nat} (few : order.length ≤ 255)
    (inside : seat ∈ order) :
    (UInt8.ofNat (order.idxOf seat) + 1).toNat = order.idxOf seat + 1 := by
  have below := List.idxOf_lt_length_of_mem inside
  rw [UInt8.toNat_add, UInt8.toNat_ofNat_of_lt' (by rw [UInt8.size]; omega)]
  exact Nat.mod_eq_of_lt (by show order.idxOf seat + 1 < 256; omega)

/-- The places of the seats are the numbers from one. -/
theorem placements_perm {s : Replay} (placed : assignPlacements (closeScores s) = .ok players)
    (few : s.players.length ≤ 255) :
    (players.map fun stats => stats.placement.toNat).Perm (List.range' 1 players.length) := by
  set order := placementOrder (closeScores s) with ordered
  have sized : (closeScores s).length = s.players.length := by rw [closeScores, List.length_mapIdx]
  have perm : order.Perm (List.range players.length) := by
    rw [placed_length placed, ← sized]
    exact placementOrder_perm _
  have places : (players.map fun stats => stats.placement.toNat) =
      (List.range players.length).map fun seat => order.idxOf seat + 1 := by
    apply List.ext_getElem (by simp)
    intro seat here there
    have inside : seat < players.length := by simpa using here
    obtain ⟨row, -, same⟩ := placed_row placed (List.getElem?_eq_getElem inside)
    have member : seat ∈ order := perm.mem_iff.mpr (List.mem_range.mpr inside)
    have short : order.length ≤ 255 := by
      rw [perm.length_eq, List.length_range, placed_length placed]
      exact few
    simp only [List.getElem_map, List.getElem_range, same]
    exact toNat_place short member
  have ranks : order.map (fun seat => order.idxOf seat + 1) = List.range' 1 players.length := by
    apply List.ext_getElem (by simp [perm.length_eq])
    intro i here there
    have nodup : order.Nodup := placementOrder_nodup _
    simp only [List.getElem_map, List.getElem_range', Nat.one_mul]
    rw [nodup.idxOf_getElem, Nat.add_comm]
  rw [places, ← ranks]
  exact (perm.map _).symm

/-- A negated score, unless it is the one that has no negation. -/
theorem placementKey_toInt {seat : Nat} {stats : SeatStats} (here : players[seat]? = some stats)
    (above : Int32.minValue < stats.finalScore) :
    (placementKey players seat).toInt = -stats.finalScore.toInt := by
  have low : -2 ^ 31 < stats.finalScore.toInt := Int32.lt_iff_toInt_lt.mp above
  have high := stats.finalScore.toInt_lt
  rw [placementKey, here, Option.map_some, Option.getD_some, Int32.toInt_neg]
  apply Int.bmod_eq_of_le <;> omega

/-- **Places go by score**, and among equal scores by seat. -/
theorem idxOf_lt_iff {i j : Nat} (left : i < players.length) (right : j < players.length)
    (differ : i ≠ j) :
    (placementOrder players).idxOf i < (placementOrder players).idxOf j ↔
      placedBefore players i j = true := by
  have nodup := placementOrder_nodup players
  have perm := placementOrder_perm players
  have leftIn : i ∈ placementOrder players := perm.mem_iff.mpr (List.mem_range.mpr left)
  have rightIn : j ∈ placementOrder players := perm.mem_iff.mpr (List.mem_range.mpr right)
  have sorted : ∀ {a b : Nat}, a ∈ placementOrder players → b ∈ placementOrder players →
      (placementOrder players).idxOf a < (placementOrder players).idxOf b →
      placedBefore players a b = true := by
    intro a b first second earlier
    have pairs := List.pairwise_iff_getElem.mp (placementOrder_sorted players)
    have ordered := pairs _ _ (List.idxOf_lt_length_of_mem first)
      (List.idxOf_lt_length_of_mem second) earlier
    rwa [List.getElem_idxOf, List.getElem_idxOf] at ordered
  constructor
  · exact sorted leftIn rightIn
  · intro before
    by_contra later
    have apart : (placementOrder players).idxOf i ≠ (placementOrder players).idxOf j := by
      intro same
      exact differ ((List.idxOf_inj leftIn).mp same)
    have after := sorted rightIn leftIn (by omega)
    rw [placedBefore_iff] at before after
    omega

/-- A better place is a better score, or the same one on an earlier seat. -/
theorem placement_lt_iff {s : Replay} (placed : assignPlacements (closeScores s) = .ok players)
    (few : s.players.length ≤ 255) {i j : Nat} {one other : SeatStats}
    (here : players[i]? = some one) (there : players[j]? = some other)
    (above : Int32.minValue < one.finalScore) (above' : Int32.minValue < other.finalScore) :
    one.placement < other.placement ↔
      other.finalScore < one.finalScore ∨ one.finalScore = other.finalScore ∧ i < j := by
  by_cases same : i = j
  · subst same
    rw [here, Option.some.injEq] at there
    subst there
    simp
  · obtain ⟨row, found, rfl⟩ := placed_row placed here
    obtain ⟨row', found', rfl⟩ := placed_row placed there
    have closed : (closeScores s).length = s.players.length := by
      rw [closeScores, List.length_mapIdx]
    have left : i < (closeScores s).length := by
      rw [closed]
      exact (List.getElem?_eq_some_iff.mp found).1
    have right : j < (closeScores s).length := by
      rw [closed]
      exact (List.getElem?_eq_some_iff.mp found').1
    have short : (placementOrder (closeScores s)).length ≤ 255 := by
      rw [(placementOrder_perm _).length_eq, List.length_range, closed]
      exact few
    have leftIn := (placementOrder_perm (closeScores s)).mem_iff.mpr (List.mem_range.mpr left)
    have rightIn := (placementOrder_perm (closeScores s)).mem_iff.mpr (List.mem_range.mpr right)
    have row_closed : (closeScores s)[i]? = some { row with
        finalScore := ((s.lastScores.getD [])[i]?).getD 0
        busted := ((s.lastScores.getD [])[i]?).getD 0 < 0 } := by
      rw [closeScores, List.getElem?_mapIdx, found]
      rfl
    have row_closed' : (closeScores s)[j]? = some { row' with
        finalScore := ((s.lastScores.getD [])[j]?).getD 0
        busted := ((s.lastScores.getD [])[j]?).getD 0 < 0 } := by
      rw [closeScores, List.getElem?_mapIdx, found']
      rfl
    have key := placementKey_toInt row_closed above
    have key' := placementKey_toInt row_closed' above'
    have order := (idxOf_lt_iff left right same).trans placedBefore_iff
    rw [key, key'] at order
    dsimp only at order
    simp only [UInt8.lt_iff_toNat_lt, toNat_place short leftIn, toNat_place short rightIn,
      Int32.lt_iff_toInt_lt, ← Int32.toInt_inj]
    omega

end MajsoulManager.Record
