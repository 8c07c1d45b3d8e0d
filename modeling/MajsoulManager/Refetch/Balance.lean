/-
# Refetch.Balance — which accounts change exit

`rebalance` of `refetch_service.rs`: the exits are ranked by what they produced for each
session, the worst ones free accounts down to one each, and the best ones take them, up
to the cap and to twice what they hold.  `rebalance_sound` says what a round may move,
for every assignment and every tally; `rounds_keep` what any number of rounds keeps, and
`rebindNodes_applies` that the pool applies a round as `applied` does.

What an exit produced is a rational here; the code divides floats.
-/
import MajsoulManager.Refetch.NodeTally
import MajsoulManager.Accounts.PoolInvariant
import MajsoulManager.Theory.Grouping
import Mathlib.Data.List.Sort
import Mathlib.Data.Rat.Defs
import Mathlib.Tactic.Linarith

namespace MajsoulManager.Refetch

open MajsoulManager.Theory
open MajsoulManager.Accounts
open AccountPool

set_option autoImplicit false

/-! ## A round -/

def minPerNode : Nat := 1

def moveShare : Nat := 8

def balanceBand : ℚ := 1 / 4

/-- An exit, the accounts bound to it in their order, and what it produced for each of
its sessions. -/
structure Exit where
  node : String
  held : List String
  produced : ℚ
  deriving DecidableEq

/-- Per logged-in session, and as if there were one when there is none. -/
def produced (tally : Tally) (node : String) : ℚ :=
  (tally.get node).fetched / max (tally.get node).sessions 1

/-- Best first, and by name within a tie. -/
def Exit.ahead (a b : Exit) : Prop :=
  b.produced < a.produced ∨ a.produced = b.produced ∧ a.node ≤ b.node

instance : DecidableRel Exit.ahead := fun a b =>
  inferInstanceAs (Decidable (b.produced < a.produced ∨ a.produced = b.produced ∧ a.node ≤ b.node))

def exits (bindings : List (String × String)) (tally : Tally) : List Exit :=
  (groupRows Prod.snd Prod.fst bindings).map fun holder =>
    ⟨holder.1, holder.2, produced tally holder.1⟩

def ranked (bindings : List (String × String)) (tally : Tally) : List Exit :=
  (exits bindings tally).insertionSort Exit.ahead

/-- Both middles averaged when there is an even number of them. -/
def median (ranked : List Exit) : ℚ :=
  let middle := ranked.length / 2
  let at_ := fun (i : Nat) => ((ranked[i]?).map Exit.produced).getD 0
  if ranked.length % 2 = 0 then (at_ (middle - 1) + at_ middle) / 2 else at_ middle

/-- Freed from the worst exits, worst first, never taking one below the floor. -/
def freed (budget : Nat) (poor : ℚ) : List Exit → List String → List String
  | [], spare => spare
  | exit_ :: rest, spare =>
      if budget ≤ spare.length ∨ poor ≤ exit_.produced then spare
      else
        let give := min (exit_.held.length - minPerNode) (budget - spare.length)
        freed budget poor rest (spare ++ exit_.held.reverse.take give)

/-- Handed to the best exits, best first; once nothing is spare nothing is handed. -/
def handed (cap : Nat) (rich : ℚ) : List Exit → List String → List (String × String)
  | [], _ => []
  | exit_ :: rest, spare =>
      if exit_.produced ≤ rich then []
      else
        let seats := min (cap - exit_.held.length) exit_.held.length
        (spare.take seats).map (·, exit_.node) ++ handed cap rich rest (spare.drop seats)

def rebalance (bindings : List (String × String)) (tally : Tally) (cap : Nat) :
    List (String × String) :=
  let exits := ranked bindings tally
  if exits.length < 2 then []
  else
    let poor := median exits * (1 - balanceBand)
    let rich := median exits * (1 + balanceBand)
    let budget := max (bindings.length / moveShare) 1
    handed cap rich exits (freed budget poor exits.reverse [])

/-! ## What is freed and what is handed -/

section Parts

variable {cap : Nat} {rich : ℚ}

/-- **The accounts that are freed** come from exits below the band, in their order, and the
first account of an exit is never among them. -/
theorem freed_sublist (budget : Nat) (poor : ℚ) (exits : List Exit) (spare : List String) :
    ∃ fresh, freed budget poor exits spare = spare ++ fresh ∧
      fresh.Sublist ((exits.filter (·.produced < poor)).flatMap (·.held.tail.reverse)) ∧
      (spare ++ fresh).length ≤ max budget spare.length := by
  induction exits generalizing spare with
  | nil => exact ⟨[], by simp [freed], by simp, by simp⟩
  | cons exit_ rest ih =>
      rw [freed]
      by_cases stops : budget ≤ spare.length ∨ poor ≤ exit_.produced
      · exact ⟨[], by simp [stops], List.nil_sublist _, by simp⟩
      · rw [if_neg stops]
        have room : spare.length < budget := by omega
        have below : exit_.produced < poor := lt_of_not_ge fun above => stops (.inr above)
        dsimp only
        generalize give : min (exit_.held.length - minPerNode) (budget - spare.length) = n
        have few : n ≤ exit_.held.tail.length ∧ n ≤ budget - spare.length := by
          rw [List.length_tail, ← give]
          exact ⟨Nat.min_le_left _ _, Nat.min_le_right _ _⟩
        have given : (exit_.held.reverse.take n).Sublist exit_.held.tail.reverse := by
          cases held : exit_.held with
          | nil => simp
          | cons first others =>
              rw [held] at few
              rw [List.reverse_cons, List.take_append_of_le_length (by simpa using few.1)]
              exact List.take_sublist _ _
        obtain ⟨fresh, same, sub, bounded⟩ := ih (spare ++ exit_.held.reverse.take n)
        refine ⟨exit_.held.reverse.take n ++ fresh, ?_, ?_, ?_⟩
        · rw [same, List.append_assoc]
        · rw [List.filter_cons_of_pos (by simpa using below), List.flatMap_cons]
          exact given.append sub
        · rw [List.append_assoc] at bounded
          have short : (exit_.held.reverse.take n).length ≤ n := List.length_take_le _ _
          simp only [List.length_append] at bounded ⊢
          omega

/-- **The accounts that are handed** are the first of the spare ones. -/
theorem handed_initial (cap : Nat) (rich : ℚ) (exits : List Exit) (spare : List String) :
    (handed cap rich exits spare).map Prod.fst <+: spare := by
  induction exits generalizing spare with
  | nil => simp [handed]
  | cons exit_ rest ih =>
      rw [handed]
      split
      · exact List.nil_prefix
      · obtain ⟨later, whole⟩ := ih (spare.drop (min (cap - exit_.held.length) exit_.held.length))
        refine ⟨later, ?_⟩
        simp only [List.map_append, List.map_map, Function.comp_def, List.map_id', List.append_assoc,
          whole, List.take_append_drop]

/-- Each to an exit above the band. -/
theorem handed_above {exits : List Exit} {spare : List String} {move : String × String}
    (member : move ∈ handed cap rich exits spare) :
    ∃ exit_ ∈ exits, move.2 = exit_.node ∧ rich < exit_.produced := by
  induction exits generalizing spare with
  | nil => simp [handed] at member
  | cons exit_ rest ih =>
      rw [handed] at member
      split at member
      · simp at member
      · rename_i above
        rcases List.mem_append.mp member with here | later
        · obtain ⟨username, -, rfl⟩ := List.mem_map.mp here
          exact ⟨exit_, by simp, rfl, lt_of_not_ge above⟩
        · obtain ⟨other, listed, same⟩ := ih later
          exact ⟨other, by simp [listed], same⟩

/-- An exit is handed no more than the cap leaves it and no more than it holds. -/
theorem handed_seats {exits : List Exit} (distinct : (exits.map Exit.node).Nodup)
    (spare : List String) {exit_ : Exit} (member : exit_ ∈ exits) :
    (handed cap rich exits spare).countP (·.2 = exit_.node) ≤
      min (cap - exit_.held.length) exit_.held.length := by
  induction exits generalizing spare with
  | nil => simp at member
  | cons first rest ih =>
      obtain ⟨fresh, distinct⟩ := List.nodup_cons.mp distinct
      rw [handed]
      split
      · exact Nat.zero_le _
      · rw [List.countP_append]
        rcases List.mem_cons.mp member with rfl | later
        · have none : (handed cap rich rest
              (spare.drop (min (cap - exit_.held.length) exit_.held.length))).countP
              (·.2 = exit_.node) = 0 := by
            rw [List.countP_eq_zero]
            intro move moves same
            obtain ⟨other, listed, named, -⟩ := handed_above moves
            have same : move.2 = exit_.node := by simpa using same
            exact fresh (List.mem_map.mpr ⟨other, listed, named.symm.trans same⟩)
          rw [none]
          apply Nat.le_trans List.countP_le_length
          simp
        · have none : ((spare.take (min (cap - first.held.length) first.held.length)).map
              (·, first.node)).countP (·.2 = exit_.node) = 0 := by
            rw [List.countP_eq_zero]
            intro move moves same
            obtain ⟨username, -, rfl⟩ := List.mem_map.mp moves
            have same : first.node = exit_.node := by simpa using same
            exact fresh (List.mem_map.mpr ⟨exit_, later, same.symm⟩)
          rw [none, Nat.zero_add]
          exact ih distinct _ later

end Parts

/-! ## The exits -/

section Exits

variable {bindings : List (String × String)} {tally : Tally}

theorem mem_ranked {exit_ : Exit} :
    exit_ ∈ ranked bindings tally ↔
      exit_.held = (bindings.filter fun binding => binding.2 = exit_.node).map Prod.fst ∧
        exit_.held ≠ [] ∧ exit_.produced = produced tally exit_.node := by
  obtain ⟨node, held, rate⟩ := exit_
  unfold ranked exits
  rw [List.mem_insertionSort, List.mem_map]
  constructor
  · rintro ⟨⟨name, rows⟩, member, same⟩
    obtain ⟨rfl, rfl, rfl⟩ := Exit.mk.inj same
    exact ⟨(mem_groupRows _ _ _ _ _).mp member |>.1, (mem_groupRows _ _ _ _ _).mp member |>.2, rfl⟩
  · rintro ⟨rows, some_, same⟩
    exact ⟨(node, held), (mem_groupRows _ _ _ _ _).mpr ⟨rows, some_⟩, by rw [← same]⟩

theorem ranked_nodes : ((ranked bindings tally).map Exit.node).Nodup := by
  have grouped := (groupRows_sorted Prod.snd Prod.fst bindings).nodup
  have same : ((exits bindings tally).map Exit.node) =
      (groupRows Prod.snd Prod.fst bindings).map Prod.fst := by
    simp [exits]
  have sorted : (ranked bindings tally).Perm (exits bindings tally) :=
    List.perm_insertionSort _ _
  rw [(sorted.map Exit.node).nodup_iff, same]
  exact grouped

theorem ranked_held : ((ranked bindings tally).flatMap Exit.held).Perm (bindings.map Prod.fst) := by
  have sorted : (ranked bindings tally).Perm (exits bindings tally) :=
    List.perm_insertionSort _ _
  have same : (exits bindings tally).flatMap Exit.held =
      (groupRows Prod.snd Prod.fst bindings).flatMap Prod.snd := by
    simp [exits, List.flatMap_map]
  exact (sorted.flatMap_right Exit.held).trans (same ▸ flatMap_groupRows_perm _ _ _)

/-- The accounts of an exit are those bound to it. -/
theorem mem_held {exit_ : Exit} (member : exit_ ∈ ranked bindings tally) (username : String) :
    username ∈ exit_.held ↔ (username, exit_.node) ∈ bindings := by
  rw [(mem_ranked.mp member).1]
  simp

theorem length_held {exit_ : Exit} (member : exit_ ∈ ranked bindings tally) :
    exit_.held.length = bindings.countP (·.2 = exit_.node) := by
  rw [(mem_ranked.mp member).1, List.length_map, List.countP_eq_length_filter]

/-- Every node that is used is an exit. -/
theorem exit_of_used {node : String} (used : node ∈ bindings.map Prod.snd) :
    ∃ exit_ ∈ ranked bindings tally, exit_.node = node := by
  obtain ⟨binding, bound, rfl⟩ := List.mem_map.mp used
  let held := (bindings.filter fun other => other.2 = binding.2).map Prod.fst
  refine ⟨⟨binding.2, held, produced tally binding.2⟩, mem_ranked.mpr ⟨rfl, ?_, rfl⟩, rfl⟩
  have inside : binding.1 ∈ held := List.mem_map.mpr ⟨binding, by simpa using bound, rfl⟩
  exact List.ne_nil_of_mem inside

theorem produced_nonneg (tally : Tally) (node : String) : 0 ≤ produced tally node := by
  unfold produced
  positivity

theorem median_nonneg : 0 ≤ median (ranked bindings tally) := by
  have each : ∀ i : Nat, 0 ≤ (((ranked bindings tally)[i]?).map Exit.produced).getD 0 := by
    intro i
    cases found : (ranked bindings tally)[i]? with
    | none => exact le_rfl
    | some exit_ =>
        show 0 ≤ exit_.produced
        rw [(mem_ranked.mp (List.mem_of_getElem? found)).2.2]
        exact produced_nonneg _ _
  unfold median
  dsimp only
  split
  · have low := each ((ranked bindings tally).length / 2 - 1)
    have high := each ((ranked bindings tally).length / 2)
    positivity
  · exact each _

/-- **Where a move comes from and where it goes**: from below the band, and not the first
account of its exit, to an exit above it. -/
theorem move_ends {cap : Nat} {move : String × String}
    (member : move ∈ rebalance bindings tally cap) :
    ∃ donor ∈ ranked bindings tally, ∃ taker ∈ ranked bindings tally,
      move.1 ∈ donor.held.tail ∧ move.2 = taker.node ∧
        donor.produced < median (ranked bindings tally) * (1 - balanceBand) ∧
        median (ranked bindings tally) * (1 + balanceBand) < taker.produced := by
  unfold rebalance at member
  dsimp only at member
  split at member
  · simp at member
  · obtain ⟨taker, taken, named, above⟩ := handed_above member
    obtain ⟨fresh, same, sub, -⟩ := freed_sublist (max (bindings.length / moveShare) 1)
      (median (ranked bindings tally) * (1 - balanceBand)) (ranked bindings tally).reverse []
    rw [List.nil_append] at same
    rw [same] at member
    have inside : move.1 ∈ fresh :=
      (handed_initial _ _ _ fresh).subset (List.mem_map_of_mem member)
    obtain ⟨donor, giving, held⟩ := List.mem_flatMap.mp (sub.subset inside)
    obtain ⟨listed, below⟩ := List.mem_filter.mp giving
    exact ⟨donor, List.mem_reverse.mp listed, taker, taken, List.mem_reverse.mp held, named,
      by simpa using below, above⟩

/-- A round moves an account once, and no more of them than the share. -/
theorem moves_once (bindings : List (String × String)) (tally : Tally) (cap : Nat)
    (distinct : (bindings.map Prod.fst).Nodup) :
    ((rebalance bindings tally cap).map Prod.fst).Nodup ∧
      (rebalance bindings tally cap).length ≤ max (bindings.length / moveShare) 1 := by
  unfold rebalance
  dsimp only
  split
  · simp
  · obtain ⟨fresh, same, sub, few⟩ := freed_sublist (max (bindings.length / moveShare) 1)
      (median (ranked bindings tally) * (1 - balanceBand)) (ranked bindings tally).reverse []
    rw [List.nil_append] at same few
    rw [same]
    have whole : ((ranked bindings tally).reverse.flatMap Exit.held).Nodup :=
      (((List.reverse_perm _).flatMap_right Exit.held).trans ranked_held).nodup_iff.mpr distinct
    obtain ⟨each, apart⟩ := List.nodup_flatMap.mp whole
    have once : fresh.Nodup := by
      refine List.Nodup.sublist sub (List.nodup_flatMap.mpr ⟨?_, ?_⟩)
      · intro exit_ member
        have own := each exit_ (List.mem_of_mem_filter member)
        exact List.nodup_reverse.mpr (own.sublist (List.tail_sublist _))
      · refine (apart.sublist List.filter_sublist).imp ?_
        intro a b away username left right
        exact away (List.mem_of_mem_tail (List.mem_reverse.mp left))
          (List.mem_of_mem_tail (List.mem_reverse.mp right))
    have front := handed_initial cap (median (ranked bindings tally) * (1 + balanceBand))
      (ranked bindings tally) fresh
    refine ⟨once.sublist front.sublist, ?_⟩
    have short := front.length_le
    rw [List.length_map] at short
    rw [List.length_nil, Nat.max_eq_left (Nat.zero_le _)] at few
    exact short.trans few

end Exits

/-! ## A round applied -/

/-- The account of that name is bound to that node. -/
def applyMove (bindings : List (String × String)) (move : String × String) :
    List (String × String) :=
  bindings.map fun binding => if binding.1 = move.1 then (binding.1, move.2) else binding

def applied (bindings moves : List (String × String)) : List (String × String) :=
  moves.foldl applyMove bindings

/-- How many accounts are bound to a node. -/
def load (bindings : List (String × String)) (node : String) : Nat :=
  bindings.countP (·.2 = node)

/-- What a round of moves may do to an assignment. -/
structure RoundSound (bindings : List (String × String)) (tally : Tally) (cap : Nat)
    (moves : List (String × String)) : Prop where
  kept : ∀ node, 0 < load bindings node → 0 < load (applied bindings moves) node
  capped : ∀ move ∈ moves, load (applied bindings moves) move.2 ≤ cap
  doubled : ∀ move ∈ moves, load (applied bindings moves) move.2 ≤ 2 * load bindings move.2
  apart : ∀ move ∈ moves, ∀ other ∈ moves, (other.1, move.2) ∉ bindings
  once : (moves.map Prod.fst).Nodup
  faster : ∀ move ∈ moves, ∃ node, (move.1, node) ∈ bindings ∧ node ≠ move.2 ∧
    produced tally node < produced tally move.2
  few : moves.length ≤ max 1 (bindings.length / 8)

theorem applied_accounts (bindings moves : List (String × String)) :
    (applied bindings moves).map Prod.fst = bindings.map Prod.fst := by
  unfold applied
  induction moves generalizing bindings with
  | nil => rfl
  | cons move rest ih =>
      rw [List.foldl_cons, ih, applyMove, List.map_map]
      refine List.map_congr_left ?_
      intro binding _
      show (if binding.1 = move.1 then (binding.1, move.2) else binding).1 = binding.1
      split <;> rfl

/-- An account that is not moved stays where it is. -/
theorem mem_applied {bindings moves : List (String × String)} {binding : String × String}
    (bound : binding ∈ bindings) (still : binding.1 ∉ moves.map Prod.fst) :
    binding ∈ applied bindings moves := by
  unfold applied
  induction moves generalizing bindings with
  | nil => exact bound
  | cons move rest ih =>
      rw [List.map_cons, List.mem_cons, not_or] at still
      rw [List.foldl_cons]
      refine ih ?_ still.2
      exact List.mem_map.mpr ⟨binding, bound, if_neg still.1⟩

/-- A node that is used after was used before, or is moved to. -/
theorem used_applied {bindings moves : List (String × String)} {binding : String × String}
    (bound : binding ∈ applied bindings moves) :
    binding.2 ∈ bindings.map Prod.snd ∨ binding.2 ∈ moves.map Prod.snd := by
  unfold applied at bound
  induction moves generalizing bindings with
  | nil => exact .inl (List.mem_map_of_mem bound)
  | cons move rest ih =>
      rcases ih bound with before | later
      · obtain ⟨other, moved, same⟩ := List.mem_map.mp before
        obtain ⟨old, held, rfl⟩ := List.mem_map.mp moved
        split at same
        · exact .inr (by simp [← same])
        · exact .inl (List.mem_map.mpr ⟨old, held, same⟩)
      · exact .inr (by simp [later])

theorem load_applyMove (bindings : List (String × String)) (move : String × String)
    (node : String) :
    load (applyMove bindings move) node ≤
      load bindings node + if move.2 = node then (bindings.map Prod.fst).count move.1 else 0 := by
  unfold load applyMove
  induction bindings with
  | nil => simp
  | cons binding rest ih =>
      simp only [List.map_cons, List.countP_cons, List.count_cons, decide_eq_true_eq, beq_iff_eq]
        at ih ⊢
      by_cases there : move.2 = node <;> by_cases own : binding.1 = move.1
      · simp only [there, own, if_true] at ih ⊢
        omega
      · simp only [there, own, if_true, if_false] at ih ⊢
        omega
      · simp only [there, own, if_true, if_false] at ih ⊢
        omega
      · simp only [there, own, if_false] at ih ⊢
        omega

/-- A node ends with no more than it held and what is moved to it. -/
theorem load_applied {bindings : List (String × String)}
    (distinct : (bindings.map Prod.fst).Nodup) (moves : List (String × String)) (node : String) :
    load (applied bindings moves) node ≤ load bindings node + moves.countP (·.2 = node) := by
  induction moves generalizing bindings with
  | nil => simp [applied]
  | cons move rest ih =>
      have accounts : (applyMove bindings move).map Prod.fst = bindings.map Prod.fst :=
        applied_accounts bindings [move]
      have later : load (applied (applyMove bindings move) rest) node ≤
          load (applyMove bindings move) node + rest.countP (·.2 = node) :=
        ih (accounts ▸ distinct)
      have single := List.nodup_iff_count_le_one.mp distinct move.1
      have here : load (applyMove bindings move) node ≤
          load bindings node + if move.2 = node then 1 else 0 := by
        refine (load_applyMove bindings move node).trans (Nat.add_le_add_left ?_ _)
        split
        · exact single
        · exact Nat.zero_le _
      rw [List.countP_cons]
      show load (applied (applyMove bindings move) rest) node ≤ _
      simp only [decide_eq_true_eq]
      omega

section Round

variable {bindings : List (String × String)} {tally : Tally}

theorem load_pos {node : String} : 0 < load bindings node ↔ node ∈ bindings.map Prod.snd := by
  rw [load, List.countP_pos_iff]
  simp

/-- The first account of an exit is not moved. -/
theorem head_stays (distinct : (bindings.map Prod.fst).Nodup) (cap : Nat) {exit_ : Exit}
    (member : exit_ ∈ ranked bindings tally) :
    ∃ first, (first, exit_.node) ∈ bindings ∧
      first ∉ (rebalance bindings tally cap).map Prod.fst := by
  obtain ⟨-, some_, -⟩ := mem_ranked.mp member
  obtain ⟨first, rest, held⟩ := List.exists_cons_of_ne_nil some_
  refine ⟨first, (mem_held member first).mp (by simp [held]), ?_⟩
  intro moved
  obtain ⟨move, moves, rfl⟩ := List.mem_map.mp moved
  obtain ⟨donor, giving, -, -, tail, -⟩ := move_ends moves
  have whole : ((ranked bindings tally).flatMap Exit.held).Nodup :=
    ranked_held.nodup_iff.mpr distinct
  have own := (List.nodup_flatMap.mp whole).1 exit_ member
  -- an account has one exit, so the donor is this one, and its first is not in its tail
  have here : (move.1, exit_.node) ∈ bindings := (mem_held member _).mp (by simp [held])
  have there : (move.1, donor.node) ∈ bindings :=
    (mem_held giving _).mp (List.mem_of_mem_tail tail)
  have same : exit_.node = donor.node := by
    have unique := List.inj_on_of_nodup_map distinct here there rfl
    exact congrArg Prod.snd unique
  have equal : donor.held = exit_.held := by
    rw [(mem_ranked.mp member).1, (mem_ranked.mp giving).1, same]
  rw [equal, held] at tail
  rw [held] at own
  exact (List.nodup_cons.mp own).1 tail

/-- **A round is sound**, for every assignment of distinct accounts and every tally. -/
theorem rebalance_round (tally : Tally) (cap : Nat) (distinct : (bindings.map Prod.fst).Nodup) :
    RoundSound bindings tally cap (rebalance bindings tally cap) := by
  obtain ⟨once, few⟩ := moves_once bindings tally cap distinct
  have middle : 0 ≤ median (ranked bindings tally) := median_nonneg
  have narrow : median (ranked bindings tally) * (1 - balanceBand) ≤
      median (ranked bindings tally) * (1 + balanceBand) := by
    unfold balanceBand
    linarith
  -- where an account comes from is below where any account goes to
  have below : ∀ move ∈ rebalance bindings tally cap, ∃ node, (move.1, node) ∈ bindings ∧
      ∀ other ∈ rebalance bindings tally cap, produced tally node < produced tally other.2 := by
    intro move moves
    obtain ⟨donor, giving, -, -, tail, -, low, -⟩ := move_ends moves
    refine ⟨donor.node, (mem_held giving _).mp (List.mem_of_mem_tail tail), ?_⟩
    intro other others
    obtain ⟨-, -, taker, taking, -, named, -, high⟩ := move_ends others
    rw [(mem_ranked.mp giving).2.2] at low
    rw [(mem_ranked.mp taking).2.2, ← named] at high
    exact low.trans_le (narrow.trans high.le)
  have seats : ∀ move ∈ rebalance bindings tally cap,
      (rebalance bindings tally cap).countP (·.2 = move.2) ≤
        min (cap - load bindings move.2) (load bindings move.2) ∧
      0 < (rebalance bindings tally cap).countP (·.2 = move.2) := by
    intro move moves
    obtain ⟨-, -, taker, taking, -, named, -, -⟩ := move_ends moves
    refine ⟨?_, List.countP_pos_iff.mpr ⟨move, moves, by simp⟩⟩
    rw [named, load, ← length_held taking]
    unfold rebalance
    dsimp only
    split
    · simp
    · exact handed_seats ranked_nodes _ taking
  refine ⟨?_, ?_, ?_, ?_, once, ?_, by rwa [Nat.max_comm]⟩
  · intro node used
    obtain ⟨exit_, member, rfl⟩ := @exit_of_used bindings tally _ (load_pos.mp used)
    obtain ⟨first, bound, still⟩ := head_stays distinct cap member
    exact load_pos.mpr (List.mem_map.mpr ⟨_, mem_applied bound still, rfl⟩)
  · intro move moves
    obtain ⟨room, some_⟩ := seats move moves
    have after := load_applied distinct (rebalance bindings tally cap) move.2
    omega
  · intro move moves
    obtain ⟨room, -⟩ := seats move moves
    have after := load_applied distinct (rebalance bindings tally cap) move.2
    omega
  · intro move moves other others bound
    obtain ⟨node, held, low⟩ := below other others
    have same := List.inj_on_of_nodup_map distinct held bound rfl
    have equal : node = move.2 := congrArg Prod.snd same
    have strict := low move moves
    rw [equal] at strict
    exact lt_irrefl _ strict
  · intro move moves
    obtain ⟨node, held, low⟩ := below move moves
    refine ⟨node, held, ?_, low move moves⟩
    rintro rfl
    exact lt_irrefl _ (low move moves)

end Round

/-! ## Any number of rounds -/

/-- Rounds of the balancer one after another, each with the tally and the cap of its own. -/
def rounds (bindings : List (String × String)) (samples : List (Tally × Nat)) :
    List (String × String) :=
  samples.foldl
    (fun bindings sample => applied bindings (rebalance bindings sample.1 sample.2)) bindings

theorem round_keeps {bindings : List (String × String)} (tally : Tally) (cap : Nat)
    (distinct : (bindings.map Prod.fst).Nodup) (node : String) :
    0 < load (applied bindings (rebalance bindings tally cap)) node ↔ 0 < load bindings node := by
  constructor
  · intro used
    obtain ⟨binding, bound, rfl⟩ := List.mem_map.mp (load_pos.mp used)
    rcases used_applied bound with before | moved
    · exact load_pos.mpr before
    · obtain ⟨move, moves, named⟩ := List.mem_map.mp moved
      obtain ⟨-, -, taker, taking, -, same, -, -⟩ := move_ends moves
      obtain ⟨-, some_, -⟩ := mem_ranked.mp taking
      obtain ⟨username, held⟩ := List.exists_mem_of_ne_nil _ some_
      have placed : (username, taker.node) ∈ bindings := (mem_held taking _).mp held
      rw [← named, same]
      exact load_pos.mpr (List.mem_map.mpr ⟨_, placed, rfl⟩)
  · exact (rebalance_round tally cap distinct).kept node

/-- **The accounts and the used nodes stay**, over any number of rounds. -/
theorem rounds_keep {bindings : List (String × String)} (distinct : (bindings.map Prod.fst).Nodup)
    (samples : List (Tally × Nat)) :
    (rounds bindings samples).map Prod.fst = bindings.map Prod.fst ∧
      ∀ node, 0 < load (rounds bindings samples) node ↔ 0 < load bindings node := by
  unfold rounds
  induction samples generalizing bindings with
  | nil => exact ⟨rfl, fun _ => Iff.rfl⟩
  | cons sample rest ih =>
      have accounts := applied_accounts bindings (rebalance bindings sample.1 sample.2)
      obtain ⟨same, used⟩ := ih (accounts ▸ distinct)
      exact ⟨same.trans accounts, fun node =>
        (used node).trans (round_keeps sample.1 sample.2 distinct node)⟩

/-- **Rebalancing is sound**: what one round does, for every tally and cap, and what any
number of rounds keeps. -/
theorem rebalance_sound {bindings : List (String × String)}
    (distinct : (bindings.map Prod.fst).Nodup) :
    (∀ tally cap, RoundSound bindings tally cap (rebalance bindings tally cap)) ∧
      ∀ samples, (rounds bindings samples).map Prod.fst = bindings.map Prod.fst ∧
        ∀ node, 0 < load (rounds bindings samples) node ↔ 0 < load bindings node :=
  ⟨fun tally cap => rebalance_round tally cap distinct, rounds_keep distinct⟩

/-- Six accounts on two exits, one of which brought everything back. -/
def sixOnTwo : List (String × String) :=
  [("a", "slow"), ("b", "slow"), ("c", "slow"), ("d", "slow"), ("e", "quick"), ("f", "quick")]

theorem rebalance_sound_sixOnTwo :
    rebalance sixOnTwo [("quick", { fetched := 40, sessions := 2 })] 4 = [("d", "quick")] ∧
      ∀ samples, (rounds sixOnTwo samples).map Prod.fst = sixOnTwo.map Prod.fst ∧
        ∀ node, 0 < load (rounds sixOnTwo samples) node ↔ 0 < load sixOnTwo node :=
  ⟨by decide +kernel, (rebalance_sound (by decide)).2⟩

/-! ## The pool applies a round -/

/-- The node of an enabled account of the pool's half, when it names one. -/
def bindingOf (account : StoredAccount) : Option (String × String) :=
  let node := Text.trim account.node
  if account.enabled && account.purpose == .refetch && node != "" then
    some (account.username, node)
  else none

def refetchBindings (rows : List StoredAccount) : List (String × String) :=
  rows.filterMap bindingOf

/-- No two rows have usernames that differ in ASCII letter case only. -/
def NamesApart (rows : List StoredAccount) : Prop :=
  rows.Pairwise fun a b => eqIgnoreAsciiCase a.username b.username = false

/-- The row a move names. -/
def namedBy (move : String × String) (account : StoredAccount) : Bool :=
  eqIgnoreAsciiCase account.username move.1 && account.purpose == .refetch

theorem namedBy_unique {rows : List StoredAccount} (apart : NamesApart rows)
    {move : String × String} {i j : Nat} {a b : StoredAccount} (first : rows[i]? = some a)
    (second : rows[j]? = some b) (left : namedBy move a) (right : namedBy move b) : i = j := by
  obtain ⟨inI, rfl⟩ := List.getElem?_eq_some_iff.mp first
  obtain ⟨inJ, rfl⟩ := List.getElem?_eq_some_iff.mp second
  simp only [namedBy, eqIgnoreAsciiCase, Bool.and_eq_true, beq_iff_eq] at left right
  have same : asciiLower rows[i].username = asciiLower rows[j].username :=
    left.1.trans right.1.symm
  rcases Nat.lt_trichotomy i j with before | here | after
  · have differ := List.pairwise_iff_getElem.mp apart i j inI inJ before
    simp [eqIgnoreAsciiCase, same] at differ
  · exact here
  · have differ := List.pairwise_iff_getElem.mp apart j i inJ inI after
    simp [eqIgnoreAsciiCase, same] at differ

/-- A row with the node of a move that names it. -/
def rebound (move : String × String) (account : StoredAccount) : StoredAccount :=
  if namedBy move account then { account with node := move.2 } else account

/-- A move sets the node of the row it names, and of no other. -/
theorem rebindRow_eq {rows : List StoredAccount} (apart : NamesApart rows) (count : Nat)
    (move : String × String) : (rebindRow (rows, count) move).1 = rows.map (rebound move) := by
  unfold rebindRow
  dsimp only
  rw [show (fun account : StoredAccount => eqIgnoreAsciiCase account.username move.1 &&
    account.purpose == .refetch) = namedBy move from rfl]
  cases found : rows[rows.findIdx (namedBy move)]? with
  | none =>
      have none_ : ∀ account ∈ rows, namedBy move account = false := by
        intro account member
        by_contra named
        have inside : rows.findIdx (namedBy move) < rows.length :=
          List.findIdx_lt_length_of_exists ⟨account, member, by simpa using named⟩
        rw [List.getElem?_eq_getElem inside] at found
        simp at found
      symm
      refine (List.map_congr_left fun account member => ?_).trans (List.map_id rows)
      simp [rebound, none_ account member]
  | some account =>
      obtain ⟨inside, here⟩ := List.getElem?_eq_some_iff.mp found
      have named : namedBy move account := here ▸ List.findIdx_getElem (w := inside)
      -- every other row is not the one named
      have others : ∀ i other, rows[i]? = some other →
          namedBy move other = decide (i = rows.findIdx (namedBy move)) := by
        intro i other at_
        by_cases same : i = rows.findIdx (namedBy move)
        · subst same
          rw [found] at at_
          obtain rfl := Option.some.inj at_
          simpa using named
        · rw [decide_eq_false same]
          by_contra also
          exact same (namedBy_unique apart at_ found (by simpa using also) named)
      have modified : rows.map (rebound move) =
          rows.modify (rows.findIdx (namedBy move)) fun account =>
            { account with node := move.2 } := by
        apply List.ext_getElem?
        intro i
        rw [List.getElem?_map, List.getElem?_modify]
        cases at_ : rows[i]? with
        | none => rfl
        | some other =>
            simp only [Option.map_some, rebound, others i other at_, decide_eq_true_eq]
            by_cases same : i = rows.findIdx (namedBy move)
            · simp [same]
            · simp [same, Ne.symm same]
      dsimp only
      split
      · rename_i already
        show rows = _
        rw [modified]
        apply List.ext_getElem?
        intro i
        rw [List.getElem?_modify]
        split
        · rename_i same
          rw [← same, found, ← already]
          rfl
        · simp
      · exact modified.symm

theorem rebound_apart {rows : List StoredAccount} (apart : NamesApart rows)
    (move : String × String) : NamesApart (rows.map (rebound move)) := by
  refine List.pairwise_map.mpr (apart.imp ?_)
  intro a b differ
  have same : ∀ account, (rebound move account).username = account.username := by
    intro account
    unfold rebound
    split <;> rfl
  rwa [same, same]

theorem bindingOf_eq_some {account : StoredAccount} {binding : String × String} :
    bindingOf account = some binding ↔
      account.enabled = true ∧ account.purpose = .refetch ∧ Text.trim account.node ≠ "" ∧
        (account.username, Text.trim account.node) = binding := by
  unfold bindingOf
  dsimp only
  split
  · rename_i counts
    simp only [Bool.and_eq_true, beq_iff_eq, bne_iff_ne] at counts
    simp [counts]
  · rename_i skipped
    simp only [Bool.and_eq_true, beq_iff_eq, bne_iff_ne, not_and] at skipped
    simp only [reduceCtorEq, false_iff, not_and]
    intro on half some_
    exact absurd some_ (skipped ⟨on, half⟩)

/-- **A move rebinds the account it names**, when that account is bound. -/
theorem refetchBindings_rebindRow {rows : List StoredAccount} (apart : NamesApart rows)
    {move : String × String} (bound : move.1 ∈ (refetchBindings rows).map Prod.fst)
    (trimmed : Text.trim move.2 = move.2) (some_ : move.2 ≠ "") (count : Nat) :
    refetchBindings (rebindRow (rows, count) move).1 = applyMove (refetchBindings rows) move := by
  rw [rebindRow_eq apart]
  unfold refetchBindings applyMove
  rw [List.filterMap_map, List.map_filterMap]
  apply List.filterMap_congr
  intro account member
  show bindingOf (rebound move account) = (bindingOf account).map _
  obtain ⟨⟨username, node⟩, listed, named⟩ := List.mem_map.mp bound
  obtain ⟨row, held, binding⟩ := List.mem_filterMap.mp listed
  obtain ⟨on, half, placed, pair⟩ := bindingOf_eq_some.mp binding
  have own : row.username = move.1 := (congrArg Prod.fst pair).trans named
  have rowNamed : namedBy move row = true := by
    simp [namedBy, eqIgnoreAsciiCase, own, half]
  by_cases here : namedBy move account = true
  · have same : account = row := by
      obtain ⟨i, atI⟩ := List.getElem?_of_mem member
      obtain ⟨j, atJ⟩ := List.getElem?_of_mem held
      have equal := namedBy_unique apart atI atJ here rowNamed
      rw [equal, atJ] at atI
      exact (Option.some.inj atI).symm
    subst same
    rw [bindingOf_eq_some.mpr ⟨on, half, placed, rfl⟩, rebound, if_pos here, Option.map_some,
      if_pos own]
    refine bindingOf_eq_some.mpr ⟨on, half, ?_, ?_⟩
    · exact trimmed.symm ▸ some_
    · show (account.username, Text.trim move.2) = _
      rw [trimmed]
  · rw [rebound, if_neg here]
    cases found : bindingOf account with
    | none => rfl
    | some binding =>
        obtain ⟨-, half, -, rfl⟩ := bindingOf_eq_some.mp found
        have other : account.username ≠ move.1 := by
          intro same
          exact here (by simp [namedBy, eqIgnoreAsciiCase, same, half])
        rw [Option.map_some, if_neg other]

/-- The moves of a round one after another. -/
theorem refetchBindings_rebound {rows : List StoredAccount} (apart : NamesApart rows)
    {moves : List (String × String)}
    (bound : ∀ move ∈ moves, move.1 ∈ (refetchBindings rows).map Prod.fst)
    (trimmed : ∀ move ∈ moves, Text.trim move.2 = move.2 ∧ move.2 ≠ "") (count : Nat) :
    refetchBindings (moves.foldl rebindRow (rows, count)).1 =
      applied (refetchBindings rows) moves := by
  unfold applied
  induction moves generalizing rows count with
  | nil => rfl
  | cons move rest ih =>
      obtain ⟨⟨tidy, some_⟩, later⟩ := List.forall_mem_cons.mp trimmed
      obtain ⟨here, others⟩ := List.forall_mem_cons.mp bound
      have one := refetchBindings_rebindRow apart here tidy some_ count
      have accounts : (applyMove (refetchBindings rows) move).map Prod.fst =
          (refetchBindings rows).map Prod.fst := applied_accounts _ [move]
      have next : NamesApart (rebindRow (rows, count) move).1 := by
        rw [rebindRow_eq apart]
        exact rebound_apart apart move
      rw [List.foldl_cons, List.foldl_cons, ← one]
      refine ih next ?_ later _
      intro other member
      rw [one, accounts]
      exact others other member

theorem namesApart_of_unique {lower : String → String}
    (ascii : ∀ a b, eqIgnoreAsciiCase a b = true → lower a = lower b) {rows : List StoredAccount}
    (unique : (identities lower rows).Nodup) : NamesApart rows := by
  refine (List.pairwise_map.mp unique).imp ?_
  intro a b differ
  by_contra same
  refine differ (ascii _ _ (eqIgnoreAsciiCase_trim ?_))
  simpa using same

/-- A binding with its username trimmed, as a write of the pool leaves it. -/
def tidied (binding : String × String) : String × String := (Text.trim binding.1, binding.2)

theorem refetchBindings_updatedRows (pool : AccountPool) (rows : List StoredAccount)
    (newId : Nat → String) :
    refetchBindings (updatedRows pool rows newId) = (refetchBindings rows).map tidied := by
  have each : ∀ account id, bindingOf (restoredRow pool.document.accounts id account) =
      (bindingOf account).map tidied := by
    intro account id
    unfold bindingOf restoredRow
    dsimp only
    split <;> rfl
  unfold refetchBindings updatedRows
  rw [List.map_filterMap]
  induction rows generalizing newId with
  | nil => rfl
  | cons account rest ih =>
      rw [List.mapIdx_cons, List.filterMap_cons, List.filterMap_cons, each, ih]

/-- **A round the pool has written is the round applied**, up to the blanks around the
usernames: no move misses its account, and none takes another's. -/
theorem rebindNodes_applies {lower : String → String}
    (ascii : ∀ a b, eqIgnoreAsciiCase a b = true → lower a = lower b) {pool next : AccountPool}
    (inv : PoolInv lower pool) (tally : Tally) (cap : Nat) {newId : Nat → String} {now : DateTime}
    {fault : Option PersistFault} {moved : Nat}
    (saved : pool.rebindNodes lower
      (rebalance (refetchBindings pool.document.accounts) tally cap) newId now fault =
        (.ok moved, next)) :
    (refetchBindings next.document.accounts).map tidied =
      (applied (refetchBindings pool.document.accounts)
        (rebalance (refetchBindings pool.document.accounts) tally cap)).map tidied := by
  have apart := namesApart_of_unique ascii inv.unique
  generalize planned : rebalance (refetchBindings pool.document.accounts) tally cap = moves at saved ⊢
  have ends : ∀ move ∈ moves, (∃ node, (move.1, node) ∈ refetchBindings pool.document.accounts) ∧
      ∃ username, (username, move.2) ∈ refetchBindings pool.document.accounts := by
    intro move member
    rw [← planned] at member
    obtain ⟨donor, giving, taker, taking, tail, named, -, -⟩ := move_ends member
    obtain ⟨-, some_, -⟩ := mem_ranked.mp taking
    obtain ⟨username, held⟩ := List.exists_mem_of_ne_nil _ some_
    exact ⟨⟨donor.node, (mem_held giving _).mp (List.mem_of_mem_tail tail)⟩, username,
      named ▸ (mem_held taking _).mp held⟩
  have bound : ∀ move ∈ moves, move.1 ∈ (refetchBindings pool.document.accounts).map Prod.fst := by
    intro move member
    obtain ⟨node, held⟩ := (ends move member).1
    exact List.mem_map.mpr ⟨_, held, rfl⟩
  have trimmed : ∀ move ∈ moves, Text.trim move.2 = move.2 ∧ move.2 ≠ "" := by
    intro move member
    obtain ⟨username, held⟩ := (ends move member).2
    obtain ⟨account, -, binding⟩ := List.mem_filterMap.mp held
    obtain ⟨-, -, some_, pair⟩ := bindingOf_eq_some.mp binding
    have node : Text.trim account.node = move.2 := congrArg Prod.snd pair
    rw [← node]
    exact ⟨Text.trim_trim _, some_⟩
  have round := refetchBindings_rebound apart bound trimmed 0
  by_cases idle : moves = []
  · subst idle
    obtain ⟨-, rfl⟩ := Prod.mk.inj saved
    rfl
  · unfold AccountPool.rebindNodes at saved
    rw [if_neg (by simpa using idle)] at saved
    obtain ⟨answered, rfl⟩ := Prod.mk.inj saved
    rcases @update_written lower pool
        { pool.document with accounts := (moves.foldl rebindRow (pool.document.accounts, 0)).1 }
        newId now fault with ⟨⟨error, failed⟩, -⟩ | ⟨-, -, later, same⟩
    · rw [failed] at answered
      simp [Except.map] at answered
    · dsimp only at same ⊢
      rw [same]
      dsimp only
      rw [refetchBindings_updatedRows, round, List.map_map]
      refine List.map_congr_left fun binding _ => ?_
      show (Text.trim (Text.trim binding.1), binding.2) = (Text.trim binding.1, binding.2)
      rw [Text.trim_trim]

end MajsoulManager.Refetch
