/-
# Refetch.WalkTally — when the walk stops

The walk runs round after round, and `WalkTally::after` says after each whether it
stops.  Two counters carry that decision: the finished rounds so far, and the
rounds in a row that neither finished nor replaced anything.

* `verdict_law`: while the walk goes on, the counters are what they should be, so
  each verdict is given at its own rounds and at no others.
* `walks_forever`: a walk that never stops keeps replacing in unfinished rounds.
-/
import MajsoulManager.Refetch.Sweep
import Mathlib.Data.Set.Finite.Lattice

namespace MajsoulManager.Refetch

set_option autoImplicit false

/-! ## One round -/

/-- The round neither reached the end nor replaced anything. -/
def PassOutcome.wasted (outcome : PassOutcome) : Bool :=
  !outcome.finished && outcome.replaced == 0

theorem PassOutcome.wasted_iff (outcome : PassOutcome) :
    outcome.wasted = true ↔ outcome.finished = false ∧ outcome.replaced = 0 := by
  simp [PassOutcome.wasted]

theorem WalkTally.after_stumbles (tally : WalkTally) (outcome : PassOutcome) :
    (tally.after outcome).1.stumbles = if outcome.wasted then tally.stumbles + 1 else 0 := by
  have reset : (if outcome.finished || 0 < outcome.replaced then 0 else tally.stumbles + 1) =
      if outcome.wasted then tally.stumbles + 1 else 0 := by
    cases finished : outcome.finished with
    | true => simp [PassOutcome.wasted, finished]
    | false =>
        rcases Nat.eq_zero_or_pos outcome.replaced with none | some
        · simp [PassOutcome.wasted, finished, none]
        · simp [PassOutcome.wasted, finished, some, Nat.ne_of_gt some]
  rw [← reset, WalkTally.after]
  generalize (if outcome.finished || 0 < outcome.replaced then 0 else tally.stumbles + 1) = stumbles
  dsimp only
  split
  · rfl
  · split
    · rfl
    · split <;> rfl

theorem WalkTally.after_passes (tally : WalkTally) (outcome : PassOutcome) :
    (tally.after outcome).1.passes = tally.passes + if outcome.finished then 1 else 0 := by
  unfold WalkTally.after
  cases finished : outcome.finished with
  | true =>
      simp only [Bool.true_or, if_true, Bool.true_eq_false, if_false]
      split
      · rename_i impossible
        simp [maxStumbles] at impossible
      · split <;> rfl
  | false =>
      generalize (if false || 0 < outcome.replaced then 0 else tally.stumbles + 1) = stumbles
      simp only [if_true]
      split <;> rfl

/-- **One round**: what the walk is told after it. -/
theorem WalkTally.after_verdict (tally : WalkTally) (outcome : PassOutcome) :
    (tally.after outcome).2 =
      if outcome.wasted then if maxStumbles ≤ tally.stumbles + 1 then some .stalled else none
      else if outcome.finished = false then none
      else if outcome.replaced = 0 then some .done
      else if maxPasses ≤ tally.passes + 1 then some .exhausted else none := by
  unfold WalkTally.after
  cases finished : outcome.finished with
  | true =>
      have few : ¬ maxStumbles ≤ 0 := by simp [maxStumbles]
      simp only [PassOutcome.wasted, finished, Bool.true_or, if_true, Bool.not_true,
        Bool.false_and, Bool.true_eq_false, if_false, few, Bool.false_eq_true]
      split <;> rfl
  | false =>
      rcases Nat.eq_zero_or_pos outcome.replaced with none | some
      · simp only [PassOutcome.wasted, finished, none, Bool.false_or, Nat.lt_irrefl, decide_false,
          Bool.false_eq_true, if_false, Bool.not_false, Bool.true_and, beq_self_eq_true, if_true]
        split <;> rfl
      · simp [PassOutcome.wasted, finished, some, Nat.ne_of_gt some, maxStumbles]

/-! ## Round after round -/

/-- The counters before round `n`. -/
def tallyBefore (rounds : Nat → PassOutcome) : Nat → WalkTally
  | 0 => {}
  | n + 1 => ((tallyBefore rounds n).after (rounds n)).1

/-- What the walk is told after round `n`, if it came to it. -/
def verdict (rounds : Nat → PassOutcome) (n : Nat) : Option WalkStop :=
  ((tallyBefore rounds n).after (rounds n)).2

/-- No verdict before round `n`: the walk comes to it. -/
def Continues (rounds : Nat → PassOutcome) (n : Nat) : Prop :=
  ∀ m < n, verdict rounds m = none

/-- A finished round that replaced nothing. -/
def DoneAt (rounds : Nat → PassOutcome) (n : Nat) : Prop :=
  (rounds n).finished = true ∧ (rounds n).replaced = 0

/-- The last `maxStumbles` rounds were all unfinished and replaced nothing. -/
def StalledAt (rounds : Nat → PassOutcome) (n : Nat) : Prop :=
  maxStumbles ≤ n + 1 ∧ ∀ m, n + 1 - maxStumbles ≤ m → m ≤ n →
    (rounds m).finished = false ∧ (rounds m).replaced = 0

/-- The finished rounds among the first `n`. -/
def finishedBefore (rounds : Nat → PassOutcome) (n : Nat) : Nat :=
  ((List.range n).filter fun m => (rounds m).finished).length

/-- The `maxPasses`-th finished round, and it still replaced something. -/
def ExhaustedAt (rounds : Nat → PassOutcome) (n : Nat) : Prop :=
  (rounds n).finished = true ∧ 0 < (rounds n).replaced ∧
    finishedBefore rounds (n + 1) = maxPasses

variable {rounds : Nat → PassOutcome}

theorem finishedBefore_succ (n : Nat) :
    finishedBefore rounds (n + 1) =
      finishedBefore rounds n + if (rounds n).finished then 1 else 0 := by
  simp only [finishedBefore, List.range_succ, List.filter_append, List.length_append]
  cases finished : (rounds n).finished <;> simp [finished]

theorem tallyBefore_passes (n : Nat) :
    (tallyBefore rounds n).passes = finishedBefore rounds n := by
  induction n with
  | zero => rfl
  | succ n ih => rw [tallyBefore, WalkTally.after_passes, ih, finishedBefore_succ]

/-- The stumbles are the wasted rounds at the end: so many rounds were wasted, and
the round before them, if any, was not. -/
theorem tallyBefore_stumbles (n : Nat) :
    (tallyBefore rounds n).stumbles ≤ n ∧
      (∀ m, n - (tallyBefore rounds n).stumbles ≤ m → m < n → (rounds m).wasted = true) ∧
      ∀ m, m + 1 + (tallyBefore rounds n).stumbles = n → (rounds m).wasted = false := by
  induction n with
  | zero => exact ⟨Nat.le_refl 0, by omega, by omega⟩
  | succ n ih =>
      obtain ⟨few, run, stop⟩ := ih
      rw [tallyBefore, WalkTally.after_stumbles]
      cases here : (rounds n).wasted with
      | false =>
          refine ⟨Nat.zero_le _, by simp; omega, ?_⟩
          intro m same
          have : m = n := by simpa using same
          rw [this]
          exact here
      | true =>
          simp only [if_true]
          refine ⟨by omega, ?_, ?_⟩
          · intro m low high
            rcases Nat.lt_succ_iff_lt_or_eq.mp high with earlier | rfl
            · exact run m (by omega) earlier
            · exact here
          · intro m same
            exact stop m (by omega)

/-- Enough stumbles before a wasted round are `maxStumbles` wasted rounds with it. -/
theorem stalledAt_iff (n : Nat) :
    StalledAt rounds n ↔
      (rounds n).wasted = true ∧ maxStumbles ≤ (tallyBefore rounds n).stumbles + 1 := by
  obtain ⟨few, run, stop⟩ := @tallyBefore_stumbles rounds n
  have some : 0 < maxStumbles := by decide
  constructor
  · rintro ⟨long, all⟩
    refine ⟨(PassOutcome.wasted_iff _).mpr (all n (by omega) (Nat.le_refl n)), ?_⟩
    by_contra short
    -- the round before the run would be among the last ones
    have broken := stop (n - (tallyBefore rounds n).stumbles - 1) (by omega)
    have wasted := (PassOutcome.wasted_iff _).mpr
      (all (n - (tallyBefore rounds n).stumbles - 1) (by omega) (by omega))
    rw [broken] at wasted
    cases wasted
  · rintro ⟨here, enough⟩
    refine ⟨by omega, ?_⟩
    intro m low high
    rcases Nat.lt_or_eq_of_le high with earlier | rfl
    · exact (PassOutcome.wasted_iff _).mp (run m (by omega) earlier)
    · exact (PassOutcome.wasted_iff _).mp here

/-- A finished round that the walk went on after replaced something, and was not the
`maxPasses`-th. -/
theorem finished_of_continues {n : Nat} (on : verdict rounds n = none)
    (finished : (rounds n).finished = true) :
    0 < (rounds n).replaced ∧ finishedBefore rounds (n + 1) < maxPasses := by
  have told := WalkTally.after_verdict (tallyBefore rounds n) (rounds n)
  rw [← verdict, on] at told
  have kept : (rounds n).wasted = false := by simp [PassOutcome.wasted, finished]
  simp only [kept, finished, Bool.false_eq_true, Bool.true_eq_false, if_false] at told
  split at told
  · cases told
  · split at told
    · cases told
    · rename_i some more
      rw [finishedBefore_succ, ← tallyBefore_passes, finished]
      simp only [if_true]
      omega

/-- Fewer than `maxPasses` rounds have finished while the walk goes on. -/
theorem finishedBefore_lt {n : Nat} (going : Continues rounds n) :
    finishedBefore rounds n < maxPasses := by
  induction n with
  | zero => simp [finishedBefore, maxPasses]
  | succ n ih =>
      have before := ih fun m less => going m (by omega)
      cases finished : (rounds n).finished with
      | true => exact (finished_of_continues (going n (Nat.lt_succ_self n)) finished).2
      | false =>
          rw [finishedBefore_succ, finished]
          simpa using before

/-- **What the walk is told, and when.**  At a round the walk comes to, each verdict
is given exactly at its own condition, and none at any other round. -/
theorem verdict_law (rounds : Nat → PassOutcome) (n : Nat) (going : Continues rounds n) :
    (verdict rounds n = some .done ↔ DoneAt rounds n) ∧
      (verdict rounds n = some .stalled ↔ StalledAt rounds n) ∧
      (verdict rounds n = some .exhausted ↔ ExhaustedAt rounds n) ∧
      (verdict rounds n = none ↔
        ¬ DoneAt rounds n ∧ ¬ StalledAt rounds n ∧ ¬ ExhaustedAt rounds n) := by
  have few := finishedBefore_lt going
  rw [verdict, WalkTally.after_verdict, stalledAt_iff, tallyBefore_passes, DoneAt, ExhaustedAt,
    finishedBefore_succ]
  cases finished : (rounds n).finished with
  | true =>
      have kept : (rounds n).wasted = false := by simp [PassOutcome.wasted, finished]
      by_cases none : (rounds n).replaced = 0
      · simp [kept, none]
      · by_cases last : maxPasses ≤ finishedBefore rounds n + 1
        · have same : finishedBefore rounds n + 1 = maxPasses := by omega
          simp [kept, none, same, Nat.pos_of_ne_zero none]
        · have more : finishedBefore rounds n + 1 ≠ maxPasses := by omega
          simp [kept, none, last, more]
  | false =>
      by_cases wasted : (rounds n).wasted = true
      · by_cases stalled : maxStumbles ≤ (tallyBefore rounds n).stumbles + 1
        · simp [wasted, stalled]
        · simp [wasted, stalled]
      · simp [wasted]

/-! ## A walk that never stops -/

/-- A round that went on and was not finished: either it replaced something, or it
was wasted. -/
theorem wasted_of_barren {n : Nat} (barren : ¬ ((rounds n).finished = false ∧ 0 < (rounds n).replaced))
    (unfinished : (rounds n).finished = false) : (rounds n).wasted = true := by
  refine (PassOutcome.wasted_iff _).mpr ⟨unfinished, ?_⟩
  by_contra some
  exact barren ⟨unfinished, Nat.pos_of_ne_zero some⟩

theorem finishedBefore_mono {m n : Nat} (le : m ≤ n) :
    finishedBefore rounds m ≤ finishedBefore rounds n := by
  induction n, le using Nat.le_induction with
  | base => exact Nat.le_refl _
  | succ n _ ih =>
      rw [finishedBefore_succ]
      omega

/-- Without an unfinished round that replaces, one of any `maxStumbles` rounds in a
row is finished. -/
theorem finished_among {start : Nat} (forever : ∀ n, verdict rounds n = none)
    (barren : ∀ n, start ≤ n → ¬ ((rounds n).finished = false ∧ 0 < (rounds n).replaced)) :
    finishedBefore rounds start < finishedBefore rounds (start + maxStumbles) := by
  have none : ¬ StalledAt rounds (start + maxStumbles - 1) := fun stalled => by
    have told := (verdict_law rounds _ fun m _ => forever m).2.1.mpr stalled
    rw [forever] at told
    cases told
  have some : 0 < maxStumbles := by decide
  by_contra same
  refine none ⟨by omega, ?_⟩
  intro m low high
  -- no round of these is finished: the count stands still over them
  have unfinished : (rounds m).finished = false := by
    by_contra finished
    have steps := @finishedBefore_succ rounds m
    rw [Bool.eq_true_of_not_eq_false finished] at steps
    have low' := @finishedBefore_mono rounds _ _ (show start ≤ m by omega)
    have high' := @finishedBefore_mono rounds _ _ (show m + 1 ≤ start + maxStumbles by omega)
    simp only [if_true] at steps
    omega
  exact (PassOutcome.wasted_iff _).mp (wasted_of_barren (barren m (by omega)) unfinished)

/-- **A walk that never stops has infinitely many unfinished rounds that replaced
something.** -/
theorem unfinished_replacing_infinite (forever : ∀ n, verdict rounds n = none) :
    {n | (rounds n).finished = false ∧ 0 < (rounds n).replaced}.Infinite := by
  refine Set.infinite_of_forall_exists_gt fun bound => ?_
  by_contra last
  have barren : ∀ n, bound + 1 ≤ n →
      ¬ ((rounds n).finished = false ∧ 0 < (rounds n).replaced) :=
    fun n above productive => last ⟨n, productive, above⟩
  have grows : ∀ k, k ≤ finishedBefore rounds (bound + 1 + k * maxStumbles) := by
    intro k
    induction k with
    | zero => exact Nat.zero_le _
    | succ k ih =>
        have more := @finished_among rounds (bound + 1 + k * maxStumbles) forever
          fun n above => barren n (by omega)
        rw [Nat.succ_mul, ← Nat.add_assoc]
        omega
  have few := finishedBefore_lt (n := bound + 1 + maxPasses * maxStumbles) fun m _ => forever m
  have enough := grows maxPasses
  omega

/-- **The walk's verdicts.**  The first verdict is `Done` at a finished round that
replaced nothing, `Stalled` at the end of `maxStumbles` wasted rounds, `Exhausted` at
a replacing `maxPasses`-th finished round; any other round goes on, and going on
forever takes unfinished rounds that replace, infinitely many of them. -/
theorem walk_verdicts (rounds : Nat → PassOutcome) :
    (∀ n, (∀ m < n, verdict rounds m = none) →
      (verdict rounds n = some .done ↔ DoneAt rounds n) ∧
        (verdict rounds n = some .stalled ↔ StalledAt rounds n) ∧
        (verdict rounds n = some .exhausted ↔ ExhaustedAt rounds n) ∧
        (verdict rounds n = none ↔
          ¬ DoneAt rounds n ∧ ¬ StalledAt rounds n ∧ ¬ ExhaustedAt rounds n)) ∧
      ((∀ n, verdict rounds n = none) →
        {n | (rounds n).finished = false ∧ 0 < (rounds n).replaced}.Infinite) :=
  ⟨verdict_law rounds, unfinished_replacing_infinite⟩

/-- Twelve finished rounds that replaced, the last of them the end. -/
theorem walk_exhausted_at_twelve :
    verdict (fun _ => ⟨500, 5, true⟩) 11 = some .exhausted := by
  have going : ∀ m < 11, verdict (fun _ => ⟨500, 5, true⟩) m = none := by decide
  exact ((walk_verdicts fun _ => ⟨500, 5, true⟩).1 11 going).2.2.1.mpr (by
    unfold ExhaustedAt
    decide)

end MajsoulManager.Refetch
