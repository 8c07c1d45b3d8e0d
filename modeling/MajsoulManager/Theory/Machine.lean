/-
# Theory.Machine — labelled machines, their runs, and the invariant rules

A machine is a set of start states and a partial step function; every choice the
environment makes (a fault, an interleaving, a fresh name) is carried by the
action, so a run is a list of actions and can be replayed.

* `run_preserves`: what every step preserves, every run preserves.
* `run_preserves_of_meets`: the same for the runs whose steps all meet a
  condition on the state they are taken in (`Meets`).
* `meets_of_not_trapped`: the converse, where a step that breaks the condition is
  never made good; `meets_of_throughout`: the converse for what holds all along a run.
* `Reachable.invariant`: what holds at the start and is preserved by every step
  holds in every reachable state.
-/
import Mathlib

namespace MajsoulManager.Theory

set_option autoImplicit false

universe u v

/-- A machine: the states it may start in, and the state each action leads to.
`none` means that the action is not enabled there. -/
structure Machine (State : Type u) (Action : Type v) where
  Start : State → Prop
  step : State → Action → Option State

namespace Machine

variable {State : Type u} {Action : Type v} (M : Machine State Action)

/-- The state a list of actions leads to, when each is enabled in turn. -/
def run : State → List Action → Option State
  | state, [] => some state
  | state, action :: rest => (M.step state action).bind fun next => run next rest

/-- Every action of the run meets `ok` in the state it is taken in. -/
def Meets (ok : State → Action → Prop) : State → List Action → Prop
  | _, [] => True
  | state, action :: rest =>
      ok state action ∧ ∀ next, M.step state action = some next → Meets ok next rest

/-- Whether a run meets a decidable condition can be computed. -/
instance decidableMeets {ok : State → Action → Prop} [∀ s a, Decidable (ok s a)] :
    ∀ state actions, Decidable (M.Meets ok state actions)
  | _, [] => .isTrue trivial
  | state, action :: rest =>
      match stepped : M.step state action with
      | none => decidable_of_iff (ok state action) (by simp [Meets, stepped])
      | some next =>
          have : Decidable (M.Meets ok next rest) := decidableMeets next rest
          decidable_of_iff (ok state action ∧ M.Meets ok next rest) (by simp [Meets, stepped])

def Reachable (state : State) : Prop :=
  ∃ start actions, M.Start start ∧ M.run start actions = some state

variable {M}

theorem run_cons_eq_some {state final : State} {action : Action} {rest : List Action} :
    M.run state (action :: rest) = some final ↔
      ∃ next, M.step state action = some next ∧ M.run next rest = some final := by
  simp [run, Option.bind_eq_some_iff]

/-- A concrete run is found by computing it. -/
theorem run_exists {P : State → Prop} [DecidablePred P] {state : State} {actions : List Action}
    (found : (M.run state actions).any (fun final => decide (P final)) = true) :
    ∃ final, M.run state actions = some final ∧ P final := by
  obtain ⟨final, ran, holds⟩ := (Option.any_eq_true _ _).mp found
  exact ⟨final, ran, of_decide_eq_true holds⟩

theorem run_append {state final : State} {first second : List Action} :
    M.run state (first ++ second) = some final ↔
      ∃ middle, M.run state first = some middle ∧ M.run middle second = some final := by
  induction first generalizing state with
  | nil => simp [run]
  | cons action rest ih =>
      simp only [List.cons_append, run_cons_eq_some, ih]
      constructor
      · rintro ⟨next, stepped, middle, early, late⟩
        exact ⟨middle, ⟨next, stepped, early⟩, late⟩
      · rintro ⟨middle, ⟨next, stepped, early⟩, late⟩
        exact ⟨next, stepped, middle, early, late⟩

/-- **The run rule, guarded.**  What every step meeting `ok` preserves, every run
whose steps all meet `ok` preserves. -/
theorem run_preserves_of_meets {ok : State → Action → Prop} {P : State → Prop}
    (kept : ∀ s a t, P s → ok s a → M.step s a = some t → P t)
    {state final : State} {actions : List Action} (met : M.Meets ok state actions)
    (ran : M.run state actions = some final) (holds : P state) : P final := by
  induction actions generalizing state with
  | nil =>
      cases ran
      exact holds
  | cons action rest ih =>
      obtain ⟨next, stepped, tail⟩ := run_cons_eq_some.mp ran
      exact ih (met.2 next stepped) tail (kept _ _ _ holds met.1 stepped)

theorem meets_append {ok : State → Action → Prop} {state : State} {first second : List Action} :
    M.Meets ok state (first ++ second) ↔
      M.Meets ok state first ∧
        ∀ middle, M.run state first = some middle → M.Meets ok middle second := by
  induction first generalizing state with
  | nil => simp [Meets, run]
  | cons action rest ih =>
      simp only [List.cons_append, Meets, ih, run_cons_eq_some]
      constructor
      · rintro ⟨here, later⟩
        refine ⟨⟨here, fun next stepped => (later next stepped).1⟩, ?_⟩
        rintro middle ⟨next, stepped, ran⟩
        exact (later next stepped).2 middle ran
      · rintro ⟨⟨here, early⟩, late⟩
        exact ⟨here, fun next stepped =>
          ⟨early next stepped, fun middle ran => late middle ⟨next, stepped, ran⟩⟩⟩

/-- What is before in a run that meets a condition meets it. -/
theorem meets_of_initial {ok : State → Action → Prop} {state : State} {first actions : List Action}
    (before : first <+: actions) (met : M.Meets ok state actions) : M.Meets ok state first := by
  obtain ⟨rest, rfl⟩ := before
  exact (meets_append.mp met).1

theorem Meets.imp {ok weaker : State → Action → Prop} (implied : ∀ s a, ok s a → weaker s a)
    {state : State} {actions : List Action} (met : M.Meets ok state actions) :
    M.Meets weaker state actions := by
  induction actions generalizing state with
  | nil => trivial
  | cons action rest ih => exact ⟨implied _ _ met.1, fun next stepped => ih (met.2 next stepped)⟩

/-- What an invariant and `ok` imply of a step is met by the runs whose steps meet `ok`. -/
theorem Meets.imp_of_invariant {ok good : State → Action → Prop} {P : State → Prop}
    (kept : ∀ s a t, P s → ok s a → M.step s a = some t → P t)
    (implied : ∀ s a, P s → ok s a → good s a) {state : State} {actions : List Action}
    (met : M.Meets ok state actions) (holds : P state) : M.Meets good state actions := by
  induction actions generalizing state with
  | nil => trivial
  | cons action rest ih =>
      exact ⟨implied _ _ holds met.1, fun next stepped =>
        ih (met.2 next stepped) (kept _ _ _ holds met.1 stepped)⟩

theorem meets_trivial (state : State) (actions : List Action) :
    M.Meets (fun _ _ => True) state actions := by
  induction actions generalizing state with
  | nil => trivial
  | cons action rest ih => exact ⟨trivial, fun next _ => ih next⟩

/-- **The ranking rule.**  Where each step that can be followed by another leaves less, a
run has no more steps than what it starts from, and one. -/
theorem run_length_le_of_meets {ok : State → Action → Prop} (rank : State → Nat)
    (less : ∀ s a t, ok s a → M.step s a = some t → (∃ b u, M.step t b = some u) → rank t < rank s)
    {state final : State} {actions : List Action} (met : M.Meets ok state actions)
    (ran : M.run state actions = some final) : actions.length ≤ rank state + 1 := by
  induction actions generalizing state with
  | nil => exact Nat.zero_le _
  | cons action rest ih =>
      obtain ⟨next, stepped, tail⟩ := run_cons_eq_some.mp ran
      have bounded := ih (met.2 next stepped) tail
      rw [List.length_cons]
      cases rest with
      | nil => exact Nat.succ_le_succ (Nat.zero_le _)
      | cons following more =>
          obtain ⟨after, again, -⟩ := run_cons_eq_some.mp tail
          have fewer := less _ _ _ met.1 stepped ⟨following, after, again⟩
          omega

/-- A condition on the actions alone is met by a run whose actions all meet it. -/
theorem meets_of_forall {ok : Action → Prop} {actions : List Action}
    (all : ∀ action ∈ actions, ok action) (state : State) :
    M.Meets (fun _ action => ok action) state actions := by
  induction actions generalizing state with
  | nil => trivial
  | cons action rest ih =>
      obtain ⟨here, later⟩ := List.forall_mem_cons.mp all
      exact ⟨here, fun next _ => ih later next⟩

/-- **The converse rule.**  When a step that does not meet `ok` leads into a
trap `Q` that no run leaves, the runs that do not end in the trap meet `ok`. -/
theorem meets_of_not_trapped {ok : State → Action → Prop} {P Q : State → Prop}
    (kept : ∀ s a t, P s → M.step s a = some t → P t)
    (sprung : ∀ s a t, P s → ¬ ok s a → M.step s a = some t → Q t)
    (stuck : ∀ s a t, P s ∧ Q s → M.step s a = some t → Q t)
    {state final : State} {actions : List Action} (ran : M.run state actions = some final)
    (holds : P state) (free : ¬ Q final) : M.Meets ok state actions := by
  induction actions generalizing state with
  | nil => trivial
  | cons action rest ih =>
      obtain ⟨next, stepped, tail⟩ := run_cons_eq_some.mp ran
      have after := kept _ _ _ holds stepped
      refine ⟨?_, fun other also => ?_⟩
      · by_contra broken
        have trapped : P final ∧ Q final := by
          refine run_preserves_of_meets (P := fun s => P s ∧ Q s) ?_ (meets_trivial next rest)
            tail ⟨after, sprung _ _ _ holds broken stepped⟩
          exact fun s a t both _ moved => ⟨kept s a t both.1 moved, stuck s a t both moved⟩
        exact free trapped.2
      · obtain rfl := Option.some.inj (stepped.symm.trans also)
        exact ih tail after

/-- The converse rule for a property of all the states a run passes through: the runs that
keep `P` throughout meet `ok`, when a step that does not meet it breaks `P`. -/
theorem meets_of_throughout {ok : State → Action → Prop} {P Q : State → Prop}
    (kept : ∀ s a t, Q s → M.step s a = some t → Q t)
    (breaks : ∀ s a t, Q s → P s → ¬ ok s a → M.step s a = some t → ¬ P t)
    {state final : State} {actions : List Action} (ran : M.run state actions = some final)
    (holds : Q state) (throughout : ∀ first middle, first <+: actions →
      M.run state first = some middle → P middle) : M.Meets ok state actions := by
  induction actions generalizing state with
  | nil => trivial
  | cons action rest ih =>
      obtain ⟨next, stepped, tail⟩ := run_cons_eq_some.mp ran
      refine ⟨?_, fun other also => ?_⟩
      · by_contra broken
        have before := throughout [] state List.nil_prefix rfl
        refine breaks _ _ _ holds before broken stepped (throughout [action] next ?_ ?_)
        · exact List.prefix_append [action] rest
        · exact run_cons_eq_some.mpr ⟨next, stepped, rfl⟩
      · obtain rfl := Option.some.inj (stepped.symm.trans also)
        refine ih tail (kept _ _ _ holds stepped) fun first middle before ran => ?_
        exact throughout (action :: first) middle (List.prefix_cons_inj action |>.mpr before)
          (run_cons_eq_some.mpr ⟨next, stepped, ran⟩)

/-- **The run rule.** -/
theorem run_preserves {P : State → Prop} (kept : ∀ s a t, P s → M.step s a = some t → P t)
    {state final : State} {actions : List Action}
    (ran : M.run state actions = some final) (holds : P state) : P final :=
  run_preserves_of_meets (fun s a t holds _ => kept s a t holds)
    (meets_trivial state actions) ran holds

/-- **The invariant rule.** -/
theorem Reachable.invariant {P : State → Prop} (initial : ∀ s, M.Start s → P s)
    (kept : ∀ s a t, P s → M.step s a = some t → P t) {state : State}
    (reached : M.Reachable state) : P state := by
  obtain ⟨start, actions, started, ran⟩ := reached
  exact run_preserves kept ran (initial start started)

theorem Reachable.step {state next : State} {action : Action} (reached : M.Reachable state)
    (stepped : M.step state action = some next) : M.Reachable next := by
  obtain ⟨start, actions, started, ran⟩ := reached
  exact ⟨start, actions ++ [action], started,
    run_append.mpr ⟨state, ran, run_cons_eq_some.mpr ⟨next, stepped, rfl⟩⟩⟩

end Machine

end MajsoulManager.Theory
