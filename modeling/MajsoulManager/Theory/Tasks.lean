/-
# Theory.Tasks — tasks in flight, and results in a row

Tasks are a list, one place each, and a step changes one of them; what is counted over
the list changes by that place alone (`countP_set_place`, `sum_map_set_place`).  Results are
listed in the order they land; `inARow` is how many failures end that list.
-/
import Mathlib

namespace MajsoulManager.Theory

set_option autoImplicit false

variable {α : Type}

theorem countP_set_place {tasks : List α} {i : Nat} {old : α} (here : tasks[i]? = some old)
    (p : α → Bool) (new : α) :
    (tasks.set i new).countP p + (p old).toNat = tasks.countP p + (p new).toNat := by
  obtain ⟨inside, rfl⟩ := List.getElem?_eq_some_iff.mp here
  rw [List.countP_set inside]
  cases before : p tasks[i] with
  | false => cases p new <;> simp
  | true =>
      have counted : 0 < tasks.countP p :=
        List.countP_pos_iff.mpr ⟨_, List.getElem_mem inside, before⟩
      cases p new
      · simp only [Bool.false_eq_true, ↓reduceIte, Bool.toNat_true, Bool.toNat_false]
        omega
      · simp only [↓reduceIte, Bool.toNat_true]
        omega

theorem countP_set_alike {tasks : List α} {i : Nat} {old new : α} {p : α → Bool}
    (here : tasks[i]? = some old) (alike : p new = p old) :
    (tasks.set i new).countP p = tasks.countP p := by
  have placed := countP_set_place here p new
  rw [alike] at placed
  exact Nat.add_right_cancel placed

theorem sum_map_set_place {tasks : List α} {i : Nat} {old : α} (here : tasks[i]? = some old)
    (f : α → Nat) (new : α) :
    ((tasks.set i new).map f).sum + f old = (tasks.map f).sum + f new := by
  induction tasks generalizing i with
  | nil => cases here
  | cons task rest ih =>
      cases i with
      | zero =>
          obtain rfl := Option.some.inj here
          simp only [List.set_cons_zero, List.map_cons, List.sum_cons]
          omega
      | succ i =>
          have changed := ih (i := i) here
          simp only [List.set_cons_succ, List.map_cons, List.sum_cons]
          omega

theorem sum_map_set_place_lt {tasks : List α} {i : Nat} {old new : α} {f : α → Nat}
    (here : tasks[i]? = some old) (less : f new < f old) :
    ((tasks.set i new).map f).sum < (tasks.map f).sum := by
  have placed := sum_map_set_place here f new
  omega

/-- The failures since the last success. -/
def inARow (results : List Bool) : Nat := (results.reverse.takeWhile (!·)).length

theorem inARow_succeeded (results : List Bool) : inARow (results ++ [true]) = 0 := by
  simp [inARow]

theorem inARow_failed (results : List Bool) : inARow (results ++ [false]) = inARow results + 1 := by
  simp [inARow]

end MajsoulManager.Theory
