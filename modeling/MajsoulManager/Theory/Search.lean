/-
# Theory.Search — the least value that is accepted

A search asks a probe about one value at a time and keeps what it asked.  `climb` goes up
from a start by steps until a value is accepted; `bisect` closes in on the boundary from
a refused value below it and an accepted one above it.  Where everything above an
accepted value is accepted, the two find the least one (`climb_spec`, `bisect_spec`).
-/
import Mathlib

namespace MajsoulManager.Theory

set_option autoImplicit false

/-- What a search comes to, and the values it asked about. -/
structure Searched (ε α : Type) where
  probed : List Nat
  result : Except ε α

namespace Search

variable {ε : Type} (probe : Nat → Except ε Bool)

/-- Halves the bracket until its ends are neighbours. -/
def bisect (probed : List Nat) (low high : Nat) : Searched ε Nat :=
  if low + 1 < high then
    let middle := low + (high - low) / 2
    match probe middle with
    | .error error => ⟨probed ++ [middle], .error error⟩
    | .ok true => bisect (probed ++ [middle]) low middle
    | .ok false => bisect (probed ++ [middle]) middle high
  else ⟨probed, .ok high⟩
termination_by high - low

/-- Asks about one candidate after the other, and returns the last refused value with the
first accepted one, if there is one. -/
def climb (probed : List Nat) (low : Nat) : List Nat → Searched ε (Nat × Option Nat)
  | [] => ⟨probed, .ok (low, none)⟩
  | candidate :: rest =>
      match probe candidate with
      | .error error => ⟨probed ++ [candidate], .error error⟩
      | .ok true => ⟨probed ++ [candidate], .ok (low, some candidate)⟩
      | .ok false => climb (probed ++ [candidate]) candidate rest

section Accepting

variable {probe} {accepts : Nat → Bool} (answers : ∀ n, probe n = .ok (accepts n))
include answers

/-- **The bisection finds the boundary**, and asks strictly inside its bracket. -/
theorem bisect_spec {low high : Nat} (bracket : low < high) (refused : accepts low = false)
    (accepted : accepts high = true)
    (upward : ∀ a b, a ≤ b → b ≤ high → accepts a = true → accepts b = true) (probed : List Nat) :
    ∃ floor asked, bisect probe probed low high = ⟨probed ++ asked, .ok floor⟩ ∧
      low < floor ∧ floor ≤ high ∧ accepts floor = true ∧ (∀ n < floor, accepts n = false) ∧
      ∀ n ∈ asked, low < n ∧ n < high := by
  induction size : high - low using Nat.strong_induction_on generalizing low high probed with
  | _ size ih =>
      subst size
      rw [bisect]
      by_cases wide : low + 1 < high
      · rw [if_pos wide]
        dsimp only
        generalize half : low + (high - low) / 2 = middle
        have above : low < middle := by omega
        have below : middle < high := by omega
        rw [answers]
        cases here : accepts middle with
        | true =>
            obtain ⟨floor, asked, found, beyond, under, holds, least, inside⟩ := ih (middle - low)
              (by omega) above refused here (fun a b le bounded => upward a b le (by omega))
              (probed ++ [middle]) rfl
            refine ⟨floor, middle :: asked, ?_, beyond, by omega, holds, least, ?_⟩
            · simp [found]
            · intro n member
              rcases List.mem_cons.mp member with rfl | later
              · exact ⟨above, below⟩
              · have := inside n later
                omega
        | false =>
            obtain ⟨floor, asked, found, beyond, under, holds, least, inside⟩ := ih (high - middle)
              (by omega) below here accepted upward (probed ++ [middle]) rfl
            refine ⟨floor, middle :: asked, ?_, by omega, under, holds, least, ?_⟩
            · simp [found]
            · intro n member
              rcases List.mem_cons.mp member with rfl | later
              · exact ⟨above, below⟩
              · have := inside n later
                omega
      · -- the ends are neighbours: nothing below the upper one is accepted
        rw [if_neg wide]
        refine ⟨high, [], by simp, bracket, Nat.le_refl _, accepted, ?_, by simp⟩
        intro n under
        cases here : accepts n with
        | false => rfl
        | true =>
            have carried := upward n low (by omega) (by omega) here
            rw [refused] at carried
            cases carried

/-- **The climb** stops at the first candidate that is accepted, above a refused value, and
asks about candidates alone. -/
theorem climb_spec {low : Nat} (refused : accepts low = false) (candidates : List Nat)
    (rising : (low :: candidates).Pairwise (· < ·)) (probed : List Nat) :
    ∃ below first asked, climb probe probed low candidates = ⟨probed ++ asked, .ok (below, first)⟩ ∧
      accepts below = false ∧
      (∀ n ∈ first, accepts n = true ∧ below < n ∧ low ≤ below ∧ n ∈ candidates) ∧
      (first = none → ∀ n ∈ candidates, accepts n = false) ∧ asked ⊆ candidates := by
  induction candidates generalizing low probed with
  | nil => exact ⟨low, none, [], by simp [climb], refused, by simp, by simp, by simp⟩
  | cons candidate rest ih =>
      obtain ⟨above, rising⟩ := List.pairwise_cons.mp rising
      have up : low < candidate := above _ (by simp)
      rw [climb, answers]
      cases here : accepts candidate with
      | true =>
          refine ⟨low, some candidate, [candidate], rfl, refused, ?_, by simp, by simp⟩
          intro n same
          cases same
          exact ⟨here, up, Nat.le_refl _, by simp⟩
      | false =>
          obtain ⟨below, first, asked, found, bad, good, none, inside⟩ :=
            ih here rising (probed ++ [candidate])
          refine ⟨below, first, candidate :: asked, ?_, bad, ?_, ?_, ?_⟩
          · simp [found]
          · intro n same
            obtain ⟨holds, more, beyond, member⟩ := good n same
            exact ⟨holds, more, by omega, List.mem_cons_of_mem _ member⟩
          · intro nothing n member
            rcases List.mem_cons.mp member with rfl | later
            · exact here
            · exact none nothing n later
          · exact List.cons_subset_cons _ inside

end Accepting

end Search

end MajsoulManager.Theory
