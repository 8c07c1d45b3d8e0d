/-
# Watch.VersionFloor — the lowest client version the server accepts

`search_version_floor` of `managed_watch.rs`: ask about the version the rejection names,
climb above it in steps that grow fourfold, and bisect between the last refused version
and the first accepted one.  A version is a number here, its patch the last three digits.
A probe is a login, so a search keeps the versions it asked about, and a probe that fails
ends it.
-/
import MajsoulManager.Theory.Search

namespace MajsoulManager.Watch

open MajsoulManager.Theory

set_option autoImplicit false

def versionSearchSpan : Nat := 4096

/-- The steps of the escalation, from one of them on. -/
def escalation (step : Nat) : List Nat :=
  if 0 < step ∧ step ≤ versionSearchSpan then step :: escalation (step * 4) else []
termination_by versionSearchSpan + 1 - step

theorem escalation_eq : escalation 4 = [4, 16, 64, 256, 1024, 4096] := by
  simp [escalation, versionSearchSpan]

/-- The versions it goes through; the sums are `u32`, as the versions are. -/
def candidates (rejected : Nat) : List Nat :=
  (escalation 4).map fun step => (rejected + step) % 2 ^ 32

theorem candidates_eq {start : Nat} (room : start + versionSearchSpan < 2 ^ 32) :
    candidates start =
      [start + 4, start + 16, start + 64, start + 256, start + 1024, start + 4096] := by
  have span : versionSearchSpan = 4096 := rfl
  rw [candidates, escalation_eq]
  simp only [List.map_cons, List.map_nil, List.cons.injEq, and_true]
  refine ⟨?_, ?_, ?_, ?_, ?_, ?_⟩ <;> exact Nat.mod_eq_of_lt (by omega)

inductive FloorError (ε : Type) where
  | probe (error : ε)
  /-- "no accepted client version within the search span" -/
  | outOfSpan

def searchVersionFloor {ε : Type} (probe : Nat → Except ε Bool) (rejected : Nat) :
    Searched (FloorError ε) Nat :=
  match probe rejected with
  | .error error => ⟨[rejected], .error (.probe error)⟩
  | .ok true => ⟨[rejected], .ok rejected⟩
  | .ok false =>
      let climbed := Search.climb probe [rejected] rejected (candidates rejected)
      match climbed.result with
      | .error error => ⟨climbed.probed, .error (.probe error)⟩
      | .ok (_, none) => ⟨climbed.probed, .error .outOfSpan⟩
      | .ok (tooLow, some accepted) =>
          let found := Search.bisect probe climbed.probed tooLow accepted
          ⟨found.probed, found.result.mapError .probe⟩

/-- Everything a search of an upward-closed set of versions promises. -/
structure FindsFloor {ε : Type} (accepts : Nat → Bool) (start : Nat)
    (searched : Searched (FloorError ε) Nat) : Prop where
  itself : accepts start = true → searched.result = .ok start
  least : accepts start = false → (∃ n ≤ start + versionSearchSpan, accepts n = true) →
    ∃ floor, searched.result = .ok floor ∧ IsLeast {n | accepts n = true} floor
  fails : (∃ error, searched.result = .error error) ↔
    ∀ n ≤ start + versionSearchSpan, accepts n = false
  inRange : ∀ n ∈ searched.probed, start ≤ n ∧ n ≤ start + versionSearchSpan

/-- **The search finds the floor**, for every set of versions that holds with a version
every later one. -/
theorem searchVersionFloor_finds {ε : Type} {probe : Nat → Except ε Bool} {accepts : Nat → Bool}
    (answers : ∀ n, probe n = .ok (accepts n))
    (upward : ∀ a b, a ≤ b → b < 2 ^ 32 → accepts a = true → accepts b = true) {start : Nat}
    (room : start + versionSearchSpan < 2 ^ 32) :
    FindsFloor accepts start (searchVersionFloor probe start) := by
  have span : versionSearchSpan = 4096 := rfl
  have listed := candidates_eq room
  unfold searchVersionFloor
  rw [answers]
  cases here : accepts start with
  | true =>
      constructor
      · intro _
        rfl
      · intro refused
        rw [here] at refused
        cases refused
      · constructor
        · rintro ⟨error, failed⟩
          cases failed
        · intro none
          rw [none start (by omega)] at here
          cases here
      · intro n member
        have same := List.mem_singleton.mp member
        omega
  | false =>
      have rising : (start :: candidates start).Pairwise (· < ·) := by
        rw [listed]
        simp
      obtain ⟨below, first, asked, climbed, bad, good, none, inside⟩ :=
        Search.climb_spec answers here (candidates start) rising [start]
      have reach : ∀ n ∈ candidates start, start < n ∧ n ≤ start + versionSearchSpan := by
        intro n member
        simp only [listed, List.mem_cons, List.not_mem_nil, or_false] at member
        omega
      have low : ∀ n ∈ [start] ++ asked, start ≤ n ∧ n ≤ start + versionSearchSpan := by
        intro n member
        rcases List.mem_append.mp member with first | later
        · have same := List.mem_singleton.mp first
          omega
        · have bounds := reach n (inside later)
          omega
      dsimp only
      rw [climbed]
      cases first with
      | none =>
          -- the last step is refused, and with it everything below
          have top : accepts (start + versionSearchSpan) = false :=
            none rfl _ (by simp [listed, span])
          have all : ∀ n ≤ start + versionSearchSpan, accepts n = false := by
            intro n below
            cases accepted : accepts n with
            | false => rfl
            | true =>
                rw [upward n _ below room accepted] at top
                cases top
          constructor
          · intro accepted
            rw [here] at accepted
            cases accepted
          · rintro - ⟨n, below, accepted⟩
            rw [all n below] at accepted
            cases accepted
          · exact ⟨fun _ => all, fun _ => ⟨_, rfl⟩⟩
          · exact low
      | some accepted =>
          obtain ⟨holds, above, beyond, member⟩ := good accepted rfl
          have bounds := reach accepted member
          obtain ⟨floor, more, found, up, down, floorHolds, least, within⟩ :=
            Search.bisect_spec answers above bad holds
              (fun a b le bounded => upward a b le (by omega)) ([start] ++ asked)
          dsimp only
          rw [found]
          constructor
          · intro accepted
            rw [here] at accepted
            cases accepted
          · intro _ _
            refine ⟨floor, rfl, floorHolds, fun n accepted => ?_⟩
            by_contra smaller
            have refused := least n (by omega)
            rw [Set.mem_ofPred_eq] at accepted
            rw [accepted] at refused
            cases refused
          · constructor
            · rintro ⟨error, failed⟩
              cases failed
            · intro none
              rw [none floor (by omega)] at floorHolds
              cases floorHolds
          · intro n member
            rcases List.mem_append.mp member with climbing | halving
            · exact low n climbing
            · have inside := within n halving
              omega

/-- Versions from 0.16.254 on are accepted, and the search starts at 0.16.240. -/
def observedFloor (version : Nat) : Except Unit Bool := .ok (decide (16254 ≤ version))

theorem searchVersionFloor_finds_observed :
    FindsFloor (fun version => decide (16254 ≤ version)) 16240
        (searchVersionFloor observedFloor 16240) ∧
      (searchVersionFloor observedFloor 16240).result = .ok 16254 := by
  have finds : FindsFloor (fun version => decide (16254 ≤ version)) 16240
      (searchVersionFloor observedFloor 16240) := by
    apply searchVersionFloor_finds (fun _ => rfl) _ (by decide)
    intro a b le _ accepted
    rw [decide_eq_true_eq] at accepted ⊢
    omega
  refine ⟨finds, ?_⟩
  obtain ⟨floor, found, accepted, least⟩ := finds.least (by decide) ⟨16254, by decide, by decide⟩
  have low : 16254 ≤ floor := by simpa using accepted
  have high : floor ≤ 16254 := least (by simp)
  rw [found, Nat.le_antisymm high low]

end MajsoulManager.Watch
