/-
# Theory.Loop — a loop over a position that may not move forward

One turn of a loop goes on, stops with a result, or panics.  A loop that walks a
buffer keeps a position, and a turn may jump: it adds a length it read to the place
it had come to.  `Sound` says that the loop stops with a result and that no jump on
the way leads back.

Which jumps are reached can be told from the buffer alone.  `next` is where the
item at a position ends, and `bad` the positions whose jump leads back;
`sound_iff_walk` says that the loop is sound exactly when the walk along `next`
meets no bad position.
-/
import Mathlib.Logic.Relation

namespace MajsoulManager.Theory

set_option autoImplicit false

/-- What one turn of a loop does. -/
inductive Turn (σ α : Type) where
  | again (s : σ)
  | stop (a : α)
  | panic
  deriving DecidableEq

namespace Loop

variable {σ α : Type} (turn : σ → Turn σ α)

/-- The states of a loop, turn after turn. -/
def Reaches : σ → σ → Prop := Relation.ReflTransGen fun s t => turn s = .again t

/-- The loop stops with the result.  A loop that panics or never stops does not. -/
def Returns (s : σ) (a : α) : Prop := ∃ t, Reaches turn s t ∧ turn t = .stop a

/-- No jump on the way leads back. -/
def Forward (jump : σ → Option (Nat × Nat)) (s : σ) : Prop :=
  ∀ t, Reaches turn s t → ∀ start stop, jump t = some (start, stop) → start ≤ stop

/-- The loop stops, without a panic, and has not jumped back. -/
structure Sound (jump : σ → Option (Nat × Nat)) (s : σ) : Prop where
  returns : ∃ a, Returns turn s a
  forward : Forward turn jump s

/-- The positions met by going from the end of each item to the next. -/
def Walked (next : Nat → Option Nat) : Nat → Nat → Prop :=
  Relation.ReflTransGen fun pos stop => next pos = some stop

variable {turn}

theorem returns_of_stop {s : σ} {a : α} (stopped : turn s = .stop a) : Returns turn s a :=
  ⟨s, .refl, stopped⟩

theorem Returns.again {s t : σ} {a : α} (returned : Returns turn t a) (went : turn s = .again t) :
    Returns turn s a := by
  obtain ⟨last, reached, stopped⟩ := returned
  exact ⟨last, .head went reached, stopped⟩

/-- The states after a turn that goes on are those of the next one. -/
theorem Forward.again {jump : σ → Option (Nat × Nat)} {s t : σ} (went : turn s = .again t) :
    Forward turn jump s ↔
      (∀ start stop, jump s = some (start, stop) → start ≤ stop) ∧ Forward turn jump t := by
  constructor
  · intro forward
    exact ⟨forward s .refl, fun u reached => forward u (.head went reached)⟩
  · rintro ⟨here, later⟩ u reached
    rcases Relation.ReflTransGen.cases_head reached with rfl | ⟨v, went', reached⟩
    · exact here
    · rw [went] at went'
      cases went'
      exact later u reached

theorem Forward.last {jump : σ → Option (Nat × Nat)} {s : σ} (over_ : ∀ t, turn s ≠ .again t)
    (here : ∀ start stop, jump s = some (start, stop) → start ≤ stop) : Forward turn jump s := by
  intro u reached
  rcases Relation.ReflTransGen.cases_head reached with rfl | ⟨v, went, -⟩
  · exact here
  · exact absurd went (over_ v)

/-- A loop that never gets out of a state that leads to itself. -/
theorem not_returns_of_again_self {s : σ} (again : turn s = .again s) (a : α) :
    ¬ Returns turn s a := by
  rintro ⟨t, reached, stopped⟩
  have same : t = s := by
    clear stopped
    induction reached with
    | refl => rfl
    | tail _ went ih =>
        rw [ih, again] at went
        cases went
        rfl
  rw [same, again] at stopped
  cases stopped

theorem not_returns_of_panic {s : σ} (panics : turn s = .panic) (a : α) : ¬ Returns turn s a := by
  rintro ⟨t, reached, stopped⟩
  rcases Relation.ReflTransGen.cases_head reached with rfl | ⟨v, went, -⟩
  · rw [panics] at stopped
    cases stopped
  · rw [panics] at went
    cases went

section Walk

variable {position : σ → Nat} {jump : σ → Option (Nat × Nat)} {next : Nat → Option Nat}
  {bad : Nat → Prop} {limit : Nat}

/-- What a turn does at a good position: it stops at the end of the walk, or goes
on to where the item ends. -/
structure GoodTurn (turn : σ → Turn σ α) (position : σ → Nat) (jump : σ → Option (Nat × Nat))
    (next : Nat → Option Nat) (limit : Nat) (s : σ) : Prop where
  forward : ∀ start stop, jump s = some (start, stop) → start ≤ stop
  moves : (next (position s) = none ∧ ∃ a, turn s = .stop a) ∨
    ∃ t, turn s = .again t ∧ next (position s) = some (position t) ∧
      position s < position t ∧ position s < limit

/-- **A loop is sound exactly when its walk is good.** -/
theorem sound_iff_walk
    (good : ∀ s, ¬ bad (position s) → GoodTurn turn position jump next limit s)
    (back : ∀ s, bad (position s) → ∃ start stop, jump s = some (start, stop) ∧ stop < start)
    (s : σ) :
    Sound turn jump s ↔ ∀ pos, Walked next (position s) pos → ¬ bad pos := by
  constructor
  · intro sound pos walked hit
    -- along the walk, the loop is at the walk's position as long as nothing was bad
    have along : ∀ t, position t = position s → Forward turn jump t → False := by
      clear sound
      generalize position s = from_ at walked
      induction walked using Relation.ReflTransGen.head_induction_on with
      | refl =>
          intro t here forward
          obtain ⟨start, stop, jumped, leadsBack⟩ := back t (here ▸ hit)
          have kept := forward t .refl start stop jumped
          omega
      | head step _ ih =>
          intro t here forward
          by_cases badHere : bad (position t)
          · obtain ⟨start, stop, jumped, leadsBack⟩ := back t badHere
            have kept := forward t .refl start stop jumped
            omega
          · rcases (good t badHere).moves with ⟨ends, -⟩ | ⟨u, went, ends, -⟩
            · rw [here, step] at ends
              cases ends
            · rw [here, step, Option.some.injEq] at ends
              exact ih u ends.symm ((Forward.again went).mp forward).2
    exact along s rfl sound.forward
  · intro clean
    -- by induction on the room that is left
    induction room : limit - position s using Nat.strongRecOn generalizing s with
    | ind room ih =>
        have turnGood := good s (clean _ .refl)
        rcases turnGood.moves with ⟨-, a, stopped⟩ | ⟨t, went, ends, ahead, inside⟩
        · refine ⟨⟨a, returns_of_stop stopped⟩, Forward.last ?_ turnGood.forward⟩
          intro t went
          rw [stopped] at went
          cases went
        · obtain ⟨⟨a, returned⟩, forward⟩ := ih (limit - position t) (by omega) t
            (fun pos walked => clean pos (.head ends walked)) rfl
          exact ⟨⟨a, returned.again went⟩, (Forward.again went).mpr ⟨turnGood.forward, forward⟩⟩

end Walk

end Loop

end MajsoulManager.Theory
