/-
# Refetch.Pacing — how many records a walk keeps in the air

`in_flight_for` of `refetch_service.rs`: a few requests for each session, a floor under a
small pool, and a ceiling that keeps the queue short enough for the pacing.  A session
sends one request per delay, counted from when the last one was sent, so the sessions
claim a queue at a known rate (`ClaimedWithin`).

Every sum, product and quotient is a machine operation here and can panic; the products
that saturate do not.
-/
import MajsoulManager.Theory.Fault
import Mathlib.Tactic.Linarith
import Mathlib.Data.Rat.Cast.Order

namespace MajsoulManager.Refetch

open MajsoulManager.Theory

set_option autoImplicit false

/-! ## The depth -/

/-- `CLAIM_TIMEOUT`, in milliseconds. -/
def claimTimeoutMs : Nat := 180000

def minInFlight : Nat := 1000

def queuePerSession : Nat := 4

def divided (a b : Nat) : Outcome Empty Nat := if b = 0 then .panic else .ok (a / b)

def added (a b : Nat) : Outcome Empty Nat := if a + b < 2 ^ 64 then .ok (a + b) else .panic

def saturatingMul (a b : Nat) : Nat := min (a * b) (2 ^ 64 - 1)

def inFlightFor (workers requestDelayMs : Nat) : Outcome Empty Nat := do
  let workers := max workers 1
  let patience ← divided claimTimeoutMs 3
  let rounds ← divided patience (max requestDelayMs 1)
  let depth ← added 1 rounds
  let ceiling := saturatingMul workers depth
  .ok (min (max (saturatingMul workers queuePerSession) minInFlight) ceiling)

/-! ## The queue it leaves -/

/-- Before the limit, sessions that sent their last request so long ago claim this many
more: the `n`th claim of a session is due `n` delays after that, and each session makes as
many as are due before the limit. -/
def ClaimedWithin (limit delay : Nat) (ages : List ℚ) (requests : Nat) : Prop :=
  ∃ counts : List Nat, counts.length = ages.length ∧ requests ≤ counts.sum ∧
    ∀ pair ∈ ages.zip counts, (pair.2 * delay : ℚ) - pair.1 < limit

/-- Sessions that all sent before now have every round of claims behind them that the
limit has room for. -/
theorem claimedWithin_rounds {limit delay rounds requests : Nat} {ages : List ℚ}
    (earlier : ∀ age ∈ ages, 0 < age) (fits : rounds * delay ≤ limit)
    (few : requests ≤ ages.length * rounds) : ClaimedWithin limit delay ages requests := by
  refine ⟨List.replicate ages.length rounds, by simp, by simpa using few, ?_⟩
  rintro ⟨age, count⟩ member
  have young := earlier age (List.of_mem_zip member).1
  have same := List.eq_of_mem_replicate (List.of_mem_zip member).2
  have room : (rounds * delay : ℚ) ≤ limit := by exact_mod_cast fits
  show (count * delay : ℚ) - age < limit
  rw [same]
  linarith

theorem saturatingMul_le (a b : Nat) : saturatingMul a b ≤ a * b := Nat.min_le_left _ _

theorem le_saturatingMul {a b : Nat} (counted : a < 2 ^ 64) (some : 0 < b) :
    a ≤ saturatingMul a b := by
  have grown : a ≤ a * b := Nat.le_mul_of_pos_right a some
  unfold saturatingMul
  omega

/-- The depth, in closed form: no step panics. -/
theorem inFlightFor_eq (workers requestDelayMs : Nat) :
    inFlightFor workers requestDelayMs =
      .ok (min (max (saturatingMul (max workers 1) queuePerSession) minInFlight)
        (saturatingMul (max workers 1) (1 + claimTimeoutMs / 3 / max requestDelayMs 1))) := by
  have third : divided claimTimeoutMs 3 = .ok (claimTimeoutMs / 3) := rfl
  have rounds : divided (claimTimeoutMs / 3) (max requestDelayMs 1) =
      .ok (claimTimeoutMs / 3 / max requestDelayMs 1) := by
    unfold divided
    exact if_neg (by omega)
  have few : claimTimeoutMs / 3 / max requestDelayMs 1 ≤ claimTimeoutMs / 3 := Nat.div_le_self _ _
  have timeout : claimTimeoutMs / 3 = 60000 := rfl
  have depth : added 1 (claimTimeoutMs / 3 / max requestDelayMs 1) =
      .ok (1 + claimTimeoutMs / 3 / max requestDelayMs 1) := by
    unfold added
    exact if_pos (by omega)
  simp only [inFlightFor, third, rounds, depth, Outcome.ok_bind]

/-- **The depth**, for every pool the machine can count and every pacing: nothing panics,
every worker is kept busy, and the last request of a full queue is claimed before a third
of the timeout has passed. -/
theorem inFlightFor_drains {workers : Nat} (counted : workers < 2 ^ 64) (requestDelayMs : Nat) :
    ∃ inFlight, inFlightFor workers requestDelayMs = .ok inFlight ∧ inFlight < 2 ^ 64 ∧
      workers ≤ inFlight ∧
      ∀ ages : List ℚ, ages.length = max workers 1 → (∀ age ∈ ages, 0 < age) →
        ClaimedWithin (claimTimeoutMs / 3) requestDelayMs ages (inFlight - ages.length) := by
  refine ⟨_, inFlightFor_eq workers requestDelayMs, ?_, ?_, ?_⟩
  · have bounded : saturatingMul (max workers 1) (1 + claimTimeoutMs / 3 / max requestDelayMs 1) ≤
        2 ^ 64 - 1 := Nat.min_le_right _ _
    omega
  · have busy : max workers 1 ≤ saturatingMul (max workers 1) queuePerSession :=
      le_saturatingMul (by omega) (by decide)
    have below : max workers 1 ≤
        saturatingMul (max workers 1) (1 + claimTimeoutMs / 3 / max requestDelayMs 1) :=
      le_saturatingMul (by omega) (Nat.add_pos_left Nat.one_pos _)
    omega
  · intro ages sized earlier
    have short := saturatingMul_le (max workers 1) (1 + claimTimeoutMs / 3 / max requestDelayMs 1)
    rw [Nat.mul_add, Nat.mul_one] at short
    have fits : claimTimeoutMs / 3 / max requestDelayMs 1 * requestDelayMs ≤ claimTimeoutMs / 3 :=
      calc claimTimeoutMs / 3 / max requestDelayMs 1 * requestDelayMs
          ≤ claimTimeoutMs / 3 / max requestDelayMs 1 * max requestDelayMs 1 :=
            Nat.mul_le_mul_left _ (Nat.le_max_left _ _)
        _ ≤ claimTimeoutMs / 3 := Nat.div_mul_le_self _ _
    apply claimedWithin_rounds earlier fits
    rw [sized]
    omega

/-- At a minute between requests a thousand sessions keep two requests each, and claim the
second ones within that minute. -/
theorem inFlightFor_drains_slowly :
    inFlightFor 1000 60000 = .ok 2000 ∧
      ClaimedWithin (claimTimeoutMs / 3) 60000 (List.replicate 1000 1) 1000 := by
  obtain ⟨inFlight, kept, -, -, drains⟩ := inFlightFor_drains (show 1000 < 2 ^ 64 by decide) 60000
  have depth : inFlightFor 1000 60000 = .ok 2000 := by decide
  rw [depth, Outcome.ok.injEq] at kept
  subst kept
  have claimed := drains (List.replicate 1000 1) List.length_replicate fun age member => by
    rw [List.eq_of_mem_replicate member]
    exact one_pos
  rw [List.length_replicate] at claimed
  exact ⟨depth, claimed⟩

end MajsoulManager.Refetch
