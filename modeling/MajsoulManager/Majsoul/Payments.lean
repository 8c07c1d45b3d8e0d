/-
# Majsoul.Payments — what an exhaustive draw pays

An exhaustive draw carries one entry a payment, each with the scores before it and
what every seat gained.  The lists need not name the same seats.  The first scores
that are given are the round's, a later payment starts from the result of the one
before; the gains add up, a seat a payment does not name gaining nothing.

Whatever bytes `parse_no_tile` accepts, it comes to that (`noTile_settles`).  A seat
missing from the first scores has no score, even when a later payment gives it one
(`missing_from_the_opening`).
-/
import MajsoulManager.Majsoul.EventSpelling

namespace MajsoulManager.Majsoul

open MajsoulManager.Theory
open MajsoulManager.Store

set_option autoImplicit false

/-! ## The payments of a message -/

/-- The payment a field holds. -/
def paymentIn (field : Field) : Option Payment :=
  if field.number = 3 ∧ field.wireType = 2 then
    match parseMessage paymentArms {} field.data with
    | .ok payment => some payment
    | .err _ | .panic => none
  else none

def paymentsOf (data : Bytes) : List Payment := (wireFields data).filterMap paymentIn

/-- What seat `i` gained over all payments, exactly. -/
def gainedExactly (payments : List Payment) (i : Nat) : Int :=
  (payments.map fun payment => (payment.delta.getD i 0).toInt).sum

/-- The first old score of seat `i` that any payment lists. -/
def firstListed (payments : List Payment) (i : Nat) : Option Int32 :=
  payments.findSome? fun payment => payment.old[i]?

/-- **One field**: a payment is paid, any other field leaves the scores alone. -/
theorem readArms_noTile {field : Field} {change : NoTileDraft → NoTileDraft}
    (read : readArms noTileArms field = .ok change) (e : NoTileDraft) :
    ((change e).oldScores, (change e).deltaScores) =
      match paymentIn field with
      | some payment => ((e.pay payment).oldScores, (e.pay payment).deltaScores)
      | none => (e.oldScores, e.deltaScores) := by
  have touched := noTile_lenses.2.2.read read
  obtain ⟨number, wireType, data⟩ := field
  by_cases three : number = 3
  · subst three
    by_cases delimited : wireType = 2
    · subst delimited
      rw [readArms_at (a := arm 3 2 (parseMessage paymentArms {}) NoTileDraft.pay) rfl] at read
      obtain ⟨payment, parsed, rfl⟩ := Outcome.map_eq_ok.mp read
      have held : paymentIn ⟨3, 2, data⟩ = some payment := by simp [paymentIn, parsed]
      rw [held]
    · have skipped : readArms noTileArms ⟨3, wireType, data⟩ = .ok id := by
        simp [readArms, noTileArms, varintArm, arm, Arm.matches, Ne.symm delimited]
      rw [skipped] at read
      cases read
      simp [paymentIn, delimited]
  · rw [if_neg three] at touched
    rw [touched e]
    simp [paymentIn, three]

/-- **The walk**: the scores of a draw are what its payments leave. -/
theorem readFields_noTile {fields : List Field} {e final : NoTileDraft}
    (read : readFields (readArms noTileArms) e fields = .ok final) :
    (final.oldScores, final.deltaScores) =
      (if e.oldScores = [] then openingScores (fields.filterMap paymentIn) else e.oldScores,
        (fields.filterMap paymentIn).foldl (fun totals payment => addDeltas totals payment.delta)
          e.deltaScores) := by
  induction fields generalizing e with
  | nil =>
      cases read
      by_cases empty : final.oldScores = []
      · simp [openingScores, empty]
      · simp [empty]
  | cons field rest ih =>
      obtain ⟨change, here, later⟩ := Outcome.bind_eq_ok.mp read
      have step := readArms_noTile here e
      rw [ih later]
      cases held : paymentIn field with
      | none =>
          rw [held] at step
          obtain ⟨old, delta⟩ := Prod.mk.inj step
          rw [old, delta, List.filterMap_cons_none held]
      | some payment =>
          rw [held] at step
          obtain ⟨old, delta⟩ := Prod.mk.inj step
          have whole := foldl_pay (payment :: rest.filterMap paymentIn) e
          rw [List.foldl_cons, foldl_pay, NoTileDraft.ext_iff] at whole
          rw [old, delta, List.filterMap_cons_some held]
          exact Prod.ext whole.1 whole.2.1

/-! ## Sums of 32 bits -/

theorem gained_toInt (payments : List Payment) (i : Nat) :
    (gained payments i).toInt = (gainedExactly payments i).bmod (2 ^ 32) := by
  induction payments with
  | nil => rfl
  | cons payment rest ih =>
      simp only [gained, gainedExactly, List.map_cons, List.sum_cons] at ih ⊢
      rw [Int32.toInt_add, ih, Int.add_bmod_bmod]

theorem addGained_toInt (old : Int32) (payments : List Payment) (i : Nat) :
    (old + gained payments i).toInt = (old.toInt + gainedExactly payments i).bmod (2 ^ 32) := by
  rw [Int32.toInt_add, gained_toInt, Int.add_bmod_bmod]

/-! ## What the bytes come to -/

/-- **An exhaustive draw settles as its payments say.**  A seat that the first old scores
name closes on its own plus its gains over all payments; every seat a payment names is
reported with its gains.  The sums are those of 32-bit numbers. -/
theorem noTile_settles {data : Bytes} {e : NoTile} (parsed : parseNoTile data = .ok e) :
    (∀ i, e.scores[i]? =
        ((openingScores (paymentsOf data))[i]?).map (· + gained (paymentsOf data) i)) ∧
      (∀ i, e.deltaScores[i]? =
        if i < paidSeats (paymentsOf data) then some (gained (paymentsOf data) i) else none) ∧
      (∀ i, (gained (paymentsOf data) i).toInt =
        (gainedExactly (paymentsOf data) i).bmod (2 ^ 32)) ∧
      ∀ (old : Int32) i, (old + gained (paymentsOf data) i).toInt =
        (old.toInt + gainedExactly (paymentsOf data) i).bmod (2 ^ 32) := by
  obtain ⟨draft, read, same⟩ := Outcome.bind_eq_ok.mp parsed
  cases same
  have walk := readFields_noTile (readFields_wireFields read)
  obtain ⟨old, delta⟩ := Prod.mk.inj walk
  refine ⟨?_, ?_, gained_toInt _, fun old i => addGained_toInt old _ i⟩
  · intro i
    have total := foldl_addDeltas_getD [] (paymentsOf data) i
    simp only [if_true] at old
    show (closingScores draft.oldScores draft.deltaScores)[i]? = _
    rw [closingScores_eq, old, delta, List.getElem?_mapIdx]
    rw [List.getD_nil, Int32.zero_add] at total
    exact congrArg (fun gain => ((openingScores (paymentsOf data))[i]?).map (· + gain)) total
  · intro i
    show draft.deltaScores[i]? = _
    rw [delta]
    show ((paymentsOf data).foldl (fun totals payment => addDeltas totals payment.delta) [])[i]? = _
    rw [foldl_addDeltas, List.getElem?_map]
    split
    · rename_i named
      rw [List.getElem?_range named]
      rfl
    · rename_i unnamed
      rw [List.getElem?_eq_none (by simpa using unnamed)]
      rfl

/-- Two payments: the first names seat 0 with 1 point, the second both seats. -/
def secondNamesMore : Bytes :=
  [0x1a, 0x02, 0x10, 0x01, 0x1a, 0x04, 0x10, 0x02, 0x10, 0x03]

/-- Seat 1 has an old score in the second payment alone, and no closing score. -/
theorem missing_from_the_opening :
    ¬ ∀ data e, parseNoTile data = .ok e → ∀ i old, firstListed (paymentsOf data) i = some old →
      e.scores[i]? = some (old + gained (paymentsOf data) i) := by
  intro all
  have parsed : parseNoTile secondNamesMore =
      .ok { scores := [1], deltaScores := [] } := by decide +kernel
  have missing := all _ _ parsed 1 3 (by decide +kernel)
  cases missing

/-- A payment of 1000 on 25000 points, then one of 8000 that gives no old scores. -/
def paidTwice : Bytes :=
  [0x1a, 0x07, 0x10, 0xa8, 0xc3, 0x01, 0x18, 0xe8, 0x07, 0x1a, 0x03, 0x18, 0xc0, 0x3e]

theorem noTile_settles_twice :
    ∃ e, parseNoTile paidTwice = .ok e ∧ e.scores[0]? = some 34000 := by
  have parsed : parseNoTile paidTwice = .ok { scores := [34000], deltaScores := [9000] } := by
    decide +kernel
  have summed : ((openingScores (paymentsOf paidTwice))[0]?).map (· + gained (paymentsOf paidTwice) 0) =
      some 34000 := by decide +kernel
  exact ⟨_, parsed, ((noTile_settles parsed).1 0).trans summed⟩

end MajsoulManager.Majsoul
