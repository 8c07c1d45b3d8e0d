/-
# Majsoul.Wire — the protobuf wire format, read by hand

`proto.rs`, up to `decode_wrapper`.  A message is walked field by field; a
length-delimited field adds its own length, any 64-bit number, to the position in
the buffer, and the sum wraps.

A reader says what one field does to the value being built (`readMessage`), or
looks for one field and stops there (`findField`).  Either loop panics exactly
when a field it reaches panics its reader, or when the walk itself runs into a
length that wraps (`readMessage_panics`, `findField_panics`).
-/
import MajsoulManager.Store.Pack

namespace MajsoulManager.Majsoul

open MajsoulManager.Theory
open MajsoulManager.Store

set_option autoImplicit false

/-- An error and the contexts around it, outermost first. -/
abbrev Error := List String

/-- `?` on a call that cannot panic. -/
def ofExcept {α : Type} : Except Error α → Outcome Error α
  | .ok a => .ok a
  | .error e => .err e

@[simp] theorem ofExcept_panics {α : Type} (x : Except Error α) : ¬ (ofExcept x).Panics := by
  cases x <;> simp [ofExcept]

theorem ofExcept_eq_ok {α : Type} {x : Except Error α} {a : α} :
    ofExcept x = .ok a ↔ x = .ok a := by
  cases x <;> simp [ofExcept]

/-! ## Varints -/

/-- A varint that would overflow is refused. -/
def varintFrom (value : UInt64) (shift pos : Nat) : Bytes → Except Error (UInt64 × Nat)
  | [] => .error ["Unexpected end in varint"]
  | byte :: rest =>
      let part := (byte &&& 0x7f).toUInt64
      if 64 ≤ shift ∨ UInt64.ofNat (2 ^ 64 - 1) >>> UInt64.ofNat shift < part then
        .error ["Varint too long"]
      else
        let value := value ||| part <<< UInt64.ofNat shift
        if byte &&& 0x80 = 0 then .ok (value, pos + 1)
        else varintFrom value (shift + 7) (pos + 1) rest

/-- The value, and the bytes it took. -/
def decodeVarint (buf : Bytes) : Except Error (UInt64 × Nat) := varintFrom 0 0 0 buf

def extractVarint (data : Bytes) : Except Error UInt64 := do
  let (value, _) ← decodeVarint data
  .ok value

def extractString (data : Bytes) : String := Text.fromUtf8Lossy data

/-- Packed varints; each takes at least a byte, so the length is fuel enough. -/
def packedFrom : Nat → Bytes → Except Error (List Int32)
  | 0, _ => .ok []
  | _, [] => .ok []
  | fuel + 1, data => do
      let (value, taken) ← decodeVarint data
      let rest ← packedFrom fuel (data.drop taken)
      .ok (value.toUInt32.toInt32 :: rest)

def decodePackedVarints (data : Bytes) : Except Error (List Int32) := packedFrom data.length data

theorem varintFrom_taken {value : UInt64} {shift pos : Nat} {buf : Bytes} {read : UInt64 × Nat}
    (decoded : varintFrom value shift pos buf = .ok read) :
    pos < read.2 ∧ read.2 ≤ pos + buf.length := by
  induction buf generalizing value shift pos with
  | nil => cases decoded
  | cons byte rest ih =>
      simp only [varintFrom] at decoded
      split at decoded
      · cases decoded
      · split at decoded
        · cases decoded
          simp
        · have later := ih decoded
          simp only [List.length_cons]
          omega

/-- A varint takes at least one byte, and none it was not given. -/
theorem decodeVarint_taken {buf : Bytes} {value : UInt64} {taken : Nat}
    (decoded : decodeVarint buf = .ok (value, taken)) : 0 < taken ∧ taken ≤ buf.length := by
  have both := varintFrom_taken decoded
  exact ⟨both.1, by simpa using both.2⟩

/-! ## Fields -/

structure Field where
  number : UInt32
  wireType : UInt8
  data : Bytes
  deriving DecidableEq

/-- `&buf[pos..]`. -/
def sliceFrom (buf : Bytes) (pos : Nat) : Outcome Error Bytes := Outcome.slice buf pos buf.length

/-- The data of a field whose tag ends at `pos`, and where it ends. -/
def fieldData (buf : Bytes) (pos : Nat) (wireType : UInt8) : Outcome Error (Bytes × Nat) :=
  if wireType = 0 then do
    let (_, taken) ← ofExcept (decodeVarint (← sliceFrom buf pos))
    let data ← Outcome.slice buf pos (pos + taken)
    .ok (data, pos + taken)
  else if wireType = 1 then
    if buf.length < pos + 8 then .err ["Buffer overflow in fixed64"]
    else do
      let data ← Outcome.slice buf pos (pos + 8)
      .ok (data, pos + 8)
  else if wireType = 2 then do
    let (length, taken) ← ofExcept (decodeVarint (← sliceFrom buf pos))
    -- unchecked: the sum is taken modulo the word size
    let stop := (pos + taken + length.toNat) % 2 ^ 64
    if buf.length < stop then .err ["Buffer overflow in length-delimited"]
    else do
      let data ← Outcome.slice buf (pos + taken) stop
      .ok (data, stop)
  else if wireType = 5 then
    if buf.length < pos + 4 then .err ["Buffer overflow in fixed32"]
    else do
      let data ← Outcome.slice buf pos (pos + 4)
      .ok (data, pos + 4)
  else .err ["Unknown wire type: " ++ toString wireType.toNat]

/-- `FieldIterator::next`, before the end of the buffer. -/
def nextField (buf : Bytes) (pos : Nat) : Outcome Error (Field × Nat) := do
  let (tag, taken) ← ofExcept (decodeVarint (← sliceFrom buf pos))
  let wireType := (tag &&& 7).toUInt8
  let (data, next) ← fieldData buf (pos + taken) wireType
  .ok (⟨(tag >>> 3).toUInt32, wireType, data⟩, next)

/-! ## Where the walk panics -/

/-- The length-delimited field whose tag ends at `pos` ends before it starts. -/
def lengthWraps (buf : Bytes) (pos : Nat) : Bool :=
  match decodeVarint (buf.drop pos) with
  | .ok (length, taken) => (pos + taken + length.toNat) % 2 ^ 64 < pos + taken
  | .error _ => false

/-- At `pos` stands a length-delimited field whose length wraps. -/
def wrapsAt (buf : Bytes) (pos : Nat) : Bool :=
  match decodeVarint (buf.drop pos) with
  | .ok (tag, taken) => (tag &&& 7).toUInt8 == 2 && lengthWraps buf (pos + taken)
  | .error _ => false

theorem sliceFrom_of_le {buf : Bytes} {pos : Nat} (inside : pos ≤ buf.length) :
    sliceFrom buf pos = .ok (buf.drop pos) := by
  have whole : (buf.drop pos).take (buf.length - pos) = buf.drop pos := by
    rw [← List.length_drop, List.take_length]
  simp [sliceFrom, Outcome.slice, inside, whole]

theorem slice_of_le {buf : Bytes} {low high : Nat} (ordered : low ≤ high)
    (inside : high ≤ buf.length) :
    (Outcome.slice buf low high : Outcome Error Bytes) =
      .ok ((buf.drop low).take (high - low)) := by
  simp [Outcome.slice, ordered, inside]

theorem slice_of_wraps {buf : Bytes} {low high : Nat} (wraps : high < low) :
    (Outcome.slice buf low high : Outcome Error Bytes) = .panic := by
  simp [Outcome.slice, Nat.not_le.mpr wraps]

/-- A field's data panics exactly when its length wraps, and otherwise stays
inside the buffer. -/
theorem fieldData_spec {buf : Bytes} {pos : Nat} (inside : pos ≤ buf.length) (wireType : UInt8) :
    ((fieldData buf pos wireType).Panics ↔ wireType = 2 ∧ lengthWraps buf pos = true) ∧
      ∀ data next, fieldData buf pos wireType = .ok (data, next) →
        pos ≤ next ∧ next ≤ buf.length := by
  unfold fieldData lengthWraps
  rw [sliceFrom_of_le inside]
  simp only [Outcome.ok_bind]
  have fits : ∀ value taken, decodeVarint (buf.drop pos) = .ok (value, taken) →
      pos + taken ≤ buf.length := by
    intro value taken decoded
    have bound := (decodeVarint_taken decoded).2
    rw [List.length_drop] at bound
    omega
  split
  · rename_i scalar
    subst scalar
    cases decoded : decodeVarint (buf.drop pos) with
    | error reason => simp [ofExcept]
    | ok read =>
        obtain ⟨value, taken⟩ := read
        have bound := fits value taken decoded
        simp [ofExcept, slice_of_le (Nat.le_add_right pos taken) bound]
        omega
  · split
    · rename_i fixed
      subst fixed
      split
      · simp
      · rename_i room
        simp [slice_of_le (Nat.le_add_right pos 8) (Nat.le_of_not_lt room)]
        omega
    · split
      · rename_i delimited
        subst delimited
        cases decoded : decodeVarint (buf.drop pos) with
        | error reason => simp [ofExcept]
        | ok read =>
            obtain ⟨length, taken⟩ := read
            have bound := fits length taken decoded
            simp only [ofExcept, Outcome.ok_bind]
            generalize (pos + taken + length.toNat) % 2 ^ 64 = stop
            split
            · simp
              omega
            · rename_i short
              by_cases wraps : stop < pos + taken
              · simp [slice_of_wraps wraps, wraps]
              · rw [slice_of_le (Nat.le_of_not_lt wraps) (Nat.le_of_not_lt short)]
                simp [wraps]
                omega
      · split
        · rename_i fixed
          subst fixed
          split
          · simp
          · rename_i room
            simp [slice_of_le (Nat.le_add_right pos 4) (Nat.le_of_not_lt room)]
            omega
        · rename_i notDelimited _
          simp [notDelimited]

/-- **The only panic of the walk**, and that it moves forward inside the buffer. -/
theorem nextField_spec {buf : Bytes} {pos : Nat} (inside : pos ≤ buf.length) :
    ((nextField buf pos).Panics ↔ wrapsAt buf pos = true) ∧
      ∀ field next, nextField buf pos = .ok (field, next) → pos < next ∧ next ≤ buf.length := by
  unfold nextField wrapsAt
  rw [sliceFrom_of_le inside]
  simp only [Outcome.ok_bind]
  cases decoded : decodeVarint (buf.drop pos) with
  | error reason => simp [ofExcept]
  | ok read =>
      obtain ⟨tag, taken⟩ := read
      have bound := decodeVarint_taken decoded
      rw [List.length_drop] at bound
      obtain ⟨panics, moves⟩ :=
        fieldData_spec (show pos + taken ≤ buf.length by omega) (tag &&& 7).toUInt8
      simp only [ofExcept, Outcome.ok_bind]
      refine ⟨?_, fun field next read => ?_⟩
      · rw [Outcome.bind_panics, panics]
        simp
      · obtain ⟨⟨data, after⟩, got, done⟩ := Outcome.bind_eq_ok.mp read
        cases done
        have ahead := moves data after got
        omega

/-! ## Walking a message -/

section Loops

variable {σ α : Type}

/-- Every field does its part to the value.  A field takes at least a byte. -/
def foldFields (read : Field → Outcome Error (σ → σ)) (buf : Bytes) :
    Nat → Nat → σ → Outcome Error σ
  | 0, _, value => .ok value
  | fuel + 1, pos, value =>
      if buf.length ≤ pos then .ok value
      else do
        let (field, next) ← nextField buf pos
        let change ← read field
        foldFields read buf fuel next (change value)

def readMessage (read : Field → Outcome Error (σ → σ)) (init : σ) (buf : Bytes) : Outcome Error σ :=
  foldFields read buf buf.length 0 init

/-- Looks at the fields in turn and returns from the first that answers. -/
def findFrom (look : Field → Outcome Error (Option α)) (buf : Bytes) :
    Nat → Nat → Outcome Error (Option α)
  | 0, _ => .ok none
  | fuel + 1, pos =>
      if buf.length ≤ pos then .ok none
      else do
        let (field, next) ← nextField buf pos
        match ← look field with
        | some found => .ok (some found)
        | none => findFrom look buf fuel next

def findField (look : Field → Outcome Error (Option α)) (buf : Bytes) : Outcome Error (Option α) :=
  findFrom look buf buf.length 0

/-! ## What a message holds -/

/-- How the fields of a buffer end: at its end, at bytes that are no field, or at
a length that wraps. -/
inductive Ending where
  | clean
  | broken
  | wraps
  deriving DecidableEq

def splitFields (buf : Bytes) : Nat → Nat → List Field × Ending
  | 0, _ => ([], .clean)
  | fuel + 1, pos =>
      if buf.length ≤ pos then ([], .clean)
      else if wrapsAt buf pos then ([], .wraps)
      else
        match nextField buf pos with
        | .ok (field, next) => (field :: (splitFields buf fuel next).1, (splitFields buf fuel next).2)
        | .err _ | .panic => ([], .broken)

def wireFields (buf : Bytes) : List Field := (splitFields buf buf.length 0).1

def wireEnding (buf : Bytes) : Ending := (splitFields buf buf.length 0).2

/-- A walk that goes on past the fields it accepts reaches a hazard, or the end of
the fields and a length that wraps. -/
def Reaches (fields : List Field) (ending : Ending) (accepts hazard : Field → Prop) : Prop :=
  (∃ before field after, fields = before ++ field :: after ∧
    (∀ earlier ∈ before, accepts earlier) ∧ hazard field) ∨
  ((∀ field ∈ fields, accepts field) ∧ ending = .wraps)

def MessageHazard (accepts hazard : Field → Prop) (buf : Bytes) : Prop :=
  Reaches (wireFields buf) (wireEnding buf) accepts hazard

theorem reaches_nil {ending : Ending} {accepts hazard : Field → Prop} :
    Reaches [] ending accepts hazard ↔ ending = .wraps := by
  simp [Reaches]

theorem reaches_cons {field : Field} {rest : List Field} {ending : Ending}
    {accepts hazard : Field → Prop} :
    Reaches (field :: rest) ending accepts hazard ↔
      hazard field ∨ (accepts field ∧ Reaches rest ending accepts hazard) := by
  constructor
  · rintro (⟨before, found, after, same, accepted, here⟩ | ⟨accepted, wraps⟩)
    · cases before with
      | nil =>
          simp only [List.nil_append, List.cons.injEq] at same
          exact .inl (same.1 ▸ here)
      | cons first before =>
          simp only [List.cons_append, List.cons.injEq] at same
          obtain ⟨rfl, rfl⟩ := same
          obtain ⟨first, accepted⟩ := List.forall_mem_cons.mp accepted
          exact .inr ⟨first, .inl ⟨before, found, after, rfl, accepted, here⟩⟩
    · obtain ⟨first, accepted⟩ := List.forall_mem_cons.mp accepted
      exact .inr ⟨first, .inr ⟨accepted, wraps⟩⟩
  · rintro (here | ⟨first, ⟨before, found, after, rfl, accepted, here⟩ | ⟨accepted, wraps⟩⟩)
    · exact .inl ⟨[], field, rest, rfl, by simp, here⟩
    · exact .inl ⟨field :: before, found, after, rfl, List.forall_mem_cons.mpr ⟨first, accepted⟩, here⟩
    · exact .inr ⟨List.forall_mem_cons.mpr ⟨first, accepted⟩, wraps⟩

/-- More fuel than there are bytes left changes nothing. -/
theorem splitFields_fuel {buf : Bytes} {fuel pos : Nat} (enough : buf.length ≤ pos + fuel) :
    splitFields buf (fuel + 1) pos = splitFields buf fuel pos := by
  induction fuel generalizing pos with
  | zero =>
      have done : buf.length ≤ pos := by simpa using enough
      simp [splitFields, done]
  | succ fuel ih =>
      rw [splitFields, splitFields]
      split
      · rfl
      · rename_i inside
        split
        · rfl
        · cases read : nextField buf pos with
          | ok found =>
              obtain ⟨field, next⟩ := found
              have moved := (nextField_spec (Nat.le_of_not_le inside)).2 field next read
              simp only [ih (show buf.length ≤ next + fuel by omega)]
          | err reason => rfl
          | panic => rfl

theorem foldFields_panics {read : Field → Outcome Error (σ → σ)} {buf : Bytes} {fuel pos : Nat}
    {value : σ} :
    (foldFields read buf fuel pos value).Panics ↔
      Reaches (splitFields buf fuel pos).1 (splitFields buf fuel pos).2
        (fun field => (read field).Returns) (fun field => (read field).Panics) := by
  induction fuel generalizing pos value with
  | zero => simp [foldFields, splitFields, reaches_nil]
  | succ fuel ih =>
      simp only [foldFields, splitFields]
      split
      · simp [reaches_nil]
      · rename_i inside
        obtain ⟨panics, -⟩ := nextField_spec (Nat.le_of_not_le inside)
        by_cases wraps : wrapsAt buf pos = true
        · have walked : nextField buf pos = .panic := panics.mpr wraps
          simp [wraps, walked, reaches_nil]
        · rw [if_neg wraps]
          cases got : nextField buf pos with
          | panic => exact absurd (panics.mp got) wraps
          | err reason => simp [reaches_nil]
          | ok found =>
              obtain ⟨field, next⟩ := found
              simp only [Outcome.ok_bind, Outcome.bind_panics, ih, reaches_cons]
              refine or_congr_right ⟨?_, ?_⟩
              · rintro ⟨change, accepted, later⟩
                exact ⟨⟨change, accepted⟩, later⟩
              · rintro ⟨⟨change, accepted⟩, later⟩
                exact ⟨change, accepted, later⟩

theorem findFrom_panics {look : Field → Outcome Error (Option α)} {buf : Bytes} {fuel pos : Nat} :
    (findFrom look buf fuel pos).Panics ↔
      Reaches (splitFields buf fuel pos).1 (splitFields buf fuel pos).2
        (fun field => look field = .ok none) (fun field => (look field).Panics) := by
  induction fuel generalizing pos with
  | zero => simp [findFrom, splitFields, reaches_nil]
  | succ fuel ih =>
      simp only [findFrom, splitFields]
      split
      · simp [reaches_nil]
      · rename_i inside
        obtain ⟨panics, -⟩ := nextField_spec (Nat.le_of_not_le inside)
        by_cases wraps : wrapsAt buf pos = true
        · have walked : nextField buf pos = .panic := panics.mpr wraps
          simp [wraps, walked, reaches_nil]
        · rw [if_neg wraps]
          cases got : nextField buf pos with
          | panic => exact absurd (panics.mp got) wraps
          | err reason => simp [reaches_nil]
          | ok found =>
              obtain ⟨field, next⟩ := found
              simp only [Outcome.ok_bind, Outcome.bind_panics, reaches_cons, ← ih]
              refine or_congr_right ⟨?_, ?_⟩
              · rintro ⟨answer, looked, later⟩
                cases answer with
                | some found => simp at later
                | none => exact ⟨looked, later⟩
              · rintro ⟨looked, later⟩
                exact ⟨none, looked, later⟩

/-- **When reading a message panics.** -/
theorem readMessage_panics {read : Field → Outcome Error (σ → σ)} {hazard : Field → Prop}
    (hazards : ∀ field, (read field).Panics ↔ hazard field) (init : σ) (buf : Bytes) :
    (readMessage read init buf).Panics ↔
      MessageHazard (fun field => (read field).Returns) hazard buf := by
  rw [readMessage, foldFields_panics, funext fun field => propext (hazards field)]
  rfl

/-- **When looking for a field panics.** -/
theorem findField_panics {look : Field → Outcome Error (Option α)} {hazard : Field → Prop}
    (hazards : ∀ field, (look field).Panics ↔ hazard field) (buf : Bytes) :
    (findField look buf).Panics ↔
      MessageHazard (fun field => look field = .ok none) hazard buf := by
  rw [findField, findFrom_panics, funext fun field => propext (hazards field)]
  rfl

/-- What every accepted field keeps, the message has. -/
theorem readMessage_invariant {read : Field → Outcome Error (σ → σ)} {P : σ → Prop}
    (kept : ∀ field change, read field = .ok change → ∀ value, P value → P (change value))
    {init final : σ} {buf : Bytes} (started : P init)
    (done : readMessage read init buf = .ok final) : P final := by
  have walk : ∀ fuel pos value, P value → foldFields read buf fuel pos value = .ok final →
      P final := by
    intro fuel
    induction fuel with
    | zero =>
        intro pos value holds done
        cases done
        exact holds
    | succ fuel ih =>
        intro pos value holds done
        simp only [foldFields] at done
        split at done
        · cases done
          exact holds
        · obtain ⟨⟨field, next⟩, -, done⟩ := Outcome.bind_eq_ok.mp done
          obtain ⟨change, accepted, done⟩ := Outcome.bind_eq_ok.mp done
          exact ih next _ (kept field change accepted value holds) done
  exact walk _ _ _ started done

end Loops

end MajsoulManager.Majsoul
