/-
# Majsoul.Encode — the protobuf wire format, written

The other side of `Majsoul.Wire`: varints in their shortest form, tags, and the
fields of a message one after another.  A varint reads back as itself whatever
follows it (`decodeVarint_encodeVarint`), and the loop over a written message is
a loop over the list of its fields (`readMessage_encodeFields`,
`findField_encodeFields`).
-/
import MajsoulManager.Majsoul.Schema

namespace MajsoulManager.Majsoul

open MajsoulManager.Theory
open MajsoulManager.Store

set_option autoImplicit false

/-! ## Varints -/

/-- Seven bits a byte, low bits first; ten bytes hold any 64-bit number. -/
def varintBytes : Nat → Nat → Bytes
  | 0, _ => []
  | fuel + 1, n =>
      if n < 128 then [UInt8.ofNat n]
      else UInt8.ofNat (n % 128 + 128) :: varintBytes fuel (n / 128)

def encodeVarint (value : UInt64) : Bytes := varintBytes 10 value.toNat

theorem toNat_and_low (byte : UInt8) : (byte &&& 0x7f).toUInt64.toNat = byte.toNat % 128 := by
  rw [UInt8.toNat_toUInt64, UInt8.toNat_and]
  exact Nat.and_two_pow_sub_one_eq_mod byte.toNat 7

theorem and_high_eq_zero (byte : UInt8) : (byte &&& 0x80 = 0) ↔ byte.toNat < 128 := by
  revert byte
  decide +kernel

/-- The part of a number at `shift` does not overflow, and lies above what was read. -/
theorem or_shift {value part : UInt64} {shift : Nat} (small : shift < 64)
    (below : value.toNat < 2 ^ shift) (fits : part.toNat * 2 ^ shift < 2 ^ 64) :
    (value ||| part <<< UInt64.ofNat shift).toNat = value.toNat + part.toNat * 2 ^ shift := by
  have amount : (UInt64.ofNat shift).toNat % 64 = shift := by
    rw [UInt64.toNat_ofNat']
    omega
  rw [UInt64.toNat_or, UInt64.toNat_shiftLeft, amount, Nat.shiftLeft_eq, Nat.mod_eq_of_lt fits,
    Nat.or_comm, Nat.mul_comm, ← Nat.two_pow_add_eq_or_of_lt below]
  omega

theorem not_too_long {part : UInt64} {shift : Nat} (small : shift < 64)
    (fits : part.toNat * 2 ^ shift < 2 ^ 64) :
    ¬ (64 ≤ shift ∨ UInt64.ofNat (2 ^ 64 - 1) >>> UInt64.ofNat shift < part) := by
  have amount : (UInt64.ofNat shift).toNat % 64 = shift := by
    rw [UInt64.toNat_ofNat']
    omega
  rintro (impossible | beyond)
  · omega
  · rw [UInt64.lt_iff_toNat_lt, UInt64.toNat_shiftRight, amount, Nat.shiftRight_eq_div_pow,
      Nat.div_lt_iff_lt_mul (Nat.two_pow_pos shift)] at beyond
    have top : (UInt64.ofNat (2 ^ 64 - 1)).toNat = 2 ^ 64 - 1 := by decide
    omega

/-- Reading on from the middle of a written number. -/
theorem varintFrom_varintBytes {fuel n shift pos : Nat} {value : UInt64} (rest : Bytes)
    (enough : n < 128 ^ fuel) (positive : 0 < fuel) (small : shift < 64)
    (below : value.toNat < 2 ^ shift) (fits : value.toNat + n * 2 ^ shift < 2 ^ 64) :
    varintFrom value shift pos (varintBytes fuel n ++ rest) =
      .ok (UInt64.ofNat (value.toNat + n * 2 ^ shift), pos + (varintBytes fuel n).length) := by
  induction fuel generalizing n shift pos value with
  | zero => omega
  | succ fuel ih =>
      have room : n % 128 * 2 ^ shift ≤ n * 2 ^ shift :=
        Nat.mul_le_mul_right _ (Nat.mod_le n 128)
      rw [varintBytes]
      split
      · rename_i last
        have byte : (UInt8.ofNat n).toNat = n := by
          rw [UInt8.toNat_ofNat']
          omega
        have part : ((UInt8.ofNat n) &&& 0x7f).toUInt64.toNat = n := by
          rw [toNat_and_low, byte]
          omega
        have whole : (((UInt8.ofNat n) &&& 0x7f).toUInt64).toNat * 2 ^ shift < 2 ^ 64 := by
          rw [part]
          omega
        rw [List.singleton_append, varintFrom, if_neg (not_too_long small whole)]
        simp only [(and_high_eq_zero (UInt8.ofNat n)).mpr (by omega), if_true, List.length_singleton]
        congr 2
        apply UInt64.toNat_inj.mp
        rw [or_shift small below whole, part, UInt64.toNat_ofNat', Nat.mod_eq_of_lt fits]
      · rename_i more
        have byte : (UInt8.ofNat (n % 128 + 128)).toNat = n % 128 + 128 := by
          rw [UInt8.toNat_ofNat']
          omega
        have part : ((UInt8.ofNat (n % 128 + 128)) &&& 0x7f).toUInt64.toNat = n % 128 := by
          rw [toNat_and_low, byte]
          omega
        have whole : (((UInt8.ofNat (n % 128 + 128)) &&& 0x7f).toUInt64).toNat * 2 ^ shift < 2 ^ 64 := by
          rw [part]
          omega
        have continues : ¬ (UInt8.ofNat (n % 128 + 128)) &&& 0x80 = 0 := by
          rw [and_high_eq_zero]
          omega
        have read : ∀ v : UInt64, v.toNat = value.toNat + n % 128 * 2 ^ shift →
            v.toNat + n / 128 * 2 ^ (shift + 7) = value.toNat + n * 2 ^ shift := by
          intro v same
          have split := Nat.mod_add_div n 128
          have power : 2 ^ (shift + 7) = 128 * 2 ^ shift := by
            rw [Nat.pow_add, Nat.mul_comm]
          rw [same, power, ← Nat.mul_assoc, Nat.mul_comm (n / 128), Nat.add_assoc, ← Nat.add_mul,
            split]
        have joined := or_shift small below whole
        rw [part] at joined
        have total := read _ joined
        have pow7 : 2 ^ (shift + 7) = 128 * 2 ^ shift := by
          rw [Nat.pow_add, Nat.mul_comm]
        have quotient : 1 ≤ n / 128 := by omega
        have nextSmall : shift + 7 < 64 := by
          by_contra large
          have lower : 2 ^ 64 ≤ 2 ^ (shift + 7) := Nat.pow_le_pow_right (by decide) (by omega)
          have scaled : 2 ^ (shift + 7) ≤ n / 128 * 2 ^ (shift + 7) :=
            Nat.le_mul_of_pos_left _ quotient
          omega
        have nextBelow : (value ||| ((UInt8.ofNat (n % 128 + 128)) &&& 0x7f).toUInt64 <<<
            UInt64.ofNat shift).toNat < 2 ^ (shift + 7) := by
          rw [joined, pow7]
          have low : n % 128 * 2 ^ shift ≤ 127 * 2 ^ shift := Nat.mul_le_mul_right _ (by omega)
          omega
        have nextEnough : n / 128 < 128 ^ fuel := by
          rw [Nat.div_lt_iff_lt_mul (by decide)]
          simpa [Nat.pow_succ] using enough
        have nextPositive : 0 < fuel := by
          rcases Nat.eq_zero_or_pos fuel with rfl | positive
          · simp at nextEnough
            omega
          · exact positive
        rw [List.cons_append, varintFrom, if_neg (not_too_long small whole)]
        simp only [continues, if_false]
        rw [ih nextEnough nextPositive nextSmall nextBelow (by omega), total]
        simp only [List.length_cons]
        congr 2
        omega

/-- **Varint decoding inverts varint encoding**, for every 64-bit number and
whatever follows it. -/
theorem decodeVarint_encodeVarint (value : UInt64) (rest : Bytes) :
    decodeVarint (encodeVarint value ++ rest) = .ok (value, (encodeVarint value).length) := by
  have bound := value.toNat_lt
  have read : varintFrom 0 0 0 (varintBytes 10 value.toNat ++ rest) = _ :=
    varintFrom_varintBytes rest (show value.toNat < 128 ^ 10 by omega) (by decide) (by decide)
      (by decide) (by simpa using bound)
  rw [decodeVarint, encodeVarint, read]
  simp

theorem varintFrom_append {value : UInt64} {shift pos : Nat} {buf : Bytes} {read : UInt64 × Nat}
    (decoded : varintFrom value shift pos buf = .ok read) (rest : Bytes) :
    varintFrom value shift pos (buf ++ rest) = .ok read := by
  induction buf generalizing value shift pos with
  | nil => cases decoded
  | cons byte more ih =>
      simp only [varintFrom] at decoded
      rw [List.cons_append, varintFrom]
      split at decoded
      · cases decoded
      · rename_i fits
        rw [if_neg fits]
        split at decoded
        · rename_i last
          simp only [last, if_true]
          exact decoded
        · rename_i continues
          simp only [continues, if_false]
          exact ih decoded

/-- A varint that decodes, decodes the same before anything else. -/
theorem decodeVarint_append {buf : Bytes} {read : UInt64 × Nat}
    (decoded : decodeVarint buf = .ok read) (rest : Bytes) :
    decodeVarint (buf ++ rest) = .ok read := varintFrom_append decoded rest

theorem decodeVarint_self (value : UInt64) :
    decodeVarint (encodeVarint value) = .ok (value, (encodeVarint value).length) := by
  simpa using decodeVarint_encodeVarint value []

theorem encodeVarint_ne_nil (value : UInt64) : encodeVarint value ≠ [] := by
  intro empty
  have read := decodeVarint_self value
  rw [empty] at read
  cases read

/-! ## Fields -/

def encodeTag (number : UInt32) (wireType : UInt8) : Bytes :=
  encodeVarint (UInt64.ofNat (8 * number.toNat + wireType.toNat))

/-- The length that a length-delimited field carries before its data. -/
def encodeLength (field : Field) : Bytes :=
  if field.wireType = 2 then encodeVarint (UInt64.ofNat field.data.length) else []

def encodeField (field : Field) : Bytes :=
  encodeTag field.number field.wireType ++ (encodeLength field ++ field.data)

def encodeFields (fields : List Field) : Bytes := fields.flatMap encodeField

/-- A field of one of the four wire types, with data of that type. -/
def Field.WellFormed (field : Field) : Prop :=
  (field.wireType = 0 ∧ ∃ value, decodeVarint field.data = .ok (value, field.data.length)) ∨
  (field.wireType = 1 ∧ field.data.length = 8) ∨
  field.wireType = 2 ∨
  (field.wireType = 5 ∧ field.data.length = 4)

theorem tag_toNat (number : UInt32) {wireType : UInt8} (small : wireType.toNat < 8) :
    (UInt64.ofNat (8 * number.toNat + wireType.toNat)).toNat =
      8 * number.toNat + wireType.toNat := by
  have bound := number.toNat_lt
  rw [UInt64.toNat_ofNat', Nat.mod_eq_of_lt (by omega)]

theorem tag_number (number : UInt32) {wireType : UInt8} (small : wireType.toNat < 8) :
    (UInt64.ofNat (8 * number.toNat + wireType.toNat) >>> 3).toUInt32 = number := by
  have bound := number.toNat_lt
  apply UInt32.toNat_inj.mp
  rw [UInt64.toNat_toUInt32, UInt64.toNat_shiftRight, tag_toNat number small,
    show (3 : UInt64).toNat % 64 = 3 from rfl, Nat.shiftRight_eq_div_pow]
  omega

theorem tag_wireType (number : UInt32) {wireType : UInt8} (small : wireType.toNat < 8) :
    (UInt64.ofNat (8 * number.toNat + wireType.toNat) &&& 7).toUInt8 = wireType := by
  apply UInt8.toNat_inj.mp
  rw [UInt64.toNat_toUInt8, UInt64.toNat_and, tag_toNat number small,
    show (7 : UInt64).toNat = 2 ^ 3 - 1 from rfl, Nat.and_two_pow_sub_one_eq_mod]
  omega

theorem Field.WellFormed.small {field : Field} (formed : field.WellFormed) :
    field.wireType.toNat < 8 := by
  rcases formed with ⟨same, -⟩ | ⟨same, -⟩ | same | ⟨same, -⟩ <;> rw [same] <;> decide

/-- The bytes of `data`, cut out of the middle. -/
theorem slice_middle (before data rest : Bytes) :
    (Outcome.slice (before ++ data ++ rest) before.length (before.length + data.length) :
      Outcome Error Bytes) = .ok data := by
  rw [slice_of_le (by omega) (by simp), List.append_assoc, List.drop_left,
    Nat.add_sub_cancel_left, List.take_left]

/-- Data that carries no length, read behind its tag. -/
theorem fieldData_bare {before data rest : Bytes} {wireType : UInt8}
    (formed : (wireType = 0 ∧ ∃ value, decodeVarint data = .ok (value, data.length)) ∨
      (wireType = 1 ∧ data.length = 8) ∨ (wireType = 5 ∧ data.length = 4)) :
    fieldData (before ++ data ++ rest) before.length wireType =
      .ok (data, before.length + data.length) := by
  have middle := slice_middle before data rest
  have room : before.length + data.length ≤ (before ++ data ++ rest).length := by simp
  unfold fieldData
  rw [sliceFrom_of_le (by omega), List.append_assoc, List.drop_left, ← List.append_assoc]
  simp only [Outcome.ok_bind]
  rcases formed with ⟨rfl, value, decoded⟩ | ⟨rfl, sized⟩ | ⟨rfl, sized⟩
  · rw [if_pos rfl, decodeVarint_append decoded]
    simp only [ofExcept, Outcome.ok_bind, middle]
  · rw [sized] at middle room ⊢
    rw [if_neg (by decide), if_pos rfl, if_neg (by omega), middle]
    rfl
  · rw [sized] at middle room ⊢
    rw [if_neg (by decide), if_neg (by decide), if_neg (by decide), if_pos rfl,
      if_neg (by omega), middle]
    rfl

/-- Data behind its length. -/
theorem fieldData_delimited {before data rest : Bytes}
    (fits : (before ++ encodeVarint (UInt64.ofNat data.length) ++ data ++ rest).length < 2 ^ 63) :
    fieldData (before ++ encodeVarint (UInt64.ofNat data.length) ++ data ++ rest) before.length 2 =
      .ok (data, before.length + (encodeVarint (UInt64.ofNat data.length)).length + data.length) := by
  have middle := slice_middle (before ++ encodeVarint (UInt64.ofNat data.length)) data rest
  generalize lengthBytes : encodeVarint (UInt64.ofNat data.length) = length at *
  have sized : (before ++ length ++ data ++ rest).length =
      before.length + length.length + data.length + rest.length := by simp [Nat.add_assoc]
  have size : (UInt64.ofNat data.length).toNat = data.length := by
    rw [UInt64.toNat_ofNat', Nat.mod_eq_of_lt (by omega)]
  have stop : (before.length + length.length + (UInt64.ofNat data.length).toNat) % 2 ^ 64 =
      before.length + length.length + data.length := by
    rw [size, Nat.mod_eq_of_lt (by omega)]
  have suffix : (before ++ length ++ data ++ rest).drop before.length = length ++ (data ++ rest) := by
    rw [List.append_assoc, List.append_assoc, List.drop_left]
  unfold fieldData
  rw [sliceFrom_of_le (by omega), suffix, if_neg (by decide), if_neg (by decide), if_pos rfl]
  simp only [Outcome.ok_bind]
  rw [← lengthBytes, decodeVarint_encodeVarint, lengthBytes]
  simp only [ofExcept, Outcome.ok_bind]
  rw [stop, if_neg (by omega), ← List.length_append, middle]
  rfl

/-- **A written field reads back**, wherever it stands. -/
theorem nextField_encode {before rest : Bytes} {field : Field} (formed : field.WellFormed)
    (fits : (before ++ encodeField field ++ rest).length < 2 ^ 63) :
    nextField (before ++ encodeField field ++ rest) before.length =
      .ok (field, before.length + (encodeField field).length) := by
  have suffix : (before ++ encodeField field ++ rest).drop before.length =
      encodeTag field.number field.wireType ++ (encodeLength field ++ field.data ++ rest) := by
    rw [List.append_assoc, List.drop_left, encodeField, List.append_assoc]
  have data : fieldData (before ++ encodeField field ++ rest)
      (before.length + (encodeTag field.number field.wireType).length) field.wireType =
        .ok (field.data, before.length + (encodeField field).length) := by
    by_cases delimited : field.wireType = 2
    · have length : encodeLength field = encodeVarint (UInt64.ofNat field.data.length) := by
        simp [encodeLength, delimited]
      have split : before ++ encodeField field ++ rest =
          (before ++ encodeTag field.number field.wireType) ++
            encodeVarint (UInt64.ofNat field.data.length) ++ field.data ++ rest := by
        simp [encodeField, length]
      rw [split] at fits ⊢
      have read := fieldData_delimited fits
      rw [← delimited] at read
      rw [← List.length_append, read]
      simp [encodeField, length, Nat.add_assoc]
    · have none : encodeLength field = [] := by simp [encodeLength, delimited]
      have bare := formed
      simp only [Field.WellFormed, delimited, false_or] at bare
      have split : before ++ encodeField field ++ rest =
          (before ++ encodeTag field.number field.wireType) ++ field.data ++ rest := by
        simp [encodeField, none]
      rw [split, ← List.length_append, fieldData_bare bare]
      simp [encodeField, none, Nat.add_assoc]
  rw [nextField, sliceFrom_of_le (by simp), suffix]
  simp only [Outcome.ok_bind]
  rw [encodeTag, decodeVarint_encodeVarint, ← encodeTag]
  simp only [ofExcept, Outcome.ok_bind, tag_number field.number formed.small,
    tag_wireType field.number formed.small, data]

/-! ## Messages -/

section Messages

variable {σ α : Type}

/-- The loop over a message, as a loop over its fields. -/
def readFields (read : Field → Outcome Error (σ → σ)) : σ → List Field → Outcome Error σ
  | value, [] => .ok value
  | value, field :: rest => do
      let change ← read field
      readFields read (change value) rest

def lookFields (look : Field → Outcome Error (Option α)) : List Field → Outcome Error (Option α)
  | [] => .ok none
  | field :: rest => do
      match ← look field with
      | some found => .ok (some found)
      | none => lookFields look rest

theorem encodeField_pos (field : Field) : 0 < (encodeField field).length := by
  have tag := List.length_pos_of_ne_nil
    (encodeVarint_ne_nil (UInt64.ofNat (8 * field.number.toNat + field.wireType.toNat)))
  rw [encodeField, List.length_append, encodeTag]
  omega

theorem encodeFields_cons (field : Field) (rest : List Field) :
    encodeFields (field :: rest) = encodeField field ++ encodeFields rest := rfl

theorem foldFields_encodeFields (read : Field → Outcome Error (σ → σ)) {fields : List Field}
    (formed : ∀ field ∈ fields, field.WellFormed) {before : Bytes} {fuel : Nat} (value : σ)
    (fits : (before ++ encodeFields fields).length < 2 ^ 63)
    (enough : (encodeFields fields).length ≤ fuel) :
    foldFields read (before ++ encodeFields fields) fuel before.length value =
      readFields read value fields := by
  induction fields generalizing before fuel value with
  | nil =>
      cases fuel with
      | zero => rfl
      | succ fuel => simp [foldFields, encodeFields, readFields]
  | cons field rest ih =>
      obtain ⟨here, later⟩ := List.forall_mem_cons.mp formed
      have positive := encodeField_pos field
      rw [encodeFields_cons, ← List.append_assoc] at fits ⊢
      rw [encodeFields_cons, List.length_append] at enough
      cases fuel with
      | zero => omega
      | succ fuel =>
          have room : ¬ (before ++ encodeField field ++ encodeFields rest).length ≤ before.length := by
            simp only [List.length_append]
            omega
          rw [foldFields, if_neg room, nextField_encode here fits]
          simp only [Outcome.ok_bind, readFields]
          cases read field with
          | err reason => rfl
          | panic => rfl
          | ok change =>
              simp only [Outcome.ok_bind]
              rw [← List.length_append]
              exact ih later (change value) fits (by omega)

theorem findFrom_encodeFields (look : Field → Outcome Error (Option α)) {fields : List Field}
    (formed : ∀ field ∈ fields, field.WellFormed) {before : Bytes} {fuel : Nat}
    (fits : (before ++ encodeFields fields).length < 2 ^ 63)
    (enough : (encodeFields fields).length ≤ fuel) :
    findFrom look (before ++ encodeFields fields) fuel before.length = lookFields look fields := by
  induction fields generalizing before fuel with
  | nil =>
      cases fuel with
      | zero => rfl
      | succ fuel => simp [findFrom, encodeFields, lookFields]
  | cons field rest ih =>
      obtain ⟨here, later⟩ := List.forall_mem_cons.mp formed
      have positive := encodeField_pos field
      rw [encodeFields_cons, ← List.append_assoc] at fits ⊢
      rw [encodeFields_cons, List.length_append] at enough
      cases fuel with
      | zero => omega
      | succ fuel =>
          have room : ¬ (before ++ encodeField field ++ encodeFields rest).length ≤ before.length := by
            simp only [List.length_append]
            omega
          rw [findFrom, if_neg room, nextField_encode here fits]
          simp only [Outcome.ok_bind, lookFields]
          cases look field with
          | err reason => rfl
          | panic => rfl
          | ok answer =>
              cases answer with
              | some found => rfl
              | none =>
                  simp only [Outcome.ok_bind]
                  rw [← List.length_append]
                  exact ih later fits (by omega)

/-- Bytes that are these fields, one after another.  No slice is longer than
`isize::MAX` bytes. -/
structure Written (fields : List Field) (buf : Bytes) : Prop where
  formed : ∀ field ∈ fields, field.WellFormed
  bytes : buf = encodeFields fields
  fits : buf.length < 2 ^ 63

/-- **The loop over a written message runs over its fields.** -/
theorem readMessage_written (read : Field → Outcome Error (σ → σ)) (init : σ)
    {fields : List Field} {buf : Bytes} (written : Written fields buf) :
    readMessage read init buf = readFields read init fields := by
  obtain ⟨formed, rfl, fits⟩ := written
  have walk : foldFields read ([] ++ encodeFields fields) _ ([] : Bytes).length init = _ :=
    foldFields_encodeFields read formed init fits (Nat.le_refl _)
  exact walk

/-- What a walk over any buffer came to, the walk over its fields comes to. -/
theorem readFields_wireFields {read : Field → Outcome Error (σ → σ)} {init final : σ} {buf : Bytes}
    (done : readMessage read init buf = .ok final) :
    readFields read init (wireFields buf) = .ok final := by
  have walk : ∀ fuel pos value, foldFields read buf fuel pos value = .ok final →
      readFields read value (splitFields buf fuel pos).1 = .ok final := by
    intro fuel
    induction fuel with
    | zero => exact fun pos value done => done
    | succ fuel ih =>
        intro pos value done
        simp only [foldFields] at done
        simp only [splitFields]
        split at done
        · rename_i past
          rw [if_pos past]
          exact done
        · rename_i inside
          obtain ⟨⟨field, next⟩, got, done⟩ := Outcome.bind_eq_ok.mp done
          obtain ⟨change, accepted, done⟩ := Outcome.bind_eq_ok.mp done
          have unwrapped : ¬ wrapsAt buf pos = true := by
            rw [← (nextField_spec (Nat.le_of_not_le inside)).1, got]
            simp
          rw [if_neg inside, if_neg unwrapped, got]
          simp only [readFields, accepted, Outcome.ok_bind]
          exact ih next _ done
  exact walk _ _ _ done

theorem findField_written (look : Field → Outcome Error (Option α))
    {fields : List Field} {buf : Bytes} (written : Written fields buf) :
    findField look buf = lookFields look fields := by
  obtain ⟨formed, rfl, fits⟩ := written
  have walk : findFrom look ([] ++ encodeFields fields) _ ([] : Bytes).length = _ :=
    findFrom_encodeFields look formed fits (Nat.le_refl _)
  exact walk

end Messages

end MajsoulManager.Majsoul
