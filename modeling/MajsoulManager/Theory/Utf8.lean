/-
# Theory.Utf8 — text as bytes

The bytes of a text, and that both readers of `Theory.Text` undo them:
`fromUtf8_utf8` for the strict one and `fromUtf8Lossy_utf8` for the lossy one,
which finds nothing to replace.
-/
import Mathlib.Data.UInt
import MajsoulManager.Theory.Text

namespace MajsoulManager.Theory.Text

set_option autoImplicit false

/-- The UTF-8 bytes of a text. -/
def utf8 (text : String) : List UInt8 := text.toList.flatMap String.utf8EncodeChar

theorem toUTF8_toList (text : String) : text.toUTF8.data.toList = utf8 text := by
  rw [String.toUTF8_eq_toByteArray, ← String.utf8Encode_toList]
  simp [List.utf8Encode, utf8]

theorem utf8_append (first second : String) : utf8 (first ++ second) = utf8 first ++ utf8 second := by
  rw [utf8, String.toList_append, List.flatMap_append]
  rfl

theorem fromUtf8_utf8 (text : String) : fromUtf8 (utf8 text) = some text := by
  rw [fromUtf8, ← toUTF8_toList]
  simp only [String.fromUTF8?, String.toUTF8_eq_toByteArray, Array.toArray_toList,
    Option.dite_none_right_eq_some, Option.some.injEq]
  exact ⟨text.isValidUTF8, rfl⟩

/-! ## The lossy reader -/

theorem byte_toNat {n : Nat} (small : n < 256) : (UInt8.ofNat n).toNat = n := by
  rw [UInt8.toNat_ofNat', Nat.mod_eq_of_lt small]

theorem sequenceLength_eq (b : UInt8) :
    sequenceLength b =
      if b.toNat < 0x80 then 1
      else if 0xc2 ≤ b.toNat ∧ b.toNat ≤ 0xdf then 2
      else if 0xe0 ≤ b.toNat ∧ b.toNat ≤ 0xef then 3
      else if 0xf0 ≤ b.toNat ∧ b.toNat ≤ 0xf4 then 4
      else 0 := by
  revert b
  decide +kernel

theorem isContinuation_eq (b : UInt8) : isContinuation b = true ↔ 0x80 ≤ b.toNat ∧ b.toNat ≤ 0xbf := by
  revert b
  decide +kernel

theorem isContinuation_ofNat (n : Nat) : isContinuation (UInt8.ofNat (n % 64 + 128)) = true := by
  rw [isContinuation_eq, byte_toNat (by omega)]
  omega

theorem low6_ofNat (n : Nat) : low6 (UInt8.ofNat (n % 64 + 128)) = n % 64 := by
  rw [low6, byte_toNat (by omega)]
  omega

/-- A second byte that the first allows. -/
theorem secondAllowed_of {first second : UInt8} (continues : isContinuation second = true)
    (overlong3 : first.toNat = 0xe0 → 0xa0 ≤ second.toNat)
    (surrogate : first.toNat = 0xed → second.toNat ≤ 0x9f)
    (overlong4 : first.toNat = 0xf0 → 0x90 ≤ second.toNat)
    (beyond : first.toNat = 0xf4 → second.toNat ≤ 0x8f) : secondAllowed first second = true := by
  obtain ⟨low, high⟩ := (isContinuation_eq second).mp continues
  unfold secondAllowed
  split
  · rename_i same
    have bound := overlong3 (by rw [same]; rfl)
    simp [UInt8.le_iff_toNat_le, bound, high]
  · split
    · rename_i same
      have bound := surrogate (by rw [same]; rfl)
      simp [UInt8.le_iff_toNat_le, bound, low]
    · split
      · rename_i same
        have bound := overlong4 (by rw [same]; rfl)
        simp [UInt8.le_iff_toNat_le, bound, high]
      · split
        · rename_i same
          have bound := beyond (by rw [same]; rfl)
          simp [UInt8.le_iff_toNat_le, bound, low]
        · exact continues

/-- **A written character reads back**, whatever follows it. -/
theorem nextChar_encode (c : Char) (rest : List UInt8) :
    ∃ first more, String.utf8EncodeChar c = first :: more ∧
      nextChar first (more ++ rest) = (some c, more.length) := by
  have back : Char.ofNat c.val.toNat = c := Char.ofNat_toNat c
  have valid : c.val.toNat < 0xd800 ∨ 0xdfff < c.val.toNat ∧ c.val.toNat < 0x110000 := c.valid
  unfold String.utf8EncodeChar
  simp only
  generalize c.val.toNat = v at back valid ⊢
  split
  · rename_i one
    refine ⟨_, _, rfl, ?_⟩
    have first := byte_toNat (show v < 256 by omega)
    have length : sequenceLength (UInt8.ofNat v) = 1 := by
      rw [sequenceLength_eq, first, if_pos (by omega)]
    simp only [nextChar, length, first, back, List.length_nil]
  · split
    · rename_i two
      refine ⟨_, _, rfl, ?_⟩
      have first := byte_toNat (show v / 64 % 32 + 192 < 256 by omega)
      have length : sequenceLength (UInt8.ofNat (v / 64 % 32 + 192)) = 2 := by
        rw [sequenceLength_eq, first, if_neg (by omega), if_pos (by omega)]
      have value : (v / 64 % 32 + 192) % 32 * 64 + v % 64 = v := by omega
      simp only [nextChar, length, List.cons_append, isContinuation_ofNat, low6_ofNat, first, value,
        back, if_true, List.length_cons, List.length_nil]
    · split
      · rename_i three
        refine ⟨_, _, rfl, ?_⟩
        have first := byte_toNat (show v / 4096 % 16 + 224 < 256 by omega)
        have second := byte_toNat (show v / 64 % 64 + 128 < 256 by omega)
        have length : sequenceLength (UInt8.ofNat (v / 4096 % 16 + 224)) = 3 := by
          rw [sequenceLength_eq, first, if_neg (by omega), if_neg (by omega), if_pos (by omega)]
        have allowed : secondAllowed (UInt8.ofNat (v / 4096 % 16 + 224))
            (UInt8.ofNat (v / 64 % 64 + 128)) = true := by
          refine secondAllowed_of (isContinuation_ofNat _) ?_ ?_ ?_ ?_ <;> rw [first, second] <;>
            omega
        have value : (v / 4096 % 16 + 224) % 16 * 4096 + v / 64 % 64 * 64 + v % 64 = v := by omega
        simp only [nextChar, length, List.cons_append, allowed, isContinuation_ofNat, low6_ofNat, first,
          value, back, if_true, List.length_cons, List.length_nil]
      · rename_i four
        refine ⟨_, _, rfl, ?_⟩
        have first := byte_toNat (show v / 262144 % 8 + 240 < 256 by omega)
        have second := byte_toNat (show v / 4096 % 64 + 128 < 256 by omega)
        have length : sequenceLength (UInt8.ofNat (v / 262144 % 8 + 240)) = 4 := by
          rw [sequenceLength_eq, first, if_neg (by omega), if_neg (by omega), if_neg (by omega),
            if_pos (by omega)]
        have allowed : secondAllowed (UInt8.ofNat (v / 262144 % 8 + 240))
            (UInt8.ofNat (v / 4096 % 64 + 128)) = true := by
          refine secondAllowed_of (isContinuation_ofNat _) ?_ ?_ ?_ ?_ <;> rw [first, second] <;>
            omega
        have value : (v / 262144 % 8 + 240) % 8 * 262144 + v / 4096 % 64 * 4096 +
            v / 64 % 64 * 64 + v % 64 = v := by omega
        simp only [nextChar, length, List.cons_append, allowed, isContinuation_ofNat, low6_ofNat, first,
          value, back, if_true, List.length_cons, List.length_nil]

theorem decodeLossy_utf8 {chars : List Char} {fuel : Nat}
    (enough : (chars.flatMap String.utf8EncodeChar).length ≤ fuel) :
    decodeLossy fuel (chars.flatMap String.utf8EncodeChar) = chars := by
  induction chars generalizing fuel with
  | nil => cases fuel <;> rfl
  | cons c rest ih =>
      obtain ⟨first, more, encoded, read⟩ :=
        nextChar_encode c (rest.flatMap String.utf8EncodeChar)
      rw [List.flatMap_cons, encoded, List.cons_append] at enough ⊢
      cases fuel with
      | zero => simp at enough
      | succ fuel =>
          simp only [List.length_cons, List.length_append] at enough
          simp only [decodeLossy, read, Option.getD_some, List.drop_left]
          rw [ih (by omega)]

/-- **Reading written text loses nothing.** -/
theorem fromUtf8Lossy_utf8 (text : String) : fromUtf8Lossy (utf8 text) = text := by
  rw [fromUtf8Lossy, utf8, decodeLossy_utf8 (Nat.le_refl _), String.ofList_toList]

end MajsoulManager.Theory.Text
