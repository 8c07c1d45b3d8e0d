/-
# Theory.Percent — percent-encoding

A byte that is kept is written as its own character, every other byte as `%` and two uppercase
hexadecimal digits.  `decode_encode`: what was written reads back, whichever bytes are kept;
`not_mem_encode`: a separator that is not kept does not occur in it.
-/
import MajsoulManager.Theory.Utf8

namespace MajsoulManager.Theory.Percent

set_option autoImplicit false

def hexUpper (n : Nat) : Char := if n < 10 then Char.ofNat (48 + n) else Char.ofNat (55 + n)

def upperValue (c : Char) : Option Nat :=
  if '0' ≤ c ∧ c ≤ '9' then some (c.toNat - 48)
  else if 'A' ≤ c ∧ c ≤ 'F' then some (c.toNat - 55)
  else none

section Encoding

variable (kept : UInt8 → Bool)

def encodeByte (b : UInt8) : List Char :=
  if kept b then [Char.ofNat b.toNat] else ['%', hexUpper (b.toNat / 16), hexUpper (b.toNat % 16)]

def encode (bytes : List UInt8) : List Char := bytes.flatMap (encodeByte kept)

def encodeText (text : String) : String := String.ofList (encode kept (Text.utf8 text))

/-- What may be kept: ASCII, and not the mark itself. -/
structure Plain : Prop where
  ascii : ∀ b, kept b = true → b.toNat < 128
  mark : kept 37 = false

end Encoding

/-- The bytes of a text, its escapes replaced. -/
def decode : List Char → Option (List UInt8)
  | [] => some []
  | '%' :: high :: low :: rest => do
      let high ← upperValue high
      let low ← upperValue low
      let rest ← decode rest
      some (UInt8.ofNat (high * 16 + low) :: rest)
  | c :: rest => (decode rest).map (UInt8.ofNat c.toNat :: ·)

def decodeText (text : String) : Option String := (decode text.toList).bind Text.fromUtf8

/-! ## What is written -/

theorem upperValue_hexUpper {n : Nat} (small : n < 16) : upperValue (hexUpper n) = some n := by
  have all : ∀ n : Fin 16, upperValue (hexUpper n) = some n.val := by decide
  exact all ⟨n, small⟩

theorem toNat_ofNat_ascii {b : UInt8} (ascii : b.toNat < 128) : (Char.ofNat b.toNat).toNat = b.toNat := by
  have all : ∀ n : Fin 128, (Char.ofNat n.val).toNat = n.val := by decide
  exact all ⟨b.toNat, ascii⟩

variable {kept : UInt8 → Bool}

theorem mem_encode {bytes : List UInt8} {c : Char} (member : c ∈ encode kept bytes) :
    c = '%' ∨ (∃ n : Fin 16, c = hexUpper n) ∨ ∃ b, kept b = true ∧ c = Char.ofNat b.toNat := by
  obtain ⟨b, -, inside⟩ := List.mem_flatMap.mp member
  rw [encodeByte] at inside
  split at inside
  · rename_i keeps
    exact .inr (.inr ⟨b, keeps, List.mem_singleton.mp inside⟩)
  · have high : b.toNat / 16 < 16 := by
      have bound := b.toNat_lt
      omega
    rcases List.mem_cons.mp inside with mark | digits
    · exact .inl mark
    · rcases List.mem_cons.mp digits with first | last
      · exact .inr (.inl ⟨⟨_, high⟩, first⟩)
      · exact .inr (.inl ⟨⟨b.toNat % 16, Nat.mod_lt _ (by decide)⟩, List.mem_singleton.mp last⟩)

/-- A character that is not kept separates what is written. -/
theorem not_mem_encode (plain : Plain kept) {bytes : List UInt8} {c : Char} (mark : c ≠ '%')
    (digits : ∀ n : Fin 16, c ≠ hexUpper n) (unkept : kept (UInt8.ofNat c.toNat) = false) :
    c ∉ encode kept bytes := by
  intro member
  rcases mem_encode member with same | ⟨n, same⟩ | ⟨b, keeps, rfl⟩
  · exact mark same
  · exact digits n same
  · rw [toNat_ofNat_ascii (plain.ascii b keeps), UInt8.ofNat_toNat, keeps] at unkept
    exact absurd unkept (by decide)

theorem decode_cons {c : Char} (other : c ≠ '%') (rest : List Char) :
    decode (c :: rest) = (decode rest).map (UInt8.ofNat c.toNat :: ·) := by
  rw [decode]
  rintro high low more same
  exact absurd same (by simp [other])

theorem decode_encodeByte (plain : Plain kept) (b : UInt8) (rest : List Char) :
    decode (encodeByte kept b ++ rest) = (decode rest).map (b :: ·) := by
  have bound := b.toNat_lt
  rw [encodeByte]
  split
  · rename_i keeps
    have ascii := plain.ascii b keeps
    have other : Char.ofNat b.toNat ≠ '%' := by
      intro same
      have code : b.toNat = 37 := by rw [← toNat_ofNat_ascii ascii, same]; rfl
      rw [UInt8.toNat_inj.mp (code.trans (by rfl : 37 = (37 : UInt8).toNat)), plain.mark] at keeps
      exact absurd keeps (by decide)
    rw [List.singleton_append, decode_cons other, toNat_ofNat_ascii ascii, UInt8.ofNat_toNat]
  · have value : b.toNat / 16 * 16 + b.toNat % 16 = b.toNat := by omega
    simp only [List.cons_append, List.nil_append, decode,
      upperValue_hexUpper (show b.toNat / 16 < 16 by omega),
      upperValue_hexUpper (Nat.mod_lt b.toNat (by decide : 16 > 0)), Option.bind_eq_bind,
      Option.bind_some, value, UInt8.ofNat_toNat]
    cases decode rest <;> rfl

/-- **What was written reads back.** -/
theorem decode_encode (plain : Plain kept) (bytes : List UInt8) :
    decode (encode kept bytes) = some bytes := by
  induction bytes with
  | nil => rfl
  | cons b rest ih =>
      rw [encode, List.flatMap_cons, decode_encodeByte plain, ← encode, ih]
      rfl

theorem decodeText_encodeText (plain : Plain kept) (text : String) :
    decodeText (encodeText kept text) = some text := by
  rw [decodeText, encodeText, String.toList_ofList, decode_encode plain, Option.bind_some,
    Text.fromUtf8_utf8]

theorem encodeText_inj (plain : Plain kept) {first second : String} :
    encodeText kept first = encodeText kept second ↔ first = second := by
  constructor
  · intro same
    have read := decodeText_encodeText plain first
    rw [same, decodeText_encodeText plain second] at read
    exact (Option.some.inj read).symm
  · rintro rfl
    rfl

end MajsoulManager.Theory.Percent
