/-
# Theory.Text — text as a sequence of Unicode scalar values

The text operations of a standard library whose strings are UTF-8: lengths count
bytes, `split` positions are byte positions and panic inside a character, and
trimming and line splitting go character by character.  Bytes that are not UTF-8
are read either strictly (`fromUtf8`) or with a replacement character for every
maximal invalid part (`fromUtf8Lossy`).
-/
import MajsoulManager.Theory.Fault

namespace MajsoulManager.Theory.Text

set_option autoImplicit false

/-! ## Trimming and splitting -/

/-- Unicode's `White_Space` property. -/
def isWhitespace (c : Char) : Bool :=
  (9 ≤ c.toNat && c.toNat ≤ 13) || c.toNat == 0x20 || c.toNat == 0x85 || c.toNat == 0xa0 ||
    c.toNat == 0x1680 || (0x2000 ≤ c.toNat && c.toNat ≤ 0x200a) || c.toNat == 0x2028 ||
    c.toNat == 0x2029 || c.toNat == 0x202f || c.toNat == 0x205f || c.toNat == 0x3000

/-- Drop the longest suffix whose characters all satisfy `p`. -/
def dropEnd (p : Char → Bool) (text : List Char) : List Char :=
  (text.reverse.dropWhile p).reverse

def trim (text : String) : String :=
  String.ofList (dropEnd isWhitespace (text.toList.dropWhile isWhitespace))

def trimEndMatches (text : String) (c : Char) : String :=
  String.ofList (dropEnd (· == c) text.toList)

/-- The first `n` characters. -/
def takeChars (text : String) (n : Nat) : String :=
  String.ofList (text.toList.take n)

/-- A finished line loses the carriage return before its newline. -/
def dropCarriageReturn (line : List Char) : List Char :=
  if line.getLast? = some '\r' then line.dropLast else line

def linesFrom (current : List Char) : List Char → List (List Char)
  | [] => if current.isEmpty then [] else [current.reverse]
  | c :: rest =>
      if c = '\n' then dropCarriageReturn current.reverse :: linesFrom [] rest
      else linesFrom (c :: current) rest

/-- The lines of a text: a final newline starts no further line. -/
def lines (text : String) : List String :=
  (linesFrom [] text.toList).map String.ofList

/-- The pieces between occurrences of `separator`; never empty. -/
def splitChars (separator : Char) : List Char → List (List Char)
  | [] => [[]]
  | c :: rest =>
      if c = separator then [] :: splitChars separator rest
      else
        match splitChars separator rest with
        | [] => [[c]]
        | piece :: pieces => (c :: piece) :: pieces

def split (text : String) (separator : Char) : List String :=
  (splitChars separator text.toList).map String.ofList

/-- The text before and after the first occurrence of `separator`. -/
def splitOnce (text : String) (separator : Char) : Option (String × String) :=
  match text.toList.dropWhile (· != separator) with
  | [] => none
  | _ :: after => some (String.ofList (text.toList.takeWhile (· != separator)), String.ofList after)

def stripSuffix (text : String) (c : Char) : Option String :=
  if text.toList.getLast? = some c then some (String.ofList text.toList.dropLast) else none

/-- The characters that make up the first `n` bytes, if a character ends there. -/
def takeBytes : List Char → Nat → Option (List Char)
  | _, 0 => some []
  | [], _ + 1 => none
  | c :: rest, n + 1 =>
      if c.utf8Size ≤ n + 1 then (takeBytes rest (n + 1 - c.utf8Size)).map (c :: ·) else none

/-- `text.get(0..n)`. -/
def getPrefix (text : String) (n : Nat) : Option String :=
  (takeBytes text.toList n).map String.ofList

/-- The digits of a number that is not empty. -/
def digitsValue (digits : List Char) : Option Nat :=
  if digits ≠ [] ∧ digits.all (·.isDigit) then
    some (digits.foldl (fun value c => 10 * value + (c.toNat - '0'.toNat)) 0)
  else none

/-- `parse::<i32>`: a sign is allowed before the digits. -/
def parseI32 (text : String) : Option Int32 :=
  let value : Option Int :=
    match text.toList with
    | '-' :: digits => (digitsValue digits).map fun n => -(n : Int)
    | '+' :: digits => (digitsValue digits).map (↑·)
    | digits => (digitsValue digits).map (↑·)
  (value.filter fun n => -2 ^ 31 ≤ n ∧ n < 2 ^ 31).map Int32.ofInt

/-- A sign is allowed before the digits. -/
def signedValue : List Char → Option Int
  | '-' :: digits => (digitsValue digits).map fun n : Nat => -(n : Int)
  | '+' :: digits => (digitsValue digits).map Int.ofNat
  | digits => (digitsValue digits).map Int.ofNat

/-- `parse::<i64>`. -/
def parseI64 (text : String) : Option Int :=
  (signedValue text.toList).filter fun n => -2 ^ 63 ≤ n ∧ n < 2 ^ 63

/-- The digits of an unsigned number: a plus sign is allowed before them. -/
def unsignedValue : List Char → Option Nat
  | '+' :: digits => digitsValue digits
  | digits => digitsValue digits

/-- `parse` for an unsigned type of `width` bits. -/
def parseUnsigned (width : Nat) (digits : List Char) : Option Nat :=
  (unsignedValue digits).filter (· < 2 ^ width)

/-- `split_at(1)`: the first byte has to be a whole character. -/
def splitFirstByte {ε : Type} (text : String) : Outcome ε (Char × String) :=
  match text.toList with
  | [] => .panic
  | c :: rest => if c.utf8Size = 1 then .ok (c, String.ofList rest) else .panic

/-! ## Numbers that were printed -/

theorem isDigit_of_mem_toDigits {n : Nat} {c : Char} (member : c ∈ Nat.toDigits 10 n) :
    c.isDigit = true := Nat.isDigit_of_mem_toDigits (by decide) (by decide) member

theorem digitsValue_toDigits (n : Nat) : digitsValue (Nat.toDigits 10 n) = some n := by
  have digits : (Nat.toDigits 10 n).all (·.isDigit) = true :=
    List.all_eq_true.mpr fun c member => isDigit_of_mem_toDigits member
  rw [digitsValue, if_pos ⟨Nat.toDigits_ne_nil, digits⟩, ← Nat.ofDigitChars_eq_foldl,
    Nat.ofDigitChars_ten_toDigits]

theorem signedValue_toDigits (n : Nat) : signedValue (Nat.toDigits 10 n) = some (n : Int) := by
  have plain : ∀ c ∈ Nat.toDigits 10 n, c ≠ '-' ∧ c ≠ '+' := by
    intro c member
    have digit := isDigit_of_mem_toDigits member
    constructor
    · rintro rfl
      cases digit
    · rintro rfl
      cases digit
  have value := digitsValue_toDigits n
  cases digits : Nat.toDigits 10 n with
  | nil => exact absurd digits Nat.toDigits_ne_nil
  | cons c rest =>
      rw [digits] at plain value
      obtain ⟨minus, plus⟩ := plain c List.mem_cons_self
      rw [signedValue, value]
      · rfl
      · exact fun digits same => minus (List.cons.inj same).1
      · exact fun digits same => plus (List.cons.inj same).1

theorem unsignedValue_toDigits (n : Nat) : unsignedValue (Nat.toDigits 10 n) = some n := by
  have value := digitsValue_toDigits n
  cases digits : Nat.toDigits 10 n with
  | nil => exact absurd digits Nat.toDigits_ne_nil
  | cons c rest =>
      have digit : c.isDigit = true := by
        refine isDigit_of_mem_toDigits (n := n) ?_
        rw [digits]
        exact List.mem_cons_self
      rw [digits] at value
      rw [unsignedValue, value]
      rintro digits same
      obtain ⟨rfl, -⟩ := List.cons.inj same
      cases digit

theorem parseUnsigned_toDigits {width n : Nat} (fits : n < 2 ^ width) :
    parseUnsigned width (Nat.toDigits 10 n) = some n := by
  rw [parseUnsigned, unsignedValue_toDigits, Option.filter_some, if_pos (by simpa using fits)]

theorem parseUnsigned_eq_some {width n : Nat} {digits : List Char} :
    parseUnsigned width digits = some n ↔ unsignedValue digits = some n ∧ n < 2 ^ width := by
  rw [parseUnsigned, Option.filter_eq_some_iff, decide_eq_true_eq]

theorem digits_of_digitsValue {digits : List Char} {n : Nat} (value : digitsValue digits = some n)
    {c : Char} (member : c ∈ digits) : c.isDigit = true := by
  rw [digitsValue, Option.ite_none_right_eq_some] at value
  exact List.all_eq_true.mp value.1.2 c member

theorem dot_not_mem_of_unsignedValue {digits : List Char} {n : Nat}
    (value : unsignedValue digits = some n) : '.' ∉ digits := by
  intro dot
  unfold unsignedValue at value
  split at value
  · rcases List.mem_cons.mp dot with same | later
    · cases same
    · cases digits_of_digitsValue value later
  · cases digits_of_digitsValue value dot

/-- The characters of a printed number. -/
theorem toString_int_toList (n : Int) :
    (toString n).toList = if n < 0 then '-' :: Nat.toDigits 10 n.natAbs
      else Nat.toDigits 10 n.natAbs := by
  cases n with
  | ofNat m =>
      have nonneg : ¬ Int.ofNat m < 0 := Int.not_lt.mpr (Int.natCast_nonneg m)
      rw [if_neg nonneg]
      exact Nat.toList_repr
  | negSucc m =>
      rw [if_pos (Int.negSucc_lt_zero m)]
      show ("-" ++ Nat.repr (m + 1)).toList = _
      rw [String.toList_append, Nat.toList_repr]
      rfl

/-- **A printed number parses.** -/
theorem parseI64_toString {n : Int} (low : -2 ^ 63 ≤ n) (high : n < 2 ^ 63) :
    parseI64 (toString n) = some n := by
  have value : signedValue (toString n).toList = some n := by
    rw [toString_int_toList]
    split
    · rename_i negative
      show ((digitsValue (Nat.toDigits 10 n.natAbs)).map fun m : Nat => -(m : Int)) = some n
      rw [digitsValue_toDigits, Option.map_some]
      congr 1
      omega
    · rename_i nonneg
      rw [signedValue_toDigits]
      congr 1
      omega
  rw [parseI64, value, Option.filter_some, if_pos (by simpa using ⟨low, high⟩)]

theorem underscore_not_mem_toString (n : Int) : '_' ∉ (toString n).toList := by
  rw [toString_int_toList]
  split
  · simp [Nat.underscore_not_in_toDigits]
  · exact Nat.underscore_not_in_toDigits

/-! ## Splitting what was joined -/

/-- Pieces with a separator between them. -/
def joinWith (separator : Char) : List (List Char) → List Char
  | [] => []
  | [piece] => piece
  | piece :: rest => piece ++ separator :: joinWith separator rest

theorem splitChars_piece {separator : Char} {piece : List Char} (inside : separator ∉ piece) :
    splitChars separator piece = [piece] := by
  induction piece with
  | nil => rfl
  | cons c rest ih =>
      obtain ⟨other, later⟩ := not_or.mp (List.mem_cons.not.mp inside)
      rw [splitChars, if_neg (Ne.symm other), ih later]

theorem splitChars_append {separator : Char} {piece : List Char} (inside : separator ∉ piece)
    (rest : List Char) :
    splitChars separator (piece ++ separator :: rest) = piece :: splitChars separator rest := by
  induction piece with
  | nil => simp [splitChars]
  | cons c more ih =>
      obtain ⟨other, later⟩ := not_or.mp (List.mem_cons.not.mp inside)
      rw [List.cons_append, splitChars, if_neg (Ne.symm other), ih later]

/-- **Joined pieces split again.** -/
theorem splitChars_joinWith {separator : Char} {pieces : List (List Char)} (some : pieces ≠ [])
    (inside : ∀ piece ∈ pieces, separator ∉ piece) :
    splitChars separator (joinWith separator pieces) = pieces := by
  induction pieces with
  | nil => exact absurd rfl some
  | cons piece rest ih =>
      obtain ⟨here, later⟩ := List.forall_mem_cons.mp inside
      cases rest with
      | nil => exact splitChars_piece here
      | cons next rest =>
          rw [joinWith, splitChars_append here, ih (by simp) later]
          simp

theorem splitChars_ne_nil (separator : Char) (text : List Char) : splitChars separator text ≠ [] := by
  induction text with
  | nil => simp [splitChars]
  | cons c rest ih =>
      rw [splitChars]
      split
      · simp
      · cases pieces : splitChars separator rest with
        | nil => exact absurd pieces ih
        | cons piece more => simp

/-- **The pieces of a text, joined, are the text.** -/
theorem joinWith_splitChars (separator : Char) (text : List Char) :
    joinWith separator (splitChars separator text) = text := by
  induction text with
  | nil => rfl
  | cons c rest ih =>
      rw [splitChars]
      cases pieces : splitChars separator rest with
      | nil => exact absurd pieces (splitChars_ne_nil separator rest)
      | cons piece more =>
          rw [pieces] at ih
          split
          · rename_i same
            rw [joinWith, ih, same, List.nil_append]
            simp
          · cases more with
            | nil => simpa [joinWith] using ih
            | cons next more => simpa [joinWith] using ih

theorem splitOnce_append {separator : Char} {before : List Char} (inside : separator ∉ before)
    (after : List Char) :
    splitOnce (String.ofList (before ++ separator :: after)) separator =
      some (String.ofList before, String.ofList after) := by
  have other : ∀ c ∈ before, (c != separator) = true := by
    intro c member
    simpa using fun same : c = separator => inside (same ▸ member)
  rw [splitOnce, String.toList_ofList, List.dropWhile_append_of_pos other,
    List.takeWhile_append_of_pos other]
  simp

theorem stripSuffix_append (text : List Char) (c : Char) :
    stripSuffix (String.ofList (text ++ [c])) c = some (String.ofList text) := by
  simp [stripSuffix]

/-! ## Lines that were written -/

theorem linesFrom_line {line : List Char} (inside : '\n' ∉ line) (current rest : List Char) :
    linesFrom current (line ++ '\n' :: rest) =
      dropCarriageReturn (current.reverse ++ line) :: linesFrom [] rest := by
  induction line generalizing current with
  | nil => simp [linesFrom]
  | cons c more ih =>
      obtain ⟨other, later⟩ := not_or.mp (List.mem_cons.not.mp inside)
      rw [List.cons_append, linesFrom, if_neg (Ne.symm other), ih later]
      simp

theorem dropCarriageReturn_of_not_mem {line : List Char} (inside : '\r' ∉ line) :
    dropCarriageReturn line = line := by
  refine if_neg fun last => inside ?_
  exact List.mem_of_getLast? last

/-- **Lines, each ended by a newline, are the lines of the text.** -/
theorem lines_join {texts : List String}
    (clean : ∀ text ∈ texts, '\n' ∉ text.toList ∧ '\r' ∉ text.toList) :
    lines (String.join (texts.map fun text => text ++ "\n")) = texts := by
  unfold lines
  induction texts with
  | nil => rfl
  | cons text rest ih =>
      obtain ⟨⟨newline, carriage⟩, later⟩ := List.forall_mem_cons.mp clean
      have split : (String.join ((text :: rest).map fun text => text ++ "\n")).toList =
          text.toList ++ '\n' :: (String.join (rest.map fun text => text ++ "\n")).toList := by
        simp [String.toList_join]
      rw [split, linesFrom_line newline, List.reverse_nil, List.nil_append,
        dropCarriageReturn_of_not_mem carriage, List.map_cons, String.ofList_toList, ih later]

/-- Trimming keeps a first character that is not white. -/
theorem trim_head {text : String} {c : Char} (first : text.toList.head? = some c)
    (solid : isWhitespace c = false) : (trim text).toList.head? = some c := by
  obtain ⟨rest, chars⟩ := List.head?_eq_some_iff.mp first
  rw [trim, String.toList_ofList, chars, List.dropWhile_cons_of_neg (by simp [solid]), dropEnd,
    List.reverse_cons, List.dropWhile_append]
  split
  · simp [solid]
  · simp

theorem trim_trim (text : String) : trim (trim text) = trim text := by
  have ends : ∀ chars, dropEnd isWhitespace chars = chars.rdropWhile isWhitespace := fun _ => rfl
  have starts : ∀ chars : List Char,
      ((chars.dropWhile isWhitespace).rdropWhile isWhitespace).dropWhile isWhitespace =
        (chars.dropWhile isWhitespace).rdropWhile isWhitespace := by
    intro chars
    rw [List.dropWhile_eq_self_iff]
    intro inside
    have shorter := List.rdropWhile_prefix isWhitespace (l := chars.dropWhile isWhitespace)
    have solid := List.dropWhile_eq_self_iff.mp
      (List.dropWhile_idempotent (p := isWhitespace) chars) (inside.trans_le shorter.length_le)
    rwa [← shorter.getElem inside] at solid
  simp only [trim, String.toList_ofList, ends, starts, List.rdropWhile_idempotent]

/-! ## Reading bytes as text -/

def fromUtf8 (bytes : List UInt8) : Option String :=
  String.fromUTF8? ⟨bytes.toArray⟩

def isContinuation (b : UInt8) : Bool := 0x80 ≤ b && b ≤ 0xbf

/-- Whether `second` may follow `first` in a sequence of three or four bytes. -/
def secondAllowed (first second : UInt8) : Bool :=
  if first = 0xe0 then 0xa0 ≤ second && second ≤ 0xbf
  else if first = 0xed then 0x80 ≤ second && second ≤ 0x9f
  else if first = 0xf0 then 0x90 ≤ second && second ≤ 0xbf
  else if first = 0xf4 then 0x80 ≤ second && second ≤ 0x8f
  else isContinuation second

/-- How many bytes the sequence a lead byte opens has; zero for a byte that opens none. -/
def sequenceLength (first : UInt8) : Nat :=
  if first < 0x80 then 1
  else if 0xc2 ≤ first && first ≤ 0xdf then 2
  else if 0xe0 ≤ first && first ≤ 0xef then 3
  else if 0xf0 ≤ first && first ≤ 0xf4 then 4
  else 0

def low6 (b : UInt8) : Nat := b.toNat % 64

/-- One character off the front, or `none` for a maximal invalid part, with the
number of further bytes it took. -/
def nextChar (first : UInt8) (rest : List UInt8) : Option Char × Nat :=
  match sequenceLength first, rest with
  | 1, _ => (some (Char.ofNat first.toNat), 0)
  | 2, b₁ :: _ =>
      if isContinuation b₁ then (some (Char.ofNat (first.toNat % 32 * 64 + low6 b₁)), 1)
      else (none, 0)
  | 3, b₁ :: more =>
      if secondAllowed first b₁ then
        match more with
        | b₂ :: _ =>
            if isContinuation b₂ then
              (some (Char.ofNat (first.toNat % 16 * 4096 + low6 b₁ * 64 + low6 b₂)), 2)
            else (none, 1)
        | [] => (none, 1)
      else (none, 0)
  | 4, b₁ :: more =>
      if secondAllowed first b₁ then
        match more with
        | b₂ :: more =>
            if isContinuation b₂ then
              match more with
              | b₃ :: _ =>
                  if isContinuation b₃ then
                    (some (Char.ofNat (first.toNat % 8 * 262144 + low6 b₁ * 4096 +
                      low6 b₂ * 64 + low6 b₃)), 3)
                  else (none, 2)
              | [] => (none, 2)
            else (none, 1)
        | [] => (none, 1)
      else (none, 0)
  | _, _ => (none, 0)

/-- The replacement character. -/
def replacement : Char := Char.ofNat 0xfffd

/-- Decode with fuel: every character takes at least one byte, so the length of
the input is always enough. -/
def decodeLossy : Nat → List UInt8 → List Char
  | 0, _ => []
  | _ + 1, [] => []
  | fuel + 1, first :: rest =>
      let (c, taken) := nextChar first rest
      c.getD replacement :: decodeLossy fuel (rest.drop taken)

def fromUtf8Lossy (bytes : List UInt8) : String :=
  String.ofList (decodeLossy bytes.length bytes)

-- one stray byte and one three byte character each read as a single character
example : (fromUtf8Lossy [0xff]).toList = [replacement] := by decide
example : (fromUtf8Lossy [0x31, 0xe6, 0x9d, 0xb1]).toList = ['1', '東'] := by decide

end MajsoulManager.Theory.Text
