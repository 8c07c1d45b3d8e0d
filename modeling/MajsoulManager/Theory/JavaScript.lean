/-
# Theory.JavaScript — texts of UTF-16 code units, and `JSON.parse`

A text of the language is any list of code units, so a surrogate may stand alone in it, as
one does after an escape `\ud800`; `toUnicode` reads those texts that are Unicode.  White
space is the language's own: U+FEFF is blank, U+0085 is not.

`jsonParse` is a reader of tokens before a machine with a stack of the arrays and objects
that are open.  Numbers are kept as they are written.
-/
import Mathlib

namespace MajsoulManager.Theory.JavaScript

set_option autoImplicit false

/-! ## Texts -/

abbrev JsString := List UInt16

def isHigh (unit : UInt16) : Bool := 0xd800 ≤ unit && unit ≤ 0xdbff

def isLow (unit : UInt16) : Bool := 0xdc00 ≤ unit && unit ≤ 0xdfff

def encodeChar (c : Char) : JsString :=
  if c.toNat < 0x10000 then [UInt16.ofNat c.toNat]
  else
    [UInt16.ofNat (0xd800 + (c.toNat - 0x10000) / 0x400),
      UInt16.ofNat (0xdc00 + (c.toNat - 0x10000) % 0x400)]

def ofString (text : String) : JsString := text.toList.flatMap encodeChar

def pairChar (high low : UInt16) : Char :=
  Char.ofNat (0x10000 + (high.toNat - 0xd800) * 0x400 + (low.toNat - 0xdc00))

/-- The characters of a text, unless a surrogate stands alone in it. -/
def decode : JsString → Option (List Char)
  | [] => some []
  | [unit] => if isHigh unit || isLow unit then none else some [Char.ofNat unit.toNat]
  | unit :: next :: rest =>
      if isHigh unit && isLow next then (decode rest).map (pairChar unit next :: ·)
      else if isHigh unit || isLow unit then none
      else (decode (next :: rest)).map (Char.ofNat unit.toNat :: ·)

def toUnicode (text : JsString) : Option String := (decode text).map String.ofList

theorem toNat_pairChar {high low : UInt16} (isHigh_ : isHigh high = true) (isLow_ : isLow low = true) :
    0x10000 ≤ (pairChar high low).toNat := by
  simp only [isHigh, isLow, Bool.and_eq_true, decide_eq_true_eq, UInt16.le_iff_toNat_le] at isHigh_ isLow_
  have valid : (0x10000 + (high.toNat - 0xd800) * 0x400 + (low.toNat - 0xdc00)).isValidChar := by
    have most : high.toNat ≤ 0xdbff := isHigh_.2
    have least : 0xdc00 ≤ low.toNat := isLow_.1
    have most' : low.toNat ≤ 0xdfff := isLow_.2
    exact .inr (by omega)
  rw [pairChar, Char.toNat_ofNat, if_pos valid]
  omega

theorem toNat_plainChar {unit : UInt16} (plain : (isHigh unit || isLow unit) = false) :
    (Char.ofNat unit.toNat).toNat = unit.toNat := by
  have valid : unit.toNat.isValidChar := by
    simp only [isHigh, isLow, Bool.or_eq_false_iff, Bool.and_eq_false_iff, decide_eq_false_iff_not,
      UInt16.le_iff_toNat_le] at plain
    have most := unit.toNat_lt
    have edges : (0xd800 : UInt16).toNat = 0xd800 ∧ (0xdbff : UInt16).toNat = 0xdbff ∧
        (0xdc00 : UInt16).toNat = 0xdc00 ∧ (0xdfff : UInt16).toNat = 0xdfff := by decide
    unfold Nat.isValidChar
    omega
  rw [Char.toNat_ofNat, if_pos valid]

/-- A character of one unit is a unit of the text. -/
theorem mem_of_decode {text : JsString} {chars : List Char} (is : decode text = some chars)
    {c : Char} (member : c ∈ chars) (small : c.toNat < 0x10000) :
    UInt16.ofNat c.toNat ∈ text := by
  have head : ∀ unit, (isHigh unit || isLow unit) = false → c = Char.ofNat unit.toNat →
      UInt16.ofNat c.toNat = unit := by
    rintro unit plain rfl
    rw [toNat_plainChar plain, UInt16.ofNat_toNat]
  induction text using decode.induct generalizing chars with
  | case1 =>
      cases is
      simp at member
  | case2 unit alone =>
      rw [decode, if_pos alone] at is
      cases is
  | case3 unit plain =>
      rw [decode, if_neg plain] at is
      cases is
      rw [head unit (by simpa using plain) (List.mem_singleton.mp member)]
      exact List.mem_singleton.mpr rfl
  | case4 unit next rest pair ih =>
      rw [decode, if_pos pair] at is
      obtain ⟨later, read, rfl⟩ := Option.map_eq_some_iff.mp is
      obtain ⟨high, low⟩ := (Bool.and_eq_true _ _).mp pair
      rcases List.mem_cons.mp member with same | behind
      · rw [same] at small
        exact absurd small (not_lt.mpr (toNat_pairChar high low))
      · exact List.mem_cons_of_mem _ (List.mem_cons_of_mem _ (ih read behind))
  | case5 unit next rest apart alone =>
      rw [decode, if_neg apart, if_pos alone] at is
      cases is
  | case6 unit next rest apart plain ih =>
      rw [decode, if_neg apart, if_neg plain] at is
      obtain ⟨later, read, rfl⟩ := Option.map_eq_some_iff.mp is
      rcases List.mem_cons.mp member with same | behind
      · rw [head unit (by simpa using plain) same]
        exact List.mem_cons_self
      · exact List.mem_cons_of_mem _ (ih read behind)

/-- White space and line terminators, which `trim` and `\s` share. -/
def isSpace (unit : UInt16) : Bool :=
  (9 ≤ unit && unit ≤ 13) || unit == 0x20 || unit == 0xa0 || unit == 0x1680 ||
    (0x2000 ≤ unit && unit ≤ 0x200a) || unit == 0x2028 || unit == 0x2029 || unit == 0x202f ||
    unit == 0x205f || unit == 0x3000 || unit == 0xfeff

def trim (text : JsString) : JsString := (text.dropWhile isSpace).rdropWhile isSpace

/-! ## Values -/

inductive JsValue where
  | null
  | bool (value : Bool)
  | number (text : JsString)
  | string (text : JsString)
  | array (items : List JsValue)
  /-- The field that was written last stands first. -/
  | object (fields : List (JsString × JsValue))

/-- A property; `none` is `undefined`, as it is on an array. -/
def JsValue.get (value : JsValue) (name : String) : Option JsValue :=
  match value with
  | .object fields => (fields.find? fun field => field.1 == ofString name).map (·.2)
  | _ => none

/-- `??`: a property that is `null` counts as none. -/
def nullish (value fallback : Option JsValue) : Option JsValue :=
  match value with
  | none | some .null => fallback
  | some value => some value

/-! ## Tokens -/

inductive Token where
  /-- One of `{}[],:`. -/
  | mark (unit : UInt16)
  | string (text : JsString)
  /-- A number, or the name of a value. -/
  | word (text : JsString)

/-- Where a reader of tokens is; what it has read of one is reversed. -/
inductive Lexer where
  | between
  | word (read : JsString)
  | string (read : JsString)
  | escape (read : JsString)
  | hex (read : JsString) (value : UInt16) (left : Nat)

def isMark (unit : UInt16) : Bool := (ofString "\x7b\x7d[],:").contains unit

def isBlank (unit : UInt16) : Bool := unit == 9 || unit == 10 || unit == 13 || unit == 32

def hexDigit (unit : UInt16) : Option UInt16 :=
  if 48 ≤ unit && unit ≤ 57 then some (unit - 48)
  else if 97 ≤ unit && unit ≤ 102 then some (unit - 87)
  else if 65 ≤ unit && unit ≤ 70 then some (unit - 55)
  else none

/-- What `\` and one unit stand for. -/
def escaped (unit : UInt16) : Option UInt16 :=
  if unit == 34 || unit == 92 || unit == 47 then some unit
  else if unit == 98 then some 8
  else if unit == 102 then some 12
  else if unit == 110 then some 10
  else if unit == 114 then some 13
  else if unit == 116 then some 9
  else none

def tokens : Lexer → JsString → Option (List Token)
  | .between, [] => some []
  | .word read, [] => some [.word read.reverse]
  | .string _, [] | .escape _, [] | .hex _ _ _, [] => none
  | .between, unit :: rest =>
      if isBlank unit then tokens .between rest
      else if isMark unit then (tokens .between rest).map (.mark unit :: ·)
      else if unit == 34 then tokens (.string []) rest
      else tokens (.word [unit]) rest
  | .word read, unit :: rest =>
      if isBlank unit then (tokens .between rest).map (.word read.reverse :: ·)
      else if isMark unit then
        (tokens .between rest).map fun later => .word read.reverse :: .mark unit :: later
      else if unit == 34 then (tokens (.string []) rest).map (.word read.reverse :: ·)
      else tokens (.word (unit :: read)) rest
  | .string read, unit :: rest =>
      if unit == 34 then (tokens .between rest).map (.string read.reverse :: ·)
      else if unit == 92 then tokens (.escape read) rest
      else if unit < 32 then none
      else tokens (.string (unit :: read)) rest
  | .escape read, unit :: rest =>
      if unit == 117 then tokens (.hex read 0 4) rest
      else (escaped unit).bind fun meant => tokens (.string (meant :: read)) rest
  | .hex read value left, unit :: rest =>
      (hexDigit unit).bind fun digit =>
        if left ≤ 1 then tokens (.string ((value * 16 + digit) :: read)) rest
        else tokens (.hex read (value * 16 + digit) (left - 1)) rest

/-! ## Numbers -/

inductive NumberState where
  | start
  | minus
  | zero
  | int
  | point
  | frac
  | exp
  | expSign
  | expInt
  deriving DecidableEq

def NumberState.next (state : NumberState) (unit : UInt16) : Option NumberState :=
  let digit := 48 ≤ unit && unit ≤ 57
  let isExp := unit == 101 || unit == 69
  match state with
  | .start =>
      if unit == 45 then some .minus
      else if unit == 48 then some .zero
      else if digit then some .int
      else none
  | .minus => if unit == 48 then some .zero else if digit then some .int else none
  | .zero => if unit == 46 then some .point else if isExp then some .exp else none
  | .int =>
      if digit then some .int
      else if unit == 46 then some .point
      else if isExp then some .exp
      else none
  | .point => if digit then some .frac else none
  | .frac => if digit then some .frac else if isExp then some .exp else none
  | .exp => if unit == 43 || unit == 45 then some .expSign else if digit then some .expInt else none
  | .expSign | .expInt => if digit then some .expInt else none

def isNumber (word : JsString) : Bool :=
  match word.foldlM NumberState.next .start with
  | some .zero | some .int | some .frac | some .expInt => true
  | _ => false

/-- What a word names. -/
def wordValue (word : JsString) : Option JsValue :=
  if word = ofString "null" then some .null
  else if word = ofString "true" then some (.bool true)
  else if word = ofString "false" then some (.bool false)
  else if isNumber word then some (.number word)
  else none

/-! ## The machine -/

/-- An array or an object that is open, with what it has so far, the last first. -/
inductive Frame where
  | array (items : List JsValue)
  | object (fields : List (JsString × JsValue)) (key : JsString)

inductive Expect where
  | value
  /-- The first item, or the end of the array. -/
  | firstItem
  | firstKey
  | key
  | colon
  | separator
  | done (value : JsValue)

def deliver (value : JsValue) : List Frame → List Frame × Expect
  | [] => ([], .done value)
  | .array items :: outer => (.array (value :: items) :: outer, .separator)
  | .object fields key :: outer => (.object ((key, value) :: fields) key :: outer, .separator)

def isUnit (unit : UInt16) (c : Char) : Bool := encodeChar c == [unit]

def close (unit : UInt16) : List Frame → Option (List Frame × Expect)
  | .array items :: outer =>
      if isUnit unit ']' then some (deliver (.array items.reverse) outer) else none
  | .object fields _ :: outer =>
      if isUnit unit '\x7d' then some (deliver (.object fields) outer) else none
  | [] => none

def takeValue (stack : List Frame) : Token → Option (List Frame × Expect)
  | .string text => some (deliver (.string text) stack)
  | .word word => (wordValue word).map fun value => deliver value stack
  | .mark unit =>
      if isUnit unit '\x7b' then some (.object [] [] :: stack, .firstKey)
      else if isUnit unit '[' then some (.array [] :: stack, .firstItem)
      else none

def takeKey : List Frame → JsString → Option (List Frame × Expect)
  | .object fields _ :: outer, key => some (.object fields key :: outer, .colon)
  | _, _ => none

def parseStep (state : List Frame × Expect) (token : Token) : Option (List Frame × Expect) :=
  match state.2, token with
  | .value, token => takeValue state.1 token
  | .firstItem, .mark unit =>
      if isUnit unit ']' then close unit state.1 else takeValue state.1 (.mark unit)
  | .firstItem, token => takeValue state.1 token
  | .firstKey, .mark unit => close unit state.1
  | .firstKey, .string key | .key, .string key => takeKey state.1 key
  | .colon, .mark unit => if isUnit unit ':' then some (state.1, .value) else none
  | .separator, .mark unit =>
      if isUnit unit ',' then
        match state.1 with
        | .array _ :: _ => some (state.1, .value)
        | _ => some (state.1, .key)
      else close unit state.1
  | _, _ => none

/-- `JSON.parse`; `none` is an exception. -/
def jsonParse (text : JsString) : Option JsValue :=
  match (tokens .between text).bind fun read => read.foldlM parseStep ([], .value) with
  | some (_, .done value) => some value
  | _ => none

end MajsoulManager.Theory.JavaScript
