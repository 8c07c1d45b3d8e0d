/-
# Theory.Escapes — text with backslash escapes, bare and as array literals

A reader of backslash escapes goes byte by byte: an escape is two bytes, `\xHH`
four.  Bare text is read to its end or to a tab or a newline; in an array
literal each item stands between single quotes.

Which byte an escape stands for is a table, and a reader may leave a backslash
that begins no escape where it stands.

* `decodeEscaped_eq_self_iff`: bare text is read as itself exactly when nothing in
  it is read as something else.
* `decodeArray_literal`: items whose backslashes and quotes were escaped come back.
-/
import Mathlib

namespace MajsoulManager.Theory

set_option autoImplicit false

def tab : UInt8 := 9
def newline : UInt8 := 10
def quote : UInt8 := 39
def comma : UInt8 := 44
def openBracket : UInt8 := 91
def backslash : UInt8 := 92
def closeBracket : UInt8 := 93
def hexMark : UInt8 := 120

/-- What a backslash and the byte after it stand for: at most one byte, or
themselves. -/
structure EscapeTable where
  meaning : UInt8 → List UInt8
  short : ∀ c, (meaning c).length ≤ 1 ∨ meaning c = [backslash, c]
  backslash_meaning : meaning backslash = [backslash]
  quote_meaning : meaning quote = [quote]

def hexDigitValue (c : UInt8) : UInt8 :=
  if 48 ≤ c ∧ c ≤ 57 then c - 48
  else if 97 ≤ c ∧ c ≤ 102 then c - 87
  else if 65 ≤ c ∧ c ≤ 70 then c - 55
  else 255

/-- Where a reader is between two bytes. -/
inductive ReadState where
  | plain
  | escape
  | hexHigh
  | hexLow (high : UInt8)
  deriving DecidableEq, Repr

section Reader

variable (table : EscapeTable) (stop : UInt8 → Bool)

/-- What is read up to a stopping byte, and the text behind it if there is one.  A
text does not end inside an escape. -/
def scan : ReadState → List UInt8 → Option (List UInt8 × Option (List UInt8))
  | .plain, [] => some ([], none)
  | .escape, [] | .hexHigh, [] | .hexLow _, [] => none
  | .plain, c :: rest =>
      if stop c then some ([], some rest)
      else if c = backslash then scan .escape rest
      else (scan .plain rest).map fun (out, after) => (c :: out, after)
  | .escape, c :: rest =>
      if c = hexMark then scan .hexHigh rest
      else (scan .plain rest).map fun (out, after) => (table.meaning c ++ out, after)
  | .hexHigh, c :: rest => scan (.hexLow c) rest
  | .hexLow high, c :: rest =>
      (scan .plain rest).map fun (out, after) =>
        ((hexDigitValue high * 16 + hexDigitValue c) :: out, after)

end Reader

/-! ## Bare text -/

/-- A raw tab or newline ends the value. -/
def endsValue (c : UInt8) : Bool := c = tab || c = newline

def decodeEscaped (table : EscapeTable) (text : List UInt8) : Option (List UInt8) :=
  (scan table endsValue .plain text).map Prod.fst

/-- Nothing from here on is read as something else: no tab, no newline, and every
backslash stands with the byte behind it for the two of them. -/
def readsAsIs (table : EscapeTable) : Bool → List UInt8 → Bool
  | false, [] => true
  | true, [] => false
  | false, c :: rest =>
      if endsValue c then false
      else if c = backslash then readsAsIs table true rest
      else readsAsIs table false rest
  | true, c :: rest =>
      c != hexMark && table.meaning c == [backslash, c] && readsAsIs table false rest

section Bare

variable {table : EscapeTable} {stop : UInt8 → Bool}

/-- The bytes a reader may still owe when it has read the text. -/
def owed : ReadState → Nat
  | .plain => 0
  | .escape => 1
  | .hexHigh => 0
  | .hexLow _ => 0

/-- Reading never makes more bytes than it takes. -/
theorem length_scan_le {state : ReadState} {text out : List UInt8} {after : Option (List UInt8)}
    (read : scan table stop state text = some (out, after)) :
    out.length ≤ text.length + owed state := by
  induction text generalizing state out after with
  | nil =>
      cases state with
      | plain =>
          cases read
          simp
      | escape => cases read
      | hexHigh => cases read
      | hexLow high => cases read
  | cons c rest ih =>
      cases state with
      | plain =>
          rw [scan] at read
          split at read
          · cases read
            simp
          · split at read
            · have bound := ih read
              simp only [owed, List.length_cons] at bound ⊢
              omega
            · obtain ⟨⟨tail, last⟩, later, same⟩ := Option.map_eq_some_iff.mp read
              cases same
              have bound := ih later
              simp only [owed, List.length_cons] at bound ⊢
              omega
      | escape =>
          rw [scan] at read
          split at read
          · have bound := ih read
            simp only [owed, List.length_cons] at bound ⊢
            omega
          · obtain ⟨⟨tail, last⟩, later, same⟩ := Option.map_eq_some_iff.mp read
            cases same
            have bound := ih later
            have short : (table.meaning c).length ≤ 2 := by
              rcases table.short c with one | whole
              · omega
              · simp [whole]
            simp only [owed, List.length_cons, List.length_append] at bound ⊢
            omega
      | hexHigh =>
          rw [scan] at read
          have bound := ih read
          simp only [owed, List.length_cons] at bound ⊢
          omega
      | hexLow high =>
          rw [scan] at read
          obtain ⟨⟨tail, last⟩, later, same⟩ := Option.map_eq_some_iff.mp read
          cases same
          have bound := ih later
          simp only [owed, List.length_cons] at bound ⊢
          omega

/-- What is read of an escape is the escape itself exactly when its table says so. -/
theorem scan_escape_eq_self_iff {c : UInt8} {rest : List UInt8}
    (ih : (∃ after, scan table stop .plain rest = some (rest, after)) ↔
      readsAsIs table false rest = true) :
    (∃ after, scan table stop .escape (c :: rest) = some (backslash :: c :: rest, after)) ↔
      readsAsIs table true (c :: rest) = true := by
  rw [scan, readsAsIs]
  by_cases hex : c = hexMark
  · subst hex
    simp only [if_true, bne_self_eq_false, Bool.false_and, Bool.false_eq_true, iff_false]
    rintro ⟨after, read⟩
    have bound := length_scan_le read
    simp only [owed, List.length_cons] at bound
    omega
  · simp only [bne_iff_ne, ne_eq, hex, not_false_eq_true, Bool.and_eq_true, beq_iff_eq,
      true_and, ← ih]
    constructor
    · rintro ⟨after, read⟩
      obtain ⟨⟨tail, last⟩, later, same⟩ := Option.map_eq_some_iff.mp read
      simp only [Prod.mk.injEq] at same
      have bound := length_scan_le later
      rcases table.short c with one | whole
      · -- an escape that was read as one byte leaves the text shorter
        have sizes := congrArg List.length same.1
        simp only [owed, List.length_append, List.length_cons] at bound sizes
        omega
      · rw [whole] at same
        obtain ⟨tails, rfl⟩ := same
        simp only [List.cons_append, List.nil_append, List.cons.injEq, true_and] at tails
        subst tails
        exact ⟨whole, last, later⟩
    · rintro ⟨whole, after, later⟩
      exact ⟨after, by rw [later, whole]; rfl⟩

theorem scan_eq_self_iff (text : List UInt8) :
    ((∃ after, scan table endsValue .plain text = some (text, after)) ↔
      readsAsIs table false text = true) ∧
    ((∃ after, scan table endsValue .escape text = some (backslash :: text, after)) ↔
      readsAsIs table true text = true) := by
  induction text with
  | nil => simp [scan, readsAsIs]
  | cons c rest ih =>
      refine ⟨?_, scan_escape_eq_self_iff ih.1⟩
      rw [scan, readsAsIs]
      split
      · simp
      · split
        · rename_i escape
          subst escape
          exact ih.2
        · rw [← ih.1]
          constructor
          · rintro ⟨after, read⟩
            obtain ⟨⟨tail, last⟩, later, same⟩ := Option.map_eq_some_iff.mp read
            simp only [Prod.mk.injEq, List.cons.injEq, true_and] at same
            obtain ⟨rfl, rfl⟩ := same
            exact ⟨_, later⟩
          · rintro ⟨after, later⟩
            exact ⟨after, by rw [later]; rfl⟩

/-- **Bare text is read as itself exactly when nothing in it is read as something
else.** -/
theorem decodeEscaped_eq_self_iff (text : List UInt8) :
    decodeEscaped table text = some text ↔ readsAsIs table false text = true := by
  rw [← (scan_eq_self_iff text).1, decodeEscaped, Option.map_eq_some_iff]
  constructor
  · rintro ⟨⟨out, after⟩, read, rfl⟩
    exact ⟨after, read⟩
  · rintro ⟨after, read⟩
    exact ⟨(text, after), read, rfl⟩

end Bare

/-! ## Array literals -/

def isQuote (c : UInt8) : Bool := c = quote

/-- The items of a literal, from the opening quote of one of them. -/
def readItems (table : EscapeTable) : Nat → List UInt8 → Option (List (List UInt8))
  | 0, _ => none
  | _ + 1, [] => none
  | fuel + 1, c :: rest =>
      if c = quote then
        match scan table isQuote .plain rest with
        | some (item, some (d :: more)) =>
            if d = comma then (readItems table fuel more).map (item :: ·)
            else if d = closeBracket ∧ more = [] then some [item]
            else none
        | _ => none
      else none

def decodeArray (table : EscapeTable) : List UInt8 → Option (List (List UInt8))
  | [] => none
  | c :: rest =>
      if c = openBracket then
        if rest = [closeBracket] then some [] else readItems table rest.length rest
      else none

/-- A byte of an item, with a backslash before what would be read otherwise. -/
def escapeByte (c : UInt8) : List UInt8 :=
  if c = backslash then [backslash, backslash]
  else if c = quote then [backslash, quote]
  else [c]

def quoteItem (item : List UInt8) : List UInt8 := quote :: item.flatMap escapeByte ++ [quote]

def joinItems : List (List UInt8) → List UInt8
  | [] => []
  | [item] => quoteItem item
  | item :: rest => quoteItem item ++ comma :: joinItems rest

def arrayLiteral (items : List (List UInt8)) : List UInt8 :=
  openBracket :: joinItems items ++ [closeBracket]

section Array

variable {table : EscapeTable}

theorem scan_escapeByte (c : UInt8) (rest : List UInt8) :
    scan table isQuote .plain (escapeByte c ++ rest) =
      (scan table isQuote .plain rest).map fun (out, after) => (c :: out, after) := by
  unfold escapeByte
  split_ifs with slash quoted
  · subst slash
    have plain : isQuote backslash = false := by decide
    have other : backslash ≠ hexMark := by decide
    simp [scan, plain, other, table.backslash_meaning]
  · subst quoted
    have plain : isQuote backslash = false := by decide
    have other : quote ≠ hexMark := by decide
    simp [scan, plain, other, table.quote_meaning]
  · have plain : isQuote c = false := by simp [isQuote, quoted]
    simp [scan, plain, slash]

/-- **An escaped item is read back**, up to its closing quote. -/
theorem scan_item (item rest : List UInt8) :
    scan table isQuote .plain (item.flatMap escapeByte ++ quote :: rest) =
      some (item, some rest) := by
  induction item with
  | nil =>
      have stops : isQuote quote = true := by decide
      simp [scan, stops]
  | cons c more ih =>
      rw [List.flatMap_cons, List.append_assoc, scan_escapeByte, ih]
      rfl

theorem readItems_joinItems {items : List (List UInt8)} (some_ : items ≠ []) {fuel : Nat}
    (enough : items.length ≤ fuel) :
    readItems table fuel (joinItems items ++ [closeBracket]) = some items := by
  induction items generalizing fuel with
  | nil => exact absurd rfl some_
  | cons item rest ih =>
      cases fuel with
      | zero => simp at enough
      | succ fuel =>
          have differ : closeBracket ≠ comma := by decide
          cases rest with
          | nil =>
              have read : scan table isQuote .plain (item.flatMap escapeByte ++ [quote, closeBracket]) =
                  some (item, some [closeBracket]) := scan_item item [closeBracket]
              simp [joinItems, quoteItem, readItems, read, differ]
          | cons next more =>
              have later : readItems table fuel (joinItems (next :: more) ++ [closeBracket]) =
                  some (next :: more) := ih (List.cons_ne_nil _ _) (by simpa using enough)
              have read : scan table isQuote .plain (item.flatMap escapeByte ++
                  quote :: comma :: (joinItems (next :: more) ++ [closeBracket])) =
                  some (item, some (comma :: (joinItems (next :: more) ++ [closeBracket]))) :=
                scan_item item _
              simp [joinItems, quoteItem, readItems, read, later]

theorem length_le_joinItems (items : List (List UInt8)) : items.length ≤ (joinItems items).length := by
  induction items with
  | nil => exact Nat.zero_le _
  | cons item rest ih =>
      cases rest with
      | nil => simp [joinItems, quoteItem]
      | cons next more =>
          simp only [joinItems, quoteItem, List.length_append, List.length_cons] at ih ⊢
          omega

/-- **A literal is read back**, whatever its items hold. -/
theorem decodeArray_literal (items : List (List UInt8)) :
    decodeArray table (arrayLiteral items) = some items := by
  rw [arrayLiteral, List.cons_append, decodeArray, if_pos rfl]
  cases items with
  | nil => simp [joinItems]
  | cons item rest =>
      have opened : joinItems (item :: rest) ++ [closeBracket] ≠ [closeBracket] := by
        cases rest with
        | nil => simp [joinItems, quoteItem]
        | cons next more => simp [joinItems, quoteItem]
      rw [if_neg opened]
      refine readItems_joinItems (List.cons_ne_nil _ _) ?_
      have bound := length_le_joinItems (item :: rest)
      rw [List.length_append]
      omega

end Array

end MajsoulManager.Theory
