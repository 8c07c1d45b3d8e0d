/-
# Store.RowText — a row as the one line of text it is inserted as

`Value::to_string` of `serde_json`: nothing between the tokens, an object's
members in the order of their names, and every control character of a string
escaped.  `insert` sends rows one a line, so a row must be a line.

* `playerGameText_printable`: a seat's row has no control character, whatever its
  player is called.
-/
import MajsoulManager.Store.Columns

namespace MajsoulManager.Store

open MajsoulManager.Theory
open MajsoulManager.Record

set_option autoImplicit false

/-! ## The printer -/

def escapeChar (c : Char) : List Char :=
  if c = '"' then ['\\', '"']
  else if c = '\\' then ['\\', '\\']
  else if c.toNat = 8 then ['\\', 'b']
  else if c.toNat = 12 then ['\\', 'f']
  else if c = '\n' then ['\\', 'n']
  else if c = '\r' then ['\\', 'r']
  else if c = '\t' then ['\\', 't']
  else if c.toNat < 32 then
    ['\\', 'u', '0', '0', hexDigit (c.toNat / 16), hexDigit (c.toNat % 16)]
  else [c]

def quoted (text : String) : List Char :=
  '"' :: text.toList.flatMap escapeChar ++ ['"']

section Printer

-- the text of a float is the one part that is not spelled out
variable (floatText : UInt64 → List Char)

def printNumber : Number → List Char
  | .posInt n => (toString (n.toNat : Int)).toList
  | .negInt n => (toString n.toInt).toList
  | .float bits => floatText bits

/-- The members of an object, each after its quoted name, in the order of the names. -/
def joinMembers (members : List (String × List Char)) : List Char :=
  Text.joinWith ',' ((members.mergeSort fun a b => a.1 ≤ b.1).map fun member =>
    quoted member.1 ++ ':' :: member.2)

mutual

def printValue : Value → List Char
  | .null => "null".toList
  | .bool b => (toString b).toList
  | .number n => printNumber floatText n
  | .string s => quoted s
  | .array items => '[' :: Text.joinWith ',' (printItems items) ++ [']']
  | .object fields => '\x7b' :: joinMembers (printMembers fields) ++ ['\x7d']

def printItems : List Value → List (List Char)
  | [] => []
  | item :: rest => printValue item :: printItems rest

def printMembers : List (String × Value) → List (String × List Char)
  | [] => []
  | (name, value) :: rest => (name, printValue value) :: printMembers rest

end

def rowText (row : List (String × Value)) : String :=
  String.ofList (printValue floatText (.object row))

def playerGameText (uuid : UuidText) (game : PlayerGame) : String :=
  rowText floatText (playerGameJson uuid game)

end Printer

/-! ## No control character is printed -/

def Printable (text : List Char) : Prop := ∀ c ∈ text, 32 ≤ c.toNat

theorem Printable.append {a b : List Char} (left : Printable a) (right : Printable b) :
    Printable (a ++ b) := by
  intro c member
  rcases List.mem_append.mp member with inside | inside
  · exact left c inside
  · exact right c inside

theorem Printable.cons {c : Char} {text : List Char} (first : 32 ≤ c.toNat)
    (rest : Printable text) : Printable (c :: text) :=
  List.forall_mem_cons.mpr ⟨first, rest⟩

theorem printable_hexDigit {n : Nat} (small : n < 16) : 32 ≤ (hexDigit n).toNat := by
  have all : ∀ n : Fin 16, 32 ≤ (hexDigit n).toNat := by decide
  exact all ⟨n, small⟩

theorem printable_escapeChar (c : Char) : Printable (escapeChar c) := by
  have short : ∀ c : Char, 32 ≤ c.toNat → Printable ['\\', c] := fun c visible =>
    .cons (by decide) (.cons visible (by simp [Printable]))
  unfold escapeChar
  split_ifs with quote backslash backspace formFeed newline carriageReturn tab control
  · exact short _ (by decide)
  · exact short _ (by decide)
  · exact short _ (by decide)
  · exact short _ (by decide)
  · exact short _ (by decide)
  · exact short _ (by decide)
  · exact short _ (by decide)
  · refine .cons (by decide) (.cons (by decide) (.cons (by decide) (.cons (by decide) ?_)))
    exact .cons (printable_hexDigit (by omega))
      (.cons (printable_hexDigit (by omega)) (by simp [Printable]))
  · exact .cons (by omega) (by simp [Printable])

theorem printable_quoted (text : String) : Printable (quoted text) := by
  refine .cons (by decide) (.append ?_ (.cons (by decide) (by simp [Printable])))
  intro c member
  obtain ⟨source, -, inside⟩ := List.mem_flatMap.mp member
  exact printable_escapeChar source c inside

theorem printable_int (n : Int) : Printable (toString n).toList := by
  have digits : Printable (Nat.toDigits 10 n.natAbs) := by
    intro c member
    have digit := Text.isDigit_of_mem_toDigits member
    simp only [Char.isDigit, Bool.and_eq_true, decide_eq_true_eq] at digit
    have low : (48 : UInt32).toNat ≤ c.val.toNat := UInt32.le_iff_toNat_le.mp digit.1
    show 32 ≤ c.val.toNat
    have : (48 : UInt32).toNat = 48 := rfl
    omega
  rw [Text.toString_int_toList]
  split
  · exact .cons (by decide) digits
  · exact digits

theorem printable_joinWith {separator : Char} (visible : 32 ≤ separator.toNat)
    {pieces : List (List Char)} (each : ∀ piece ∈ pieces, Printable piece) :
    Printable (Text.joinWith separator pieces) := by
  induction pieces with
  | nil => simp [Printable, Text.joinWith]
  | cons piece rest ih =>
      obtain ⟨here, later⟩ := List.forall_mem_cons.mp each
      cases rest with
      | nil => exact here
      | cons next rest => exact .append here (.cons visible (ih later))

theorem mem_printMembers {floatText : UInt64 → List Char} {row : List (String × Value)}
    {member : String × List Char} (inside : member ∈ printMembers floatText row) :
    ∃ field ∈ row, member = (field.1, printValue floatText field.2) := by
  induction row with
  | nil => cases inside
  | cons field rest ih =>
      obtain ⟨name, value⟩ := field
      rw [printMembers] at inside
      rcases List.mem_cons.mp inside with rfl | later
      · exact ⟨(name, value), List.mem_cons_self, rfl⟩
      · obtain ⟨field, found, same⟩ := ih later
        exact ⟨field, List.mem_cons_of_mem _ found, same⟩

/-- A row whose values print without control characters is a line. -/
theorem printable_rowText {floatText : UInt64 → List Char} {row : List (String × Value)}
    (each : ∀ field ∈ row, Printable (printValue floatText field.2)) :
    Printable (rowText floatText row).toList := by
  rw [rowText, String.toList_ofList, printValue]
  refine .cons (by decide) (.append ?_ (.cons (by decide) (by simp [Printable])))
  refine printable_joinWith (by decide) ?_
  intro piece member
  obtain ⟨named, sorted, rfl⟩ := List.mem_map.mp member
  obtain ⟨field, inside, rfl⟩ := mem_printMembers (List.mem_mergeSort.mp sorted)
  exact .append (printable_quoted _) (.cons (by decide) (each field inside))

theorem printable_string (floatText : UInt64 → List Char) (text : String) :
    Printable (printValue floatText (.string text)) := printable_quoted text

theorem printable_nat (floatText : UInt64 → List Char) (n : Nat) :
    Printable (printValue floatText (.nat n)) := printable_int _

theorem printable_signed (floatText : UInt64 → List Char) (n : Int32) :
    Printable (printValue floatText (.int n)) := by
  unfold Value.int
  split
  · exact printable_int _
  · exact printable_int _

theorem playerGameText_printable (floatText : UInt64 → List Char) (uuid : UuidText)
    (game : PlayerGame) : Printable (playerGameText floatText uuid game).toList := by
  refine printable_rowText ?_
  simp only [playerGameJson, List.forall_mem_cons, printable_string, printable_nat,
    printable_signed, true_and]
  simp

theorem playerGameText_ne_empty (floatText : UInt64 → List Char) (uuid : UuidText)
    (game : PlayerGame) : (playerGameText floatText uuid game).toList ≠ [] := by
  rw [playerGameText, rowText, String.toList_ofList, printValue]
  exact List.cons_ne_nil _ _

end MajsoulManager.Store
