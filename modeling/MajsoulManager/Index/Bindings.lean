/-
# Index.Bindings — the values a statement is bound to

`execute` sends a statement's values beside it, as `param_*` pairs of the query
string, a `String` one as it is and an array one as the literal that
`string_array_param` builds.  The server reads the first in its escaped text format
and the second as a literal; the query string itself carries any text.

* `bindings_arrive_iff`: a list always arrives, and a string exactly when nothing in
  it is read as an escape or as its end.
* `backslash_changed`: a name with a backslash that does not arrive.
-/
import MajsoulManager.Theory.Escapes
import MajsoulManager.Theory.Utf8

namespace MajsoulManager.Index

open MajsoulManager.Theory
open MajsoulManager.Theory.Text (utf8)

set_option autoImplicit false

/-! ## What is sent -/

/-- The pairs of the query string. -/
def queryPairs (sql : String) (params : List (String × String)) : List (String × String) :=
  ("query", sql) :: params.map fun (name, value) => ("param_" ++ name, value)

def replaceChar (c : Char) (with_ : List Char) (text : List Char) : List Char :=
  text.flatMap fun d => if d = c then with_ else [d]

/-- Backslash first, then the quote. -/
def quotedValue (value : String) : List Char :=
  '\'' :: replaceChar '\'' ['\\', '\''] (replaceChar '\\' ['\\', '\\'] value.toList) ++ ['\'']

def stringArrayParam (values : List String) : String :=
  String.ofList ('[' :: Text.joinWith ',' (values.map quotedValue) ++ [']'])

/-! ## What is read -/

/-- The value of a `{name:String}` in the statement. -/
def boundString (table : EscapeTable) (pairs : List (String × String)) (name : String) :
    Option (List UInt8) :=
  (pairs.lookup ("param_" ++ name)).bind fun sent => decodeEscaped table (utf8 sent)

/-- The value of an `{x:Array(String)}`. -/
def boundArray (table : EscapeTable) (sent : String) : Option (List (List UInt8)) :=
  decodeArray table (utf8 sent)

theorem lookup_queryPairs (sql : String) {params : List (String × String)} {name value : String}
    (bound : params.lookup name = some value) :
    (queryPairs sql params).lookup ("param_" ++ name) = some value := by
  have other : ("param_" ++ name) ≠ "query" := by
    intro same
    have chars := congrArg String.toList same
    simp at chars
  rw [queryPairs, List.lookup, beq_eq_false_iff_ne.mpr other]
  simp only
  induction params with
  | nil => cases bound
  | cons first rest ih =>
      obtain ⟨key, held⟩ := first
      by_cases same : name = key
      · subst same
        simpa [List.lookup] using bound
      · have differs : ("param_" ++ name) ≠ "param_" ++ key := by
          intro equal
          have chars := congrArg String.toList equal
          simp only [String.toList_append, List.append_cancel_left_eq, String.toList_inj] at chars
          exact same chars
        rw [List.lookup, beq_eq_false_iff_ne.mpr same] at bound
        rw [List.map_cons, List.lookup, beq_eq_false_iff_ne.mpr differs]
        exact ih bound

/-! ## The literal, byte for byte -/

/-- A byte below 128 is a character of its own. -/
theorem ascii_of_mem_encode {c : Char} {b : UInt8} (member : b ∈ String.utf8EncodeChar c)
    (low : b.toNat < 128) : c.toNat = b.toNat := by
  have high : ∀ {n : Nat}, 128 ≤ n → n < 256 → b = UInt8.ofNat n → c.toNat = b.toNat := by
    intro n above below same
    rw [same, Text.byte_toNat below] at low
    omega
  unfold String.utf8EncodeChar at member
  simp only at member
  split at member
  · rename_i one
    rw [List.mem_singleton.mp member, Text.byte_toNat (by omega)]
    rfl
  · split at member
    · simp only [List.mem_cons, List.not_mem_nil, or_false] at member
      rcases member with same | same
      · exact high (by omega) (by omega) same
      · exact high (by omega) (by omega) same
    · split at member
      · simp only [List.mem_cons, List.not_mem_nil, or_false] at member
        rcases member with same | same | same
        · exact high (by omega) (by omega) same
        · exact high (by omega) (by omega) same
        · exact high (by omega) (by omega) same
      · simp only [List.mem_cons, List.not_mem_nil, or_false] at member
        rcases member with same | same | same | same
        · exact high (by omega) (by omega) same
        · exact high (by omega) (by omega) same
        · exact high (by omega) (by omega) same
        · exact high (by omega) (by omega) same

/-- A character's escape is its bytes' escapes. -/
theorem encode_escaped (c : Char) :
    (replaceChar '\'' ['\\', '\''] (replaceChar '\\' ['\\', '\\'] [c])).flatMap
        String.utf8EncodeChar =
      (String.utf8EncodeChar c).flatMap escapeByte := by
  by_cases slash : c = '\\'
  · subst slash
    decide
  · by_cases quoted : c = '\''
    · subst quoted
      decide
    · have kept : ∀ b ∈ String.utf8EncodeChar c, escapeByte b = [b] := by
        intro b member
        have notSlash : b ≠ backslash := by
          rintro rfl
          have code := ascii_of_mem_encode member (by decide)
          exact slash (Char.toNat_inj.mp code)
        have notQuote : b ≠ quote := by
          rintro rfl
          have code := ascii_of_mem_encode member (by decide)
          exact quoted (Char.toNat_inj.mp code)
        simp [escapeByte, notSlash, notQuote]
      have same : (String.utf8EncodeChar c).flatMap escapeByte = String.utf8EncodeChar c := by
        rw [List.flatMap_congr kept, List.flatMap_singleton']
      rw [same]
      simp [replaceChar, slash, quoted]

theorem utf8_quotedValue (value : String) :
    (quotedValue value).flatMap String.utf8EncodeChar = quoteItem (utf8 value) := by
  have inner : ∀ chars : List Char,
      (replaceChar '\'' ['\\', '\''] (replaceChar '\\' ['\\', '\\'] chars)).flatMap
          String.utf8EncodeChar =
        (chars.flatMap String.utf8EncodeChar).flatMap escapeByte := by
    intro chars
    induction chars with
    | nil => rfl
    | cons c rest ih =>
        have split : replaceChar '\'' ['\\', '\''] (replaceChar '\\' ['\\', '\\'] (c :: rest)) =
            replaceChar '\'' ['\\', '\''] (replaceChar '\\' ['\\', '\\'] [c]) ++
              replaceChar '\'' ['\\', '\''] (replaceChar '\\' ['\\', '\\'] rest) := by
          simp [replaceChar]
        rw [split, List.flatMap_append, ih, encode_escaped, List.flatMap_cons, List.flatMap_append]
  have mark : String.utf8EncodeChar '\'' = [quote] := by decide
  rw [quotedValue, quoteItem, utf8, List.cons_append, List.flatMap_cons, List.flatMap_append, inner,
    List.flatMap_singleton, mark]
  rfl

/-- **The bytes of the literal are a literal of the values' bytes.** -/
theorem utf8_stringArrayParam (values : List String) :
    utf8 (stringArrayParam values) = arrayLiteral (values.map utf8) := by
  have between : String.utf8EncodeChar ',' = [comma] := by decide
  have first : String.utf8EncodeChar '[' = [openBracket] := by decide
  have last : String.utf8EncodeChar ']' = [closeBracket] := by decide
  have items : (Text.joinWith ',' (values.map quotedValue)).flatMap String.utf8EncodeChar =
      joinItems (values.map utf8) := by
    induction values with
    | nil => rfl
    | cons value rest ih =>
        cases rest with
        | nil => exact utf8_quotedValue value
        | cons next more =>
            simp only [List.map_cons, Text.joinWith, joinItems] at ih ⊢
            rw [List.flatMap_append, List.flatMap_cons, utf8_quotedValue, between, ih]
            rfl
  rw [utf8, stringArrayParam, String.toList_ofList, List.cons_append, List.flatMap_cons,
    List.flatMap_append, items, List.flatMap_singleton, first, last]
  rfl

/-! ## What arrives -/

/-- **A list always arrives, a string when nothing in it is read as something else.** -/
theorem bindings_arrive_iff (table : EscapeTable) (sql : String) {params : List (String × String)}
    {name value : String} (bound : params.lookup name = some value) (values : List String) :
    (boundString table (queryPairs sql params) name = some (utf8 value) ∧
        boundArray table (stringArrayParam values) = some (values.map utf8)) ↔
      readsAsIs table false (utf8 value) = true := by
  have array : boundArray table (stringArrayParam values) = some (values.map utf8) := by
    rw [boundArray, utf8_stringArrayParam, decodeArray_literal]
  rw [boundString, lookup_queryPairs sql bound, Option.bind_some, decodeEscaped_eq_self_iff]
  exact ⟨fun both => both.1, fun plain => ⟨plain, array⟩⟩

/-- The escapes of the server's documentation: `\a \b \f \n \r \t \v \0`, and any other
character for itself. -/
def documentedTable : EscapeTable where
  meaning := fun c =>
    [(([(48, 0), (97, 7), (98, 8), (102, 12), (110, 10), (114, 13), (116, 9), (118, 11)] :
      List (UInt8 × UInt8)).lookup c).getD c]
  short := fun c => Or.inl (Nat.le_refl 1)
  backslash_meaning := by decide
  quote_meaning := by decide

theorem bindings_arrive_plain :
    boundString documentedTable (queryPairs "SELECT 1" [("source", "upload"), ("player", "東'風")])
        "player" = some (utf8 "東'風") ∧
      boundArray documentedTable (stringArrayParam ["it's", "a\\b"]) =
        some (["it's", "a\\b"].map utf8) :=
  (bindings_arrive_iff documentedTable "SELECT 1" (by decide) ["it's", "a\\b"]).mpr (by decide +kernel)

/-- The player `a\b` is searched for as `a` and a backspace. -/
theorem backslash_changed :
    boundString documentedTable (queryPairs "SELECT 1" [("player", "a\\b")]) "player" =
        some [97, 8] ∧
      boundString documentedTable (queryPairs "SELECT 1" [("player", "a\\b")]) "player" ≠
        some (utf8 "a\\b") := by
  decide +kernel

end MajsoulManager.Index
