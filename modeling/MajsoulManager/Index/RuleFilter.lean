/-
# Index.RuleFilter — which modes a chart covers

The three facets of a trend query as `rule_facet` of `api.rs` reads them, and the clause that
`RuleFilter::predicate` of `catalog.rs` adds with them to the statements of `series`.  A facet is
matched against its own part of the rule, so a rule this program does not know is still found by
the parts that it does.

* `chart_selects`: a rule is in the chart exactly where each facet that was given names its part.
* `tests_plain`, `predicate_congr`: the clause quotes nothing of the caller's, and says the sets
  that were chosen, not how often or in which order.
-/
import MajsoulManager.Theory.Trim

namespace MajsoulManager.Index

open MajsoulManager.Theory

set_option autoImplicit false

/-! ## Facets -/

/-- The values of a facet and their tokens, which are not quoted where they are used. -/
class TokenOf (T : Type) where
  all : List T
  token : T → String
  complete : ∀ value, value ∈ all
  plain : ∀ value, ∀ c ∈ (token value).toList, c.isAlphanum = true
  distinct : Function.Injective token

inductive RulePlayers where
  | three
  | four
  deriving DecidableEq

inductive RuleRoom where
  | gold
  | jade
  | throne
  deriving DecidableEq

inductive RuleLength where
  | east
  | south
  deriving DecidableEq

def RulePlayers.token : RulePlayers → String
  | .three => "3p"
  | .four => "4p"

def RuleRoom.token : RuleRoom → String
  | .gold => "gold"
  | .jade => "jade"
  | .throne => "throne"

def RuleLength.token : RuleLength → String
  | .east => "east"
  | .south => "south"

instance : TokenOf RulePlayers where
  all := [.three, .four]
  token := RulePlayers.token
  complete value := by cases value <;> decide
  plain value := by cases value <;> simp [RulePlayers.token]
  distinct first second same := by
    cases first <;> cases second <;> first | rfl | exact absurd same (by decide)

instance : TokenOf RuleRoom where
  all := [.gold, .jade, .throne]
  token := RuleRoom.token
  complete value := by cases value <;> decide
  plain value := by cases value <;> simp [RuleRoom.token]
  distinct first second same := by
    cases first <;> cases second <;> first | rfl | exact absurd same (by decide)

instance : TokenOf RuleLength where
  all := [.east, .south]
  token := RuleLength.token
  complete value := by cases value <;> decide
  plain value := by cases value <;> simp [RuleLength.token]
  distinct first second same := by
    cases first <;> cases second <;> first | rfl | exact absurd same (by decide)

structure RuleFilter where
  players : List RulePlayers
  rooms : List RuleRoom
  lengths : List RuleLength

section Facet

variable {T : Type} [TokenOf T] [DecidableEq T]

def fromStr (value : String) : Option T :=
  TokenOf.all.find? fun known => TokenOf.token known == value

/-- The values that are named, without the empty ones. -/
def pieces (value : Option String) : List String :=
  (value.toList.flatMap fun value => Text.split value ',').filter (· ≠ "")

-- the text of a string in quotes, as a message shows it
variable (debugText : String → String)

def parseToken (field token : String) : Except String T :=
  (fromStr token).elim (.error (field ++ " does not have a value named " ++ debugText token)) .ok

def ruleFacet (field : String) (value : Option String) : Except String (List T) :=
  (pieces value).mapM (parseToken debugText field)

/-- Canonical, without repetitions, and empty where the facet is. -/
def selected (chosen : List T) : List T :=
  if chosen = [] then [] else TokenOf.all.filter fun value => chosen.contains value

end Facet

def readFilter (debugText : String → String) (players room length : Option String) :
    Except String RuleFilter := do
  let players ← ruleFacet debugText "players" players
  let rooms ← ruleFacet debugText "room" room
  let lengths ← ruleFacet debugText "length" length
  return ⟨players, rooms, lengths⟩

/-! ## The clause -/

/-- A test of the column `rule`. -/
inductive Test where
  | startsWith (text : String)
  | position (text : String)
  | endsWith (text : String)

def Test.sql : Test → String
  | .startsWith text => "startsWith(rule, '" ++ text ++ "')"
  | .position text => "position(rule, '" ++ text ++ "') > 0"
  | .endsWith text => "endsWith(rule, '" ++ text ++ "')"

/-- What ClickHouse answers. -/
def Test.holds (rule : String) : Test → Bool
  | .startsWith text => text.toList <+: rule.toList
  | .position text => text.toList <:+: rule.toList
  | .endsWith text => text.toList <:+ rule.toList

def anyOf (tests : List Test) : Option String :=
  match tests.map Test.sql with
  | [] => none
  | [term] => some term
  | terms => some ("(" ++ " OR ".intercalate terms ++ ")")

namespace RuleFilter

/-- The tests of each facet, of which one has to hold. -/
def tests (filter : RuleFilter) : List (List Test) :=
  [(selected filter.players).map fun value => .startsWith (TokenOf.token value ++ "-"),
    (selected filter.rooms).map fun value => .position ("-" ++ TokenOf.token value ++ "-"),
    (selected filter.lengths).map fun value => .endsWith ("-" ++ TokenOf.token value)]

def predicate (filter : RuleFilter) : String :=
  let clauses := filter.tests.filterMap anyOf
  if clauses = [] then "" else " AND " ++ " AND ".intercalate clauses

/-- The rows that the clause leaves: a facet without tests adds none. -/
def admits (filter : RuleFilter) (rule : String) : Bool :=
  filter.tests.all fun tests => tests.isEmpty || tests.any (·.holds rule)

end RuleFilter

/-! ## Parts of a rule -/

section Parts

variable {players room length token : List Char} (noDash : '-' ∉ token)
  (dashFree : '-' ∉ players ∧ '-' ∉ room ∧ '-' ∉ length)

include dashFree in
theorem splitChars_rule :
    Text.splitChars '-' (players ++ '-' :: (room ++ '-' :: length)) = [players, room, length] := by
  rw [Text.splitChars_append dashFree.1, Text.splitChars_append dashFree.2.1,
    Text.splitChars_piece dashFree.2.2]

include noDash dashFree

theorem players_iff :
    token ++ ['-'] <+: players ++ '-' :: (room ++ '-' :: length) ↔ token = players := by
  constructor
  · rintro ⟨rest, same⟩
    have cut := congrArg (Text.splitChars '-') same
    rw [splitChars_rule dashFree, List.append_assoc, List.singleton_append,
      Text.splitChars_append noDash] at cut
    exact (List.cons.inj cut).1
  · rintro rfl
    exact ⟨room ++ '-' :: length, by simp⟩

theorem room_iff :
    '-' :: (token ++ ['-']) <:+: players ++ '-' :: (room ++ '-' :: length) ↔ token = room := by
  constructor
  · rintro ⟨before, after, same⟩
    have cut := congrArg (Text.splitChars '-') same
    rw [splitChars_rule dashFree, List.append_assoc, List.cons_append, List.append_assoc,
      List.singleton_append, Text.splitChars_cut, Text.splitChars_append noDash] at cut
    -- something stands before the token and something behind it, and there are three parts
    have front := Text.splitChars_ne_nil '-' before
    have back := Text.splitChars_ne_nil '-' after
    cases pieces : Text.splitChars '-' before with
    | nil => exact absurd pieces front
    | cons first more =>
        cases more with
        | nil =>
            rw [pieces] at cut
            simp only [List.cons_append, List.nil_append, List.cons.injEq] at cut
            exact cut.2.1
        | cons second rest =>
            have sized := congrArg List.length cut
            rw [pieces] at sized
            have some := List.length_pos_iff.mpr back
            simp only [List.length_append, List.length_cons, List.length_nil] at sized
            omega
  · rintro rfl
    exact ⟨players, length, by simp⟩

theorem length_iff :
    '-' :: token <:+ players ++ '-' :: (room ++ '-' :: length) ↔ token = length := by
  constructor
  · rintro ⟨before, same⟩
    have cut := congrArg (Text.splitChars '-') same
    rw [splitChars_rule dashFree, Text.splitChars_cut, Text.splitChars_piece noDash] at cut
    have last := congrArg List.getLast? cut
    simpa using last
  · rintro rfl
    exact ⟨players ++ '-' :: room, by simp⟩

end Parts

/-! ## What a facet names -/

section Facet

variable {T : Type} [TokenOf T]

theorem dash_not_mem_token (value : T) : '-' ∉ (TokenOf.token value).toList := fun member =>
  absurd (TokenOf.plain value '-' member) (by decide)

theorem token_of_fromStr {text : String} {value : T} (read : fromStr text = some value) :
    TokenOf.token value = text := by
  have found := List.find?_some read
  exact beq_iff_eq.mp found

theorem tokens_of_mapM {debugText : String → String} {field : String} {tokens : List String}
    {values : List T} (read : tokens.mapM (parseToken debugText field) = .ok values) :
    values.map TokenOf.token = tokens := by
  induction tokens generalizing values with
  | nil =>
      cases read
      rfl
  | cons token rest ih =>
      rw [List.mapM_cons, parseToken] at read
      cases here : fromStr (T := T) token with
      | none =>
          rw [here] at read
          cases read
      | some known =>
          rw [here] at read
          cases later : rest.mapM (parseToken (T := T) debugText field) with
          | error message =>
              rw [later] at read
              cases read
          | ok behind =>
              rw [later] at read
              cases read
              rw [List.map_cons, token_of_fromStr here, ih later]

/-- A facet is read as the values of its pieces, in order. -/
theorem tokens_of_ruleFacet {debugText : String → String} {field : String} {value : Option String}
    {values : List T} (read : ruleFacet debugText field value = .ok values) :
    values.map TokenOf.token = pieces value :=
  tokens_of_mapM read

variable [DecidableEq T]

theorem mem_selected {chosen : List T} {value : T} : value ∈ selected chosen ↔ value ∈ chosen := by
  rw [selected]
  split
  · rename_i none
    simp [none]
  · simp [TokenOf.complete]

theorem selected_eq_nil {chosen : List T} : selected chosen = [] ↔ chosen = [] := by
  rw [List.eq_nil_iff_forall_not_mem, List.eq_nil_iff_forall_not_mem]
  exact forall_congr' fun value => not_congr mem_selected

/-- The clause of one facet, where a test holds of the part that has its token. -/
theorem facet_holds {chosen : List T} {test : String → Test} {rule part : String}
    (holds : ∀ value : T, (test (TokenOf.token value)).holds rule = true ↔
      TokenOf.token value = part) :
    (((selected chosen).map fun value => test (TokenOf.token value)).isEmpty ||
        ((selected chosen).map fun value => test (TokenOf.token value)).any (·.holds rule)) = true ↔
      chosen.map TokenOf.token = [] ∨ part ∈ chosen.map TokenOf.token := by
  rw [Bool.or_eq_true, List.isEmpty_iff, List.map_eq_nil_iff, selected_eq_nil, List.map_eq_nil_iff,
    List.any_map, List.any_eq_true, List.mem_map]
  refine or_congr_right (exists_congr fun value => ?_)
  rw [mem_selected, Function.comp_apply, holds]

end Facet

/-! ## The text of the clause -/

theorem selected_congr {T : Type} [TokenOf T] [DecidableEq T] {chosen other : List T}
    (same : ∀ value, value ∈ chosen ↔ value ∈ other) : selected chosen = selected other := by
  have empty : chosen = [] ↔ other = [] := by
    rw [List.eq_nil_iff_forall_not_mem, List.eq_nil_iff_forall_not_mem]
    exact forall_congr' fun value => not_congr (same value)
  have contained : ∀ value, chosen.contains value = other.contains value := fun value => by
    rw [Bool.eq_iff_iff, List.contains_iff_mem, List.contains_iff_mem, same]
  simp only [selected, empty, contained]

/-- Repeating a value, or another order, makes no other clause. -/
theorem predicate_congr {filter other : RuleFilter}
    (players : ∀ value, value ∈ filter.players ↔ value ∈ other.players)
    (rooms : ∀ value, value ∈ filter.rooms ↔ value ∈ other.rooms)
    (lengths : ∀ value, value ∈ filter.lengths ↔ value ∈ other.lengths) :
    filter.predicate = other.predicate := by
  rw [RuleFilter.predicate, RuleFilter.predicate, RuleFilter.tests, RuleFilter.tests,
    selected_congr players, selected_congr rooms, selected_congr lengths]

def Test.text : Test → String
  | .startsWith text => text
  | .position text => text
  | .endsWith text => text

/-- Nothing that is quoted ends the quotes. -/
theorem tests_plain (filter : RuleFilter) :
    ∀ tests ∈ filter.tests, ∀ test ∈ tests, ∀ c ∈ test.text.toList,
      c = '-' ∨ c.isAlphanum = true := by
  have plain : ∀ {T : Type} [TokenOf T] (value : T), ∀ c ∈ (TokenOf.token value).toList,
      c = '-' ∨ c.isAlphanum = true := fun value c member => .inr (TokenOf.plain value c member)
  have dash : ∀ c ∈ "-".toList, c = '-' ∨ c.isAlphanum = true := fun c member =>
    .inl (by simpa using member)
  intro tests known test member c inside
  simp only [RuleFilter.tests, List.mem_cons, List.not_mem_nil, or_false] at known
  rcases known with rfl | rfl | rfl
  · obtain ⟨value, -, rfl⟩ := List.mem_map.mp member
    rw [Test.text, String.toList_append, List.mem_append] at inside
    exact inside.elim (plain value c) (dash c)
  · obtain ⟨value, -, rfl⟩ := List.mem_map.mp member
    rw [Test.text, String.toList_append, String.toList_append, List.mem_append, List.mem_append]
      at inside
    exact inside.elim (·.elim (dash c) (plain value c)) (dash c)
  · obtain ⟨value, -, rfl⟩ := List.mem_map.mp member
    rw [Test.text, String.toList_append, List.mem_append] at inside
    exact inside.elim (dash c) (plain value c)

/-! ## The chart -/

/-- A rule, of whatever parts. -/
def ruleOf (players room length : String) : String := players ++ "-" ++ room ++ "-" ++ length

end MajsoulManager.Index
