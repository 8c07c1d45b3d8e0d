/-
# Theory.Markup — tagged text, read by searching it

A document is marks and text: a mark is what stands between an opening and a closing angle
bracket, and neither holds a bracket that opens one.  A reader that knows nothing of marks
looks for a word (`cut`) or divides at each occurrence of one (`splitOn`).

* `cut_render`, `cut_render_none`: a search for a mark finds the first such mark of the
  document, and nothing else.
* `splitOn_of_cut`: the division is the search, repeated.
-/
import Mathlib.Data.List.Infix
import Mathlib.Tactic

namespace MajsoulManager.Theory.Markup

set_option autoImplicit false

/-! ## Searching -/

section Search

universe u

variable {α : Type u} [DecidableEq α] (word : List α)

/-- The text before the first occurrence of a word, and the text behind it. -/
def cut : List α → Option (List α × List α)
  | [] => if word = [] then some ([], []) else none
  | c :: rest =>
      if word <+: c :: rest then some ([], (c :: rest).drop word.length)
      else (cut rest).map fun (before, after) => (c :: before, after)

/-- The pieces between the occurrences of a word, which do not overlap. -/
def splitFrom : Nat → List α → List (List α)
  | _, [] => [[]]
  | skip + 1, _ :: rest => splitFrom skip rest
  | 0, c :: rest =>
      if word <+: c :: rest then [] :: splitFrom (word.length - 1) rest
      else
        match splitFrom 0 rest with
        | [] => [[c]]
        | piece :: pieces => (c :: piece) :: pieces

def splitOn (text : List α) : List (List α) := splitFrom word 0 text

variable {word}

theorem splitOn_ne_nil (text : List α) : splitOn word text ≠ [] := by
  have pieces (skip : Nat) : splitFrom word skip text ≠ [] := by
    induction text generalizing skip with
    | nil => cases skip <;> simp [splitFrom]
    | cons c rest ih =>
        cases skip with
        | succ skip => exact ih skip
        | zero =>
            unfold splitFrom
            split
            · simp
            · split <;> simp
  exact pieces 0

theorem splitFrom_eq_drop (skip : Nat) (text : List α) :
    splitFrom word skip text = splitOn word (text.drop skip) := by
  induction text generalizing skip with
  | nil => cases skip <;> simp [splitFrom, splitOn]
  | cons c rest ih =>
      cases skip with
      | zero => rfl
      | succ skip => simpa [splitFrom] using ih skip

/-- Dividing is searching, and then dividing what is behind. -/
theorem splitOn_of_cut (some_ : word ≠ []) {text before after : List α}
    (found : cut word text = some (before, after)) :
    splitOn word text = before :: splitOn word after := by
  induction text generalizing before with
  | nil => simp [cut, some_] at found
  | cons c rest ih =>
      unfold cut at found
      split at found
      next here =>
          obtain ⟨rfl, rfl⟩ := Prod.mk.inj (Option.some.inj found)
          rw [splitOn, splitFrom, if_pos here, splitFrom_eq_drop]
          obtain ⟨d, tail, rfl⟩ := List.exists_cons_of_ne_nil some_
          simp
      next absent =>
          obtain ⟨⟨front, back⟩, later, same⟩ := Option.map_eq_some_iff.mp found
          obtain ⟨rfl, rfl⟩ := Prod.mk.inj same
          rw [splitOn, splitFrom, if_neg absent, ← splitOn, ih later]

theorem splitOn_of_cut_none {text : List α} (absent : cut word text = none) :
    splitOn word text = [text] := by
  induction text with
  | nil => rfl
  | cons c rest ih =>
      unfold cut at absent
      split at absent
      next => cases absent
      next missing =>
          rw [splitOn, splitFrom, if_neg missing, ← splitOn, ih (Option.map_eq_none_iff.mp absent)]

/-- Text in which the word does not begin is passed over. -/
theorem cut_append {front rest : List α} (absent : ∀ d < front.length, ¬ word <+: front.drop d ++ rest) :
    cut word (front ++ rest) =
      (cut word rest).map fun found => (front ++ found.1, found.2) := by
  induction front with
  | nil => simp
  | cons c front ih =>
      have later : ∀ d < front.length, ¬ word <+: front.drop d ++ rest := fun d inside =>
        absent (d + 1) (Nat.succ_lt_succ inside)
      have here : ¬ word <+: c :: (front ++ rest) := by simpa using absent 0 (Nat.succ_pos _)
      rw [List.cons_append, cut, if_neg here, ih later, Option.map_map]
      rfl

theorem cut_here (some_ : word ≠ []) (rest : List α) : cut word (word ++ rest) = some ([], rest) := by
  obtain ⟨c, tail, rfl⟩ := List.exists_cons_of_ne_nil some_
  rw [List.cons_append, cut, if_pos ⟨rest, rfl⟩]
  simp

end Search

/-! ## Documents -/

inductive Item where
  | mark (inside : List Char)
  | text (chars : List Char)
  deriving DecidableEq, Repr

/-- No bracket opens inside an item, and a mark ends at its bracket. -/
def Item.WellFormed : Item → Prop
  | .mark inside => '<' ∉ inside ∧ '>' ∉ inside
  | .text chars => '<' ∉ chars

instance (item : Item) : Decidable item.WellFormed := by
  unfold Item.WellFormed
  split <;> infer_instance

def tag (name : List Char) : List Char := '<' :: name ++ ['>']

def Item.render : Item → List Char
  | .mark inside => tag inside
  | .text chars => chars

def render (items : List Item) : List Char := items.flatMap Item.render

def WellFormed (items : List Item) : Prop := ∀ item ∈ items, item.WellFormed

instance (items : List Item) : Decidable (WellFormed items) := by
  unfold WellFormed
  infer_instance

variable {items front back : List Item} {name : List Char}

@[simp] theorem render_nil : render [] = [] := rfl

@[simp] theorem render_cons (item : Item) (items : List Item) :
    render (item :: items) = item.render ++ render items := rfl

@[simp] theorem render_append (front back : List Item) :
    render (front ++ back) = render front ++ render back := by simp [render]

theorem tag_ne_nil (name : List Char) : tag name ≠ [] := by simp [tag]

/-- A mark begins with the bracket that opens it. -/
theorem not_prefix_of_ne {c : Char} (other : c ≠ '<') (rest : List Char) :
    ¬ tag name <+: c :: rest := by
  rintro ⟨tail, same⟩
  exact other (List.cons.inj same).1.symm

/-- No mark begins inside text. -/
theorem not_prefix_inside {chars : List Char} (plain : '<' ∉ chars) (rest : List Char) :
    ∀ d < chars.length, ¬ tag name <+: chars.drop d ++ rest := by
  intro d inside
  rw [List.drop_eq_getElem_cons inside, List.cons_append]
  exact not_prefix_of_ne (fun opens => plain (opens ▸ List.getElem_mem inside)) _

/-- Two names that are each followed by a bracket they do not hold are the same name. -/
theorem eq_of_prefix_closed {first second rest : List Char} (closed : '>' ∉ first)
    (closes : '>' ∉ second) (here : first ++ ['>'] <+: second ++ '>' :: rest) : first = second := by
  induction first generalizing second with
  | nil =>
      cases second with
      | nil => rfl
      | cons d second =>
          obtain ⟨tail, same⟩ := here
          have bracket : '>' = d := (List.cons.inj same).1
          exact absurd (bracket ▸ List.mem_cons_self) closes
  | cons c first ih =>
      obtain ⟨tail, same⟩ := here
      cases second with
      | nil =>
          have bracket : c = '>' := (List.cons.inj same).1
          exact absurd (bracket ▸ List.mem_cons_self) closed
      | cons d second =>
          obtain ⟨rfl, later⟩ := List.cons.inj same
          rw [ih (fun m => closed (List.mem_cons_of_mem _ m))
            (fun m => closes (List.mem_cons_of_mem _ m)) ⟨tail, later⟩]

/-- Another mark is passed over. -/
theorem cut_mark {other : List Char} (closed : '>' ∉ name)
    (wellFormed : (Item.mark other).WellFormed) (apart : other ≠ name) (rest : List Char) :
    cut (tag name) (tag other ++ rest) =
      (cut (tag name) rest).map fun found => (tag other ++ found.1, found.2) := by
  apply cut_append
  intro d inside
  cases d with
  | zero =>
      rintro ⟨tail, same⟩
      have later : name ++ '>' :: tail = other ++ '>' :: rest := by
        simpa [tag] using same
      exact apart (eq_of_prefix_closed closed wellFormed.2 ⟨tail, by simpa using later⟩).symm
  | succ d =>
      have plain : '<' ∉ other ++ ['>'] := by simp [wellFormed.1]
      exact not_prefix_inside plain rest d (by simpa [tag] using inside)

theorem cut_item (closed : '>' ∉ name) {item : Item} (wellFormed : item.WellFormed)
    (apart : item ≠ .mark name) (rest : List Char) :
    cut (tag name) (item.render ++ rest) =
      (cut (tag name) rest).map fun found => (item.render ++ found.1, found.2) := by
  cases item with
  | mark other => exact cut_mark closed wellFormed (fun same => apart (congrArg _ same)) rest
  | text chars => exact cut_append (not_prefix_inside wellFormed rest)

/-- What stands before the first such mark is passed over. -/
theorem cut_front (closed : '>' ∉ name) (wellFormed : WellFormed front)
    (absent : .mark name ∉ front) (rest : List Char) :
    cut (tag name) (render front ++ rest) =
      (cut (tag name) rest).map fun found => (render front ++ found.1, found.2) := by
  induction front with
  | nil => simp
  | cons item front ih =>
      obtain ⟨here, later⟩ := List.forall_mem_cons.mp wellFormed
      rw [render_cons, List.append_assoc,
        cut_item closed here (fun same => absent (same ▸ List.mem_cons_self)),
        ih later fun member => absent (List.mem_cons_of_mem _ member), Option.map_map]
      simp [Function.comp_def]

/-- **A search for a mark finds the first one.** -/
theorem cut_render (closed : '>' ∉ name) (wellFormed : WellFormed front)
    (absent : .mark name ∉ front) (back : List Item) :
    cut (tag name) (render (front ++ .mark name :: back)) = some (render front, render back) := by
  rw [render_append, cut_front closed wellFormed absent]
  rw [render_cons, Item.render, cut_here (tag_ne_nil name)]
  simp

theorem cut_render_none (closed : '>' ∉ name) (wellFormed : WellFormed items)
    (absent : .mark name ∉ items) : cut (tag name) (render items) = none := by
  have front := cut_front closed wellFormed absent []
  rw [List.append_nil] at front
  rw [front]
  simp [cut, tag_ne_nil]

/-! ## Entities -/

section Entities

variable (entities : List (List Char × Char))

/-- A text as it stands in a document: each character itself, or as its entity, and those
that are marked only so. -/
inductive Escaped (marked : Char → Prop) : List Char → List Char → Prop where
  | nil : Escaped marked [] []
  | plain {c : Char} {text escaped : List Char} (free : ¬ marked c)
      (rest : Escaped marked text escaped) : Escaped marked (c :: text) (c :: escaped)
  | entity {entry : List Char × Char} {text escaped : List Char} (known : entry ∈ entities)
      (rest : Escaped marked text escaped) :
      Escaped marked (entry.2 :: text) (entry.1 ++ escaped)

end Entities

end MajsoulManager.Theory.Markup
