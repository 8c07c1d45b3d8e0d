/-
# Theory.Grouping — rows grouped under ordered keys, and groups packed into batches

An ordered map from keys to lists is filled row by row (`pushRow`), and its
values are then appended to one batch after another, each closed once it has
taken `limit` groups (`closeBatches`).

* `mem_groupRows`: a key's group is exactly its rows, in their order.
* `closeBatches_eq`: the batches are the groups cut every `limit`, and only the
  last may be short.
-/
import Mathlib

namespace MajsoulManager.Theory

set_option autoImplicit false

variable {κ α β : Type} [LinearOrder κ]

/-! ## Filling the map -/

/-- Append a row to its key's list, which is made where the key is new. -/
def pushRow (key : κ) (row : α) : List (κ × List α) → List (κ × List α)
  | [] => [(key, [row])]
  | (k, rows) :: rest =>
      if key < k then (key, [row]) :: (k, rows) :: rest
      else if key = k then (k, rows ++ [row]) :: rest
      else (k, rows) :: pushRow key row rest

/-- Every input's row, pushed in turn under the input's key. -/
def groupRows (key : β → κ) (row : β → α) (inputs : List β) : List (κ × List α) :=
  inputs.foldl (fun groups input => pushRow (key input) (row input) groups) []

/-- The keys are in strictly increasing order. -/
def KeysSorted (groups : List (κ × List α)) : Prop :=
  groups.Pairwise fun a b => a.1 < b.1

@[simp] theorem groupRows_concat (key : β → κ) (row : β → α) (inputs : List β) (input : β) :
    groupRows key row (inputs ++ [input]) =
      pushRow (key input) (row input) (groupRows key row inputs) := by
  simp [groupRows]

theorem key_of_mem_pushRow {key : κ} {row : α} {groups : List (κ × List α)} {group : κ × List α}
    (member : group ∈ pushRow key row groups) : group.1 = key ∨ ∃ old ∈ groups, old.1 = group.1 := by
  induction groups with
  | nil =>
      left
      simp only [pushRow, List.mem_singleton] at member
      rw [member]
  | cons first rest ih =>
      obtain ⟨k, rows⟩ := first
      rw [pushRow] at member
      split at member
      · rcases List.mem_cons.mp member with rfl | later
        · exact Or.inl rfl
        · exact Or.inr ⟨group, later, rfl⟩
      · split at member
        · rename_i same
          rcases List.mem_cons.mp member with rfl | later
          · exact Or.inl same.symm
          · exact Or.inr ⟨group, List.mem_cons_of_mem _ later, rfl⟩
        · rcases List.mem_cons.mp member with rfl | later
          · exact Or.inr ⟨(k, rows), List.mem_cons_self, rfl⟩
          · rcases ih later with same | ⟨old, inside, same⟩
            · exact Or.inl same
            · exact Or.inr ⟨old, List.mem_cons_of_mem _ inside, same⟩

theorem pushRow_sorted (key : κ) (row : α) {groups : List (κ × List α)}
    (sorted : KeysSorted groups) : KeysSorted (pushRow key row groups) := by
  induction groups with
  | nil => exact List.pairwise_singleton _ _
  | cons first rest ih =>
      obtain ⟨k, rows⟩ := first
      obtain ⟨above, later⟩ := List.pairwise_cons.mp sorted
      rw [pushRow]
      split
      · rename_i below
        refine List.pairwise_cons.mpr ⟨?_, sorted⟩
        intro group member
        rcases List.mem_cons.mp member with rfl | inside
        · exact below
        · exact below.trans (above group inside)
      · split
        · exact List.pairwise_cons.mpr ⟨above, later⟩
        · rename_i notBelow other
          refine List.pairwise_cons.mpr ⟨?_, ih later⟩
          intro group member
          rcases key_of_mem_pushRow member with same | ⟨old, inside, same⟩
          · show k < group.1
            rw [same]
            exact lt_of_le_of_ne (not_lt.mp notBelow) (Ne.symm other)
          · show k < group.1
            rw [← same]
            exact above old inside

theorem groupRows_sorted (key : β → κ) (row : β → α) (inputs : List β) :
    KeysSorted (groupRows key row inputs) := by
  induction inputs using List.reverseRecOn with
  | nil => exact List.Pairwise.nil
  | append_singleton inputs input ih =>
      rw [groupRows_concat]
      exact pushRow_sorted _ _ ih

theorem KeysSorted.nodup {groups : List (κ × List α)} (sorted : KeysSorted groups) :
    (groups.map Prod.fst).Nodup := by
  rw [List.Nodup, List.pairwise_map]
  exact sorted.imp fun below => below.ne

/-- What a push leaves of the map: the other keys' groups, and its own with the
row behind what it had. -/
theorem mem_pushRow {key : κ} {row : α} {groups : List (κ × List α)} (sorted : KeysSorted groups)
    (k : κ) (rows : List α) :
    (k, rows) ∈ pushRow key row groups ↔
      (k ≠ key ∧ (k, rows) ∈ groups) ∨
        (k = key ∧ ∃ old, rows = old ++ [row] ∧
          ((key, old) ∈ groups ∨ (old = [] ∧ ∀ held, (key, held) ∉ groups))) := by
  induction groups with
  | nil => simp [pushRow]
  | cons first rest ih =>
      obtain ⟨k', held⟩ := first
      obtain ⟨above, later⟩ := List.pairwise_cons.mp sorted
      -- the keys behind the first are larger, so a key at or below it is not among them
      have absent : ∀ k rows, k ≤ k' → (k, rows) ∉ rest := fun k rows below member =>
        absurd (above _ member) (not_lt.mpr below)
      rw [pushRow]
      split
      · rename_i below
        have gone : ∀ rows, (key, rows) ∉ rest := fun rows => absent key rows below.le
        by_cases own : k = key
        · subst own
          simp [gone, below.ne]
        · simp [own]
      · rename_i notBelow
        split
        · rename_i same
          subst same
          have gone : ∀ rows, (key, rows) ∉ rest := fun rows => absent key rows le_rfl
          by_cases own : k = key
          · subst own
            simp [gone]
          · simp [own]
        · rename_i other
          simp only [List.mem_cons, Prod.mk.injEq, ih later]
          by_cases own : k = key
          · subst own
            simp [other]
          · simp [own]

/-- **A key's group is exactly its inputs' rows, in their order.** -/
theorem mem_groupRows (key : β → κ) (row : β → α) (inputs : List β) (k : κ) (rows : List α) :
    (k, rows) ∈ groupRows key row inputs ↔
      rows = (inputs.filter fun input => key input = k).map row ∧ rows ≠ [] := by
  induction inputs using List.reverseRecOn generalizing k rows with
  | nil => simp [groupRows]
  | append_singleton inputs input ih =>
      rw [groupRows_concat, mem_pushRow (groupRows_sorted key row inputs)]
      by_cases own : k = key input
      · subst own
        -- no group yet means no input of the key so far
        have first : (∀ held, (key input, held) ∉ groupRows key row inputs) ↔
            (inputs.filter fun other => key other = key input).map row = [] := by
          simp only [ih]
          constructor
          · intro none
            by_contra some_
            exact none _ ⟨rfl, some_⟩
          · rintro none held ⟨rfl, some_⟩
            exact some_ none
        rw [first]
        simp only [ne_eq, not_true_eq_false, false_and, false_or, true_and, ih, List.filter_append,
          List.filter_cons, decide_true, if_true, List.filter_nil, List.map_append, List.map_cons,
          List.map_nil]
        constructor
        · rintro ⟨old, rfl, ⟨rfl, -⟩ | ⟨rfl, none⟩⟩
          · simp
          · simp [none]
        · rintro ⟨rfl, -⟩
          refine ⟨_, rfl, ?_⟩
          by_cases none : (inputs.filter fun other => key other = key input).map row = []
          · exact Or.inr ⟨none, none⟩
          · exact Or.inl ⟨rfl, none⟩
      · have skipped : ([input].filter fun other => key other = k) = [] := by
          simp [Ne.symm own]
        simp [own, ih, skipped]

theorem flatMap_pushRow_perm (key : κ) (row : α) (groups : List (κ × List α)) :
    ((pushRow key row groups).flatMap Prod.snd).Perm (groups.flatMap Prod.snd ++ [row]) := by
  induction groups with
  | nil => simp [pushRow]
  | cons first rest ih =>
      obtain ⟨k, rows⟩ := first
      rw [pushRow]
      split
      · exact (List.perm_append_singleton row _).symm
      · split
        · simp only [List.flatMap_cons, List.append_assoc]
          exact List.Perm.append_left rows List.perm_append_comm
        · simp only [List.flatMap_cons, List.append_assoc]
          exact List.Perm.append_left rows ih

/-- No row is lost or duplicated. -/
theorem flatMap_groupRows_perm (key : β → κ) (row : β → α) (inputs : List β) :
    ((groupRows key row inputs).flatMap Prod.snd).Perm (inputs.map row) := by
  induction inputs using List.reverseRecOn with
  | nil => exact List.Perm.refl _
  | append_singleton inputs input ih =>
      rw [groupRows_concat, List.map_append]
      exact (flatMap_pushRow_perm _ _ _).trans (List.Perm.append_right [row input] ih)

/-- Pushing what is made of a row is making it of every row pushed. -/
theorem pushRow_map (f : α → β) (key : κ) (row : α) (groups : List (κ × List α)) :
    pushRow key (f row) (groups.map fun group => (group.1, group.2.map f)) =
      (pushRow key row groups).map fun group => (group.1, group.2.map f) := by
  induction groups with
  | nil => rfl
  | cons first rest ih =>
      obtain ⟨k, rows⟩ := first
      simp only [List.map_cons, pushRow, ih]
      split
      · rfl
      · split
        · simp
        · rfl

theorem groupRows_map (f : α → β) {γ : Type} (key : γ → κ) (row : γ → α) (inputs : List γ) :
    groupRows key (fun input => f (row input)) inputs =
      (groupRows key row inputs).map fun group => (group.1, group.2.map f) := by
  induction inputs using List.reverseRecOn with
  | nil => rfl
  | append_singleton inputs input ih =>
      rw [groupRows_concat, groupRows_concat, ih, pushRow_map]

/-! ## Packing the groups -/

/-- Take the groups' rows into a batch, closed at `limit` groups; what is held at
the end is the last batch. -/
def closeBatches (limit : Nat) : List (List α) → List α → Nat → List (List α)
  | [], batch, _ => if batch.isEmpty then [] else [batch]
  | rows :: rest, batch, taken =>
      if taken + 1 = limit then (batch ++ rows) :: closeBatches limit rest [] 0
      else closeBatches limit rest (batch ++ rows) (taken + 1)

theorem closeBatches_map (f : α → β) (limit : Nat) (groups : List (List α)) (batch : List α)
    (taken : Nat) :
    closeBatches limit (groups.map (List.map f)) (batch.map f) taken =
      (closeBatches limit groups batch taken).map (List.map f) := by
  induction groups generalizing batch taken with
  | nil =>
      simp only [List.map_nil, closeBatches, List.isEmpty_map]
      split <;> rfl
  | cons rows rest ih =>
      simp only [List.map_cons, closeBatches, ← List.map_append]
      split
      · rw [List.map_cons, ← ih [] 0, List.map_nil]
      · exact ih _ _

/-- How the groups were cut: every part but the last holds `limit` of them. -/
structure Packing (limit : Nat) (groups : List β) (parts : List (List β)) : Prop where
  whole : parts.flatten = groups
  some_ : ∀ part ∈ parts, part ≠ []
  bounded : ∀ part ∈ parts, part.length ≤ limit
  full : ∀ part ∈ parts.dropLast, part.length = limit

/-- **The batches are the groups cut every `limit`, the rows of each part together.** -/
theorem closeBatches_eq {limit : Nat} {rows : β → List α} {groups : List β}
    (filled : ∀ group ∈ groups, rows group ≠ []) (held : List β)
    (filledHeld : ∀ group ∈ held, rows group ≠ []) (room : held.length < limit) :
    ∃ parts, closeBatches limit (groups.map rows) (held.flatMap rows) held.length =
        parts.map (List.flatMap rows) ∧
      Packing limit (held ++ groups) parts := by
  induction groups generalizing held with
  | nil =>
      by_cases none : held = []
      · subst none
        exact ⟨[], rfl, rfl, by simp, by simp, by simp⟩
      · have some_ : (held.flatMap rows).isEmpty = false := by
          obtain ⟨first, rest, rfl⟩ := List.exists_cons_of_ne_nil none
          have own := filledHeld first List.mem_cons_self
          simp [own]
        refine ⟨[held], by simp [closeBatches, some_], by simp, ?_, ?_, by simp⟩
        · simpa using none
        · simpa using room.le
  | cons group rest ih =>
      obtain ⟨here, later⟩ := List.forall_mem_cons.mp filled
      have joined : held.flatMap rows ++ rows group = (held ++ [group]).flatMap rows := by simp
      have filledJoined : ∀ other ∈ held ++ [group], rows other ≠ [] := by
        intro other member
        rcases List.mem_append.mp member with inside | own
        · exact filledHeld other inside
        · rwa [List.mem_singleton.mp own]
      rw [List.map_cons, closeBatches, joined]
      split
      · rename_i closes
        obtain ⟨parts, same, packing⟩ := ih later [] (by simp) (by simp; omega)
        simp only [List.flatMap_nil, List.length_nil] at same
        refine ⟨(held ++ [group]) :: parts, by simp [same], ?_, ?_, ?_, ?_⟩
        · simp [packing.whole]
        · exact List.forall_mem_cons.mpr ⟨by simp, packing.some_⟩
        · exact List.forall_mem_cons.mpr ⟨by simp; omega, packing.bounded⟩
        · intro part member
          cases parts with
          | nil => simp at member
          | cons next more =>
              rw [List.dropLast_cons_cons] at member
              rcases List.mem_cons.mp member with rfl | inside
              · simpa using closes
              · exact packing.full part inside
      · rename_i opens
        obtain ⟨parts, same, packing⟩ := ih later (held ++ [group]) filledJoined (by simp; omega)
        simp only [List.length_append, List.length_singleton] at same
        exact ⟨parts, same, by simpa using packing⟩

end MajsoulManager.Theory
