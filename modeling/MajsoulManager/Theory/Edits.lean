/-
# Theory.Edits — lists edited in place

A table is a list whose rows are edited where they stand.  What an edit does not touch
reads the same afterwards: `map_modify`, `map_mapIdx_iff`; and a row of the edited table
is an old row or the edited one: `getElem?_modify_cases`.
-/
import Mathlib

namespace MajsoulManager.Theory

set_option autoImplicit false

variable {α β : Type}

/-- A column that the edit of a row leaves alone. -/
theorem map_modify {rows : List α} {i : Nat} {edit : α → α} {column : α → β}
    (same : ∀ row, column (edit row) = column row) :
    (rows.modify i edit).map column = rows.map column := by
  apply List.ext_getElem?
  intro j
  rw [List.getElem?_map, List.getElem?_map, List.getElem?_modify]
  cases rows[j]? with
  | none => rfl
  | some row =>
      show some (column (if i = j then edit row else row)) = some (column row)
      split
      · rw [same]
      · rfl

/-- A row of the edited table is the edited one, or stands where it stood. -/
theorem getElem?_modify_cases {rows : List α} {i j : Nat} {edit : α → α} {row : α}
    (here : (rows.modify i edit)[j]? = some row) :
    (i = j ∧ ∃ old, rows[j]? = some old ∧ row = edit old) ∨ (i ≠ j ∧ rows[j]? = some row) := by
  rw [List.getElem?_modify] at here
  obtain ⟨old, found, shown⟩ := Option.map_eq_some_iff.mp here
  by_cases same : i = j
  · rw [if_pos same] at shown
    exact .inl ⟨same, old, found, shown.symm⟩
  · rw [if_neg same] at shown
    exact .inr ⟨same, found.trans (congrArg some shown)⟩

theorem mem_modify_cases {rows : List α} {i : Nat} {edit : α → α} {row : α}
    (member : row ∈ rows.modify i edit) :
    (∃ old, rows[i]? = some old ∧ row = edit old) ∨ row ∈ rows := by
  obtain ⟨j, here⟩ := List.mem_iff_getElem?.mp member
  rcases getElem?_modify_cases here with ⟨rfl, edited⟩ | ⟨-, old⟩
  · exact .inl edited
  · exact .inr (List.mem_of_getElem? old)

/-- A row of a table with one row replaced is an old one, or what the new one is. -/
theorem mem_set_imp {rows : List α} {i : Nat} {new : α} {P : α → Prop} (holds : P new) :
    ∀ row ∈ rows.set i new, row ∈ rows ∨ P row := by
  intro row member
  rcases List.mem_or_eq_of_mem_set member with old | rfl
  · exact .inl old
  · exact .inr holds

/-- Replacing a row by one of the same column. -/
theorem map_set_eq {rows : List α} {i : Nat} {old new : α} {column : α → β}
    (here : rows[i]? = some old) (same : column new = column old) :
    (rows.set i new).map column = rows.map column := by
  obtain ⟨inside, rfl⟩ := List.getElem?_eq_some_iff.mp here
  rw [List.map_set, same, ← List.getElem_map column (h := by simpa using inside),
    List.set_getElem_self]

/-- A row with a new key. -/
theorem nodup_map_concat {rows : List α} {new : α} {key : α → β} (distinct : (rows.map key).Nodup)
    (fresh : key new ∉ rows.map key) : ((rows ++ [new]).map key).Nodup := by
  rw [List.map_append, List.map_singleton, ← List.concat_eq_append]
  exact List.Nodup.concat fresh distinct

theorem mem_concat_imp {rows : List α} {new : α} {P : α → Prop} (holds : P new) :
    ∀ row ∈ rows ++ [new], row ∈ rows ∨ P row := by
  intro row member
  rcases List.mem_append.mp member with old | added
  · exact .inl old
  · rw [List.mem_singleton.mp added]
    exact .inr holds

/-- A row that is not the replaced one is still there. -/
theorem mem_set_of_ne {rows : List α} {i : Nat} {old new row : α} (here : rows[i]? = some old)
    (differs : old ≠ row) (member : row ∈ rows) : row ∈ rows.set i new := by
  obtain ⟨j, found⟩ := List.mem_iff_getElem?.mp member
  have other : i ≠ j := by
    rintro rfl
    exact differs (Option.some.inj (here.symm.trans found))
  apply List.mem_of_getElem? (i := j)
  rw [List.getElem?_set_ne other, found]

/-- Editing the row that was added last. -/
theorem modify_concat (rows : List α) (row : α) (edit : α → α) :
    (rows ++ [row]).modify rows.length edit = rows ++ [edit row] := by
  induction rows with
  | nil => rfl
  | cons first rest ih => simp [ih]

/-- A column that an edit of every row leaves alone, row by row. -/
theorem map_mapIdx_iff {rows : List α} {edit : Nat → α → α} {column : α → β} :
    (rows.mapIdx edit).map column = rows.map column ↔
      ∀ (j : Nat) (row : α), rows[j]? = some row → column (edit j row) = column row := by
  constructor
  · intro same j row here
    have read := congrArg (·[j]?) same
    simpa [here] using read
  · intro each
    apply List.ext_getElem?
    intro j
    cases here : rows[j]? with
    | none => simp [here]
    | some row => simp [here, each j row here]

/-- What the edit of a row adds to a count, and what it takes from it. -/
theorem countP_modify {rows : List α} {p : α → Bool} {i : Nat} {edit : α → α} {row : α}
    (here : rows[i]? = some row) :
    (rows.modify i edit).countP p + (if p row then 1 else 0) =
      rows.countP p + (if p (edit row) then 1 else 0) := by
  obtain ⟨inside, rfl⟩ := List.getElem?_eq_some_iff.mp here
  have split : rows = rows.take i ++ rows[i] :: rows.drop (i + 1) := by
    rw [List.getElem_cons_drop, List.take_append_drop]
  have total := congrArg (List.countP p) split
  rw [List.modify_eq_take_cons_drop inside]
  simp only [List.countP_append, List.countP_cons] at total ⊢
  omega

/-! ## One row after the other -/

/-- The rows before `n` edited, each by its own edit. -/
def editBelow (n : Nat) (edit : Nat → α → α) (rows : List α) : List α :=
  rows.mapIdx fun i row => if i < n then edit i row else row

@[simp] theorem length_editBelow (n : Nat) (edit : Nat → α → α) (rows : List α) :
    (editBelow n edit rows).length = rows.length := by simp [editBelow]

@[simp] theorem editBelow_zero (edit : Nat → α → α) (rows : List α) :
    editBelow 0 edit rows = rows := by
  apply List.ext_getElem?
  intro i
  simp [editBelow]

/-- A row that is not edited yet. -/
theorem getElem?_editBelow_self (n : Nat) (edit : Nat → α → α) (rows : List α) :
    (editBelow n edit rows)[n]? = rows[n]? := by
  simp [editBelow]

theorem modify_editBelow {n : Nat} {edit : Nat → α → α} {rows : List α} {f : α → α}
    (same : ∀ row, rows[n]? = some row → f row = edit n row) :
    (editBelow n edit rows).modify n f = editBelow (n + 1) edit rows := by
  apply List.ext_getElem?
  intro i
  rw [List.getElem?_modify]
  simp only [editBelow, List.getElem?_mapIdx]
  cases here : rows[i]? with
  | none => rfl
  | some row =>
      by_cases at_ : n = i
      · subst at_
        simp [same row here]
      · have order : i < n + 1 ↔ i < n := by omega
        simp [at_, order]

/-- Once every row is edited. -/
theorem editBelow_length {n : Nat} {edit : Nat → α → α} {rows : List α} (whole : rows.length ≤ n) :
    editBelow n edit rows = rows.mapIdx edit := by
  apply List.ext_getElem?
  intro i
  simp only [editBelow, List.getElem?_mapIdx]
  cases here : rows[i]? with
  | none => rfl
  | some row =>
      have inside : i < rows.length := (List.getElem?_eq_some_iff.mp here).1
      have below : i < n := by omega
      simp [below]

/-- A column that every edit adds one to, or leaves alone. -/
theorem sum_map_mapIdx (rows : List α) (edit : Nat → α → α) (column : α → Nat) {p : Nat → Bool}
    (each : ∀ i row, rows[i]? = some row →
      column (edit i row) = column row + if p i then 1 else 0) :
    ((rows.mapIdx edit).map column).sum =
      (rows.map column).sum + (List.range rows.length).countP p := by
  induction rows using List.reverseRecOn with
  | nil => rfl
  | append_singleton rows row ih =>
      have last := each rows.length row (by simp)
      have earlier := ih fun i old here => each i old (by
        rw [List.getElem?_append_left (List.getElem?_eq_some_iff.mp here).1]
        exact here)
      rw [List.mapIdx_concat, List.map_append, List.map_append, List.sum_append, List.sum_append,
        earlier, List.length_append, List.length_singleton, List.range_succ, List.countP_append]
      simp only [List.map_cons, List.map_nil, List.sum_cons, List.sum_nil, last,
        List.countP_singleton]
      omega

/-! ## Rows that are read one by one -/

theorem mapM_eq_some {read : α → Option β} {rows : List α} {out : List β} :
    rows.mapM read = some out ↔ rows.map read = out.map some := by
  induction rows generalizing out with
  | nil =>
      cases out with
      | nil => simp
      | cons first rest => simp
  | cons row rows ih =>
      rw [List.mapM_cons, List.map_cons]
      cases out with
      | nil => simp [Option.bind_eq_some_iff]
      | cons first rest =>
          rw [List.map_cons, List.cons.injEq, ← ih]
          cases read row with
          | none => simp
          | some value =>
              cases rows.mapM read with
              | none => simp
              | some later => simp

theorem exists_mapM {read : α → Option β} {rows : List α}
    (all : ∀ row ∈ rows, ∃ value, read row = some value) : ∃ out, rows.mapM read = some out := by
  induction rows with
  | nil => exact ⟨[], rfl⟩
  | cons row rest ih =>
      obtain ⟨⟨value, here⟩, later⟩ := List.forall_mem_cons.mp all
      obtain ⟨out, read_⟩ := ih later
      exact ⟨value :: out, by simp [List.mapM_cons, here, read_]⟩

theorem mem_mapM {read : α → Option β} {rows : List α} {out : List β}
    (is : rows.mapM read = some out) {value : β} :
    value ∈ out ↔ ∃ row ∈ rows, read row = some value := by
  have listed : some value ∈ rows.map read ↔ value ∈ out := by
    rw [mapM_eq_some.mp is]
    simp
  rw [← listed, List.mem_map]

theorem mem_of_mapM {read : α → Option β} {rows : List α} {out : List β}
    (is : rows.mapM read = some out) {row : α} (member : row ∈ rows) :
    ∃ value ∈ out, read row = some value := by
  have listed : read row ∈ out.map some := mapM_eq_some.mp is ▸ List.mem_map_of_mem member
  obtain ⟨value, inside, same⟩ := List.mem_map.mp listed
  exact ⟨value, inside, same.symm⟩

/-- What two columns agree on where a row is read, they agree on in the whole table. -/
theorem map_mapM {γ : Type} {read : α → Option β} {rows : List α} {out : List β}
    (is : rows.mapM read = some out) {before : α → γ} {after : β → γ}
    (agree : ∀ row value, read row = some value → before row = after value) :
    rows.map before = out.map after := by
  rw [mapM_eq_some] at is
  induction rows generalizing out with
  | nil =>
      obtain rfl := List.map_eq_nil_iff.mp is.symm
      rfl
  | cons row rest ih =>
      obtain ⟨value, later, rfl, here, same⟩ := List.map_eq_cons_iff.mp is.symm
      rw [List.map_cons, List.map_cons, agree row value here.symm, ih same.symm]

end MajsoulManager.Theory
