/-
# Theory.Latest — the latest row under each key, and what the rows of a group add up to

A table that keeps one row for each key, the last that was put there.  `amountOf_put` says
what a row changes: its group's sum loses what was held under the key and gains the row's
own amount, so a meter that adds the difference for every row agrees with the table.
-/
import Mathlib

namespace MajsoulManager.Theory.Latest

set_option autoImplicit false

section Table

variable {α κ γ : Type} [DecidableEq κ] [DecidableEq γ] (key : α → κ) (group : α → γ)
  (amount : α → Nat)

/-- Put a row in place of the one under its key. -/
def put (rows : List α) (row : α) : List α := rows.filter (fun other => key other ≠ key row) ++ [row]

/-- What the rows of one group add up to. -/
def amountOf (rows : List α) (name : γ) : Nat :=
  ((rows.filter fun row => group row = name).map amount).sum

/-- What is held of a group under one key. -/
def held (rows : List α) (k : κ) (name : γ) : Nat :=
  amountOf group amount (rows.filter fun row => key row = k) name

variable {key group amount}

theorem mem_put {rows : List α} {row other : α} :
    other ∈ put key rows row ↔ other = row ∨ other ∈ rows ∧ key other ≠ key row := by
  simp only [put, List.mem_append, List.mem_filter, List.mem_singleton, decide_eq_true_eq]
  exact or_comm

theorem amountOf_cons (row : α) (rows : List α) (name : γ) :
    amountOf group amount (row :: rows) name =
      (if group row = name then amount row else 0) + amountOf group amount rows name := by
  unfold amountOf
  by_cases same : group row = name
  · rw [List.filter_cons_of_pos (by simpa using same), List.map_cons, List.sum_cons, if_pos same]
  · rw [List.filter_cons_of_neg (by simpa using same), if_neg same, Nat.zero_add]

theorem amountOf_append (first second : List α) (name : γ) :
    amountOf group amount (first ++ second) name =
      amountOf group amount first name + amountOf group amount second name := by
  unfold amountOf
  rw [List.filter_append, List.map_append, List.sum_append]

theorem amountOf_congr {rows : List α} {other : α → Nat} (same : ∀ row ∈ rows, amount row = other row)
    (name : γ) : amountOf group amount rows name = amountOf group other rows name := by
  unfold amountOf
  congr 1
  exact List.map_congr_left fun row member => same row (List.mem_of_mem_filter member)

theorem amountOf_eq_zero_iff {rows : List α} :
    (∀ name, amountOf group amount rows name = 0) ↔ ∀ row ∈ rows, amount row = 0 := by
  induction rows with
  | nil => exact ⟨fun _ _ member => absurd member List.not_mem_nil, fun _ _ => rfl⟩
  | cons row rows ih =>
      simp only [amountOf_cons, Nat.add_eq_zero_iff, List.forall_mem_cons]
      constructor
      · intro none
        have here := (none (group row)).1
        rw [if_pos rfl] at here
        exact ⟨here, ih.mp fun name => (none name).2⟩
      · rintro ⟨here, later⟩ name
        exact ⟨by rw [here, ite_self], ih.mpr later name⟩

variable (key) in
/-- A table is what is under a key and the rest. -/
theorem amountOf_split (rows : List α) (k : κ) (name : γ) :
    amountOf group amount rows name =
      amountOf group amount (rows.filter fun row => key row ≠ k) name +
        held key group amount rows k name := by
  induction rows with
  | nil => rfl
  | cons row rows ih =>
      unfold held at ih ⊢
      by_cases same : key row = k
      · rw [List.filter_cons_of_neg (by simpa using same),
          List.filter_cons_of_pos (by simpa using same), amountOf_cons, amountOf_cons, ih]
        omega
      · rw [List.filter_cons_of_pos (by simpa using same),
          List.filter_cons_of_neg (by simpa using same), amountOf_cons, amountOf_cons, ih]
        omega

/-- **A row changes its group by its amount, less what it takes the place of.** -/
theorem amountOf_put (rows : List α) (row : α) (name : γ) :
    amountOf group amount (put key rows row) name + held key group amount rows (key row) name =
      amountOf group amount rows name + if group row = name then amount row else 0 := by
  rw [put, amountOf_append, amountOf_cons, amountOf_split key rows (key row)]
  have none : amountOf group amount ([] : List α) name = 0 := rfl
  omega

theorem held_put_of_ne (rows : List α) {row : α} {k : κ} (other : key row ≠ k) (name : γ) :
    held key group amount (put key rows row) k name = held key group amount rows k name := by
  have same : (put key rows row).filter (fun row => key row = k) =
      rows.filter fun row => key row = k := by
    rw [put, List.filter_append, List.filter_filter,
      List.filter_cons_of_neg (by simpa using other), List.filter_nil, List.append_nil]
    apply List.filter_congr
    intro old _
    by_cases under : key old = k
    · have apart : key old ≠ key row := fun same => other (same.symm.trans under)
      simp [under, under ▸ apart]
    · simp [under]
  rw [held, held, same]

theorem held_eq_zero {rows : List α} {k : κ} {name : γ}
    (none : ∀ row ∈ rows, key row = k → group row ≠ name) : held key group amount rows k name = 0 := by
  have empty : (rows.filter fun row => key row = k).filter (fun row => group row = name) = [] := by
    rw [List.filter_eq_nil_iff]
    intro row member
    obtain ⟨there, under⟩ := List.mem_filter.mp member
    simpa using none row there (by simpa using under)
  rw [held, amountOf, empty]
  rfl

/-- In a table with one row for each key, what is held under a key is its row's. -/
theorem held_eq {rows : List α} (unique : (rows.map key).Nodup) {row : α} (member : row ∈ rows) :
    held key group amount rows (key row) (group row) = amount row := by
  have only : rows.filter (fun other => key other = key row) = [row] := by
    induction rows with
    | nil => cases member
    | cons first rows ih =>
        obtain ⟨fresh, unique⟩ := List.nodup_cons.mp unique
        rcases List.mem_cons.mp member with rfl | later
        · rw [List.filter_cons_of_pos (by simp), List.filter_eq_nil_iff.mpr]
          intro other there same
          exact fresh (List.mem_map.mpr ⟨other, there, by simpa using same⟩)
        · rw [List.filter_cons_of_neg, ih unique later]
          intro same
          exact fresh (List.mem_map.mpr ⟨row, later, by simpa [eq_comm] using same⟩)
  rw [held, only, amountOf, List.filter_cons_of_pos (by simp)]
  simp

theorem nodup_put {rows : List α} (unique : (rows.map key).Nodup) (row : α) :
    ((put key rows row).map key).Nodup := by
  rw [put, List.map_append, List.nodup_append]
  refine ⟨unique.sublist (List.filter_sublist.map _), List.nodup_singleton _, ?_⟩
  intro k member other only same
  obtain ⟨old, kept, rfl⟩ := List.mem_map.mp member
  rw [List.map_singleton, List.mem_singleton] at only
  simp [same.trans only] at kept

theorem nodup_foldl_put {rows : List α} (unique : (rows.map key).Nodup) (more : List α) :
    ((more.foldl (put key) rows).map key).Nodup := by
  induction more generalizing rows with
  | nil => exact unique
  | cons row more ih => exact ih (nodup_put unique row)

/-- A row stays while rows under other keys are put. -/
theorem mem_foldl_put_of_mem {rows more : List α} {row : α} (member : row ∈ rows)
    (others : ∀ other ∈ more, key other ≠ key row) : row ∈ more.foldl (put key) rows := by
  induction more generalizing rows with
  | nil => exact member
  | cons first more ih =>
      obtain ⟨here, later⟩ := List.forall_mem_cons.mp others
      exact ih (mem_put.mpr (.inr ⟨member, here.symm⟩)) later

/-- Rows under keys of their own are all in the table they are put into. -/
theorem mem_foldl_put {rows more : List α} (unique : (more.map key).Nodup) {row : α}
    (member : row ∈ more) : row ∈ more.foldl (put key) rows := by
  induction more generalizing rows with
  | nil => cases member
  | cons first more ih =>
      obtain ⟨fresh, unique⟩ := List.nodup_cons.mp unique
      rw [List.foldl_cons]
      rcases List.mem_cons.mp member with rfl | later
      · have there : row ∈ put key rows row := mem_put.mpr (.inl rfl)
        refine mem_foldl_put_of_mem there fun other later same => ?_
        exact fresh (List.mem_map.mpr ⟨other, later, same⟩)
      · exact ih unique later

theorem le_amountOf {rows : List α} {row : α} (member : row ∈ rows) :
    amount row ≤ amountOf group amount rows (group row) := by
  apply List.single_le_sum (fun _ _ => Nat.zero_le _)
  exact List.mem_map_of_mem (List.mem_filter.mpr ⟨member, by simp⟩)

theorem amountOf_eq_zero {rows : List α} {name : γ} (none : ∀ row ∈ rows, group row ≠ name) :
    amountOf group amount rows name = 0 := by
  have empty : rows.filter (fun row => group row = name) = [] := by
    rw [List.filter_eq_nil_iff]
    exact fun row member => by simpa using none row member
  rw [amountOf, empty]
  rfl

/-- The groups of a table add up to all of it. -/
theorem sum_amountOf {rows : List α} (names : Finset γ) (covered : ∀ row ∈ rows, group row ∈ names) :
    ∑ name ∈ names, amountOf group amount rows name = (rows.map amount).sum := by
  induction rows with
  | nil => exact Finset.sum_const_zero
  | cons row rows ih =>
      obtain ⟨here, later⟩ := List.forall_mem_cons.mp covered
      simp only [amountOf_cons]
      rw [Finset.sum_add_distrib, Finset.sum_ite_eq, if_pos here, ih later, List.map_cons,
        List.sum_cons]

end Table

end MajsoulManager.Theory.Latest
