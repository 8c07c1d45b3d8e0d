/-
# Theory.Replacing — tables that keep the newest row of each key

A replacing table is the list of the rows inserted into it, each under the
version it was stamped with.  Of the rows under one key it keeps the newest, and
of equally new ones the one inserted last; a read with `FINAL` sees only those.

* `survivor_append_stamped`: what survives an insert that is at least as new as
  everything before it.
* `mem_final`: the rows a read sees are the survivors of their own keys.
* `Merges`: a background merge drops rows and keeps every survivor.
-/
import MajsoulManager.Theory.Machine

namespace MajsoulManager.Theory

set_option autoImplicit false

/-- A row and the version it was inserted with. -/
structure Versioned (Row : Type) where
  version : Nat
  row : Row
  deriving DecidableEq

section Replacing

variable {Row Key : Type} [DecidableEq Key] (key : Row → Key)

/-- The newer of two rows under one key; a tie goes to the later insert. -/
def replace (held : Option (Versioned Row)) (entry : Versioned Row) : Option (Versioned Row) :=
  match held with
  | none => some entry
  | some old => if old.version ≤ entry.version then some entry else some old

/-- The row the table keeps under a key. -/
def survivor (table : List (Versioned Row)) (k : Key) : Option (Versioned Row) :=
  (table.filter fun entry => key entry.row = k).foldl replace none

/-- The last of the rows under a key. -/
def latest (rows : List Row) (k : Key) : Option Row :=
  (rows.filter fun row => key row = k).getLast?

/-- What a read with `FINAL` sees. -/
def final (table : List (Versioned Row)) : List Row :=
  (table.map fun entry => key entry.row).dedup.filterMap fun k =>
    (survivor key table k).map Versioned.row

/-- A background merge: rows go, and no read with `FINAL` can tell. -/
def Merges (table merged : List (Versioned Row)) : Prop :=
  merged.Sublist table ∧ ∀ k, survivor key merged k = survivor key table k

variable {key}

theorem survivor_append_singleton (table : List (Versioned Row)) (entry : Versioned Row) (k : Key) :
    survivor key (table ++ [entry]) k =
      if key entry.row = k then replace (survivor key table k) entry else survivor key table k := by
  by_cases same : key entry.row = k
  · simp [survivor, List.filter_append, same]
  · simp [survivor, List.filter_append, same]

theorem replace_eq_some {held : Option (Versioned Row)} {entry kept : Versioned Row}
    (replaced : replace held entry = some kept) : kept = entry ∨ held = some kept := by
  unfold replace at replaced
  split at replaced
  · exact .inl (Option.some.inj replaced).symm
  · split at replaced
    · exact .inl (Option.some.inj replaced).symm
    · exact .inr replaced

/-- What survives was inserted, under that key. -/
theorem mem_of_survivor {table : List (Versioned Row)} {k : Key} {kept : Versioned Row}
    (survives : survivor key table k = some kept) : kept ∈ table ∧ key kept.row = k := by
  induction table using List.reverseRecOn with
  | nil => simp [survivor] at survives
  | append_singleton table entry ih =>
      rw [survivor_append_singleton] at survives
      split at survives
      · rename_i same
        rcases replace_eq_some survives with rfl | older
        · exact ⟨by simp, same⟩
        · exact ⟨List.mem_append_left _ (ih older).1, (ih older).2⟩
      · exact ⟨List.mem_append_left _ (ih survives).1, (ih survives).2⟩

theorem survivor_eq_none {table : List (Versioned Row)} {k : Key}
    (absent : ∀ entry ∈ table, key entry.row ≠ k) : survivor key table k = none := by
  have empty : (table.filter fun entry => key entry.row = k) = [] := by
    simpa [List.filter_eq_nil_iff] using absent
  simp [survivor, empty]

/-- Only the keys of the table have to be looked at. -/
theorem merges_iff {table merged : List (Versioned Row)} :
    Merges key table merged ↔ merged.Sublist table ∧
      ∀ k ∈ table.map (fun entry => key entry.row), survivor key merged k = survivor key table k := by
  refine and_congr_right fun part => ⟨fun same k _ => same k, fun same k => ?_⟩
  by_cases present : k ∈ table.map fun entry => key entry.row
  · exact same k present
  · have absent : ∀ entry ∈ table, key entry.row ≠ k :=
      fun entry member named => present (List.mem_map.mpr ⟨entry, member, named⟩)
    rw [survivor_eq_none absent,
      survivor_eq_none fun entry member => absent entry (part.subset member)]

instance [DecidableEq Row] (table merged : List (Versioned Row)) :
    Decidable (Merges key table merged) :=
  decidable_of_iff _ merges_iff.symm

/-- A row no older than the table replaces what is under its key. -/
theorem replace_of_newest {held : Option (Versioned Row)} {entry : Versioned Row}
    (newest : ∀ old, held = some old → old.version ≤ entry.version) :
    replace held entry = some entry := by
  cases held with
  | none => rfl
  | some old => simp [replace, newest old rfl]

theorem latest_append (first second : List Row) (k : Key) :
    latest key (first ++ second) k = (latest key second k).or (latest key first k) := by
  simp [latest, List.filter_append, List.getLast?_append]

theorem mem_of_latest {rows : List Row} {k : Key} {row : Row}
    (last : latest key rows k = some row) : row ∈ rows ∧ key row = k := by
  have member := List.mem_of_getLast? last
  simpa using member

theorem latest_eq_none {rows : List Row} {k : Key} :
    latest key rows k = none ↔ ∀ row ∈ rows, key row ≠ k := by
  simp [latest]

/-- **What an insert leaves.**  Rows stamped no older than the table win under
their keys, the last of them for each key, and nothing else changes. -/
theorem survivor_append_stamped {table : List (Versioned Row)} {version : Nat}
    (stamped : ∀ entry ∈ table, entry.version ≤ version) (rows : List Row) (k : Key) :
    survivor key (table ++ rows.map (Versioned.mk version)) k =
      ((latest key rows k).map (Versioned.mk version)).or (survivor key table k) := by
  induction rows using List.reverseRecOn with
  | nil => simp [latest]
  | append_singleton rows row ih =>
      have newest : ∀ old, survivor key (table ++ rows.map (Versioned.mk version)) k = some old →
          old.version ≤ version := by
        intro old survives
        rcases List.mem_append.mp (mem_of_survivor survives).1 with before | inserted
        · exact stamped old before
        · obtain ⟨_, -, rfl⟩ := List.mem_map.mp inserted
          exact Nat.le_refl _
      rw [List.map_append, List.map_singleton, ← List.append_assoc, survivor_append_singleton,
        latest_append]
      by_cases same : key row = k
      · rw [if_pos same, replace_of_newest newest]
        simp [latest, same]
      · rw [if_neg same, ih]
        simp [latest, same]

theorem mem_final {table : List (Versioned Row)} {row : Row} :
    row ∈ final key table ↔ ∃ kept, survivor key table (key row) = some kept ∧ kept.row = row := by
  simp only [final, List.mem_filterMap, List.mem_dedup, List.mem_map, Option.map_eq_some_iff]
  constructor
  · rintro ⟨k, -, kept, survives, rfl⟩
    obtain ⟨-, rfl⟩ := mem_of_survivor survives
    exact ⟨kept, survives, rfl⟩
  · rintro ⟨kept, survives, rfl⟩
    exact ⟨_, ⟨kept, (mem_of_survivor survives).1, rfl⟩, kept, survives, rfl⟩

omit [DecidableEq Key] in
/-- Choosing at most one row under each key keeps the order of the keys. -/
theorem map_filterMap_sublist {choose : Key → Option Row}
    (own : ∀ k row, choose k = some row → key row = k) (keys : List Key) :
    ((keys.filterMap choose).map key).Sublist keys := by
  induction keys with
  | nil => exact List.Sublist.refl _
  | cons k rest ih =>
      cases chosen : choose k with
      | none =>
          rw [List.filterMap_cons_none chosen]
          exact ih.cons k
      | some row =>
          rw [List.filterMap_cons_some chosen, List.map_cons, own k row chosen]
          exact ih.cons_cons k

/-- A read with `FINAL` shows one row a key. -/
theorem final_keys_nodup (table : List (Versioned Row)) : ((final key table).map key).Nodup := by
  refine (List.nodup_dedup (table.map fun entry => key entry.row)).sublist ?_
  refine map_filterMap_sublist (fun k row shown => ?_) _
  obtain ⟨kept, survives, rfl⟩ := Option.map_eq_some_iff.mp shown
  exact (mem_of_survivor survives).2

end Replacing

end MajsoulManager.Theory
