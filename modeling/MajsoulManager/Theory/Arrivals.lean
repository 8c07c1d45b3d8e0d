/-
# Theory.Arrivals — jobs that complete out of order, a window of them at a time

Jobs are started in the order of their numbers, at most `width` at once, and
complete in any order that allows: the `k`-th completion is one of the first
`k + width` jobs (`Windowed`).

* `early_of_first`: the first job of a kind to complete has fewer than `width`
  jobs of its kind before it.
* `exists_first`: and every such job is the first of its kind in some order.
-/
import Mathlib

namespace MajsoulManager.Theory

set_option autoImplicit false

/-- An order in which the jobs `0, …, n - 1` can complete. -/
structure Windowed (width n : Nat) (order : List Nat) : Prop where
  all : order.Perm (List.range n)
  started : ∀ k i, order[k]? = some i → i < k + width

/-- Fewer than `width` jobs of this kind come before it. -/
def Early (width : Nat) (kind : Nat → Bool) (i : Nat) : Prop :=
  (List.range i).countP kind < width

/-- What completed first of its kind was in flight with all of its kind before it. -/
theorem early_of_first {width n : Nat} {order : List Nat} (windowed : Windowed width n order)
    {kind : Nat → Bool} {i : Nat} (first : order.find? kind = some i) : Early width kind i := by
  obtain ⟨-, before, after, cut, others⟩ := List.find?_eq_some_iff_append.mp first
  have distinct : order.Nodup := windowed.all.nodup_iff.mpr List.nodup_range
  have position : i < before.length + width :=
    windowed.started before.length i (by rw [cut]; simp)
  -- the earlier ones of its kind, itself, and what has completed were all started
  have started : (before ++ i :: (List.range i).filter kind) ⊆
      List.range (before.length + width) := by
    intro j member
    rw [List.mem_range]
    rcases List.mem_append.mp member with completed | held
    · obtain ⟨k, inside, rfl⟩ := List.mem_iff_getElem.mp completed
      have bound := windowed.started k before[k] (by
        rw [cut, List.getElem?_append_left inside, List.getElem?_eq_getElem inside])
      omega
    · rcases List.mem_cons.mp held with rfl | earlier
      · exact position
      · have less := List.mem_range.mp (List.mem_filter.mp earlier).1
        omega
  have apart : (before ++ i :: (List.range i).filter kind).Nodup := by
    rw [cut, List.nodup_append'] at distinct
    refine List.nodup_append'.mpr ⟨distinct.1, List.nodup_cons.mpr ⟨?_, ?_⟩, ?_⟩
    · simp
    · exact List.nodup_range.filter _
    · intro j completed held
      rcases List.mem_cons.mp held with rfl | earlier
      · exact distinct.2.2 completed List.mem_cons_self
      · have own := (List.mem_filter.mp earlier).2
        have foreign := others j completed
        rw [own] at foreign
        cases foreign
  have bound := (List.subperm_of_subset apart started).length_le
  rw [Early, List.countP_eq_length_filter]
  simp only [List.length_append, List.length_cons, List.length_range] at bound
  omega

/-- A job among those of a kind stands behind as many of them as are below it. -/
theorem getElem?_filter_range {kind : Nat → Bool} {n k i : Nat}
    (found : ((List.range n).filter kind)[k]? = some i) :
    k = (List.range i).countP kind ∧ i < n := by
  induction n with
  | zero => simp at found
  | succ n ih =>
      rw [List.range_succ, List.filter_append] at found
      by_cases inside : k < ((List.range n).filter kind).length
      · rw [List.getElem?_append_left inside] at found
        obtain ⟨place, less⟩ := ih found
        exact ⟨place, by omega⟩
      · rw [List.getElem?_append_right (by omega)] at found
        by_cases own : kind n = true
        · rw [List.filter_cons_of_pos own, List.filter_nil, List.getElem?_singleton] at found
          split at found
          · cases found
            rw [List.countP_eq_length_filter]
            exact ⟨by omega, by omega⟩
          · cases found
        · rw [List.filter_cons_of_neg own, List.filter_nil] at found
          simp at found

/-- **Every early job of a kind is the first of it to complete in some order**: all
others of its kind before it are held back to the end. -/
theorem exists_first {width n : Nat} {kind : Nat → Bool} {i : Nat} (inside : i < n)
    (own : kind i = true) (early : Early width kind i) :
    ∃ order, Windowed width n order ∧ order.find? kind = some i := by
  let held : Nat → Bool := fun j => kind j && decide (j < i)
  have few : ∀ m, (List.range m).countP held ≤ (List.range i).countP kind := by
    intro m
    rw [List.countP_eq_length_filter, List.countP_eq_length_filter]
    refine (List.subperm_of_subset (List.nodup_range.filter _) ?_).length_le
    intro j member
    obtain ⟨-, both⟩ := List.mem_filter.mp member
    simp only [held, Bool.and_eq_true, decide_eq_true_eq] at both
    exact List.mem_filter.mpr ⟨List.mem_range.mpr both.2, both.1⟩
  have split : ∀ m, (List.range m).countP (fun j => !held j) + (List.range m).countP held = m := by
    intro m
    have sizes := List.length_eq_countP_add_countP (l := List.range m) held
    rw [List.length_range] at sizes
    have negated : (List.range m).countP (fun j => !held j) =
        (List.range m).countP fun j => decide ¬ held j = true := by
      congr 1
      funext j
      simp
    omega
  rw [Early] at early
  refine ⟨(List.range n).filter (fun j => !held j) ++ (List.range n).filter held, ⟨?_, ?_⟩, ?_⟩
  · refine List.perm_append_comm.trans ?_
    simpa using List.filter_append_perm held (List.range n)
  · intro k j found
    have bound := few n
    by_cases free : k < ((List.range n).filter fun j => !held j).length
    · rw [List.getElem?_append_left free] at found
      have place := (getElem?_filter_range found).1
      have below := few j
      have sizes := split j
      omega
    · rw [List.getElem?_append_right (by omega)] at found
      have less := (getElem?_filter_range found).2
      have sizes := split n
      rw [← List.countP_eq_length_filter] at free
      omega
  · have first : ((List.range n).filter fun j => !held j).find? kind = some i := by
      rw [List.find?_filter, List.find?_range_eq_some]
      refine ⟨by simp [held, own], List.mem_range.mpr inside, ?_⟩
      intro j less
      simp [held, less]
    rw [List.find?_append, first]
    rfl

/-- Jobs that complete as they were started. -/
theorem windowed_range {width : Nat} (some_ : 0 < width) (n : Nat) :
    Windowed width n (List.range n) := by
  refine ⟨List.Perm.refl _, ?_⟩
  intro k i found
  obtain ⟨inside, rfl⟩ := List.getElem?_eq_some_iff.mp found
  rw [List.getElem_range]
  omega

end MajsoulManager.Theory
