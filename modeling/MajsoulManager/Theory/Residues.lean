/-
# Theory.Residues — the latest keys of a log, one slot for each residue

A sliding window of `n` keys in `n` slots.  A key's slot is its residue, and the slot keeps
the last key that came to it with what was added under that key; nothing is ever cleared.
Two keys of one slot are `n` apart or more, so a slot that another key took over held a key
that had left the window already, and one that is not written for long is left out when its
key is read.  `recent_eq` says so of every log whose keys come in order.
-/
import Mathlib.Algebra.BigOperators.Fin
import Mathlib.Data.Fin.Basic
import Mathlib.Data.Nat.ModEq

namespace MajsoulManager.Theory.Residues

set_option autoImplicit false

variable {n : Nat} [NeZero n] {α : Type} [AddCommMonoid α]

/-- The key a slot is for and the total under it. -/
abbrev Slots (n : Nat) (α : Type) := Fin n → Nat × α

def slotOf (n : Nat) [NeZero n] (key : Nat) : Fin n := Fin.ofNat n key

theorem slotOf_zero : slotOf n 0 = 0 := rfl

/-- Keys of one slot are a window apart. -/
theorem add_le_of_slotOf_eq {a b : Nat} (same : slotOf n a = slotOf n b) (less : a < b) :
    a + n ≤ b := by
  have residue : a % n = b % n := congrArg Fin.val same
  have apart : n ∣ b - a := (Nat.modEq_iff_dvd' less.le).mp residue
  have := Nat.le_of_dvd (by omega) apart
  omega

def empty : Slots n α := fun _ => (0, 0)

/-- Add `x` under a key, in place of an older key of its slot. -/
def add (slots : Slots n α) (key : Nat) (x : α) : Slots n α :=
  Function.update slots (slotOf n key)
    (if (slots (slotOf n key)).1 = key then (key, (slots (slotOf n key)).2 + x) else (key, x))

/-- What the slots hold of the window that ends at `now`. -/
def recent (slots : Slots n α) (now : Nat) : α :=
  ∑ i, if now - (slots i).1 < n then (slots i).2 else 0

/-- What a log holds of it. -/
def logged (n : Nat) (log : List (Nat × α)) (now : Nat) : α :=
  (log.map fun entry => if now - entry.1 < n then entry.2 else 0).sum

/-- The slots keep the newest key of every residue in the log. -/
structure Keeps (slots : Slots n α) (log : List (Nat × α)) (latest : Nat) : Prop where
  slot : ∀ i, (slots i).1 = 0 ∨ slotOf n (slots i).1 = i
  past : ∀ i, (slots i).1 ≤ latest
  newest : ∀ entry ∈ log, entry.1 ≤ (slots (slotOf n entry.1)).1
  total : ∀ i, (slots i).2 =
    (log.map fun entry => if slotOf n entry.1 = i ∧ entry.1 = (slots i).1 then entry.2 else 0).sum

theorem keeps_empty (latest : Nat) : Keeps (empty : Slots n α) [] latest where
  slot _ := .inl rfl
  past _ := Nat.zero_le _
  newest := nofun
  total _ := rfl

@[simp] theorem add_self (slots : Slots n α) (key : Nat) (x : α) :
    (add slots key x (slotOf n key)).1 = key := by
  rw [add, Function.update_self]
  split <;> rfl

theorem add_other (slots : Slots n α) {key : Nat} (x : α) {i : Fin n} (other : slotOf n key ≠ i) :
    add slots key x i = slots i :=
  Function.update_of_ne (Ne.symm other) ..

/-- An entry at the end of the log. -/
theorem Keeps.add {slots : Slots n α} {log : List (Nat × α)} {latest key : Nat}
    (keeps : Keeps slots log latest) (later : latest ≤ key) (x : α) :
    Keeps (add slots key x) (log ++ [(key, x)]) key where
  slot i := by
    by_cases here : slotOf n key = i
    · subst here
      exact .inr (by rw [add_self])
    · rw [add_other slots x here]
      exact keeps.slot i
  past i := by
    by_cases here : slotOf n key = i
    · subst here
      exact (add_self slots key x).le
    · rw [add_other slots x here]
      exact (keeps.past i).trans later
  newest entry member := by
    rcases List.mem_append.mp member with old | new
    · have before := keeps.newest entry old
      by_cases here : slotOf n key = slotOf n entry.1
      · rw [← here] at before ⊢
        rw [add_self]
        exact before.trans ((keeps.past _).trans later)
      · rw [add_other slots x here]
        exact before
    · rw [List.mem_singleton.mp new]
      exact (add_self slots key x).ge
  total i := by
    rw [List.map_append, List.sum_append]
    by_cases here : slotOf n key = i
    · subst here
      have last : (([(key, x)] : List (Nat × α)).map fun entry =>
          if slotOf n entry.1 = slotOf n key ∧ entry.1 = (Residues.add slots key x (slotOf n key)).1
          then entry.2 else 0).sum = x := by simp
      rw [last, add_self]
      by_cases same : (slots (slotOf n key)).1 = key
      · have value : (Residues.add slots key x (slotOf n key)).2 = (slots (slotOf n key)).2 + x := by
          rw [Residues.add, Function.update_self, if_pos same]
        rw [value, keeps.total, same]
      · -- The slot held an older key, so no entry of the log has this one.
        have value : (Residues.add slots key x (slotOf n key)).2 = x := by
          rw [Residues.add, Function.update_self, if_neg same]
        have none : (log.map fun entry =>
            if slotOf n entry.1 = slotOf n key ∧ entry.1 = key then entry.2 else 0).sum = 0 := by
          apply List.sum_eq_zero
          intro y member
          obtain ⟨entry, logged, rfl⟩ := List.mem_map.mp member
          refine if_neg fun found => same ?_
          have before := keeps.newest entry logged
          rw [found.2] at before
          exact le_antisymm ((keeps.past _).trans later) before
        rw [value, none, zero_add]
    · have last : (([(key, x)] : List (Nat × α)).map fun entry =>
          if slotOf n entry.1 = i ∧ entry.1 = (Residues.add slots key x i).1
          then entry.2 else 0).sum = 0 := by simp [here]
      rw [last, add_zero, add_other slots x here]
      exact keeps.total i

/-- What one slot gives is what the log holds of the window at its residue. -/
theorem Keeps.slot_eq {slots : Slots n α} {log : List (Nat × α)} {latest now : Nat}
    (keeps : Keeps slots log latest) (later : latest ≤ now) (i : Fin n) :
    (if now - (slots i).1 < n then (slots i).2 else 0) =
      (log.map fun entry =>
        if slotOf n entry.1 = i then (if now - entry.1 < n then entry.2 else 0) else 0).sum := by
  -- An entry in the window has the slot's own key: an older one is out of it.
  have own : ∀ entry ∈ log, slotOf n entry.1 = i → now - entry.1 < n →
      entry.1 = (slots i).1 := by
    intro entry member here inside
    have before := keeps.newest entry member
    rw [here] at before
    by_contra other
    have older : entry.1 < (slots i).1 := by omega
    have same : slotOf n entry.1 = slotOf n (slots i).1 := by
      rcases keeps.slot i with unused | used
      · omega
      · exact here.trans used.symm
    have apart := add_le_of_slotOf_eq same older
    have past := keeps.past i
    omega
  split
  · rename_i inside
    rw [keeps.total]
    congr 1
    apply List.map_congr_left
    intro entry member
    by_cases here : slotOf n entry.1 = i
    · by_cases key : entry.1 = (slots i).1
      · rw [if_pos ⟨here, key⟩, if_pos here, if_pos (key ▸ inside)]
      · rw [if_neg (fun found => key found.2), if_pos here,
          if_neg fun inside => key (own entry member here inside)]
    · rw [if_neg (fun found => here found.1), if_neg here]
  · rename_i outside
    symm
    apply List.sum_eq_zero
    intro y member
    obtain ⟨entry, logged, rfl⟩ := List.mem_map.mp member
    by_cases here : slotOf n entry.1 = i
    · rw [if_pos here]
      refine if_neg fun inside => outside ?_
      rw [← own entry logged here inside]
      exact inside
    · exact if_neg here

/-- A log is the sum of its parts, one for each slot. -/
theorem sum_slots (log : List (Nat × α)) (f : Nat × α → α) :
    (∑ i : Fin n, (log.map fun entry => if slotOf n entry.1 = i then f entry else 0).sum) =
      (log.map f).sum := by
  induction log with
  | nil => simp
  | cons entry log ih =>
      simp only [List.map_cons, List.sum_cons]
      rw [Finset.sum_add_distrib, ih, Finset.sum_ite_eq, if_pos (Finset.mem_univ _)]

/-- **The slots hold what the log holds of the window.** -/
theorem Keeps.recent_eq {slots : Slots n α} {log : List (Nat × α)} {latest now : Nat}
    (keeps : Keeps slots log latest) (later : latest ≤ now) :
    recent slots now = logged n log now := by
  rw [recent, logged, ← sum_slots (n := n) log]
  exact Finset.sum_congr rfl fun i _ => keeps.slot_eq later i

end MajsoulManager.Theory.Residues
