/-
# Paipuya.Pacer — one request an interval, whoever sends it

`Pacer` of `paipuya.rs`, which every worker of a sweep calls before it sends.  The lock is fair,
and a caller sleeps with it held; what one caller does between two of its awaits is one step, and
a caller may be dropped at any of them.

`pacer_spaced`: however the callers interleave, and however late a sleeper is woken, any two are
released an interval apart, in the order in which they called.  `pacer_releases`: whoever is
first in line is released as soon as the interval is over.
-/
import MajsoulManager.Theory.Machine

namespace MajsoulManager.Paipuya

open MajsoulManager.Theory

set_option autoImplicit false

/-! ## The pacer -/

/-- Where the caller with the lock stands in `tick`. -/
inductive Ticking where
  | looking
  | sleeping (deadline : Nat)
  | awake

/-- `Pacer`, the callers waiting for its lock, and what has been released so far, with the
instant.  Instants are nanoseconds of the one clock. -/
structure Pacer where
  interval : Nat
  next : Nat
  now : Nat
  waiting : List Nat := []
  holder : Option (Nat × Ticking) := none
  called : List Nat := []
  released : List (Nat × Nat) := []

inductive PacerAction where
  | elapse (nanos : Nat)
  | call (caller : Nat)
  | lock
  | look
  | wake
  | release
  | drop (caller : Nat)

namespace Pacer

def new (interval now : Nat) : Pacer where
  interval := interval
  next := now
  now := now

def step (s : Pacer) : PacerAction → Option Pacer
  | .elapse nanos => some { s with now := s.now + nanos }
  | .call caller =>
      if caller ∈ s.called then none
      else some { s with called := s.called ++ [caller], waiting := s.waiting ++ [caller] }
  | .lock =>
      match s.holder, s.waiting with
      | none, caller :: rest => some { s with holder := some (caller, .looking), waiting := rest }
      | _, _ => none
  | .look =>
      match s.holder with
      | some (caller, .looking) =>
          some { s with
            holder := some (caller, if s.now < s.next then .sleeping s.next else .awake) }
      | _ => none
  | .wake =>
      match s.holder with
      | some (caller, .sleeping deadline) =>
          if deadline ≤ s.now then some { s with holder := some (caller, .awake) } else none
      | _ => none
  | .release =>
      match s.holder with
      | some (caller, .awake) =>
          some { s with
            next := s.now + s.interval, holder := none, released := s.released ++ [(caller, s.now)] }
      | _ => none
  | .drop caller =>
      some { s with
        waiting := s.waiting.filter (· != caller)
        holder := s.holder.filter (·.1 != caller) }

end Pacer

def pacing : Machine Pacer PacerAction where
  Start s := ∃ interval now, s = Pacer.new interval now
  step := Pacer.step

/-! ## Spacing -/

/-- Released an interval apart. -/
def Spaced (interval : Nat) (released : List (Nat × Nat)) : Prop :=
  released.Pairwise fun earlier later => earlier.2 + interval ≤ later.2

structure PacerInv (s : Pacer) : Prop where
  spaced : Spaced s.interval s.released
  due : ∀ sent ∈ s.released, sent.2 + s.interval ≤ s.next
  awake : ∀ caller, s.holder = some (caller, .awake) → s.next ≤ s.now
  asleep : ∀ caller deadline, s.holder = some (caller, .sleeping deadline) → deadline = s.next
  order : (s.released.map (·.1) ++ s.holder.toList.map (·.1) ++ s.waiting).Sublist s.called

theorem PacerInv.start (interval now : Nat) : PacerInv (.new interval now) where
  spaced := List.Pairwise.nil
  due := by simp [Pacer.new]
  awake := by simp [Pacer.new]
  asleep := by simp [Pacer.new]
  order := by simp [Pacer.new]

/-- **Every step keeps the spacing.** -/
theorem PacerInv.step {s t : Pacer} (inv : PacerInv s) {action : PacerAction}
    (stepped : s.step action = some t) : PacerInv t := by
  obtain ⟨interval, next, now, waiting, holder, called, released⟩ := s
  cases action with
  | elapse nanos =>
      obtain rfl := Option.some.inj stepped
      refine { inv with awake := fun caller held => ?_ }
      have earlier : next ≤ now := inv.awake caller held
      show next ≤ now + nanos
      omega
  | call caller =>
      obtain ⟨-, same⟩ := Option.ite_none_left_eq_some.mp stepped
      obtain rfl := Option.some.inj same
      refine { inv with order := ?_ }
      show (_ ++ (waiting ++ [caller])).Sublist (called ++ [caller])
      rw [← List.append_assoc]
      exact inv.order.append (List.Sublist.refl _)
  | lock =>
      cases holder with
      | some held => simp [Pacer.step] at stepped
      | none =>
          cases waiting with
          | nil => simp [Pacer.step] at stepped
          | cons caller rest =>
              obtain rfl := Option.some.inj stepped
              exact { inv with
                awake := by simp
                asleep := by simp
                order := by simpa using inv.order }
  | look =>
      cases holder with
      | none => simp [Pacer.step] at stepped
      | some held =>
          obtain ⟨caller, ticking⟩ := held
          cases ticking with
          | sleeping deadline => simp [Pacer.step] at stepped
          | awake => simp [Pacer.step] at stepped
          | looking =>
              obtain rfl := Option.some.inj stepped
              refine { inv with awake := ?_, asleep := ?_, order := inv.order }
              · intro other held
                by_cases early : now < next
                · simp [early] at held
                · show next ≤ now
                  omega
              · intro other deadline held
                by_cases early : now < next
                · simp [early] at held
                  exact held.2.symm
                · simp [early] at held
  | wake =>
      cases holder with
      | none => simp [Pacer.step] at stepped
      | some held =>
          obtain ⟨caller, ticking⟩ := held
          cases ticking with
          | looking => simp [Pacer.step] at stepped
          | awake => simp [Pacer.step] at stepped
          | sleeping deadline =>
              obtain ⟨past, same⟩ := Option.ite_none_right_eq_some.mp stepped
              obtain rfl := Option.some.inj same
              have reached : deadline ≤ now := past
              have promised : deadline = next := inv.asleep caller deadline rfl
              refine { inv with awake := fun _ _ => ?_, asleep := by simp, order := inv.order }
              show next ≤ now
              omega
  | release =>
      cases holder with
      | none => simp [Pacer.step] at stepped
      | some held =>
          obtain ⟨caller, ticking⟩ := held
          cases ticking with
          | looking => simp [Pacer.step] at stepped
          | sleeping deadline => simp [Pacer.step] at stepped
          | awake =>
              obtain rfl := Option.some.inj stepped
              have free : next ≤ now := inv.awake caller rfl
              have due : ∀ sent ∈ released, sent.2 + interval ≤ next := inv.due
              refine ⟨?_, ?_, by simp, by simp, ?_⟩
              · refine List.pairwise_append.mpr ⟨inv.spaced, List.pairwise_singleton _ _, ?_⟩
                intro sent before last added
                rw [List.mem_singleton.mp added]
                exact (due sent before).trans free
              · intro sent member
                show sent.2 + interval ≤ now + interval
                rcases List.mem_append.mp member with before | added
                · have bounded := due sent before
                  omega
                · rw [List.mem_singleton.mp added]
              · simpa using inv.order
  | drop caller =>
      obtain rfl := Option.some.inj stepped
      have fewer : (holder.filter (·.1 != caller)).toList.Sublist holder.toList := by
        cases holder with
        | none => simp
        | some held =>
            rw [Option.filter_some]
            split <;> simp
      refine { inv with awake := fun other held => ?_, asleep := fun other deadline held => ?_,
                        order := ?_ }
      · exact inv.awake other (Option.filter_eq_some_iff.mp held).1
      · exact inv.asleep other deadline (Option.filter_eq_some_iff.mp held).1
      · exact (((List.Sublist.refl _).append (fewer.map _)).append List.filter_sublist).trans inv.order

theorem PacerInv.reachable {s : Pacer} (reached : pacing.Reachable s) : PacerInv s := by
  refine reached.invariant ?_ fun _ _ _ inv stepped => inv.step stepped
  rintro s ⟨interval, now, rfl⟩
  exact .start interval now

/-- A window has one release more than intervals, at most. -/
theorem Spaced.length_le {interval first last : Nat} {released : List (Nat × Nat)}
    (spaced : Spaced interval released) (some : released ≠ [])
    (inside : ∀ sent ∈ released, first ≤ sent.2 ∧ sent.2 < last) :
    first + (released.length - 1) * interval < last := by
  induction released generalizing first with
  | nil => exact absurd rfl some
  | cons sent rest ih =>
      obtain ⟨low, high⟩ := inside sent List.mem_cons_self
      obtain ⟨after, later⟩ := List.pairwise_cons.mp spaced
      cases rest with
      | nil =>
          show first + 0 * interval < last
          omega
      | cons next more =>
          have bounded : sent.2 + interval + ((next :: more).length - 1) * interval < last :=
            ih later (by simp) fun other member =>
              ⟨after other member, (inside other (List.mem_cons_of_mem _ member)).2⟩
          simp only [List.length_cons, Nat.add_sub_cancel] at bounded ⊢
          rw [Nat.add_mul, Nat.one_mul]
          omega

/-- **No two requests leave within an interval of each other**, whichever workers send them;
they leave in the order in which they were asked for, and a window of any width sees no more of
them than it has intervals, and one. -/
theorem pacer_spaced {s : Pacer} (reached : pacing.Reachable s) :
    Spaced s.interval s.released ∧ (s.released.map (·.1)).Sublist s.called ∧
      ∀ from_ width, (s.released.filter fun sent =>
        from_ ≤ sent.2 ∧ sent.2 < from_ + width).length * s.interval ≤ width + s.interval := by
  have inv := PacerInv.reachable reached
  refine ⟨inv.spaced, ?_, fun from_ width => ?_⟩
  · have order := inv.order
    rw [List.append_assoc] at order
    exact (List.sublist_append_left _ _).trans order
  · by_cases none : (s.released.filter fun sent =>
        from_ ≤ sent.2 ∧ sent.2 < from_ + width) = []
    · rw [none]
      simp
    · have spaced : Spaced s.interval (s.released.filter fun sent =>
          from_ ≤ sent.2 ∧ sent.2 < from_ + width) := List.Pairwise.filter _ inv.spaced
      have bounded := spaced.length_le none fun sent member => by
        simpa using (List.mem_filter.mp member).2
      have counted : 0 < (s.released.filter fun sent =>
          from_ ≤ sent.2 ∧ sent.2 < from_ + width).length := List.length_pos_iff.mpr none
      obtain ⟨n, length⟩ := Nat.exists_eq_succ_of_ne_zero counted.ne'
      rw [length, Nat.succ_sub_one] at bounded
      rw [length, Nat.succ_mul]
      omega

/-- Two callers, and the second is woken late. -/
def twoTicks : List PacerAction :=
  [.call 1, .call 2, .lock, .look, .release, .lock, .look, .elapse 500, .wake, .release]

theorem pacer_spaced_twoTicks :
    ∃ s, pacing.run (.new 200 1000) twoTicks = some s ∧ s.released = [(1, 1000), (2, 1500)] ∧
      Spaced s.interval s.released ∧ (s.released.map (·.1)).Sublist s.called ∧
      ∀ from_ width, (s.released.filter fun sent =>
        from_ ≤ sent.2 ∧ sent.2 < from_ + width).length * s.interval ≤ width + s.interval := by
  have found : ∃ s, pacing.run (.new 200 1000) twoTicks = some s ∧
      s.released = [(1, 1000), (2, 1500)] := Machine.run_exists (by decide)
  obtain ⟨s, ran, released⟩ := found
  exact ⟨s, ran, released, pacer_spaced ⟨_, _, ⟨200, 1000, rfl⟩, ran⟩⟩

/-! ## Release -/

section Release

variable {s : Pacer} {caller : Nat}

theorem releases_awake (held : s.holder = some (caller, .awake)) :
    ∃ t, pacing.run s [.release] = some t ∧ t.released = s.released ++ [(caller, s.now)] := by
  refine ⟨{ s with
    next := s.now + s.interval, holder := none, released := s.released ++ [(caller, s.now)] }, ?_, rfl⟩
  simp [Machine.run, pacing, Pacer.step, held]

/-- A sleeper that is woken in time. -/
theorem releases_asleep (held : s.holder = some (caller, .sleeping s.next)) :
    ∃ t, pacing.run s [.elapse (s.next - s.now), .wake, .release] = some t ∧
      t.released = s.released ++ [(caller, max s.now s.next)] := by
  have now : s.now + (s.next - s.now) = max s.now s.next := by omega
  have reached : s.next ≤ max s.now s.next := le_max_right _ _
  obtain ⟨t, ran, released⟩ :=
    @releases_awake { s with now := max s.now s.next, holder := some (caller, .awake) } caller rfl
  refine ⟨t, ?_, released⟩
  simpa [Machine.run, pacing, Pacer.step, held, now, reached] using ran

theorem releases_looking (held : s.holder = some (caller, .looking)) :
    ∃ actions t, pacing.run s actions = some t ∧
      t.released = s.released ++ [(caller, max s.now s.next)] := by
  by_cases early : s.now < s.next
  · obtain ⟨t, ran, released⟩ :=
      @releases_asleep { s with holder := some (caller, .sleeping s.next) } caller rfl
    refine ⟨.look :: _, t, Machine.run_cons_eq_some.mpr ⟨_, ?_, ran⟩, released⟩
    simp [pacing, Pacer.step, held, early]
  · obtain ⟨t, ran, released⟩ :=
      @releases_awake { s with holder := some (caller, .awake) } caller rfl
    rw [show max s.now s.next = s.now by omega]
    refine ⟨.look :: _, t, Machine.run_cons_eq_some.mpr ⟨_, ?_, ran⟩, released⟩
    simp [pacing, Pacer.step, held, early]

end Release

/-- **Whoever is first in line is released as soon as it may be**: at once, or when the interval
is over. -/
theorem pacer_releases {s : Pacer} (reached : pacing.Reachable s) {caller : Nat} {rest : List Nat}
    (line : s.holder.toList.map (·.1) ++ s.waiting = caller :: rest) :
    ∃ actions t, pacing.run s actions = some t ∧
      t.released = s.released ++ [(caller, max s.now s.next)] := by
  have inv := PacerInv.reachable reached
  cases held : s.holder with
  | none =>
      rw [held] at line
      have waiting : s.waiting = caller :: rest := line
      obtain ⟨actions, t, ran, released⟩ := @releases_looking
        { s with holder := some (caller, .looking), waiting := rest } caller rfl
      refine ⟨.lock :: actions, t, Machine.run_cons_eq_some.mpr ⟨_, ?_, ran⟩, released⟩
      simp [pacing, Pacer.step, held, waiting]
  | some first =>
      obtain ⟨other, ticking⟩ := first
      rw [held] at line
      obtain rfl : other = caller := (List.cons.inj line).1
      cases ticking with
      | looking => exact releases_looking held
      | sleeping deadline =>
          rw [inv.asleep other deadline held] at held
          obtain ⟨t, ran, released⟩ := releases_asleep held
          exact ⟨_, t, ran, released⟩
      | awake =>
          have free := inv.awake other held
          obtain ⟨t, ran, released⟩ := releases_awake held
          rw [show max s.now s.next = s.now by omega]
          exact ⟨_, t, ran, released⟩

/-- The first of the two has just been released, and the second is next. -/
theorem pacer_releases_second :
    ∃ s, pacing.run (.new 200 1000) (twoTicks.take 5) = some s ∧
      ∃ actions t, pacing.run s actions = some t ∧
        t.released = s.released ++ [(2, max s.now s.next)] := by
  have found : ∃ s, pacing.run (.new 200 1000) (twoTicks.take 5) = some s ∧
      s.holder.toList.map (·.1) ++ s.waiting = [2] := Machine.run_exists (by decide)
  obtain ⟨s, ran, line⟩ := found
  exact ⟨s, ran, pacer_releases ⟨_, _, ⟨200, 1000, rfl⟩, ran⟩ line⟩

end MajsoulManager.Paipuya
