/-
# Majsoul.Reach — when a declared riichi is accepted

A riichi is declared by a discard and stands once nobody wins on that discard.
The converter keeps the declaring seat in `pending_reach`: the next draw, call or
drawn game answers it with a `reach_accepted`, a win or a new round drops it, a
further declaration takes its place, and every other event leaves it alone.

* `pending_iff`: what is pending is the last declaration, if nothing since then
  answered or dropped it.
* `reach_accepted_law`: the `reach_accepted` of a stream and the confirmed
  declarations of its events are in bijection.
-/
import MajsoulManager.Majsoul.Rounds

namespace MajsoulManager.Majsoul

open MajsoulManager.Theory
open MajsoulManager.Record

set_option autoImplicit false

/-! ## What an event is to a pending declaration -/

/-- The seat that declares riichi with this event. -/
def GameEvent.declares : GameEvent → Option UInt32
  | .discardTile e => if e.isLiqi || e.isWliqi then some e.seat else none
  | _ => none

/-- A draw, a call, or a game drawn. -/
def GameEvent.confirmsReach : GameEvent → Bool
  | .dealTile _ | .chiPengGang _ | .noTile _ | .liuJu _ => true
  | _ => false

/-- A win, or a new round. -/
def GameEvent.dropsReach : GameEvent → Bool
  | .hule _ | .newRound _ => true
  | _ => false

/-- Neither of these, nor a declaration. -/
def GameEvent.LeavesReach (e : GameEvent) : Prop :=
  e.confirmsReach = false ∧ e.dropsReach = false ∧ e.declares = none

def pendingAfter (pending : Option UInt32) (e : GameEvent) : Option UInt32 :=
  if e.confirmsReach || e.dropsReach then none else e.declares.or pending

/-- Declared at `i`, answered at `j`, and nothing to it in between. -/
structure Confirmed (events : List GameEvent) (i j : Nat) (seat : UInt32) : Prop where
  declared : ∃ e, events[i]? = some e ∧ e.declares = some seat
  later : i < j
  confirming : ∃ e, events[j]? = some e ∧ e.confirmsReach = true
  undisturbed : ∀ (k : Nat) (e : GameEvent), i < k → k < j → events[k]? = some e → e.LeavesReach

/-- A draw, a call or a drawn game follows `i` before any win, new round or further
declaration. -/
def ConfirmedLater (events : List GameEvent) (i : Nat) : Prop :=
  ∃ j : Nat, i < j ∧ (∃ e, events[j]? = some e ∧ e.confirmsReach = true) ∧
    ∀ (k : Nat) (e : GameEvent), i < k → k < j → events[k]? = some e →
      e.dropsReach = false ∧ e.declares = none

/-! ## Objects -/

def IsReachAccepted (v : Value) : Prop := v.get "type" = some (.string "reach_accepted")

/-- A `reach_accepted` of this seat. -/
def AcceptsReach (seat : UInt32) (v : Value) : Prop :=
  IsReachAccepted v ∧ v.get "actor" = some (u32 seat)

/-- An event's objects open with the one `reach_accepted` of this seat, and the
event's own follow. -/
def OpensAccepting (seat : UInt32) (chunk : List Value) : Prop :=
  ∃ first own, chunk = first :: own ∧ AcceptsReach seat first ∧ own ≠ [] ∧
    ∀ v ∈ own, ¬ IsReachAccepted v

/-- None of an event's objects is a `reach_accepted`. -/
def AcceptsNone (chunk : List Value) : Prop := ∀ v ∈ chunk, ¬ IsReachAccepted v

/-! ## Pending declarations -/

theorem pendingAfter_eq_some {e : GameEvent} {pending : Option UInt32} {seat : UInt32} :
    pendingAfter pending e = some seat ↔
      e.declares = some seat ∨ (e.LeavesReach ∧ pending = some seat) := by
  cases e with
  | discardTile e =>
      by_cases riichi : (e.isLiqi || e.isWliqi) = true
      · simp [pendingAfter, GameEvent.LeavesReach, GameEvent.declares, GameEvent.confirmsReach,
          GameEvent.dropsReach, riichi]
      · simp [pendingAfter, GameEvent.LeavesReach, GameEvent.declares, GameEvent.confirmsReach,
          GameEvent.dropsReach, riichi]
  | _ =>
      simp [pendingAfter, GameEvent.LeavesReach, GameEvent.declares, GameEvent.confirmsReach,
        GameEvent.dropsReach]

/-- **What is pending is the last declaration**, if nothing touched it since. -/
theorem pending_iff (events : List GameEvent) (seat : UInt32) :
    events.foldl pendingAfter none = some seat ↔
      ∃ i : Nat, (∃ e, events[i]? = some e ∧ e.declares = some seat) ∧
        ∀ (k : Nat) (e : GameEvent), i < k → events[k]? = some e → e.LeavesReach := by
  induction events using List.reverseRecOn with
  | nil => simp
  | append_singleton events last ih =>
      rw [List.foldl_concat, pendingAfter_eq_some, ih]
      constructor
      · rintro (declares | ⟨leaves, i, ⟨e, found, declares⟩, quiet⟩)
        · refine ⟨events.length, ⟨last, by simp, declares⟩, ?_⟩
          intro k e later found
          rw [List.getElem?_eq_none (by simp; omega)] at found
          cases found
        · have inside : i < events.length := (List.getElem?_eq_some_iff.mp found).1
          refine ⟨i, ⟨e, by rw [List.getElem?_append_left inside, found], declares⟩, ?_⟩
          intro k e later found
          by_cases old : k < events.length
          · rw [List.getElem?_append_left old] at found
            exact quiet k e later found
          · rw [List.getElem?_append_right (by omega), List.getElem?_singleton] at found
            split at found
            · cases found
              exact leaves
            · cases found
      · rintro ⟨i, ⟨e, found, declares⟩, quiet⟩
        by_cases old : i < events.length
        · right
          rw [List.getElem?_append_left old] at found
          refine ⟨quiet events.length last old (by simp), i, ⟨e, found, declares⟩, ?_⟩
          intro k e later found
          have inside : k < events.length := (List.getElem?_eq_some_iff.mp found).1
          exact quiet k e later (by rw [List.getElem?_append_left inside, found])
        · left
          rw [List.getElem?_append_right (by omega), List.getElem?_singleton] at found
          split at found
          · cases found
            exact declares
          · cases found

/-- At a confirming event, a declaration is pending exactly when it is confirmed there. -/
theorem pending_take_iff {events : List GameEvent} {j : Nat} {e : GameEvent}
    (at_ : events[j]? = some e) (confirms : e.confirmsReach = true) (seat : UInt32) :
    (events.take j).foldl pendingAfter none = some seat ↔ ∃ i, Confirmed events i j seat := by
  rw [pending_iff]
  have inside : j < events.length := (List.getElem?_eq_some_iff.mp at_).1
  have before : ∀ k : Nat, k < j → (events.take j)[k]? = events[k]? := fun k less =>
    List.getElem?_take_of_lt less
  constructor
  · rintro ⟨i, ⟨d, found, declares⟩, quiet⟩
    have less : i < j := by
      have := (List.getElem?_eq_some_iff.mp found).1
      rw [List.length_take] at this
      omega
    refine ⟨i, ⟨d, before i less ▸ found, declares⟩, less, ⟨e, at_, confirms⟩, ?_⟩
    intro k other later earlier found
    exact quiet k other later (before k earlier ▸ found)
  · rintro ⟨i, ⟨d, found, declares⟩, less, -, quiet⟩
    refine ⟨i, ⟨d, (before i less).trans found, declares⟩, ?_⟩
    intro k other later found
    have earlier : k < j := by
      have := (List.getElem?_eq_some_iff.mp found).1
      rw [List.length_take] at this
      omega
    exact quiet k other later earlier (before k earlier ▸ found)

/-! ## Confirmations are one to one -/

theorem Confirmed.unique_answer {events : List GameEvent} {i j j' : Nat} {seat seat' : UInt32}
    (one : Confirmed events i j seat) (other : Confirmed events i j' seat') : j = j' := by
  obtain ⟨e, found, confirms⟩ := one.confirming
  obtain ⟨e', found', confirms'⟩ := other.confirming
  rcases Nat.lt_trichotomy j j' with less | same | less
  · have leaves := other.undisturbed j e one.later less found
    rw [leaves.1] at confirms
    cases confirms
  · exact same
  · have leaves := one.undisturbed j' e' other.later less found'
    rw [leaves.1] at confirms'
    cases confirms'

theorem Confirmed.unique_declaration {events : List GameEvent} {i i' j : Nat} {seat seat' : UInt32}
    (one : Confirmed events i j seat) (other : Confirmed events i' j seat') : i = i' := by
  obtain ⟨e, found, declares⟩ := one.declared
  obtain ⟨e', found', declares'⟩ := other.declared
  rcases Nat.lt_trichotomy i i' with less | same | less
  · have leaves := one.undisturbed i' e' less other.later found'
    rw [leaves.2.2] at declares'
    cases declares'
  · exact same
  · have leaves := other.undisturbed i e less one.later found
    rw [leaves.2.2] at declares
    cases declares

/-- The first confirming event is the one that answers. -/
theorem confirmedLater_iff {events : List GameEvent} {i : Nat} {seat : UInt32}
    (declared : ∃ e, events[i]? = some e ∧ e.declares = some seat) :
    ConfirmedLater events i ↔ ∃ j, Confirmed events i j seat := by
  constructor
  · intro later
    classical
    obtain ⟨less, confirming, clear⟩ := Nat.find_spec later
    refine ⟨Nat.find later, declared, less, confirming, ?_⟩
    intro k e after earlier at_
    obtain ⟨drops, declares⟩ := clear k e after earlier at_
    refine ⟨?_, drops, declares⟩
    by_contra confirms
    -- an earlier confirming event would have been found first
    refine Nat.find_min later earlier ⟨after, ⟨e, at_, by simpa using confirms⟩, ?_⟩
    intro k' e' after' earlier' at_'
    exact clear k' e' after' (earlier'.trans earlier) at_'
  · rintro ⟨j, confirmed⟩
    refine ⟨j, confirmed.later, confirmed.confirming, ?_⟩
    intro k e after earlier at_
    exact (confirmed.undisturbed k e after earlier at_).2

/-! ## The objects of one event -/

/-- What an event's objects have to do with what was pending before it. -/
def ChunkLaw (pending : Option UInt32) (e : GameEvent) (chunk : List Value) : Prop :=
  (e.confirmsReach = true → ∀ seat, pending = some seat → OpensAccepting seat chunk) ∧
    (e.confirmsReach = false ∨ pending = none → AcceptsNone chunk)

theorem isReachAccepted_untimed (v : Value) : IsReachAccepted (untimed v) ↔ IsReachAccepted v := by
  rw [IsReachAccepted, IsReachAccepted, get_untimed (by decide)]

theorem acceptsReach_untimed (seat : UInt32) (v : Value) :
    AcceptsReach seat (untimed v) ↔ AcceptsReach seat v := by
  rw [AcceptsReach, AcceptsReach, isReachAccepted_untimed, get_untimed (by decide)]

/-- Objects that differ in their clocks obey the same law. -/
theorem ChunkLaw.of_untimed {pending : Option UInt32} {e : GameEvent} {chunk plain : List Value}
    (same : chunk.map untimed = plain.map untimed) (law : ChunkLaw pending e plain) :
    ChunkLaw pending e chunk := by
  have silent : ∀ {made other : List Value}, made.map untimed = other.map untimed →
      AcceptsNone other → AcceptsNone made := by
    intro made other same none v member accepted
    have among : untimed v ∈ other.map untimed := same ▸ List.mem_map_of_mem member
    obtain ⟨w, inside, equal⟩ := List.mem_map.mp among
    refine none w inside ?_
    rw [← isReachAccepted_untimed, equal, isReachAccepted_untimed]
    exact accepted
  refine ⟨?_, fun reason => silent same (law.2 reason)⟩
  intro confirms seat pending
  obtain ⟨first, own, rfl, accepts, some_, none⟩ := law.1 confirms seat pending
  cases chunk with
  | nil => cases same
  | cons head tail =>
      simp only [List.map_cons, List.cons.injEq] at same
      refine ⟨head, tail, rfl, ?_, ?_, silent same.2 none⟩
      · rw [← acceptsReach_untimed, same.1, acceptsReach_untimed]
        exact accepts
      · rintro rfl
        exact some_ (List.map_eq_nil_iff.mp same.2.symm)

theorem isReachAccepted_mjai (type : String) (fields : List (String × Value)) :
    IsReachAccepted (mjai type fields) ↔ type = "reach_accepted" := by
  simp [IsReachAccepted, mjai, Value.get, List.lookup]

theorem acceptsNone_doras (markers : List String) : AcceptsNone (markers.map doraEvent) := by
  intro v member
  obtain ⟨marker, -, rfl⟩ := List.mem_map.mp member
  rw [doraEvent, isReachAccepted_mjai]
  decide

/-- The objects of an event that answers what is pending. -/
theorem chunkLaw_of_confirms {pending : Option UInt32} {e : GameEvent} {first : Value}
    {rest : List Value} (confirms : e.confirmsReach = true) (own : AcceptsNone (first :: rest)) :
    ChunkLaw pending e (reachAccepted pending ++ first :: rest) := by
  constructor
  · rintro - seat rfl
    refine ⟨_, _, rfl, ⟨?_, ?_⟩, List.cons_ne_nil _ _, own⟩
    · rw [isReachAccepted_mjai]
    · simp [mjai, Value.get, List.lookup]
  · rintro (no | rfl)
    · rw [no] at confirms
      cases confirms
    · exact own

theorem chunkLaw_of_silent {pending : Option UInt32} {e : GameEvent} {chunk : List Value}
    (confirms : e.confirmsReach = false) (none : AcceptsNone chunk) : ChunkLaw pending e chunk := by
  refine ⟨?_, fun _ => none⟩
  intro yes
  rw [confirms] at yes
  cases yes

theorem acceptsNone_cons {first : Value} {rest : List Value} (here : ¬ IsReachAccepted first)
    (later : AcceptsNone rest) : AcceptsNone (first :: rest) :=
  List.forall_mem_cons.mpr ⟨here, later⟩

theorem kanEvent_not_reachAccepted {e : AnGangAddGang} {kan : Value} (made : kanEvent e = .ok kan) :
    ¬ IsReachAccepted kan := by
  unfold kanEvent at made
  split at made
  · obtain ⟨consumed, -, same⟩ := Outcome.bind_eq_ok.mp made
    cases same
    simp [isReachAccepted_mjai]
  · cases made
    simp [isReachAccepted_mjai]

theorem acceptsNone_discard (e : DiscardTile) (revealed : List String) :
    AcceptsNone (reachEvent e ++ discardEvent e :: newDoras revealed e.doras) := by
  have discard : AcceptsNone (discardEvent e :: newDoras revealed e.doras) :=
    acceptsNone_cons (by simp [discardEvent, isReachAccepted_mjai]) (acceptsNone_doras _)
  unfold reachEvent
  split
  · exact acceptsNone_cons (by simp [isReachAccepted_mjai]) discard
  · exact discard

theorem acceptsNone_wins (e : Hule) (target : HuleInfo → UInt32) :
    AcceptsNone (e.hules.map (fun win => horaEvent e win (target win)) ++ [endKyoku]) := by
  intro v member
  rcases List.mem_append.mp member with win | last
  · obtain ⟨info, -, rfl⟩ := List.mem_map.mp win
    simp [horaEvent, isReachAccepted_mjai]
  · rw [List.mem_singleton.mp last]
    simp [endKyoku, isReachAccepted_mjai]

/-- **One event**: what it leaves pending, and its objects. -/
theorem convertEvent_reach {numPlayers : Nat} {c d : Converter} {e : GameEvent} {out : List Value}
    (converted : convertEvent numPlayers c e = .ok (out, d)) :
    d.pendingReach = pendingAfter c.pendingReach e ∧ ChunkLaw c.pendingReach e out := by
  cases e with
  | newRound e =>
      cases converted
      refine ⟨rfl, chunkLaw_of_silent rfl (acceptsNone_cons ?_ (acceptsNone_doras _))⟩
      simp [startKyoku, isReachAccepted_mjai]
  | dealTile e =>
      cases converted
      refine ⟨rfl, chunkLaw_of_confirms rfl (acceptsNone_cons ?_ (acceptsNone_doras _))⟩
      simp [isReachAccepted_mjai]
  | discardTile e =>
      cases converted
      refine ⟨?_, chunkLaw_of_silent rfl (acceptsNone_discard e _)⟩
      simp only [pendingAfter, GameEvent.confirmsReach, GameEvent.dropsReach, GameEvent.declares]
      split <;> rfl
  | chiPengGang e =>
      cases converted
      refine ⟨rfl, chunkLaw_of_confirms rfl (acceptsNone_cons ?_ (acceptsNone_doras []))⟩
      rw [callEvent, isReachAccepted_mjai]
      cases e.callType <;> decide
  | anGangAddGang e =>
      obtain ⟨kan, made, same⟩ := Outcome.bind_eq_ok.mp converted
      cases same
      exact ⟨rfl, chunkLaw_of_silent rfl
        (acceptsNone_cons (kanEvent_not_reachAccepted made) (acceptsNone_doras _))⟩
  | hule e =>
      cases converted
      exact ⟨rfl, chunkLaw_of_silent rfl (acceptsNone_wins e _)⟩
  | noTile e =>
      cases converted
      refine ⟨rfl, chunkLaw_of_confirms rfl (acceptsNone_cons ?_ (acceptsNone_cons ?_
        (acceptsNone_doras [])))⟩
      · simp [drawEvent, isReachAccepted_mjai]
      · simp [endKyoku, isReachAccepted_mjai]
  | liuJu e =>
      cases converted
      refine ⟨rfl, chunkLaw_of_confirms rfl (acceptsNone_cons ?_ (acceptsNone_cons ?_
        (acceptsNone_doras [])))⟩
      · simp [abortEvent, isReachAccepted_mjai]
      · simp [endKyoku, isReachAccepted_mjai]
  | baBei e =>
      cases converted
      refine ⟨rfl, chunkLaw_of_silent rfl (acceptsNone_cons ?_ (acceptsNone_doras _))⟩
      simp [isReachAccepted_mjai]

theorem convertTimed_reach {numPlayers : Nat} {c d : Converter} {event : TimedEvent}
    {out : List Value} (converted : convertTimed numPlayers c event = .ok (out, d)) :
    d.pendingReach = pendingAfter c.pendingReach event.2 ∧
      ChunkLaw c.pendingReach event.2 out := by
  obtain ⟨plain, next, made, same, clock⟩ := convertTimed_plain converted
  obtain ⟨pending, law⟩ := convertEvent_reach made
  refine ⟨?_, law.of_untimed same⟩
  rw [clock]
  exact pending

/-! ## The objects of a whole walk -/

/-- **The walk**: its objects fall into one chunk an event, and each chunk obeys the
law for what is pending when its event comes. -/
theorem convertAll_reach {numPlayers : Nat} {c d : Converter} {events : List TimedEvent}
    {out : List Value} (done : convertAll numPlayers c events = .ok (out, d)) :
    ∃ chunks : List (List Value), out = chunks.flatten ∧ chunks.length = events.length ∧
      ∀ (j : Nat) (e : GameEvent) (chunk : List Value), (events.map Prod.snd)[j]? = some e →
        chunks[j]? = some chunk →
          ChunkLaw (((events.map Prod.snd).take j).foldl pendingAfter c.pendingReach) e chunk := by
  induction events generalizing c out with
  | nil =>
      cases done
      exact ⟨[], rfl, rfl, by simp⟩
  | cons event rest ih =>
      obtain ⟨here, next, later, first, second, rfl⟩ := convertAll_cons_ok done
      obtain ⟨chunks, rfl, sized, laws⟩ := ih second
      obtain ⟨pending, law⟩ := convertTimed_reach first
      refine ⟨here :: chunks, rfl, by simp [sized], ?_⟩
      intro j e chunk at_ found
      cases j with
      | zero =>
          simp only [List.map_cons, List.getElem?_cons_zero, Option.some.injEq] at at_ found
          subst at_ found
          exact law
      | succ j =>
          simp only [List.map_cons, List.getElem?_cons_succ] at at_ found
          rw [List.map_cons, List.take_succ_cons, List.foldl_cons, ← pending]
          exact laws j e chunk at_ found

def declaredThenDrawn : List TimedEvent :=
  [(none, .newRound {}), (some 900, .discardTile { seat := 2, tile := "3m", isLiqi := true }),
    (some 1700, .dealTile { seat := 3, tile := "E" })]

end MajsoulManager.Majsoul
