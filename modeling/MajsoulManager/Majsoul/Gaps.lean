/-
# Majsoul.Gaps — the clock of a stream as gaps

The server times some events with a running total.  The converter writes the gap
since the last time it read, on the first object of the event, and zero on the
others; an event without a time is not stamped.  What a reader can add up is what
the server said, as long as the server's times do not go back.
-/
import MajsoulManager.Majsoul.Rounds

namespace MajsoulManager.Majsoul

open MajsoulManager.Theory
open MajsoulManager.Record

set_option autoImplicit false

/-! ## Reading a stamp -/

/-- The `dt_ms` members of an object. -/
def stamps : Value → List Value
  | .object fields => (fields.filter (·.1 == "dt_ms")).map Prod.snd
  | _ => []

/-- A reader's `dt_ms`. -/
def dtMs (v : Value) : Option Nat := ((v.get "dt_ms").bind Value.asU64).map UInt64.toNat

/-- What the `dt_ms` of some objects add up to. -/
def elapsed (objects : List Value) : Nat := (objects.filterMap dtMs).sum

/-- The first objects of a stream: the header, and those of some events. -/
def streamUpTo (numPlayers : Nat) (events : List TimedEvent) (stream : List Value) : List Value :=
  stream.take (1 + emittedCount numPlayers events)

/-- The last time the server gave, or zero. -/
def lastPassed (events : List TimedEvent) : UInt32 := (events.filterMap Prod.fst).getLast?.getD 0

/-- The elapsed time stands on the first object alone. -/
def StampedOnce (gap : UInt32) (objects : List Value) : Prop :=
  ∃ first rest, objects = first :: rest ∧ stamps first = [u32 gap] ∧ ∀ v ∈ rest, stamps v = [u32 0]

/-- At most one stamp, and that a number that is not negative. -/
def StampedWell (v : Value) : Prop :=
  (stamps v).length ≤ 1 ∧ ∀ item ∈ stamps v, ∃ gap : UInt32, item = u32 gap

theorem stamps_mjai {type : String} {fields : List (String × Value)}
    (unnamed : ∀ field ∈ fields, field.1 ≠ "dt_ms") : stamps (mjai type fields) = [] := by
  have none : fields.filter (·.1 == "dt_ms") = [] :=
    List.filter_eq_nil_iff.mpr fun field member => by simpa using unnamed field member
  simp [stamps, mjai, none]

theorem stamps_insert {v : Value} (isObj : v.isObject = true) (item : Value) :
    stamps (v.insert "dt_ms" item) = [item] := by
  cases v with
  | object fields =>
      have none : (fields.filter (·.1 != "dt_ms")).filter (·.1 == "dt_ms") = [] :=
        List.filter_eq_nil_iff.mpr fun field member => by simpa using (List.mem_filter.mp member).2
      simp [stamps, Value.insert, List.filter_append, none]
  | _ => cases isObj

/-- The member a reader finds is the first stamp. -/
theorem get_dtMs (v : Value) : v.get "dt_ms" = (stamps v).head? := by
  cases v with
  | object fields =>
      show fields.lookup "dt_ms" = _
      simp only [stamps]
      induction fields with
      | nil => rfl
      | cons field rest ih =>
          obtain ⟨key, value⟩ := field
          by_cases clock : key = "dt_ms"
          · subst clock
            simp [List.lookup]
          · have unequal : ("dt_ms" == key) = false := beq_eq_false_iff_ne.mpr (Ne.symm clock)
            simp [List.lookup, unequal, clock, ih]
  | _ => rfl

theorem dtMs_of_stamps {v : Value} {gap : UInt32} (stamped : stamps v = [u32 gap]) :
    dtMs v = some gap.toNat := by
  rw [dtMs, get_dtMs, stamped]
  simp [u32, Value.asU64]

theorem dtMs_of_unstamped {v : Value} (unstamped : stamps v = []) : dtMs v = none := by
  rw [dtMs, get_dtMs, unstamped]
  rfl

@[simp] theorem elapsed_append (first second : List Value) :
    elapsed (first ++ second) = elapsed first + elapsed second := by
  simp [elapsed]

theorem elapsed_of_unstamped {objects : List Value} (unstamped : ∀ v ∈ objects, stamps v = []) :
    elapsed objects = 0 := by
  have none : objects.filterMap dtMs = [] :=
    List.filterMap_eq_nil_iff.mpr fun v member => dtMs_of_unstamped (unstamped v member)
  simp [elapsed, none]

theorem StampedOnce.elapsed {gap : UInt32} {objects : List Value}
    (once : StampedOnce gap objects) : elapsed objects = gap.toNat := by
  obtain ⟨first, rest, rfl, here, later⟩ := once
  have zeros : ∀ objects : List Value, (∀ v ∈ objects, stamps v = [u32 0]) →
      Majsoul.elapsed objects = 0 := by
    intro objects zero
    induction objects with
    | nil => rfl
    | cons v more ih =>
        obtain ⟨now, then_⟩ := List.forall_mem_cons.mp zero
        have rest := ih then_
        simp only [Majsoul.elapsed, List.filterMap_cons, dtMs_of_stamps now, List.sum_cons] at rest ⊢
        simpa using rest
  have rest := zeros rest later
  simp only [Majsoul.elapsed, List.filterMap_cons, dtMs_of_stamps here, List.sum_cons] at rest ⊢
  omega

/-! ## The objects of an event, unstamped -/

theorem doras_unstamped (markers : List String) : ∀ v ∈ markers.map doraEvent, stamps v = [] := by
  intro v member
  obtain ⟨marker, -, rfl⟩ := List.mem_map.mp member
  exact stamps_mjai (by simp)

theorem reachAccepted_unstamped (pending : Option UInt32) :
    ∀ v ∈ reachAccepted pending, stamps v = [] := by
  cases pending with
  | none => simp [reachAccepted]
  | some actor =>
      simp only [reachAccepted, List.mem_singleton, forall_eq]
      exact stamps_mjai (by simp)

theorem reachEvent_unstamped (e : DiscardTile) : ∀ v ∈ reachEvent e, stamps v = [] := by
  unfold reachEvent
  split
  · simp only [List.mem_singleton, forall_eq]
    exact stamps_mjai (by simp)
  · simp

theorem kanEvent_unstamped {e : AnGangAddGang} {kan : Value} (made : kanEvent e = .ok kan) :
    stamps kan = [] := by
  unfold kanEvent at made
  split at made
  · obtain ⟨consumed, -, same⟩ := Outcome.bind_eq_ok.mp made
    cases same
    exact stamps_mjai (by simp)
  · cases made
    exact stamps_mjai (by simp)

theorem endKyoku_unstamped : stamps endKyoku = [] := stamps_mjai (by simp)

/-- **One event**: some objects, none of them stamped, and the clock left alone. -/
theorem convertEvent_unstamped {numPlayers : Nat} {c d : Converter} {e : GameEvent}
    {out : List Value} (converted : convertEvent numPlayers c e = .ok (out, d)) :
    out ≠ [] ∧ (∀ v ∈ out, stamps v = []) ∧ d.previousMs = c.previousMs := by
  cases e with
  | newRound e =>
      cases converted
      refine ⟨by simp, ?_, rfl⟩
      exact List.forall_mem_cons.mpr ⟨stamps_mjai (by simp), doras_unstamped _⟩
  | dealTile e =>
      cases converted
      refine ⟨by simp, ?_, rfl⟩
      simp only [List.forall_mem_append, List.forall_mem_cons]
      exact ⟨reachAccepted_unstamped _, stamps_mjai (by simp), doras_unstamped _⟩
  | discardTile e =>
      cases converted
      refine ⟨by simp, ?_, rfl⟩
      simp only [List.forall_mem_append, List.forall_mem_cons]
      exact ⟨reachEvent_unstamped e, stamps_mjai (by simp), doras_unstamped _⟩
  | chiPengGang e =>
      cases converted
      refine ⟨by simp, ?_, rfl⟩
      simp only [List.forall_mem_append, List.forall_mem_cons]
      exact ⟨reachAccepted_unstamped _, stamps_mjai (by simp), by simp⟩
  | anGangAddGang e =>
      obtain ⟨kan, made, same⟩ := Outcome.bind_eq_ok.mp converted
      cases same
      refine ⟨by simp, ?_, rfl⟩
      exact List.forall_mem_cons.mpr ⟨kanEvent_unstamped made, doras_unstamped _⟩
  | hule e =>
      cases converted
      refine ⟨by simp, ?_, rfl⟩
      simp only [List.forall_mem_append, List.forall_mem_cons, List.forall_mem_map]
      exact ⟨fun win _ => stamps_mjai (by simp), endKyoku_unstamped, by simp⟩
  | noTile e =>
      cases converted
      refine ⟨by simp, ?_, rfl⟩
      simp only [List.forall_mem_append, List.forall_mem_cons]
      exact ⟨reachAccepted_unstamped _, stamps_mjai (by simp), endKyoku_unstamped, by simp⟩
  | liuJu e =>
      cases converted
      refine ⟨by simp, ?_, rfl⟩
      simp only [List.forall_mem_append, List.forall_mem_cons]
      exact ⟨reachAccepted_unstamped _, stamps_mjai (by simp), endKyoku_unstamped, by simp⟩
  | baBei e =>
      cases converted
      refine ⟨by simp, ?_, rfl⟩
      exact List.forall_mem_cons.mpr ⟨stamps_mjai (by simp), doras_unstamped _⟩

theorem stamped_once (gap : UInt32) {out : List Value} (some : out ≠ [])
    (objects : ∀ v ∈ out, v.isObject = true) : StampedOnce gap (stamped gap out) := by
  cases out with
  | nil => exact absurd rfl some
  | cons first rest =>
      obtain ⟨here, later⟩ := List.forall_mem_cons.mp objects
      refine ⟨_, _, rfl, stamps_insert here _, ?_⟩
      intro v member
      obtain ⟨w, inside, rfl⟩ := List.mem_map.mp member
      exact stamps_insert (later w inside) _

/-- **One timed event**: without a time, nothing is stamped and the clock stands; with
one, the gap is stamped once and the clock is set. -/
theorem convertTimed_gap {numPlayers : Nat} {c d : Converter} {event : TimedEvent}
    {out : List Value} (converted : convertTimed numPlayers c event = .ok (out, d)) :
    (event.1 = none → (∀ v ∈ out, stamps v = []) ∧ d.previousMs = c.previousMs) ∧
      ∀ passed, event.1 = some passed →
        StampedOnce (gapSince c.previousMs passed) out ∧ d.previousMs = passed := by
  obtain ⟨⟨plain, next⟩, made, stamping⟩ := Outcome.bind_eq_ok.mp converted
  obtain ⟨some, unstamped, clock⟩ := convertEvent_unstamped made
  have objects := convertEvent_isObject made
  rw [stamp_eq objects] at stamping
  constructor
  · intro untimed
    rw [untimed] at stamping
    cases stamping
    exact ⟨unstamped, clock⟩
  · intro passed timed
    rw [timed] at stamping
    cases stamping
    exact ⟨clock ▸ stamped_once _ some objects, rfl⟩

/-! ## A whole walk -/

theorem gapSince_toNat {previous passed : UInt32} (later : previous ≤ passed) :
    previous.toNat + (gapSince previous passed).toNat = passed.toNat := by
  have le := UInt32.le_iff_toNat_le.mp later
  rw [gapSince, if_pos later, UInt32.toNat_sub_of_le _ _ later]
  omega

/-- The clock after a walk is the last time it was given. -/
theorem convertAll_previousMs {numPlayers : Nat} {c d : Converter} {events : List TimedEvent}
    {out : List Value} (done : convertAll numPlayers c events = .ok (out, d)) :
    d.previousMs = (events.filterMap Prod.fst).getLast?.getD c.previousMs := by
  induction events generalizing c out with
  | nil =>
      cases done
      rfl
  | cons event rest ih =>
      obtain ⟨here, next, later, first, second, rfl⟩ := convertAll_cons_ok done
      obtain ⟨untimed, timed⟩ := convertTimed_gap first
      rw [ih second]
      cases clock : event.1 with
      | none => simp [clock, (untimed clock).2]
      | some passed => simp [clock, (timed passed clock).2, List.getLast?_cons]

/-- **The walk**: while the times do not go back, what was stamped is what passed. -/
theorem convertAll_elapsed {numPlayers : Nat} {c d : Converter} {events : List TimedEvent}
    {out : List Value} (done : convertAll numPlayers c events = .ok (out, d))
    (ordered : (events.filterMap Prod.fst).Pairwise (· ≤ ·))
    (above : ∀ passed ∈ events.filterMap Prod.fst, c.previousMs ≤ passed) :
    c.previousMs.toNat + elapsed out = d.previousMs.toNat := by
  induction events generalizing c out with
  | nil =>
      cases done
      rfl
  | cons event rest ih =>
      obtain ⟨here, next, later, first, second, rfl⟩ := convertAll_cons_ok done
      obtain ⟨untimed, timed⟩ := convertTimed_gap first
      rw [elapsed_append]
      cases clock : event.1 with
      | none =>
          obtain ⟨unstamped, stands⟩ := untimed clock
          simp only [List.filterMap_cons, clock] at ordered above
          have run := ih second ordered (stands ▸ above)
          rw [elapsed_of_unstamped unstamped, ← run, stands]
          omega
      | some passed =>
          obtain ⟨once, set⟩ := timed passed clock
          simp only [List.filterMap_cons, clock, List.pairwise_cons] at ordered above
          have run := ih second ordered.2 (set ▸ ordered.1)
          have gap := gapSince_toNat (above passed (by simp))
          rw [once.elapsed, ← run, set]
          omega

/-- The stamps of a walk are its events' own. -/
theorem convertAll_stampedWell {numPlayers : Nat} {c d : Converter} {events : List TimedEvent}
    {out : List Value} (done : convertAll numPlayers c events = .ok (out, d)) :
    ∀ v ∈ out, StampedWell v := by
  induction events generalizing c out with
  | nil =>
      cases done
      simp
  | cons event rest ih =>
      obtain ⟨here, next, later, first, second, rfl⟩ := convertAll_cons_ok done
      obtain ⟨untimed, timed⟩ := convertTimed_gap first
      refine List.forall_mem_append.mpr ⟨?_, ih second⟩
      cases clock : event.1 with
      | none =>
          intro v member
          simp [StampedWell, (untimed clock).1 v member]
      | some passed =>
          obtain ⟨⟨v, more, rfl, stamp, zeros⟩, -⟩ := timed passed clock
          refine List.forall_mem_cons.mpr ⟨?_, ?_⟩
          · simp [StampedWell, stamp]
          · intro w member
            simp [StampedWell, zeros w member]

/-- The first objects of a stream are what the walk over their events wrote. -/
theorem streamUpTo_eq {record : GameRecord} {metadata : Option GameMetadata}
    {events after : List TimedEvent} {stream : List Value}
    (converted : eventsToMjai record (events ++ after) metadata = .ok stream) :
    ∃ out d, convertAll record.playerNames.length {} events = .ok (out, d) ∧
      streamUpTo record.playerNames.length events stream = startGame record metadata :: out := by
  obtain ⟨⟨body, last⟩, walked, same⟩ := Outcome.bind_eq_ok.mp converted
  cases same
  rw [convertAll_append] at walked
  obtain ⟨⟨out, d⟩, first, rest⟩ := Outcome.bind_eq_ok.mp walked
  obtain ⟨⟨more, final⟩, -, joined⟩ := Outcome.bind_eq_ok.mp rest
  cases joined
  refine ⟨out, d, first, ?_⟩
  have counted : emittedCount record.playerNames.length events = out.length := by
    simp [emittedCount, first]
  rw [streamUpTo, counted, Nat.add_comm 1, List.take_succ_cons]
  simp [List.append_assoc]

/-- **The times of a game can be recovered.**  When the times the server gave do not go
back: up to the objects of an event with a time, the gaps add up to that time; the gap
of each such event is stamped on its first object and nowhere else, an event without a
time is not stamped; and no object carries two stamps, or a negative one. -/
theorem dt_ms_telescopes {record : GameRecord} {events : List TimedEvent}
    {metadata : Option GameMetadata} {stream : List Value}
    (converted : eventsToMjai record events metadata = .ok stream)
    (ordered : (events.filterMap Prod.fst).Pairwise (· ≤ ·)) :
    (∀ before passed e after, events = before ++ (some passed, e) :: after →
      elapsed (streamUpTo record.playerNames.length (before ++ [(some passed, e)]) stream) =
          passed.toNat ∧
        ∃ gap : UInt32, (lastPassed before).toNat + gap.toNat = passed.toNat ∧
          StampedOnce gap (roundPart record.playerNames.length before [(some passed, e)] stream)) ∧
      (∀ before e after, events = before ++ (none, e) :: after →
        ∀ v ∈ roundPart record.playerNames.length before [(none, e)] stream, stamps v = []) ∧
      ∀ v ∈ stream, StampedWell v := by
  have header : stamps (startGame record metadata) = [] := stamps_mjai (by simp)
  have footer : stamps (endGame record) = [] := stamps_mjai (by simp)
  refine ⟨?_, ?_, ?_⟩
  · rintro before passed e after rfl
    constructor
    · have split : before ++ (some passed, e) :: after = before ++ [(some passed, e)] ++ after := by
        simp
      rw [split] at converted ordered
      obtain ⟨out, d, walked, shape⟩ := streamUpTo_eq converted
      rw [List.filterMap_append] at ordered
      have run := convertAll_elapsed walked (List.pairwise_append.mp ordered).1
        fun _ _ => UInt32.zero_le
      have clock : d.previousMs = passed := by
        rw [convertAll_previousMs walked]
        simp [List.filterMap_append]
      have unstamped : ∀ v ∈ [startGame record metadata], stamps v = [] := by simpa using header
      rw [shape, ← List.singleton_append, elapsed_append, elapsed_of_unstamped unstamped]
      rw [clock] at run
      simpa using run
    · obtain ⟨pre, c, d, walked, made⟩ := eventPart_eq converted
      obtain ⟨once, -⟩ := (convertTimed_gap made).2 passed rfl
      have clock : c.previousMs = lastPassed before := convertAll_previousMs walked
      rw [List.filterMap_append, List.pairwise_append] at ordered
      have later : lastPassed before ≤ passed := by
        rw [lastPassed]
        cases last : (before.filterMap Prod.fst).getLast? with
        | none => exact UInt32.zero_le
        | some previous =>
            exact ordered.2.2 previous (List.mem_of_getLast? last) passed (by simp)
      rw [clock] at once
      exact ⟨_, gapSince_toNat later, once⟩
  · rintro before e after rfl
    obtain ⟨pre, c, d, -, made⟩ := eventPart_eq converted
    exact ((convertTimed_gap made).1 rfl).1
  · obtain ⟨⟨body, last⟩, walked, same⟩ := Outcome.bind_eq_ok.mp converted
    cases same
    simp only [List.forall_mem_cons, List.forall_mem_append]
    refine ⟨?_, convertAll_stampedWell walked, ?_, by simp⟩
    · simp [StampedWell, header]
    · simp [StampedWell, footer]

def declaredAndRonned : List TimedEvent :=
  [ (some 1000, .newRound {}), (none, .dealTile { seat := 2, tile := "1m" })
  , (some 3500, .discardTile { seat := 2, tile := "1m", isLiqi := true })
  , (some 4000, .hule { hules := [{}] }) ]

/-- A round dealt at 1000 ms, a riichi at 3500 ms and a ron on it at 4000 ms. -/
theorem dt_ms_telescopes_to_the_ron :
    ∃ stream, eventsToMjai emptyRecord declaredAndRonned none = .ok stream ∧
      elapsed (streamUpTo 0 declaredAndRonned stream) = 4000 := by
  have safe : ∀ event ∈ declaredAndRonned, event.2.Safe := by decide
  obtain ⟨stream, converted⟩ := eventsToMjai_returns emptyRecord none safe
  obtain ⟨sums, -⟩ := dt_ms_telescopes converted (by decide)
  exact ⟨stream, converted, (sums (declaredAndRonned.take 3) 4000 _ [] rfl).1⟩

end MajsoulManager.Majsoul
