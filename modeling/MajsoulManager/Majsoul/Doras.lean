/-
# Majsoul.Doras — the indicators of a round are announced as they turn

The game reports every indicator that is face up, on each event that can change
them: the deal of a round, a draw, a discard, a kan, a north declaration.  A stream
announces each indicator once, the first of a round in `start_kyoku` and the others
as `dora` objects.  The converter compares what is reported with how many it has
announced.

* `revealed_run`: a walk inside a round announces what its reports add.
* `doras_announced`: after any event of a round, what was announced is the last list
  that was reported.
-/
import MajsoulManager.Majsoul.Rounds
import Mathlib.Data.List.Chain

namespace MajsoulManager.Majsoul

open MajsoulManager.Theory
open MajsoulManager.Record

set_option autoImplicit false

/-! ## Reports and announcements -/

/-- The indicators an event reports; a call and the end of a hand report none. -/
def GameEvent.faceUp : GameEvent → List String
  | .newRound e => e.doras
  | .dealTile e => e.doras
  | .discardTile e => e.doras
  | .anGangAddGang e => e.doras
  | .baBei e => e.doras
  | .chiPengGang _ | .hule _ | .noTile _ | .liuJu _ => []

/-- The lists some events report, in order. -/
def reports (events : List GameEvent) : List (List String) :=
  (events.map GameEvent.faceUp).filter (· ≠ [])

/-- The last list that was reported, `opening` if there was none since. -/
def lastReport (opening : List String) (events : List GameEvent) : List String :=
  (reports events).getLast?.getD opening

/-- The indicator an object announces. -/
def announces (v : Value) : Option String :=
  match (v.get "type").bind Value.asStr with
  | some "start_kyoku" | some "dora" => (v.get "dora_marker").bind Value.asStr
  | _ => none

def announced (objects : List Value) : List String := objects.filterMap announces

theorem reports_cons (e : GameEvent) (rest : List GameEvent) :
    reports (e :: rest) = if e.faceUp = [] then reports rest else e.faceUp :: reports rest := by
  by_cases none : e.faceUp = [] <;> simp [reports, none]

theorem reports_append (first second : List GameEvent) :
    reports (first ++ second) = reports first ++ reports second := by
  simp [reports]

/-! ## The objects of one event -/

theorem announces_mjai {type : String} (fields : List (String × Value))
    (other : type ≠ "start_kyoku") (another : type ≠ "dora") : announces (mjai type fields) = none := by
  have kind : ((mjai type fields).get "type").bind Value.asStr = some type := rfl
  unfold announces
  rw [kind]
  split
  · rename_i same
    exact absurd (Option.some.inj same) other
  · rename_i same
    exact absurd (Option.some.inj same) another
  · rfl

theorem announces_doraEvent (marker : String) : announces (doraEvent marker) = some marker := rfl

theorem announces_startKyoku (numPlayers : Nat) (e : NewRound) :
    announces (startKyoku numPlayers e) = some e.doraMarker := rfl

theorem announced_doras (markers : List String) : announced (markers.map doraEvent) = markers := by
  induction markers with
  | nil => rfl
  | cons marker rest ih =>
      rw [announced, List.map_cons, List.filterMap_cons, announces_doraEvent]
      exact congrArg _ ih

@[simp] theorem announced_append (first second : List Value) :
    announced (first ++ second) = announced first ++ announced second := by
  simp [announced]

theorem announced_silent {objects : List Value} (silent : ∀ v ∈ objects, announces v = none) :
    announced objects = [] :=
  List.filterMap_eq_nil_iff.mpr silent

theorem announced_cons_silent {v : Value} (silent : announces v = none) (rest : List Value) :
    announced (v :: rest) = announced rest := by
  rw [announced, List.filterMap_cons, silent]
  rfl

theorem announced_reachAccepted (pending : Option UInt32) : announced (reachAccepted pending) = [] := by
  refine announced_silent ?_
  cases pending with
  | none => simp [reachAccepted]
  | some actor =>
      simp only [reachAccepted, List.mem_singleton, forall_eq]
      exact announces_mjai _ (by decide) (by decide)

theorem announced_reachEvent (e : DiscardTile) : announced (reachEvent e) = [] := by
  refine announced_silent ?_
  unfold reachEvent
  split
  · simp only [List.mem_singleton, forall_eq]
    exact announces_mjai _ (by decide) (by decide)
  · simp

theorem kanEvent_silent {e : AnGangAddGang} {kan : Value} (made : kanEvent e = .ok kan) :
    announces kan = none := by
  unfold kanEvent at made
  split at made
  · obtain ⟨consumed, -, same⟩ := Outcome.bind_eq_ok.mp made
    cases same
    exact announces_mjai _ (by decide) (by decide)
  · cases made
    exact announces_mjai _ (by decide) (by decide)

theorem callEvent_silent (e : ChiPengGang) (target : UInt32) :
    announces (callEvent e target) = none := by
  cases kind : e.callType <;>
    simp only [callEvent, callName, kind] <;> exact announces_mjai _ (by decide) (by decide)

theorem endKyoku_silent : announces endKyoku = none := announces_mjai _ (by decide) (by decide)

/-- **One event inside a round**: it announces what its report has beyond the number
already announced. -/
theorem convertEvent_announced {numPlayers : Nat} {c d : Converter} {e : GameEvent}
    {out : List Value} (converted : convertEvent numPlayers c e = .ok (out, d))
    (inside : e.opensRound = false) :
    announced out = e.faceUp.drop c.revealedDoras.length ∧
      d.revealedDoras = revealDoras c.revealedDoras e.faceUp := by
  cases e with
  | newRound e => cases inside
  | dealTile e =>
      cases converted
      refine ⟨?_, rfl⟩
      rw [announced_append, announced_reachAccepted,
        announced_cons_silent (announces_mjai _ (by decide) (by decide)), newDoras, announced_doras]
      rfl
  | discardTile e =>
      cases converted
      refine ⟨?_, rfl⟩
      rw [announced_append, announced_reachEvent, discardEvent,
        announced_cons_silent (announces_mjai _ (by decide) (by decide)), newDoras, announced_doras]
      rfl
  | chiPengGang e =>
      cases converted
      refine ⟨?_, by simp [revealDoras, GameEvent.faceUp]⟩
      rw [announced_append, announced_reachAccepted, announced_cons_silent (callEvent_silent _ _)]
      simp [announced, GameEvent.faceUp]
  | anGangAddGang e =>
      obtain ⟨kan, made, same⟩ := Outcome.bind_eq_ok.mp converted
      cases same
      refine ⟨?_, rfl⟩
      rw [announced_cons_silent (kanEvent_silent made), newDoras, announced_doras]
      rfl
  | hule e =>
      cases converted
      refine ⟨?_, by simp [revealDoras, GameEvent.faceUp]⟩
      have wins : ∀ v ∈ e.hules.map (fun win =>
          horaEvent e win (huleTarget c.kanPendingChankan c.lastDiscarder win)), announces v = none := by
        intro v member
        obtain ⟨win, -, rfl⟩ := List.mem_map.mp member
        exact announces_mjai _ (by decide) (by decide)
      rw [announced_append, announced_silent wins, announced_cons_silent endKyoku_silent]
      simp [announced, GameEvent.faceUp]
  | noTile e =>
      cases converted
      refine ⟨?_, by simp [revealDoras, GameEvent.faceUp]⟩
      rw [announced_append, announced_reachAccepted, drawEvent,
        announced_cons_silent (announces_mjai _ (by decide) (by decide)),
        announced_cons_silent endKyoku_silent]
      simp [announced, GameEvent.faceUp]
  | liuJu e =>
      cases converted
      refine ⟨?_, by simp [revealDoras, GameEvent.faceUp]⟩
      rw [announced_append, announced_reachAccepted, abortEvent,
        announced_cons_silent (announces_mjai _ (by decide) (by decide)),
        announced_cons_silent endKyoku_silent]
      simp [announced, GameEvent.faceUp]
  | baBei e =>
      cases converted
      refine ⟨?_, rfl⟩
      rw [announced_cons_silent (announces_mjai _ (by decide) (by decide)), newDoras, announced_doras]
      rfl

theorem announces_untimed (v : Value) : announces (untimed v) = announces v := by
  rw [announces, announces, get_untimed (by decide), get_untimed (by decide)]

theorem announced_of_untimed {first second : List Value}
    (same : first.map untimed = second.map untimed) : announced first = announced second := by
  have both : ∀ objects : List Value, announced objects = (objects.map untimed).filterMap announces := by
    intro objects
    rw [List.filterMap_map, announced]
    exact congrArg (objects.filterMap ·) (funext fun v => (announces_untimed v).symm)
  rw [both first, both second, same]

/-! ## A walk inside a round -/

/-- A report that extends what was announced adds its tail. -/
theorem announced_tail {revealed faceUp : List String} (grows : revealed <+: faceUp) :
    revealed ++ faceUp.drop revealed.length = faceUp ∧ revealDoras revealed faceUp = faceUp := by
  obtain ⟨tail, rfl⟩ := grows
  refine ⟨by simp, ?_⟩
  cases tail with
  | nil => simp [revealDoras]
  | cons marker rest => simp [revealDoras]

/-- **A walk inside a round** announces what its reports add to what was announced. -/
theorem revealed_run {numPlayers : Nat} {c d : Converter} {events : List TimedEvent}
    {out : List Value} (done : convertAll numPlayers c events = .ok (out, d))
    (inside : ∀ event ∈ events, event.2.opensRound = false)
    (grows : (c.revealedDoras :: reports (events.map Prod.snd)).IsChain (· <+: ·)) :
    c.revealedDoras ++ announced out = lastReport c.revealedDoras (events.map Prod.snd) := by
  induction events generalizing c out with
  | nil =>
      cases done
      simp [announced, lastReport, reports]
  | cons event rest ih =>
      obtain ⟨here, next, later, first, second, rfl⟩ := convertAll_cons_ok done
      obtain ⟨plain, moved, made, same, clock⟩ := convertTimed_plain first
      obtain ⟨now, then_⟩ := List.forall_mem_cons.mp inside
      obtain ⟨told, kept⟩ := convertEvent_announced made now
      have revealed : next.revealedDoras = revealDoras c.revealedDoras event.2.faceUp := by
        rw [clock]
        exact kept
      have run := ih second then_
      rw [List.map_cons, reports_cons] at grows
      rw [announced_append, announced_of_untimed same, told, List.map_cons]
      by_cases none : event.2.faceUp = []
      · have stands : next.revealedDoras = c.revealedDoras := by
          rw [revealed, none]
          simp [revealDoras]
        rw [if_pos none] at grows
        rw [stands] at run
        rw [lastReport, reports_cons, if_pos none, none, List.drop_nil, List.nil_append]
        exact run grows
      · rw [if_neg none, List.isChain_cons_cons] at grows
        obtain ⟨whole, becomes⟩ := announced_tail grows.1
        rw [becomes] at revealed
        rw [revealed] at run
        rw [lastReport, reports_cons, if_neg none, List.getLast?_cons, Option.getD_some,
          ← List.append_assoc, whole]
        exact run grows.2

/-! ## A round -/

theorem parseNewRound_marker {data : Store.Bytes} {e : NewRound} (parsed : parseNewRound data = .ok e) :
    e.doraMarker = e.doras.head?.getD "" := by
  obtain ⟨read, -, same⟩ := Outcome.bind_eq_ok.mp parsed
  cases same
  rfl

/-- A parsed round opens with the first of its indicators. -/
theorem parseActions_marker {actions : List RecordAction} {events : List TimedEvent}
    (parsed : parseActions actions = .ok events) {clock : Option UInt32} {e : NewRound}
    (member : (clock, .newRound e) ∈ events) : e.doraMarker = e.doras.head?.getD "" := by
  obtain ⟨lists, mapped, same⟩ := Outcome.bind_eq_ok.mp parsed
  cases same
  obtain ⟨list, listed, inside⟩ := List.mem_flatten.mp member
  obtain ⟨action, -, read⟩ := Outcome.mem_of_mapM_ok mapped listed
  obtain ⟨found, got, rfl⟩ := Outcome.map_eq_ok.mp read
  cases found with
  | none => simp at inside
  | some event =>
      simp only [Option.map_some, Option.toList_some, List.mem_singleton, Prod.mk.injEq] at inside
      obtain ⟨-, rfl⟩ := inside
      unfold parseRecordAction at got
      repeat' split at got
      all_goals simp [Outcome.map_eq_ok] at got
      exact parseNewRound_marker got

/-- **The indicators of a round.**  In a parsed game, take a round whose reports are not
empty and extend one another: after each of its events, the indicator of `start_kyoku`
and the `dora` objects so far are, in order, the last list that was reported. -/
theorem doras_announced {record : GameRecord} {metadata : Option GameMetadata}
    {actions : List RecordAction} {before rest after : List TimedEvent} {clock : Option UInt32}
    {opening : NewRound} {stream : List Value}
    (parsed : parseActions actions = .ok (before ++ (clock, .newRound opening) :: (rest ++ after)))
    (converted : eventsToMjai record (before ++ (clock, .newRound opening) :: (rest ++ after)) metadata =
      .ok stream)
    (inside : ∀ event ∈ rest, event.2.opensRound = false) (shown : opening.doras ≠ [])
    (grows : (opening.doras :: reports (rest.map Prod.snd)).IsChain (· <+: ·)) :
    ∀ upto later, rest = upto ++ later →
      announced (roundPart record.playerNames.length before ((clock, .newRound opening) :: upto)
        stream) = lastReport opening.doras (upto.map Prod.snd) := by
  rintro upto later rfl
  have listed : (clock, GameEvent.newRound opening) ∈
      before ++ (clock, .newRound opening) :: (upto ++ later ++ after) := by simp
  have marker : opening.doraMarker = opening.doras.head?.getD "" := parseActions_marker parsed listed
  have split : before ++ (clock, GameEvent.newRound opening) :: (upto ++ later ++ after) =
      before ++ ((clock, .newRound opening) :: upto) ++ (later ++ after) := by simp
  rw [split] at converted
  obtain ⟨pre, c, out, d, -, made, part⟩ := roundPart_eq converted
  obtain ⟨here, next, more, first, second, rfl⟩ := convertAll_cons_ok made
  obtain ⟨plain, moved, opened, same, clock⟩ := convertTimed_plain first
  cases opened
  have revealed : next.revealedDoras = opening.doras := by rw [clock]
  have opens : announced here = opening.doras := by
    rw [announced_of_untimed same, announced, List.filterMap_cons, announces_startKyoku, marker]
    show _ :: announced _ = _
    rw [announced_doras]
    cases shape : opening.doras with
    | nil => exact absurd shape shown
    | cons first more => rfl
  rw [part, announced_append, opens, ← revealed]
  refine revealed_run second (fun event member => inside event (by simp [member])) ?_
  rw [List.map_append, reports_append, ← List.cons_append] at grows
  rw [revealed]
  exact grows.left_of_append

/-- A round dealt with one indicator, and the discard that shows a second. -/
def kanDoraActions : List RecordAction :=
  [ ⟨".lq.RecordNewRound", [0x82, 0x01, 0x02, 0x31, 0x7a], none⟩
  , ⟨".lq.RecordDiscardTile", [0x42, 0x02, 0x31, 0x7a, 0x42, 0x02, 0x30, 0x73], none⟩ ]

def kanDoraRound : NewRound := { doraMarker := "E", doras := ["E"] }

def kanDoraDiscard : TimedEvent := (none, .discardTile { doras := ["E", "5sr"] })

theorem doras_announced_on_the_discard :
    ∃ stream, eventsToMjai emptyRecord [(none, .newRound kanDoraRound), kanDoraDiscard] none =
        .ok stream ∧
      announced (roundPart 0 [] [(none, .newRound kanDoraRound)] stream) = ["E"] ∧
      announced (roundPart 0 [] [(none, .newRound kanDoraRound), kanDoraDiscard] stream) =
        ["E", "5sr"] := by
  have parsed : parseActions kanDoraActions =
      .ok [(none, .newRound kanDoraRound), kanDoraDiscard] := by decide +kernel
  obtain ⟨stream, converted⟩ := eventsToMjai_returns emptyRecord none (parseActions_safe parsed)
  have law := @doras_announced _ _ _ [] [kanDoraDiscard] [] _ _ _ parsed converted
    (by decide) (by decide) (by simp [reports, kanDoraRound, kanDoraDiscard, GameEvent.faceUp])
  exact ⟨stream, converted, law [] [kanDoraDiscard] rfl, law [kanDoraDiscard] [] rfl⟩

end MajsoulManager.Majsoul
