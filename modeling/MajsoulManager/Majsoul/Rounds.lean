/-
# Majsoul.Rounds — what a round owes to the rounds before it

The converter carries five variables through a game.  A new round clears two of
them, the pending riichi and the indicators; the clock only feeds `dt_ms`.  The
last discarder and the kan that may be robbed are not cleared: a call without
`froms`, or a ron, that comes before the round's own first discard can read the
value an earlier round left behind.

`quiet` scans a round for such a read.  A round without one converts to the same
objects after any two histories (`agree_run`), a round with one does not
(`inherits_run`), so a round is isolated exactly when it is quiet
(`roundIsolated_iff`).

Pole: `robbedConcealedKan`, a ron on a concealed kan before the first discard.
-/
import MajsoulManager.Majsoul.Convert

namespace MajsoulManager.Majsoul

open MajsoulManager.Theory
open MajsoulManager.Record

set_option autoImplicit false

/-! ## Rounds and their part of the stream -/

def GameEvent.endsRound : GameEvent → Bool
  | .hule _ | .noTile _ | .liuJu _ => true
  | _ => false

def GameEvent.opensRound : GameEvent → Bool
  | .newRound _ => true
  | _ => false

/-- From a `NewRound` to the event that ends the round. -/
def IsRound (events : List GameEvent) : Prop :=
  ∃ opening middle last, events = .newRound opening :: (middle ++ [last]) ∧
    last.endsRound = true ∧ ∀ e ∈ middle, e.endsRound = false ∧ e.opensRound = false

/-- An object without its `dt_ms`. -/
def untimed : Value → Value
  | .object fields => .object (fields.filter (·.1 != "dt_ms"))
  | other => other

/-- How many objects some events produce. -/
def emittedCount (numPlayers : Nat) (events : List TimedEvent) : Nat :=
  match convertAll numPlayers {} events with
  | .ok (out, _) => out.length
  | .err _ | .panic => 0

/-- The objects of a stream that the events of a round produced: past the header
and what came before the round. -/
def roundPart (numPlayers : Nat) (before round : List TimedEvent) (stream : List Value) :
    List Value :=
  (stream.drop (1 + emittedCount numPlayers before)).take
    (emittedCount numPlayers (before ++ round) - emittedCount numPlayers before)

/-- Any two games with this header and these events as one round have the same
objects for it, apart from the clock. -/
def RoundIsolated (record : GameRecord) (metadata : Option GameMetadata) (events : List GameEvent) :
    Prop :=
  ∀ before₁ round₁ after₁ before₂ round₂ after₂ stream₁ stream₂,
    round₁.map Prod.snd = events → round₂.map Prod.snd = events →
    eventsToMjai record (before₁ ++ round₁ ++ after₁) metadata = .ok stream₁ →
    eventsToMjai record (before₂ ++ round₂ ++ after₂) metadata = .ok stream₂ →
    (roundPart record.playerNames.length before₁ round₁ stream₁).map untimed =
      (roundPart record.playerNames.length before₂ round₂ stream₂).map untimed

/-! ## Which events read an earlier round -/

/-- What a round has settled of its own: nothing, its last kan, or its last
discard and the kan after it. -/
inductive Own where
  | nothing
  | kan (robbable : Option UInt32)
  | discard (seat : UInt32) (robbable : Option UInt32)
  deriving DecidableEq

def Own.after : Own → GameEvent → Own
  | _, .newRound _ => .nothing
  | _, .discardTile e => .discard e.seat none
  | .discard seat _, .anGangAddGang e => .discard seat (robbable e)
  | _, .anGangAddGang e => .kan (robbable e)
  | own, _ => own

/-- Whose last discard a ron by `seat` falls back on. -/
def Own.ronReads (own : Own) (seat : UInt32) : Bool :=
  match own with
  | .nothing => true
  | .kan robbed => robbed.filter (· != seat) == none
  | .discard _ _ => false

/-- The event reads a variable no event of its round has set. -/
def Own.reads (own : Own) : GameEvent → Bool
  | .chiPengGang e =>
      e.froms.isEmpty && match own with
        | .discard _ _ => false
        | _ => true
  | .hule e => e.hules.any fun win => !win.zimo && own.ronReads win.seat
  | _ => false

/-- No event from here on reads an earlier round. -/
def quiet : Own → List GameEvent → Bool
  | _, [] => true
  | own, e :: rest => !own.reads e && quiet (own.after e) rest

/-! ## The walk, one event at a time -/

theorem convertAll_append (numPlayers : Nat) (c : Converter) (first second : List TimedEvent) :
    convertAll numPlayers c (first ++ second) = (do
      let (out, c) ← convertAll numPlayers c first
      let (more, c) ← convertAll numPlayers c second
      .ok (out ++ more, c)) := by
  induction first generalizing c with
  | nil =>
      simp only [List.nil_append, convertAll, Outcome.ok_bind]
      cases convertAll numPlayers c second <;> rfl
  | cons event rest ih =>
      rw [List.cons_append, convertAll, convertAll]
      cases convertTimed numPlayers c event with
      | err reason => rfl
      | panic => rfl
      | ok out =>
          simp only [Outcome.ok_bind, ih]
          cases convertAll numPlayers out.2 rest with
          | err reason => rfl
          | panic => rfl
          | ok more =>
              simp only [Outcome.ok_bind]
              cases convertAll numPlayers more.2 second with
              | err reason => rfl
              | panic => rfl
              | ok last => simp [List.append_assoc]

theorem untimed_insert (v : Value) (isObj : v.isObject = true) (item : Value) :
    untimed (v.insert "dt_ms" item) = untimed v := by
  cases v with
  | object fields => simp [Value.insert, untimed, List.filter_append, List.filter_filter]
  | _ => cases isObj

/-- Every other member of an object is read as before. -/
theorem get_untimed {name : String} (other : name ≠ "dt_ms") (v : Value) :
    (untimed v).get name = v.get name := by
  cases v with
  | object fields =>
      show (fields.filter (·.1 != "dt_ms")).lookup name = fields.lookup name
      induction fields with
      | nil => rfl
      | cons field rest ih =>
          obtain ⟨key, value⟩ := field
          by_cases clock : key = "dt_ms"
          · subst clock
            simp [List.lookup, ih, beq_eq_false_iff_ne.mpr other]
          · by_cases same : name = key
            · simp [clock, List.lookup, same]
            · simp [clock, List.lookup, ih, beq_eq_false_iff_ne.mpr same]
  | _ => rfl

theorem untimed_stamped (gap : UInt32) {out : List Value}
    (objects : ∀ v ∈ out, v.isObject = true) :
    (stamped gap out).map untimed = out.map untimed := by
  cases out with
  | nil => rfl
  | cons first rest =>
      obtain ⟨here, later⟩ := List.forall_mem_cons.mp objects
      simp only [stamped, List.map_cons, List.map_map, untimed_insert first here, List.cons.injEq,
        true_and]
      refine List.map_congr_left fun v member => ?_
      exact untimed_insert v (later v member) _

/-- The clock of an event touches nothing but `dt_ms` and the clock. -/
theorem convertTimed_plain {numPlayers : Nat} {c d : Converter} {event : TimedEvent}
    {out : List Value} (converted : convertTimed numPlayers c event = .ok (out, d)) :
    ∃ plain next, convertEvent numPlayers c event.2 = .ok (plain, next) ∧
      out.map untimed = plain.map untimed ∧ d = { next with previousMs := d.previousMs } := by
  obtain ⟨⟨plain, next⟩, made, stamping⟩ := Outcome.bind_eq_ok.mp converted
  have objects := convertEvent_isObject made
  rw [stamp_eq objects] at stamping
  refine ⟨plain, next, made, ?_⟩
  cases clock : event.1 with
  | none =>
      rw [clock] at stamping
      cases stamping
      exact ⟨rfl, rfl⟩
  | some passed =>
      rw [clock] at stamping
      cases stamping
      exact ⟨untimed_stamped _ objects, rfl⟩

/-- A reading of the variables that each event moves on its own, whatever the clock,
is folded over a walk. -/
theorem convertAll_tracks {σ : Type} {read : Converter → σ} {after : σ → GameEvent → σ}
    {numPlayers : Nat}
    (clockless : ∀ (c : Converter) (clock : UInt32), read { c with previousMs := clock } = read c)
    (step : ∀ {c d : Converter} {e : GameEvent} {out : List Value},
      convertEvent numPlayers c e = .ok (out, d) → read d = after (read c) e)
    {c d : Converter} {events : List TimedEvent} {out : List Value}
    (done : convertAll numPlayers c events = .ok (out, d)) :
    read d = (events.map Prod.snd).foldl after (read c) := by
  induction events generalizing c out with
  | nil =>
      cases done
      rfl
  | cons event rest ih =>
      obtain ⟨here, next, later, first, second, rfl⟩ := convertAll_cons_ok done
      obtain ⟨plain, moved, made, -, clock⟩ := convertTimed_plain first
      rw [ih second, clock, clockless, step made, List.map_cons, List.foldl_cons]

/-! ## Quiet rounds -/

/-- The two converters agree on all the round has settled. -/
structure Agree (own : Own) (c₁ c₂ : Converter) : Prop where
  reach : c₁.pendingReach = c₂.pendingReach
  doras : c₁.revealedDoras = c₂.revealedDoras
  settled : match own with
    | .nothing => True
    | .kan robbed => c₁.kanPendingChankan = robbed ∧ c₂.kanPendingChankan = robbed
    | .discard seat robbed =>
        (c₁.kanPendingChankan = robbed ∧ c₂.kanPendingChankan = robbed) ∧
          c₁.lastDiscarder = some seat ∧ c₂.lastDiscarder = some seat

/-- What is outside the round comes after it has settled nothing. -/
theorem newRound_agree {numPlayers : Nat} {opening : NewRound} {c₁ c₂ d₁ d₂ : Converter}
    {out₁ out₂ : List Value}
    (first : convertEvent numPlayers c₁ (.newRound opening) = .ok (out₁, d₁))
    (second : convertEvent numPlayers c₂ (.newRound opening) = .ok (out₂, d₂)) :
    out₁ = out₂ ∧ Agree .nothing d₁ d₂ := by
  cases first
  cases second
  exact ⟨rfl, rfl, rfl, trivial⟩

theorem huleTarget_agree {own : Own} {c₁ c₂ : Converter} (agree : Agree own c₁ c₂) {win : HuleInfo}
    (settled : (!win.zimo && own.ronReads win.seat) = false) :
    huleTarget c₁.kanPendingChankan c₁.lastDiscarder win =
      huleTarget c₂.kanPendingChankan c₂.lastDiscarder win := by
  unfold huleTarget
  split
  · rfl
  · rename_i ron
    have own_ron : own.ronReads win.seat = false := by simpa [ron] using settled
    cases own with
    | nothing => simp [Own.ronReads] at own_ron
    | kan robbed =>
        obtain ⟨same₁, same₂⟩ := agree.settled
        rw [same₁, same₂]
        cases robbed with
        | none => simp [Own.ronReads] at own_ron
        | some seat =>
            have other : (seat != win.seat) = true := by
              simpa [Own.ronReads, Option.filter] using own_ron
            simp [Option.filter, other]
    | discard seat robbed =>
        obtain ⟨⟨same₁, same₂⟩, last₁, last₂⟩ := agree.settled
        rw [same₁, same₂, last₁, last₂]

/-- **One quiet event**: the same objects, and the converters still agree. -/
theorem agree_step {numPlayers : Nat} {own : Own} {c₁ c₂ d₁ d₂ : Converter} {e : GameEvent}
    {out₁ out₂ : List Value} (agree : Agree own c₁ c₂) (silent : own.reads e = false)
    (first : convertEvent numPlayers c₁ e = .ok (out₁, d₁))
    (second : convertEvent numPlayers c₂ e = .ok (out₂, d₂)) :
    out₁ = out₂ ∧ Agree (own.after e) d₁ d₂ := by
  cases e with
  | newRound e => exact newRound_agree first second
  | dealTile e =>
      cases first
      cases second
      rw [agree.reach, agree.doras]
      exact ⟨rfl, rfl, rfl, agree.settled⟩
  | discardTile e =>
      cases first
      cases second
      rw [agree.doras, agree.reach]
      exact ⟨rfl, rfl, rfl, ⟨rfl, rfl⟩, rfl, rfl⟩
  | chiPengGang e =>
      cases first
      cases second
      have target : calledFrom e.froms e.seat c₁.lastDiscarder =
          calledFrom e.froms e.seat c₂.lastDiscarder := by
        cases froms : e.froms with
        | cons seat rest => simp [calledFrom, List.getLast?_cons]
        | nil =>
            cases own with
            | discard seat robbed => rw [agree.settled.2.1, agree.settled.2.2]
            | nothing => simp [Own.reads, froms] at silent
            | kan robbed => simp [Own.reads, froms] at silent
      rw [agree.reach, target]
      exact ⟨rfl, rfl, agree.doras, agree.settled⟩
  | anGangAddGang e =>
      obtain ⟨kan₁, made₁, same₁⟩ := Outcome.bind_eq_ok.mp first
      obtain ⟨kan₂, made₂, same₂⟩ := Outcome.bind_eq_ok.mp second
      cases same₁
      cases same₂
      rw [made₁] at made₂
      cases made₂
      rw [agree.doras]
      refine ⟨rfl, agree.reach, rfl, ?_⟩
      cases own with
      | nothing => exact ⟨rfl, rfl⟩
      | kan robbed => exact ⟨rfl, rfl⟩
      | discard seat robbed => exact ⟨⟨rfl, rfl⟩, agree.settled.2⟩
  | hule e =>
      cases first
      cases second
      refine ⟨?_, rfl, agree.doras, agree.settled⟩
      congr 1
      refine List.map_congr_left fun win member => ?_
      have settled : (!win.zimo && own.ronReads win.seat) = false := by
        have all := List.any_eq_false.mp silent win member
        simpa using all
      rw [huleTarget_agree agree settled]
  | noTile e =>
      cases first
      cases second
      rw [agree.reach]
      exact ⟨rfl, rfl, agree.doras, agree.settled⟩
  | liuJu e =>
      cases first
      cases second
      rw [agree.reach]
      exact ⟨rfl, rfl, agree.doras, agree.settled⟩
  | baBei e =>
      cases first
      cases second
      rw [agree.doras]
      exact ⟨rfl, agree.reach, rfl, agree.settled⟩

theorem Agree.clock {own : Own} {c₁ c₂ d₁ d₂ : Converter} (agree : Agree own c₁ c₂)
    (same₁ : d₁ = { c₁ with previousMs := d₁.previousMs })
    (same₂ : d₂ = { c₂ with previousMs := d₂.previousMs }) : Agree own d₁ d₂ := by
  rw [same₁, same₂]
  exact ⟨agree.reach, agree.doras, agree.settled⟩

/-- **A quiet walk**: the same objects but for the clock. -/
theorem agree_run {numPlayers : Nat} {events : List GameEvent} {own : Own} {c₁ c₂ d₁ d₂ : Converter}
    {timed₁ timed₂ : List TimedEvent} {out₁ out₂ : List Value} (agree : Agree own c₁ c₂)
    (silent : quiet own events = true) (same₁ : timed₁.map Prod.snd = events)
    (same₂ : timed₂.map Prod.snd = events)
    (first : convertAll numPlayers c₁ timed₁ = .ok (out₁, d₁))
    (second : convertAll numPlayers c₂ timed₂ = .ok (out₂, d₂)) :
    out₁.map untimed = out₂.map untimed := by
  induction events generalizing own c₁ c₂ timed₁ timed₂ out₁ out₂ with
  | nil =>
      obtain rfl := List.map_eq_nil_iff.mp same₁
      obtain rfl := List.map_eq_nil_iff.mp same₂
      cases first
      cases second
      rfl
  | cons e rest ih =>
      obtain ⟨event₁, more₁, rfl, here₁, tail₁⟩ := List.map_eq_cons_iff.mp same₁
      obtain ⟨event₂, more₂, rfl, here₂, tail₂⟩ := List.map_eq_cons_iff.mp same₂
      obtain ⟨head₁, next₁, later₁, step₁, run₁, rfl⟩ := convertAll_cons_ok first
      obtain ⟨head₂, next₂, later₂, step₂, run₂, rfl⟩ := convertAll_cons_ok second
      obtain ⟨plain₁, last₁, made₁, shape₁, clock₁⟩ := convertTimed_plain step₁
      obtain ⟨plain₂, last₂, made₂, shape₂, clock₂⟩ := convertTimed_plain step₂
      rw [here₁] at made₁
      rw [here₂] at made₂
      simp only [quiet, Bool.and_eq_true, Bool.not_eq_true'] at silent
      obtain ⟨objects, agree⟩ := agree_step agree silent.1 made₁ made₂
      rw [List.map_append, List.map_append, shape₁, shape₂, objects,
        ih (agree.clock clock₁ clock₂) silent.2 tail₁ tail₂ run₁ run₂]

/-! ## Rounds that read an earlier one -/

/-- One converter started with no last discarder, the other with `seat`; what the
round has settled they share. -/
structure Inherits (own : Own) (seat : UInt32) (c₁ c₂ : Converter) : Prop where
  reach : c₁.pendingReach = c₂.pendingReach
  doras : c₁.revealedDoras = c₂.revealedDoras
  settled : match own with
    | .nothing =>
        (c₁.kanPendingChankan = none ∧ c₂.kanPendingChankan = none) ∧
          c₁.lastDiscarder = none ∧ c₂.lastDiscarder = some seat
    | .kan robbed =>
        (c₁.kanPendingChankan = robbed ∧ c₂.kanPendingChankan = robbed) ∧
          c₁.lastDiscarder = none ∧ c₂.lastDiscarder = some seat
    | .discard last robbed =>
        (c₁.kanPendingChankan = robbed ∧ c₂.kanPendingChankan = robbed) ∧
          c₁.lastDiscarder = some last ∧ c₂.lastDiscarder = some last

theorem Inherits.agree {own : Own} {seat : UInt32} {c₁ c₂ : Converter}
    (inherits : Inherits own seat c₁ c₂) : Agree own c₁ c₂ := by
  refine ⟨inherits.reach, inherits.doras, ?_⟩
  cases own with
  | nothing => trivial
  | kan robbed => exact inherits.settled.1
  | discard last robbed => exact inherits.settled

/-- Any event passes the inheritance on. -/
theorem inherits_step {numPlayers : Nat} {own : Own} {seat : UInt32} {c₁ c₂ d₁ d₂ : Converter}
    {e : GameEvent} {out₁ out₂ : List Value} (inherits : Inherits own seat c₁ c₂)
    (inside : e.opensRound = false)
    (first : convertEvent numPlayers c₁ e = .ok (out₁, d₁))
    (second : convertEvent numPlayers c₂ e = .ok (out₂, d₂)) :
    Inherits (own.after e) seat d₁ d₂ := by
  cases e with
  | newRound e => cases inside
  | discardTile e =>
      cases first
      cases second
      exact ⟨by simp only [inherits.reach], by simp only [inherits.doras], ⟨rfl, rfl⟩, rfl, rfl⟩
  | anGangAddGang e =>
      obtain ⟨kan₁, -, same₁⟩ := Outcome.bind_eq_ok.mp first
      obtain ⟨kan₂, -, same₂⟩ := Outcome.bind_eq_ok.mp second
      cases same₁
      cases same₂
      refine ⟨inherits.reach, by simp only [inherits.doras], ?_⟩
      cases own with
      | nothing => exact ⟨⟨rfl, rfl⟩, inherits.settled.2⟩
      | kan robbed => exact ⟨⟨rfl, rfl⟩, inherits.settled.2⟩
      | discard last robbed => exact ⟨⟨rfl, rfl⟩, inherits.settled.2⟩
  | dealTile e | baBei e | chiPengGang e | hule e | noTile e | liuJu e =>
      cases first
      cases second
      exact ⟨by simp only [inherits.reach], by simp only [inherits.doras], inherits.settled⟩

/-- A seat no fallback of the event names. -/
def strangerTo : GameEvent → UInt32
  | .chiPengGang e => e.seat + 1
  | _ => 1

theorem u32_inj {a b : UInt32} (same : u32 a = u32 b) : a = b := by
  simp only [u32, Value.number.injEq, Number.posInt.injEq] at same
  exact UInt32.toUInt64_inj.mp same

theorem callEvent_target {e : ChiPengGang} {a b : UInt32}
    (same : untimed (callEvent e a) = untimed (callEvent e b)) : a = b := by
  have target := congrArg (·.get "target") same
  exact u32_inj (Option.some.inj target)

theorem horaEvent_target {e : Hule} {win : HuleInfo} {a b : UInt32}
    (same : untimed (horaEvent e win a) = untimed (horaEvent e win b)) : a = b := by
  have target := congrArg (·.get "target") same
  exact u32_inj (Option.some.inj target)

/-- A ron that falls back on an earlier round names seat 0 or the seat that round left. -/
theorem huleTarget_inherits {own : Own} {seat : UInt32} {c₁ c₂ : Converter}
    (inherits : Inherits own seat c₁ c₂) {win : HuleInfo}
    (reading : (!win.zimo && own.ronReads win.seat) = true) :
    huleTarget c₁.kanPendingChankan c₁.lastDiscarder win = 0 ∧
      huleTarget c₂.kanPendingChankan c₂.lastDiscarder win = seat := by
  simp only [Bool.and_eq_true, Bool.not_eq_true'] at reading
  obtain ⟨ron, reading⟩ := reading
  cases own with
  | nothing =>
      obtain ⟨⟨kan₁, kan₂⟩, last₁, last₂⟩ := inherits.settled
      simp [huleTarget, ron, kan₁, kan₂, last₁, last₂]
  | kan robbed =>
      obtain ⟨⟨kan₁, kan₂⟩, last₁, last₂⟩ := inherits.settled
      have unrobbed : robbed.filter (· != win.seat) = none := eq_of_beq reading
      simp [huleTarget, ron, kan₁, kan₂, last₁, last₂, unrobbed]
  | discard last robbed => simp [Own.ronReads] at reading

/-- **One event that reads**: the two histories show, in as many objects. -/
theorem inherits_reads {numPlayers : Nat} {own : Own} {c₁ c₂ d₁ d₂ : Converter} {e : GameEvent}
    {out₁ out₂ : List Value} (inherits : Inherits own (strangerTo e) c₁ c₂)
    (reading : own.reads e = true)
    (first : convertEvent numPlayers c₁ e = .ok (out₁, d₁))
    (second : convertEvent numPlayers c₂ e = .ok (out₂, d₂)) :
    out₁.length = out₂.length ∧ out₁.map untimed ≠ out₂.map untimed := by
  cases e with
  | chiPengGang e =>
      cases first
      cases second
      simp only [Own.reads, Bool.and_eq_true, List.isEmpty_iff] at reading
      obtain ⟨none, reading⟩ := reading
      have lasts : c₁.lastDiscarder = Option.none ∧ c₂.lastDiscarder = some (e.seat + 1) := by
        cases own with
        | nothing => exact inherits.settled.2
        | kan robbed => exact inherits.settled.2
        | discard last robbed => simp at reading
      refine ⟨by simp [inherits.reach], fun same => ?_⟩
      rw [inherits.reach] at same
      simp only [List.map_append, List.append_cancel_left_eq, List.map_cons, List.map_nil,
        List.cons.injEq, and_true] at same
      have target := callEvent_target same
      simp [calledFrom, none, lasts.1, lasts.2] at target
  | hule e =>
      cases first
      cases second
      obtain ⟨win, member, reading⟩ := List.any_eq_true.mp reading
      refine ⟨by simp, fun same => ?_⟩
      simp only [List.map_append, List.append_cancel_right_eq, List.map_map] at same
      have target := horaEvent_target (List.map_inj_left.mp same win member)
      obtain ⟨zero, one⟩ := huleTarget_inherits inherits reading
      rw [zero, one] at target
      exact absurd (show (0 : UInt32) = 1 from target) (by decide)
  | _ => cases reading

/-- **A walk that reads**: some two histories show in it. -/
theorem inherits_run (numPlayers : Nat) {events : List GameEvent} {own : Own}
    (inside : ∀ e ∈ events, e.opensRound = false) (reading : quiet own events = false) :
    ∃ seat, ∀ c₁ c₂ d₁ d₂ out₁ out₂, Inherits own seat c₁ c₂ →
      convertAll numPlayers c₁ (events.map (none, ·)) = .ok (out₁, d₁) →
      convertAll numPlayers c₂ (events.map (none, ·)) = .ok (out₂, d₂) →
      out₁.map untimed ≠ out₂.map untimed := by
  induction events generalizing own with
  | nil => cases reading
  | cons e rest ih =>
      obtain ⟨here, later⟩ := List.forall_mem_cons.mp inside
      by_cases reads : own.reads e = true
      · refine ⟨strangerTo e, fun c₁ c₂ d₁ d₂ out₁ out₂ inherits first second same => ?_⟩
        obtain ⟨head₁, next₁, tail₁, step₁, -, rfl⟩ := convertAll_cons_ok first
        obtain ⟨head₂, next₂, tail₂, step₂, -, rfl⟩ := convertAll_cons_ok second
        obtain ⟨plain₁, last₁, made₁, shape₁, -⟩ := convertTimed_plain step₁
        obtain ⟨plain₂, last₂, made₂, shape₂, -⟩ := convertTimed_plain step₂
        obtain ⟨sized, differ⟩ := inherits_reads inherits reads made₁ made₂
        rw [List.map_append, List.map_append, shape₁, shape₂] at same
        exact differ (List.append_inj_left same (by simpa using sized))
      · have silent : own.reads e = false := by simpa using reads
        have tail : quiet (own.after e) rest = false := by simpa [quiet, silent] using reading
        obtain ⟨seat, shows⟩ := ih later tail
        refine ⟨seat, fun c₁ c₂ d₁ d₂ out₁ out₂ inherits first second same => ?_⟩
        obtain ⟨head₁, next₁, tail₁, step₁, run₁, rfl⟩ := convertAll_cons_ok first
        obtain ⟨head₂, next₂, tail₂, step₂, run₂, rfl⟩ := convertAll_cons_ok second
        obtain ⟨plain₁, last₁, made₁, shape₁, clock₁⟩ := convertTimed_plain step₁
        obtain ⟨plain₂, last₂, made₂, shape₂, clock₂⟩ := convertTimed_plain step₂
        have objects := (agree_step inherits.agree silent made₁ made₂).1
        have passed := inherits_step inherits here made₁ made₂
        rw [List.map_append, List.map_append, shape₁, shape₂, objects,
          List.append_cancel_left_eq] at same
        refine shows next₁ next₂ d₁ d₂ tail₁ tail₂ ?_ run₁ run₂ same
        rw [clock₁, clock₂]
        exact ⟨passed.reach, passed.doras, passed.settled⟩

/-! ## Isolation -/

/-- The part of a stream that is a round's is what the walk wrote for it. -/
theorem roundPart_eq {record : GameRecord} {metadata : Option GameMetadata}
    {before round after : List TimedEvent} {stream : List Value}
    (converted : eventsToMjai record (before ++ round ++ after) metadata = .ok stream) :
    ∃ pre c out d, convertAll record.playerNames.length {} before = .ok (pre, c) ∧
      convertAll record.playerNames.length c round = .ok (out, d) ∧
      roundPart record.playerNames.length before round stream = out := by
  obtain ⟨⟨body, last⟩, walked, same⟩ := Outcome.bind_eq_ok.mp converted
  cases same
  rw [convertAll_append] at walked
  obtain ⟨⟨upto, reached⟩, whole, rest⟩ := Outcome.bind_eq_ok.mp walked
  obtain ⟨⟨post, final⟩, -, joined⟩ := Outcome.bind_eq_ok.mp rest
  cases joined
  have halves := whole
  rw [convertAll_append] at halves
  obtain ⟨⟨pre, c⟩, first, halves⟩ := Outcome.bind_eq_ok.mp halves
  obtain ⟨⟨out, d⟩, second, joined⟩ := Outcome.bind_eq_ok.mp halves
  cases joined
  refine ⟨pre, c, out, _, first, second, ?_⟩
  have counted : emittedCount record.playerNames.length before = pre.length := by
    simp [emittedCount, first]
  have through : emittedCount record.playerNames.length (before ++ round) =
      pre.length + out.length := by
    simp [emittedCount, whole]
  rw [roundPart, counted, through, Nat.add_comm 1, List.drop_succ_cons, Nat.add_sub_cancel_left]
  simp [List.append_assoc]

/-- The part of a stream that is one event's is what the walk wrote for it. -/
theorem eventPart_eq {record : GameRecord} {metadata : Option GameMetadata}
    {before after : List TimedEvent} {event : TimedEvent} {stream : List Value}
    (converted : eventsToMjai record (before ++ event :: after) metadata = .ok stream) :
    ∃ pre c d, convertAll record.playerNames.length {} before = .ok (pre, c) ∧
      convertTimed record.playerNames.length c event =
        .ok (roundPart record.playerNames.length before [event] stream, d) := by
  have split : before ++ event :: after = before ++ [event] ++ after := by simp
  rw [split] at converted
  obtain ⟨pre, c, out, d, walked, made, part⟩ := roundPart_eq converted
  obtain ⟨here, next, later, first, second, rfl⟩ := convertAll_cons_ok made
  cases second
  rw [List.append_nil] at part
  exact ⟨pre, c, d, walked, part ▸ first⟩

/-- The earlier round whose last discard is by `seat`. -/
def roundDiscardedBy (seat : UInt32) : List TimedEvent :=
  [(none, .newRound {}), (none, .discardTile { seat := seat }), (none, .noTile {})]

theorem roundDiscardedBy_safe (seat : UInt32) :
    ∀ event ∈ roundDiscardedBy seat, event.2.Safe := by
  simp [roundDiscardedBy, GameEvent.Safe]

/-- A round that reads an earlier one is not isolated. -/
theorem not_isolated_of_reads (record : GameRecord) (metadata : Option GameMetadata)
    {opening : NewRound} {rest : List GameEvent} (inside : ∀ e ∈ rest, e.opensRound = false)
    (safe : ∀ e ∈ rest, e.Safe) (reading : quiet .nothing rest = false) :
    ¬ RoundIsolated record metadata (.newRound opening :: rest) := by
  intro isolated
  obtain ⟨seat, shows⟩ := inherits_run record.playerNames.length inside reading
  have timed : (GameEvent.newRound opening :: rest).map ((none : Option UInt32), ·) =
      (none, .newRound opening) :: rest.map (none, ·) := rfl
  have same : ((GameEvent.newRound opening :: rest).map ((none : Option UInt32), ·)).map Prod.snd =
      .newRound opening :: rest := by simp [List.map_map, Function.comp_def]
  have returns : ∀ before, (∀ event ∈ before, event.2.Safe) → ∃ stream,
      eventsToMjai record (before ++
        (GameEvent.newRound opening :: rest).map ((none : Option UInt32), ·) ++ []) metadata =
          .ok stream := by
    intro before earlier
    refine eventsToMjai_returns record metadata fun event member => ?_
    simp only [List.append_nil, List.mem_append, List.mem_map] at member
    rcases member with member | ⟨e, member, rfl⟩
    · exact earlier event member
    · rcases List.mem_cons.mp member with rfl | member
      · trivial
      · exact safe e member
  obtain ⟨stream₁, converted₁⟩ := returns [] (by simp)
  obtain ⟨stream₂, converted₂⟩ := returns (roundDiscardedBy seat) (roundDiscardedBy_safe seat)
  have equal := isolated _ _ _ _ _ _ _ _ same same converted₁ converted₂
  obtain ⟨pre₁, c₁, out₁, d₁, start₁, walk₁, part₁⟩ := roundPart_eq converted₁
  obtain ⟨pre₂, c₂, out₂, d₂, start₂, walk₂, part₂⟩ := roundPart_eq converted₂
  rw [part₁, part₂] at equal
  rw [timed] at walk₁ walk₂
  obtain ⟨head₁, next₁, tail₁, step₁, run₁, rfl⟩ := convertAll_cons_ok walk₁
  obtain ⟨head₂, next₂, tail₂, step₂, run₂, rfl⟩ := convertAll_cons_ok walk₂
  cases start₁
  cases start₂
  cases step₁
  cases step₂
  simp only [List.map_append, List.append_cancel_left_eq] at equal
  refine shows _ _ _ _ _ _ ?_ run₁ run₂ equal
  exact ⟨rfl, rfl, ⟨rfl, rfl⟩, rfl, rfl⟩

/-- A quiet round is isolated. -/
theorem isolated_of_quiet (record : GameRecord) (metadata : Option GameMetadata)
    {opening : NewRound} {rest : List GameEvent} (silent : quiet .nothing rest = true) :
    RoundIsolated record metadata (.newRound opening :: rest) := by
  intro before₁ round₁ after₁ before₂ round₂ after₂ stream₁ stream₂ same₁ same₂ converted₁
    converted₂
  obtain ⟨pre₁, c₁, out₁, d₁, -, walk₁, part₁⟩ := roundPart_eq converted₁
  obtain ⟨pre₂, c₂, out₂, d₂, -, walk₂, part₂⟩ := roundPart_eq converted₂
  rw [part₁, part₂]
  obtain ⟨event₁, more₁, rfl, here₁, tails₁⟩ := List.map_eq_cons_iff.mp same₁
  obtain ⟨event₂, more₂, rfl, here₂, tails₂⟩ := List.map_eq_cons_iff.mp same₂
  obtain ⟨head₁, next₁, tail₁, step₁, run₁, rfl⟩ := convertAll_cons_ok walk₁
  obtain ⟨head₂, next₂, tail₂, step₂, run₂, rfl⟩ := convertAll_cons_ok walk₂
  obtain ⟨plain₁, last₁, made₁, shape₁, clock₁⟩ := convertTimed_plain step₁
  obtain ⟨plain₂, last₂, made₂, shape₂, clock₂⟩ := convertTimed_plain step₂
  rw [here₁] at made₁
  rw [here₂] at made₂
  obtain ⟨objects, agree⟩ := newRound_agree made₁ made₂
  rw [List.map_append, List.map_append, shape₁, shape₂, objects,
    agree_run (agree.clock clock₁ clock₂) silent tails₁ tails₂ run₁ run₂]

/-- **A round is isolated from the rounds before it exactly when none of its
events reads what they left.** -/
theorem roundIsolated_iff (record : GameRecord) (metadata : Option GameMetadata)
    {events : List GameEvent} (round : IsRound events) (safe : ∀ e ∈ events, e.Safe) :
    RoundIsolated record metadata events ↔ quiet .nothing events = true := by
  obtain ⟨opening, middle, last, rfl, ends, inside⟩ := round
  have lastInside : last.opensRound = false := by
    cases last with
    | newRound e => cases ends
    | _ => rfl
  have restInside : ∀ e ∈ middle ++ [last], e.opensRound = false := by
    intro e member
    rcases List.mem_append.mp member with member | member
    · exact (inside e member).2
    · rw [List.mem_singleton.mp member]
      exact lastInside
  have restSafe := (List.forall_mem_cons.mp safe).2
  change _ ↔ quiet .nothing (middle ++ [last]) = true
  constructor
  · intro isolated
    by_contra reading
    exact not_isolated_of_reads record metadata restInside restSafe (by simpa using reading) isolated
  · exact isolated_of_quiet record metadata

/-- A hand that opens with a concealed kan, robbed by another seat. -/
def robbedConcealedKan : List GameEvent :=
  [ .newRound {}, .dealTile {}, .anGangAddGang { tiles := "1m" }
  , .hule { hules := [{ seat := 1 }] } ]

/-- A hand whose ron is on a discard of its own. -/
def ronOnDiscard : List GameEvent :=
  [ .newRound {}, .dealTile {}, .discardTile { tile := "1m" }, .hule { hules := [{ seat := 1 }] } ]

def emptyRecord : GameRecord := ⟨"", 0, 0, 0, [], [], []⟩

theorem roundIsolated_iff_on_discard :
    RoundIsolated emptyRecord none ronOnDiscard ↔ quiet .nothing ronOnDiscard = true :=
  roundIsolated_iff emptyRecord none
    ⟨{}, [.dealTile {}, .discardTile { tile := "1m" }], _, rfl, rfl, by decide⟩ (by decide)

/-- The ron of `robbedConcealedKan` is charged to whoever discarded last in the
round before. -/
theorem robbedConcealedKan_not_isolated : ¬ RoundIsolated emptyRecord none robbedConcealedKan :=
  not_isolated_of_reads emptyRecord none (by decide) (by decide) (by decide)

end MajsoulManager.Majsoul
