/-
# Majsoul.Ron — who a ron is charged to

A ron is won on another seat's tile.  The converter remembers the last discarder,
and beside it the seat whose added kan can still be robbed: a discard forgets that
seat, a concealed kan too, since only an added kan can be robbed.

* `ron_target_law`: the target is the seat of the discard or added kan the ron was
  won on; after a concealed kan it is still the last discarder.
* `ron_charged_elsewhere`: a concealed kan, and a north declaration, are not charged
  to the seat that made them.
-/
import MajsoulManager.Majsoul.Rounds

namespace MajsoulManager.Majsoul

open MajsoulManager.Theory
open MajsoulManager.Record

set_option autoImplicit false

/-! ## What a ron can be on -/

/-- The seat of a discard, a kan or a north declaration. -/
def GameEvent.claimable : GameEvent → Option UInt32
  | .discardTile e => some e.seat
  | .anGangAddGang e => some e.seat
  | .baBei e => some e.seat
  | _ => none

/-- The seat of a discard or an added kan. -/
def GameEvent.ronnable : GameEvent → Option UInt32
  | .discardTile e => some e.seat
  | .anGangAddGang e => robbable e
  | _ => none

/-- A concealed kan. -/
def GameEvent.concealed : GameEvent → Bool
  | .anGangAddGang e => robbable e == none
  | _ => false

/-- The seat of a discard. -/
def GameEvent.discards : GameEvent → Option UInt32
  | .discardTile e => some e.seat
  | _ => none

/-- `action` is the last of these events that satisfies `P`, and of the same round as
the end of them. -/
def LastOf (P : GameEvent → Prop) (events : List GameEvent) (action : GameEvent) : Prop :=
  P action ∧ ∃ earlier since, events = earlier ++ action :: since ∧
    ∀ e ∈ since, ¬ P e ∧ e.opensRound = false

/-- The last discard, kan or north declaration of the round. -/
def LastClaimable : List GameEvent → GameEvent → Prop := LastOf fun e => e.claimable.isSome = true

/-- The last discard of the round. -/
def LastDiscard : List GameEvent → GameEvent → Prop := LastOf fun e => e.discards.isSome = true

/-- The object of the `k`-th win of an event is a `hora` of the winner, charged to
`target`. -/
def ChargedTo (numPlayers : Nat) (before : List TimedEvent) (clock : Option UInt32) (e : Hule)
    (stream : List Value) (k : Nat) (win : HuleInfo) (target : UInt32) : Prop :=
  ∃ hora, (roundPart numPlayers before [(clock, .hule e)] stream)[k]? = some hora ∧
    hora.get "type" = some (.string "hora") ∧ hora.get "actor" = some (u32 win.seat) ∧
    hora.get "target" = some (u32 target)

/-! ## What the converter remembers -/

def discarderAfter (discarder : Option UInt32) (e : GameEvent) : Option UInt32 :=
  e.discards.or discarder

def robbableAfter (robbed : Option UInt32) : GameEvent → Option UInt32
  | .discardTile _ => none
  | .anGangAddGang e => robbable e
  | _ => robbed

theorem convertEvent_discarder {numPlayers : Nat} {c d : Converter} {e : GameEvent}
    {out : List Value} (converted : convertEvent numPlayers c e = .ok (out, d)) :
    d.lastDiscarder = discarderAfter c.lastDiscarder e := by
  cases e with
  | anGangAddGang e =>
      obtain ⟨kan, -, same⟩ := Outcome.bind_eq_ok.mp converted
      cases same
      rfl
  | _ =>
      cases converted
      rfl

theorem convertEvent_robbable {numPlayers : Nat} {c d : Converter} {e : GameEvent}
    {out : List Value} (converted : convertEvent numPlayers c e = .ok (out, d)) :
    d.kanPendingChankan = robbableAfter c.kanPendingChankan e := by
  cases e with
  | anGangAddGang e =>
      obtain ⟨kan, -, same⟩ := Outcome.bind_eq_ok.mp converted
      cases same
      rfl
  | _ =>
      cases converted
      rfl

theorem foldl_discarder_quiet {events : List GameEvent} (quiet : ∀ e ∈ events, e.discards = none)
    (discarder : Option UInt32) : events.foldl discarderAfter discarder = discarder := by
  induction events with
  | nil => rfl
  | cons e rest ih =>
      obtain ⟨here, later⟩ := List.forall_mem_cons.mp quiet
      rw [List.foldl_cons, discarderAfter, here, Option.none_or]
      exact ih later

theorem foldl_robbable_quiet {events : List GameEvent} (quiet : ∀ e ∈ events, e.claimable = none)
    (robbed : Option UInt32) : events.foldl robbableAfter robbed = robbed := by
  induction events with
  | nil => rfl
  | cons e rest ih =>
      obtain ⟨here, later⟩ := List.forall_mem_cons.mp quiet
      have same : robbableAfter robbed e = robbed := by
        cases e with
        | discardTile e => cases here
        | anGangAddGang e => cases here
        | _ => rfl
      rw [List.foldl_cons, same]
      exact ih later

theorem discards_of_claimable {e : GameEvent} (unclaimed : e.claimable = none) :
    e.discards = none := by
  cases e with
  | discardTile e => cases unclaimed
  | _ => rfl

/-- **After the last action of the round** the remembered seats are its own. -/
theorem remembered_of_last {events : List GameEvent} {action : GameEvent}
    (last : LastClaimable events action) (discarder robbed : Option UInt32) :
    ∃ previous, events.foldl discarderAfter discarder = discarderAfter previous action ∧
      ∃ before, events.foldl robbableAfter robbed = robbableAfter before action := by
  obtain ⟨-, earlier, since, rfl, quiet⟩ := last
  have silent : ∀ e ∈ since, e.claimable = none := fun e member => by
    simpa using (quiet e member).1
  refine ⟨earlier.foldl discarderAfter discarder, ?_, earlier.foldl robbableAfter robbed, ?_⟩
  · rw [List.foldl_append, List.foldl_cons]
    exact foldl_discarder_quiet (fun e member => discards_of_claimable (silent e member)) _
  · rw [List.foldl_append, List.foldl_cons]
    exact foldl_robbable_quiet silent _

theorem discarder_of_last {events : List GameEvent} {action : GameEvent} {seat : UInt32}
    (last : LastDiscard events action) (made : action.discards = some seat)
    (discarder : Option UInt32) : events.foldl discarderAfter discarder = some seat := by
  obtain ⟨-, earlier, since, rfl, quiet⟩ := last
  have silent : ∀ e ∈ since, e.discards = none := fun e member => by
    simpa using (quiet e member).1
  rw [List.foldl_append, List.foldl_cons, foldl_discarder_quiet silent, discarderAfter, made]
  rfl

/-! ## The target -/

/-- A ron right after a discard or an added kan of another seat is on that seat. -/
theorem huleTarget_of_ronnable {action : GameEvent} {seat : UInt32} {win : HuleInfo}
    (made : action.ronnable = some seat) (other : seat ≠ win.seat) (ron : win.zimo = false)
    (previous before : Option UInt32) :
    huleTarget (robbableAfter before action) (discarderAfter previous action) win = seat := by
  cases action with
  | discardTile e =>
      cases made
      simp [huleTarget, ron, robbableAfter, discarderAfter, GameEvent.discards]
  | anGangAddGang e =>
      have robbed : robbable e = some seat := made
      have robs : (some seat).filter (· != win.seat) = some seat := by simp [Option.filter, other]
      simp [huleTarget, ron, robbableAfter, robbed, robs]
  | _ => cases made

/-- A ron right after a concealed kan is on the last discarder. -/
theorem huleTarget_of_concealed {action : GameEvent} {seat : UInt32} {win : HuleInfo}
    (concealed : action.concealed = true) (ron : win.zimo = false) (before : Option UInt32) :
    huleTarget (robbableAfter before action) (some seat) win = seat := by
  cases action with
  | anGangAddGang e =>
      have kept : robbable e = none := by simpa [GameEvent.concealed] using concealed
      simp [huleTarget, ron, robbableAfter, kept]
  | _ => cases concealed

/-- The objects of a win event, clock aside. -/
theorem wins_of_hule {numPlayers : Nat} {c d : Converter} {clock : Option UInt32} {e : Hule}
    {out : List Value} (converted : convertTimed numPlayers c (clock, .hule e) = .ok (out, d))
    {k : Nat} {win : HuleInfo} (at_ : e.hules[k]? = some win) :
    ∃ hora, out[k]? = some hora ∧
      untimed hora = untimed (horaEvent e win (huleTarget c.kanPendingChankan c.lastDiscarder win)) := by
  obtain ⟨plain, moved, made, same, -⟩ := convertTimed_plain converted
  cases made
  have placed : (out.map untimed)[k]? =
      some (untimed (horaEvent e win (huleTarget c.kanPendingChankan c.lastDiscarder win))) := by
    have inside : k < e.hules.length := (List.getElem?_eq_some_iff.mp at_).1
    rw [same, List.map_append, List.getElem?_append_left (by simpa using inside)]
    simp [at_]
  rw [List.getElem?_map, Option.map_eq_some_iff] at placed
  exact placed

/-- The seats the converter remembers before an event. -/
def remembered (before : List TimedEvent) : Option UInt32 × Option UInt32 :=
  ((before.map Prod.snd).foldl robbableAfter none, (before.map Prod.snd).foldl discarderAfter none)

/-- Every win has its object, charged as the remembered seats say. -/
theorem win_charged {record : GameRecord} {metadata : Option GameMetadata}
    {before after : List TimedEvent} {clock : Option UInt32} {e : Hule} {stream : List Value}
    (converted : eventsToMjai record (before ++ (clock, .hule e) :: after) metadata = .ok stream)
    {k : Nat} {win : HuleInfo} (at_ : e.hules[k]? = some win) :
    ChargedTo record.playerNames.length before clock e stream k win
      (huleTarget (remembered before).1 (remembered before).2 win) := by
  obtain ⟨pre, c, d, walked, won⟩ := eventPart_eq converted
  obtain ⟨hora, placed, same⟩ := wins_of_hule won at_
  have discarder : c.lastDiscarder = (remembered before).2 :=
    convertAll_tracks (fun _ _ => rfl) convertEvent_discarder walked
  have robbed : c.kanPendingChankan = (remembered before).1 :=
    convertAll_tracks (fun _ _ => rfl) convertEvent_robbable walked
  rw [discarder, robbed] at same
  refine ⟨hora, placed, ?_, ?_, ?_⟩
  · rw [← get_untimed (by decide), same]
    rfl
  · rw [← get_untimed (by decide), same]
    rfl
  · rw [← get_untimed (by decide), same]
    rfl

theorem ChargedTo.unique {numPlayers : Nat} {before : List TimedEvent} {clock : Option UInt32}
    {e : Hule} {stream : List Value} {k : Nat} {win : HuleInfo} {one other : UInt32}
    (first : ChargedTo numPlayers before clock e stream k win one)
    (second : ChargedTo numPlayers before clock e stream k win other) : one = other := by
  obtain ⟨hora, placed, -, -, target⟩ := first
  obtain ⟨hora', placed', -, -, target'⟩ := second
  cases placed.symm.trans placed'
  exact u32_inj (Option.some.inj (target.symm.trans target'))

/-- **Who a ron is charged to.**  Every win of a game that is no tsumo is charged to
one seat: when the last discard, kan or north declaration of the round is a discard or
an added kan of another seat, to that seat; when it is a concealed kan, to the last
discarder of the round. -/
theorem ron_target_law {record : GameRecord} {metadata : Option GameMetadata}
    {before after : List TimedEvent} {clock : Option UInt32} {e : Hule} {stream : List Value}
    (converted : eventsToMjai record (before ++ (clock, .hule e) :: after) metadata = .ok stream)
    {k : Nat} {win : HuleInfo} (at_ : e.hules[k]? = some win) (ron : win.zimo = false) :
    ∃ target, ChargedTo record.playerNames.length before clock e stream k win target ∧
      (∀ action seat, LastClaimable (before.map Prod.snd) action → action.ronnable = some seat →
        seat ≠ win.seat → target = seat ∧ target ≠ win.seat) ∧
      ∀ action discard seat, LastClaimable (before.map Prod.snd) action → action.concealed = true →
        LastDiscard (before.map Prod.snd) discard → discard.discards = some seat →
          target = seat := by
  refine ⟨_, win_charged converted at_, ?_, ?_⟩
  · intro action seat last made other
    obtain ⟨previous, ofDiscarder, earlier, ofRobbed⟩ := remembered_of_last last none none
    have target : huleTarget (remembered before).1 (remembered before).2 win = seat := by
      rw [remembered, ofDiscarder, ofRobbed]
      exact huleTarget_of_ronnable made other ron previous earlier
    exact ⟨target, target ▸ other⟩
  · intro action discard seat last concealed lastDiscard made
    obtain ⟨-, -, earlier, ofRobbed⟩ := remembered_of_last last none none
    rw [remembered, ofRobbed, discarder_of_last lastDiscard made]
    exact huleTarget_of_concealed concealed ron earlier

/-- A discard by seat 3, and one more action. -/
def ronAfter (action : GameEvent) : List TimedEvent :=
  [(none, .newRound {}), (none, .discardTile { seat := 3, tile := "1m" }), (none, action)]

def addedKan : GameEvent := .anGangAddGang { seat := 1, gangType := .kakan, tiles := "5m" }

def concealedKan : GameEvent := .anGangAddGang { seat := 1, gangType := .ankan, tiles := "5m" }

def north : GameEvent := .baBei { seat := 1 }

/-- A ron by seat 0. -/
def ronOfSeat0 : Hule := { hules := [{}] }

theorem ronAfter_last {action : GameEvent} (claimed : action.claimable = some 1) :
    LastClaimable ((ronAfter action).map Prod.snd) action :=
  ⟨by simp [claimed], [.newRound {}, .discardTile { seat := 3, tile := "1m" }], [], rfl, by simp⟩

/-- A ron on seat 1's added kan is charged to seat 1. -/
theorem ron_target_on_added_kan :
    ∃ stream, eventsToMjai emptyRecord (ronAfter addedKan ++ [(none, .hule ronOfSeat0)]) none =
        .ok stream ∧
      ChargedTo 0 (ronAfter addedKan) none ronOfSeat0 stream 0 {} 1 := by
  have safe : ∀ event ∈ ronAfter addedKan ++ [((none : Option UInt32), .hule ronOfSeat0)],
      event.2.Safe := by decide
  obtain ⟨stream, converted⟩ := eventsToMjai_returns emptyRecord none safe
  have wins : ronOfSeat0.hules[0]? = some ({} : HuleInfo) := rfl
  obtain ⟨target, charged, law, -⟩ := ron_target_law converted wins rfl
  have same := law addedKan 1 (ronAfter_last rfl) rfl (by decide)
  exact ⟨stream, converted, same.1 ▸ charged⟩

/-- Every ron is charged to the seat of the round's last discard, kan or north
declaration, when that is another seat and the action one of these. -/
def ChargedToLast (actions : GameEvent → Prop) : Prop :=
  ∀ (record : GameRecord) (metadata : Option GameMetadata) (before after : List TimedEvent)
    (clock : Option UInt32) (e : Hule) (stream : List Value) (k : Nat) (win : HuleInfo)
    (action : GameEvent) (seat : UInt32),
    eventsToMjai record (before ++ (clock, .hule e) :: after) metadata = .ok stream →
    e.hules[k]? = some win → win.zimo = false →
    LastClaimable (before.map Prod.snd) action → actions action →
    action.claimable = some seat → seat ≠ win.seat →
    ChargedTo record.playerNames.length before clock e stream k win seat

/-- An action of seat 1 after which a ron by seat 0 is charged to another seat. -/
theorem not_chargedToLast {actions : GameEvent → Prop} (action : GameEvent) (among : actions action)
    (safe : action.Safe) (claimed : action.claimable = some 1)
    (missed : huleTarget (remembered (ronAfter action)).1 (remembered (ronAfter action)).2 {} ≠ 1) :
    ¬ ChargedToLast actions := by
  intro all
  have allSafe : ∀ event ∈ ronAfter action ++ [((none : Option UInt32), GameEvent.hule ronOfSeat0)],
      event.2.Safe := by
    simp only [ronAfter, List.cons_append, List.nil_append, List.forall_mem_cons]
    exact ⟨trivial, trivial, safe, trivial, by simp⟩
  obtain ⟨stream, converted⟩ := eventsToMjai_returns emptyRecord none allSafe
  have charged := all emptyRecord none (ronAfter action) [] none ronOfSeat0 stream 0 {} action 1
    converted rfl rfl (ronAfter_last claimed) among claimed (by decide)
  have wins : ronOfSeat0.hules[0]? = some ({} : HuleInfo) := rfl
  have actual := win_charged converted wins
  exact missed (actual.unique charged)

/-- After seat 1's concealed kan, and after seat 1's north declaration, the ron of seat
0 is charged to seat 3, who discarded before. -/
theorem ron_charged_elsewhere :
    ¬ ChargedToLast (fun _ => True) ∧ ¬ ChargedToLast (fun action => action.concealed = true) ∧
      ¬ ChargedToLast (fun action => ∃ e, action = .baBei e) :=
  ⟨not_chargedToLast concealedKan trivial (by decide) rfl (by decide),
    not_chargedToLast concealedKan rfl (by decide) rfl (by decide),
    not_chargedToLast north ⟨_, rfl⟩ (by decide) rfl (by decide)⟩

end MajsoulManager.Majsoul
