/-
# Ingest.Answers — is an acknowledged record in the topic?

A duplicate is answered with the id of the claim's row, and that row stands from
before the holder's produce until after it.  `answers_stored_iff` says exactly
which finished runs keep the promise: those in which a lookup answers only with
a record that is stored or still about to be produced, and in which no holder
gives up its record once somebody has been answered with it.
`duplicate_of_a_lost_record` is a run that does not.
-/
import MajsoulManager.Ingest.CallInvariant

namespace MajsoulManager.Ingest

open MajsoulManager.Theory
open MajsoulManager.Record
open MajsoulManager.Store

set_option autoImplicit false

/-! ## The condition -/

def Intake.InTopic (state : Intake) (id : Uuid) : Prop :=
  ∃ message ∈ state.topic, message.recordId = id

def Phase.isProducing : Phase → Bool
  | .producing _ => true
  | _ => false

/-- The record is claimed, and its produce is outstanding. -/
def Intake.InFlight (state : Intake) (id : Uuid) : Prop :=
  ∃ call ∈ state.calls, call.id = id ∧ call.phase.isProducing = true

/-- Somebody was told that this record exists. -/
def Intake.Named (state : Intake) (id : Uuid) : Prop :=
  ∃ call ∈ state.calls, call.phase = .existing id

instance (state : Intake) (id : Uuid) : Decidable (state.InTopic id) :=
  inferInstanceAs (Decidable (∃ message ∈ state.topic, message.recordId = id))

instance (state : Intake) (id : Uuid) : Decidable (state.InFlight id) :=
  inferInstanceAs (Decidable (∃ call ∈ state.calls, call.id = id ∧ call.phase.isProducing = true))

instance (state : Intake) (id : Uuid) : Decidable (state.Named id) :=
  inferInstanceAs (Decidable (∃ call ∈ state.calls, call.phase = .existing id))

/-- If the answer names a record, the record is stored or about to be produced. -/
def Intake.Backs (state : Intake) : Phase → Prop
  | .existing id => state.InTopic id ∨ state.InFlight id
  | _ => True

instance (state : Intake) : ∀ phase, Decidable (state.Backs phase)
  | .existing id => inferInstanceAs (Decidable (state.InTopic id ∨ state.InFlight id))
  | .inserting | .lookingUp | .producing _ | .abandoning | .accepted | .failed | .cancelled =>
      .isTrue trivial

/-- A lookup answers with a record that is stored or in flight, and a holder gives
up its record only while nobody was told of it. -/
def Careful (crates : Crates) (state : Intake) : Action → Prop
  | .lookup id true => ∀ call ∈ state.calls, call.id = id →
      state.Backs (call.resolve crates (state.table (call.hash crates)))
  | .produce id false _ | .cancel id false => state.InFlight id → ¬ state.Named id
  | _ => True

instance (crates : Crates) (state : Intake) : ∀ action, Decidable (Careful crates state action)
  | .lookup id true => inferInstanceAs (Decidable (∀ call ∈ state.calls, call.id = id →
      state.Backs (call.resolve crates (state.table (call.hash crates)))))
  | .produce id false _ | .cancel id false =>
      inferInstanceAs (Decidable (state.InFlight id → ¬ state.Named id))
  | .lookup _ false | .produce _ true _ | .cancel _ true | .enter .. | .insert .. | .abandon .. =>
      .isTrue trivial

section Runs

variable {crates : Crates}

/-! ## Careful runs keep the promise -/

/-- Every answer given is stored, or its holder has yet to produce it. -/
structure Promised (crates : Crates) (state : Intake) : Prop where
  formed : WellFormed crates state
  accepted : ∀ call ∈ state.calls, call.phase = .accepted → state.InTopic call.id
  existing : ∀ id, state.Named id → state.InTopic id ∨ state.InFlight id

theorem Intake.InTopic.apply {state : Intake} {id moving : Uuid} {effect : Effect}
    (there : state.InTopic id) : (state.apply moving effect).InTopic id := by
  obtain ⟨message, member, same⟩ := there
  exact ⟨message, List.mem_append_left _ member, same⟩

/-- A producing call's own message puts its record into the topic. -/
theorem WellFormed.inTopic_of_appended {state : Intake} (formed : WellFormed crates state)
    {call : Call} (member : call ∈ state.calls) {message : IngestMessage}
    (standing : call.phase = .producing message) {effect : Effect}
    (appended : effect.appended = [message]) : (state.apply call.id effect).InTopic call.id := by
  obtain ⟨now, rfl⟩ := formed.message call member message standing
  exact ⟨call.message now, List.mem_append_right _ (by simp [appended]), rfl⟩

/-- The record the action gives up: its produce, or its call, ended with nothing
stored. -/
def Action.GivesUp (action : Action) (id : Uuid) : Prop :=
  (∃ answered, action = .produce id false answered) ∨ action = .cancel id false

/-- A record in flight is stored by the next move, stays in flight, or is given
up. -/
theorem WellFormed.inFlight_move {state : Intake} (formed : WellFormed crates state) {call : Call}
    (member : call ∈ state.calls) {action : Action} {effect : Effect} (own : call.id = action.id)
    (moved : call.Moves crates state.table action effect) {id : Uuid}
    (flying : state.InFlight id) :
    (state.apply call.id effect).InTopic id ∨ (state.apply call.id effect).InFlight id ∨
      action.GivesUp id := by
  obtain ⟨holder, present, rfl, producing⟩ := flying
  by_cases same : holder.id = call.id
  · obtain rfl := formed.unique present member same
    cases moved with
    | stored standing => exact .inl (formed.inTopic_of_appended member standing rfl)
    | undone landed standing =>
        cases landed with
        | true => exact .inl (formed.inTopic_of_appended member standing rfl)
        | false => exact .inr (.inr (.inl ⟨_, by rw [own]; rfl⟩))
    | cancelProduce landed standing =>
        cases landed with
        | true => exact .inl (formed.inTopic_of_appended member standing rfl)
        | false => exact .inr (.inr (.inr (by rw [own]; rfl)))
    | _ => simp_all [Phase.isProducing]
  · exact .inr (.inl ⟨holder, (formed.mem_apply member).mpr (.inr ⟨present, same⟩), rfl, producing⟩)

theorem Promised.move {state : Intake} (promised : Promised crates state) {call : Call}
    (member : call ∈ state.calls) {action : Action} {effect : Effect} (own : call.id = action.id)
    (moved : call.Moves crates state.table action effect) (careful : Careful crates state action) :
    Promised crates (state.apply call.id effect) where
  formed := promised.formed.move member moved
  accepted := by
    intro other present accepted
    rcases (promised.formed.mem_apply member).mp present with rfl | ⟨present, -⟩
    · obtain ⟨-, message, standing, appended⟩ := moved.accepted_cases accepted
      exact promised.formed.inTopic_of_appended member standing appended
    · exact (promised.accepted other present accepted).apply
  existing := by
    rintro id ⟨other, present, existing⟩
    have carried : state.InTopic id ∨ state.InFlight id →
        (state.InFlight id → ¬ action.GivesUp id) →
        (state.apply call.id effect).InTopic id ∨ (state.apply call.id effect).InFlight id := by
      rintro (stored | flying) kept
      · exact .inl stored.apply
      · rcases promised.formed.inFlight_move member own moved flying with stored | still | given
        · exact .inl stored
        · exact .inr still
        · exact absurd given (kept flying)
    rcases (promised.formed.mem_apply member).mp present with rfl | ⟨present, -⟩
    · -- the lookup that answers now: it gives nothing up, and the answer is backed
      cases moved with
      | resolved standing =>
          have backed := careful call member own
          simp only at existing
          rw [existing] at backed
          exact carried backed fun _ given => by rcases given with ⟨_, other⟩ | other <;> cases other
      | _ => cases existing
    · have named : state.Named id := ⟨other, present, existing⟩
      refine carried (promised.existing id named) fun flying given => ?_
      rcases given with ⟨answered, rfl⟩ | rfl
      · exact careful flying named
      · exact careful flying named

theorem Promised.step {state next : Intake} {action : Action} (promised : Promised crates state)
    (careful : Careful crates state action) (stepped : state.step crates action = some next) :
    Promised crates next := by
  rcases step_cases stepped with ⟨-, rfl⟩ | ⟨call, -, standing, fresh, parsed, rfl⟩ |
    ⟨call, member, effect, own, moved, rfl⟩
  · exact promised
  · refine ⟨promised.formed.letIn fresh standing parsed, ?_, ?_⟩
    · intro other present accepted
      rcases List.mem_cons.mp present with rfl | present
      · simp [standing] at accepted
      · exact promised.accepted other present accepted
    · rintro id ⟨other, present, existing⟩
      rcases List.mem_cons.mp present with rfl | present
      · simp [standing] at existing
      · rcases promised.existing id ⟨other, present, existing⟩ with stored | ⟨holder, there, flies⟩
        · exact .inl stored
        · exact .inr ⟨holder, List.mem_cons_of_mem _ there, flies⟩
  · exact promised.move member own moved careful

/-! ## A broken promise is never made good -/

/-- Somebody was answered with a record that is not stored and will never be. -/
def Intake.Lost (state : Intake) (id : Uuid) : Prop :=
  state.Named id ∧ ¬ state.InTopic id ∧
    ∃ call ∈ state.calls, call.id = id ∧ call.phase.past = true

theorem Intake.Lost.move {state : Intake} (formed : WellFormed crates state) {call : Call}
    (member : call ∈ state.calls) {action : Action} {effect : Effect}
    (moved : call.Moves crates state.table action effect) {id : Uuid} (lost : state.Lost id) :
    (state.apply call.id effect).Lost id := by
  obtain ⟨⟨told, toldPresent, existing⟩, absent, holder, holderPresent, rfl, past⟩ := lost
  refine ⟨?_, ?_, ?_⟩
  · refine ⟨told, (formed.mem_apply member).mpr (.inr ⟨toldPresent, fun same => ?_⟩), existing⟩
    obtain rfl := formed.unique toldPresent member same
    have unfinished := moved.standing.2.2
    simp [existing, Phase.finished] at unfinished
  · rintro ⟨message, there, named⟩
    rcases List.mem_append.mp there with old | appended
    · exact absent ⟨message, old, named⟩
    · have standing := (moved.appended_cases appended).1
      obtain ⟨now, rfl⟩ := formed.message call member message standing
      obtain rfl := formed.unique member holderPresent named
      simp [standing, Phase.past] at past
  · by_cases same : holder.id = call.id
    · obtain rfl := formed.unique holderPresent member same
      exact ⟨_, (formed.mem_apply member).mpr (.inl rfl), rfl, moved.standing.2.1 past⟩
    · exact ⟨holder, (formed.mem_apply member).mpr (.inr ⟨holderPresent, same⟩), rfl, past⟩

theorem Intake.Lost.step {state next : Intake} {action : Action} (formed : WellFormed crates state)
    (stepped : state.step crates action = some next) {id : Uuid} (lost : state.Lost id) :
    next.Lost id := by
  rcases step_cases stepped with ⟨-, rfl⟩ | ⟨call, -, standing, fresh, parsed, rfl⟩ |
    ⟨call, member, effect, -, moved, rfl⟩
  · exact lost
  · obtain ⟨⟨told, toldPresent, existing⟩, absent, holder, present, holds⟩ := lost
    exact ⟨⟨told, List.mem_cons_of_mem _ toldPresent, existing⟩, absent, holder,
      List.mem_cons_of_mem _ present, holds⟩
  · exact lost.move formed member moved

/-- The record of a call that has yet to produce it is not in the topic. -/
theorem WellFormed.not_inTopic_of_producing {state : Intake} (formed : WellFormed crates state)
    {call : Call} (member : call ∈ state.calls) (producing : call.phase.isProducing = true) :
    ¬ state.InTopic call.id := by
  rintro ⟨message, there, named⟩
  obtain ⟨owner, present, ⟨now, rfl⟩, past⟩ := formed.topicOwned message there
  obtain rfl := formed.unique present member named
  cases standing : owner.phase <;> simp_all [Phase.isProducing, Phase.past]

/-- Nothing reaches the topic under another call's id. -/
theorem Intake.InTopic.of_apply {state : Intake} {id moving : Uuid} {effect : Effect}
    (nothing : effect.appended = []) (there : (state.apply moving effect).InTopic id) :
    state.InTopic id := by
  simpa [Intake.InTopic, Intake.apply, nothing] using there

theorem Action.GivesUp.id_eq {action : Action} {id : Uuid} (given : action.GivesUp id) :
    action.id = id := by
  rcases given with ⟨answered, rfl⟩ | rfl <;> rfl

/-- Giving up a record in flight appends nothing and ends its produce. -/
theorem Call.Moves.givesUp_cases {table : ClaimTable} {call : Call} {action : Action}
    {effect : Effect} (moved : call.Moves crates table action effect) {id : Uuid}
    (given : action.GivesUp id) (producing : call.phase.isProducing = true) :
    effect.appended = [] ∧ effect.phase.past = true := by
  cases moved with
  | undone landed standing =>
      rcases given with ⟨answered, same⟩ | same <;> cases same
      exact ⟨rfl, rfl⟩
  | cancelProduce landed standing =>
      rcases given with ⟨answered, same⟩ | same <;> cases same
      exact ⟨rfl, rfl⟩
  | stored standing => rcases given with ⟨answered, same⟩ | same <;> cases same
  | _ => simp_all [Phase.isProducing]

theorem WellFormed.lost_of_givesUp {state : Intake} (formed : WellFormed crates state)
    {call : Call} (member : call ∈ state.calls) {action : Action} {effect : Effect}
    (own : call.id = action.id) (moved : call.Moves crates state.table action effect) {id : Uuid}
    (given : action.GivesUp id) (flying : state.InFlight id) (named : state.Named id) :
    (state.apply call.id effect).Lost id := by
  obtain ⟨holder, present, rfl, producing⟩ := flying
  obtain rfl := formed.unique member present (own.trans given.id_eq)
  obtain ⟨nothing, past⟩ := moved.givesUp_cases given producing
  obtain ⟨told, toldPresent, existing⟩ := named
  refine ⟨⟨told, (formed.mem_apply member).mpr (.inr ⟨toldPresent, fun same => ?_⟩), existing⟩,
    fun stored => formed.not_inTopic_of_producing member producing (stored.of_apply nothing),
    _, (formed.mem_apply member).mpr (.inl rfl), rfl, past⟩
  obtain rfl := formed.unique toldPresent member same
  simp [existing, Phase.isProducing] at producing

/-- An answer nothing backs is lost at once. -/
theorem WellFormed.lost_of_unbacked {state : Intake} (formed : WellFormed crates state)
    {call : Call} (member : call ∈ state.calls) (standing : call.phase = .lookingUp)
    (unbacked : ¬ state.Backs (call.resolve crates (state.table (call.hash crates)))) :
    ∃ id, (state.apply call.id ⟨state.table, [],
      call.resolve crates (state.table (call.hash crates))⟩).Lost id := by
  have moved : call.Moves crates state.table (.lookup call.id true) _ := .resolved standing
  cases answered : call.resolve crates (state.table (call.hash crates)) with
  | existing id =>
      obtain ⟨row, held, rfl⟩ := moved.existing_cases answered
      rw [answered] at unbacked
      obtain ⟨absent, grounded⟩ := not_or.mp unbacked
      obtain ⟨holder, present, named, -, taken⟩ := formed.rowOwned _ row held
      refine ⟨row.recordId, ⟨_, (formed.mem_apply member).mpr (.inl rfl), rfl⟩,
        fun stored => absent (stored.of_apply rfl), holder,
        (formed.mem_apply member).mpr (.inr ⟨present, fun same => ?_⟩), named, ?_⟩
      · obtain rfl := formed.unique present member same
        simp [standing, Phase.before] at taken
      · have notProducing : holder.phase.isProducing ≠ true :=
          fun producing => grounded ⟨holder, present, named, producing⟩
        cases stands : holder.phase <;> simp_all [Phase.before, Phase.past, Phase.isProducing]
  | _ => simp [answered, Intake.Backs] at unbacked

theorem lost_of_careless {state next : Intake} {action : Action}
    (formed : WellFormed crates state) (careless : ¬ Careful crates state action)
    (stepped : state.step crates action = some next) : ∃ id, next.Lost id := by
  rcases step_cases stepped with ⟨⟨_, _, _, _, rfl⟩, -⟩ | ⟨_, ⟨_, _, _, _, rfl⟩, -⟩ |
    ⟨call, member, effect, own, moved, rfl⟩
  · exact absurd trivial careless
  · exact absurd trivial careless
  · have givenUp : ∀ id, action.GivesUp id → ¬ (state.InFlight id → ¬ state.Named id) →
        ∃ id, (state.apply call.id effect).Lost id := by
      intro id given broken
      obtain ⟨flying, named⟩ := Classical.not_imp.mp broken
      exact ⟨id, formed.lost_of_givesUp member own moved given flying (not_not.mp named)⟩
    cases action with
    | lookup id answered =>
        cases moved with
        | unresolved standing => exact absurd trivial careless
        | resolved standing =>
            refine formed.lost_of_unbacked member standing fun backed => careless ?_
            intro other present named
            rwa [formed.unique present member (named.trans own.symm)]
    | produce id landed answered =>
        cases landed with
        | true => exact absurd trivial careless
        | false => exact givenUp id (.inl ⟨answered, rfl⟩) careless
    | cancel id landed =>
        cases landed with
        | true => exact absurd trivial careless
        | false => exact givenUp id (.inr rfl) careless
    | _ => exact absurd trivial careless

/-! ## The promise -/

theorem promised_start {state : Intake} (started : (ingestMachine crates).Start state) :
    Promised crates state := by
  have calls := started.2.2
  refine ⟨wellFormed_start started, by simp [calls], ?_⟩
  rintro id ⟨call, member, -⟩
  simp [calls] at member

/-- **Which runs keep the promise.**  Once every call has finished, every id that
a call returned with success is in the topic exactly when every step of the run
was careful. -/
theorem answers_stored_iff (crates : Crates) {start final : Intake} {actions : List Action}
    (started : (ingestMachine crates).Start start)
    (ran : (ingestMachine crates).run start actions = some final)
    (finished : ∀ call ∈ final.calls, call.phase.finished = true) :
    (∀ call ∈ final.calls, ∀ id, call.answer = some id → final.InTopic id) ↔
      (ingestMachine crates).Meets (Careful crates) start actions := by
  constructor
  · intro stored
    refine Machine.meets_of_not_trapped (P := WellFormed crates)
      (Q := fun state => ∃ id, state.Lost id) (fun s a t formed stepped => formed.step stepped)
      (fun s a t formed careless stepped => lost_of_careless formed careless stepped) ?_ ran
      (wellFormed_start started) ?_
    · rintro s a t ⟨formed, id, lost⟩ stepped
      exact ⟨id, lost.step formed stepped⟩
    · rintro ⟨id, ⟨told, present, existing⟩, absent, -⟩
      exact absent (stored told present id (by simp [Call.answer, existing]))
  · intro careful call member id answer
    have promised : Promised crates final :=
      Machine.run_preserves_of_meets (fun s a t promised careful stepped =>
        promised.step careful stepped) careful ran (promised_start started)
    unfold Call.answer at answer
    split at answer
    · rename_i accepted
      cases answer
      exact promised.accepted call member accepted
    · rename_i existing
      cases answer
      rcases promised.existing id ⟨call, member, existing⟩ with stored | ⟨holder, present, -, producing⟩
      · exact stored
      · have ended := finished holder present
        cases standing : holder.phase <;> simp_all [Phase.isProducing, Phase.finished]
    · cases answer

end Runs

/-- The archive's upload stores the game before the collector looks its claim up. -/
def collectorSecond : List Action :=
  [.enter 1 (gameRequest "archive") 0 1000, .enter 2 (gameRequest "majsoul-watch") 0 1000,
    .insert 1 Indexer.ingestTime true true, .insert 2 Indexer.ingestTime true true,
    .produce 1 true true, .lookup 2 true]

theorem collectorSecond_answers_stored :
    ∃ final, (ingestMachine (reference gameSerde)).run emptyIntake collectorSecond = some final ∧
      final.calls.map Call.answer = [some 1, some 1] ∧
      ∀ call ∈ final.calls, ∀ id, call.answer = some id → final.InTopic id := by
  obtain ⟨final, ran, answers, finished⟩ :
      ∃ final, (ingestMachine (reference gameSerde)).run emptyIntake collectorSecond = some final ∧
        final.calls.map Call.answer = [some 1, some 1] ∧
        ∀ call ∈ final.calls, call.phase.finished = true :=
    Machine.run_exists (by decide +kernel)
  have started : (ingestMachine (reference gameSerde)).Start emptyIntake :=
    ⟨fun _ => rfl, rfl, rfl⟩
  exact ⟨final, ran, answers,
    (answers_stored_iff (reference gameSerde) started ran finished).mpr (by decide +kernel)⟩

/-- The collector is answered with the archive's claim, whose produce then fails. -/
def collectorMisled : List Action :=
  [.enter 1 (gameRequest "archive") 0 1000, .enter 2 (gameRequest "majsoul-watch") 0 1000,
    .insert 1 Indexer.ingestTime true true, .insert 2 Indexer.ingestTime true true,
    .lookup 2 true, .produce 1 false false, .abandon 1 true true]

/-- Both calls carry one game and both are over; one was told that record 1 is
stored, and it is not. -/
theorem duplicate_of_a_lost_record :
    ∃ final, (ingestMachine (reference gameSerde)).run emptyIntake collectorMisled = some final ∧
      (∀ call ∈ final.calls, call.metadata.majsoulUuid = some "260716-4c9a") ∧
      (∀ call ∈ final.calls, call.phase.finished = true) ∧
      (∃ call ∈ final.calls, call.answer = some 1) ∧ ¬ final.InTopic 1 :=
  Machine.run_exists (by decide +kernel)

end MajsoulManager.Ingest
