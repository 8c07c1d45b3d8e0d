/-
# Ingest.CallInvariant — one game is one record, for every interleaving

`WellFormed` ties the calls, the claim table and the topic together in every run:
every row and every message belongs to a call, and says which phases that call
may be in.  On the runs in which a produce either stores and succeeds or stores
nothing and fails, and nobody is cancelled (`Orderly`), the call whose message is
in the topic also still holds its claim (`Exclusive`); `one_record_per_game`
follows.
-/
import MajsoulManager.Ingest.Calls

namespace MajsoulManager.Ingest

open MajsoulManager.Theory
open MajsoulManager.Record
open MajsoulManager.Store

set_option autoImplicit false

/-! ## Phases -/

/-- The call has not taken a claim. -/
def Phase.before : Phase → Bool
  | inserting | lookingUp => true
  | _ => false

/-- The call will produce nothing any more. -/
def Phase.past : Phase → Bool
  | inserting | lookingUp | producing _ => false
  | _ => true

section Invariant

variable {crates : Crates}

/-- What holds of every state any interleaving reaches. -/
structure WellFormed (crates : Crates) (state : Intake) : Prop where
  ids : (state.calls.map Call.id).Nodup
  parsed : ∀ call ∈ state.calls,
    parseMetadata crates.serde call.request.raw = .ok call.metadata
  message : ∀ call ∈ state.calls, ∀ message, call.phase = .producing message →
    ∃ now, message = call.message now
  rowOwned : ∀ hash row, state.table hash = some row →
    ∃ call ∈ state.calls, call.id = row.recordId ∧ call.hash crates = hash ∧
      call.phase.before = false
  topicOwned : ∀ message ∈ state.topic,
    ∃ call ∈ state.calls, (∃ now, message = call.message now) ∧ call.phase.past = true

@[simp] theorem Call.message_recordId (now : DateTime) (call : Call) :
    (call.message now).recordId = call.id := rfl

@[simp] theorem Call.hash_withPhase (call : Call) (phase : Phase) :
    Call.hash crates { call with phase } = call.hash crates := rfl

theorem WellFormed.unique {state : Intake} (formed : WellFormed crates state) {call other : Call}
    (member : call ∈ state.calls) (also : other ∈ state.calls) (same : call.id = other.id) :
    call = other :=
  List.inj_on_of_nodup_map formed.ids member also same

/-- Moving a call leaves every other one as it is. -/
theorem WellFormed.mem_apply {state : Intake} (formed : WellFormed crates state) {call : Call}
    (member : call ∈ state.calls) {effect : Effect} {other : Call} :
    other ∈ (state.apply call.id effect).calls ↔
      other = { call with phase := effect.phase } ∨
        (other ∈ state.calls ∧ other.id ≠ call.id) := by
  simp only [Intake.apply, setPhase, List.mem_map]
  constructor
  · rintro ⟨old, present, rfl⟩
    by_cases same : old.id = call.id
    · obtain rfl := formed.unique present member same
      simp
    · simp [same, present]
  · rintro (rfl | ⟨present, differs⟩)
    · exact ⟨call, member, by simp⟩
    · exact ⟨other, present, by simp [differs]⟩

theorem setPhase_ids (id : Uuid) (phase : Phase) (calls : List Call) :
    (setPhase id phase calls).map Call.id = calls.map Call.id := by
  simp only [setPhase, List.map_map]
  refine List.map_congr_left fun call _ => ?_
  simp only [Function.comp_apply]
  split <;> rfl

/-- A call that is over or still waiting never goes back. -/
theorem Call.Moves.standing {table : ClaimTable} {call : Call} {action : Action}
    {effect : Effect} (moved : call.Moves crates table action effect) :
    (call.phase.before = false → effect.phase.before = false) ∧
      (call.phase.past = true → effect.phase.past = true) ∧ call.phase.finished = false := by
  cases moved with
  | resolved standing =>
      simp only [standing]
      refine ⟨fun impossible => absurd impossible (by decide), fun impossible => absurd impossible (by decide), rfl⟩
  | _ => simp_all [Phase.before, Phase.past, Phase.finished]

theorem ClaimTable.insert_eq_some {table : ClaimTable} {hash other : Hash} {row found : ClaimRow}
    (there : table.insert hash row other = some found) :
    table other = some found ∨ (other = hash ∧ found = row ∧ table hash = none) := by
  simp only [ClaimTable.insert] at there
  split at there
  · rename_i same
    subst same
    cases held : table other with
    | none => simp_all
    | some old => simp_all
  · exact .inl there

theorem ClaimTable.abandon_eq_some {table : ClaimTable} {hash other : Hash} {id : Uuid}
    {found : ClaimRow} :
    table.abandon hash id other = some found ↔
      table other = some found ∧ ¬ (other = hash ∧ found.recordId = id) := by
  simp [ClaimTable.abandon, Option.filter_eq_some_iff, imp_iff_not_or]

/-- The rows after a move: those before it, or the call's own. -/
theorem Call.Moves.table_cases {table : ClaimTable} {call : Call} {action : Action}
    {effect : Effect} (moved : call.Moves crates table action effect) {hash : Hash}
    {row : ClaimRow} (there : effect.table hash = some row) :
    table hash = some row ∨
      (hash = call.hash crates ∧ row = call.row crates ∧ effect.phase.before = false) := by
  cases moved with
  | took standing free =>
      rcases ClaimTable.insert_eq_some there with old | ⟨rfl, rfl, -⟩
      · exact .inl old
      · exact .inr ⟨rfl, rfl, rfl⟩
  | unheard landed standing | cancelInsert landed standing =>
      cases landed with
      | false => exact .inl there
      | true =>
          rcases ClaimTable.insert_eq_some there with old | ⟨rfl, rfl, -⟩
          · exact .inl old
          · exact .inr ⟨rfl, rfl, rfl⟩
  | released landed answered standing =>
      cases landed with
      | false => exact .inl there
      | true => exact .inl (ClaimTable.abandon_eq_some.mp there).1
  | cancelAbandon landed standing =>
      cases landed with
      | false => exact .inl there
      | true => exact .inl (ClaimTable.abandon_eq_some.mp there).1
  | _ => exact .inl there

/-- The messages a move appends are the call's own, and its last. -/
theorem Call.Moves.appended_cases {table : ClaimTable} {call : Call} {action : Action}
    {effect : Effect} (moved : call.Moves crates table action effect) {message : IngestMessage}
    (there : message ∈ effect.appended) :
    call.phase = .producing message ∧ effect.phase.past = true := by
  cases moved with
  | stored standing =>
      obtain rfl := List.mem_singleton.mp there
      exact ⟨standing, rfl⟩
  | undone landed standing | cancelProduce landed standing =>
      cases landed with
      | false => cases there
      | true =>
          obtain rfl := List.mem_singleton.mp there
          exact ⟨standing, rfl⟩
  | _ => cases there

/-- A call that turns to producing took the claim just now. -/
theorem Call.Moves.producing_cases {table : ClaimTable} {call : Call} {action : Action}
    {effect : Effect} (moved : call.Moves crates table action effect) {message : IngestMessage}
    (producing : effect.phase = .producing message) :
    call.phase = .inserting ∧ table (call.hash crates) = none ∧
      effect.table = table.insert (call.hash crates) (call.row crates) ∧
      ∃ now, message = call.message now := by
  cases moved with
  | took standing free => exact ⟨standing, free, rfl, _, (Phase.producing.inj producing).symm⟩
  | resolved standing =>
      simp only [Call.resolve] at producing
      split at producing
      · cases producing
      · split at producing <;> cases producing
  | _ => cases producing

/-- An `Existing` answer is the id of the row for the call's key. -/
theorem Call.Moves.existing_cases {table : ClaimTable} {call : Call} {action : Action}
    {effect : Effect} (moved : call.Moves crates table action effect) {id : Uuid}
    (existing : effect.phase = .existing id) :
    ∃ row, table (call.hash crates) = some row ∧ row.recordId = id := by
  cases moved with
  | resolved standing =>
      simp only [Call.resolve] at existing
      split at existing
      · cases existing
      · rename_i row held
        split at existing <;> cases existing
        exact ⟨row, held, rfl⟩
  | _ => cases existing

theorem wellFormed_start {state : Intake} (started : (ingestMachine crates).Start state) :
    WellFormed crates state := by
  obtain ⟨empty, topic, calls⟩ := started
  constructor <;> simp [empty, topic, calls]

theorem WellFormed.letIn {state : Intake} (formed : WellFormed crates state) {call : Call}
    (fresh : ∀ other ∈ state.calls, other.id ≠ call.id) (standing : call.phase = .inserting)
    (parsed : parseMetadata crates.serde call.request.raw = .ok call.metadata) :
    WellFormed crates { state with calls := call :: state.calls } where
  ids := by
    refine List.nodup_cons.mpr ⟨?_, formed.ids⟩
    intro present
    obtain ⟨other, member, same⟩ := List.mem_map.mp present
    exact fresh other member same
  parsed := by
    intro other member
    rcases List.mem_cons.mp member with rfl | member
    · exact parsed
    · exact formed.parsed other member
  message := by
    intro other member message producing
    rcases List.mem_cons.mp member with rfl | member
    · simp [standing] at producing
    · exact formed.message other member message producing
  rowOwned := by
    intro hash row there
    obtain ⟨owner, member, owns⟩ := formed.rowOwned hash row there
    exact ⟨owner, List.mem_cons_of_mem _ member, owns⟩
  topicOwned := by
    intro message there
    obtain ⟨owner, member, owns⟩ := formed.topicOwned message there
    exact ⟨owner, List.mem_cons_of_mem _ member, owns⟩

theorem WellFormed.move {state : Intake} (formed : WellFormed crates state) {call : Call}
    (member : call ∈ state.calls) {action : Action} {effect : Effect}
    (moved : call.Moves crates state.table action effect) :
    WellFormed crates (state.apply call.id effect) where
  ids := by
    simp only [Intake.apply, setPhase_ids]
    exact formed.ids
  parsed := by
    intro other present
    rcases (formed.mem_apply member).mp present with rfl | ⟨present, -⟩
    · exact formed.parsed call member
    · exact formed.parsed other present
  message := by
    intro other present message producing
    rcases (formed.mem_apply member).mp present with rfl | ⟨present, -⟩
    · exact (moved.producing_cases producing).2.2.2
    · exact formed.message other present message producing
  rowOwned := by
    intro hash row there
    rcases moved.table_cases there with old | ⟨rfl, rfl, taken⟩
    · obtain ⟨owner, present, named, hashed, taken⟩ := formed.rowOwned hash row old
      by_cases same : owner.id = call.id
      · obtain rfl := formed.unique present member same
        exact ⟨_, (formed.mem_apply member).mpr (.inl rfl), named, hashed,
          moved.standing.1 taken⟩
      · exact ⟨owner, (formed.mem_apply member).mpr (.inr ⟨present, same⟩), named, hashed, taken⟩
    · exact ⟨_, (formed.mem_apply member).mpr (.inl rfl), rfl, rfl, taken⟩
  topicOwned := by
    intro message there
    rcases List.mem_append.mp there with old | appended
    · obtain ⟨owner, present, own, past⟩ := formed.topicOwned message old
      by_cases same : owner.id = call.id
      · obtain rfl := formed.unique present member same
        exact ⟨_, (formed.mem_apply member).mpr (.inl rfl), own, moved.standing.2.1 past⟩
      · exact ⟨owner, (formed.mem_apply member).mpr (.inr ⟨present, same⟩), own, past⟩
    · obtain ⟨standing, past⟩ := moved.appended_cases appended
      obtain ⟨now, own⟩ := formed.message call member message standing
      exact ⟨_, (formed.mem_apply member).mpr (.inl rfl), ⟨now, own⟩, past⟩

theorem WellFormed.step {state next : Intake} {action : Action}
    (formed : WellFormed crates state) (stepped : state.step crates action = some next) :
    WellFormed crates next := by
  rcases step_cases stepped with ⟨-, rfl⟩ | ⟨call, -, standing, fresh, parsed, rfl⟩ |
    ⟨call, member, effect, -, moved, rfl⟩
  · exact formed
  · exact formed.letIn fresh standing parsed
  · exact formed.move member moved

end Invariant

/-! ## Orderly runs -/

/-- A produce stores the record and succeeds or stores nothing and fails, and
nobody disconnects. -/
def Orderly (_ : Intake) : Action → Prop
  | .produce _ landed answered => landed = answered
  | .cancel _ _ => False
  | _ => True

instance (state : Intake) : ∀ action, Decidable (Orderly state action)
  | .produce _ landed answered => inferInstanceAs (Decidable (landed = answered))
  | .cancel _ _ => .isFalse id
  | .enter .. | .insert .. | .lookup .. | .abandon .. => .isTrue trivial

section Exclusive

variable {crates : Crates}

/-- The table's row for the call's key is the call's own. -/
def Intake.Holds (crates : Crates) (state : Intake) (call : Call) : Prop :=
  ∃ row, state.table (call.hash crates) = some row ∧ row.recordId = call.id

/-- A call that is about to produce, or whose record is stored, holds its claim. -/
structure Exclusive (crates : Crates) (state : Intake) : Prop where
  formed : WellFormed crates state
  producing : ∀ call ∈ state.calls, ∀ message, call.phase = .producing message →
    state.Holds crates call
  accepted : ∀ call ∈ state.calls, call.phase = .accepted → state.Holds crates call
  topic : ∀ message ∈ state.topic,
    ∃ call ∈ state.calls, (∃ now, message = call.message now) ∧ call.phase = .accepted

/-- A claim that another call holds survives every move. -/
theorem Intake.Holds.move {state : Intake} {call other : Call} {action : Action}
    {effect : Effect} (moved : call.Moves crates state.table action effect)
    (differs : other.id ≠ call.id) (held : state.Holds crates other) :
    (state.apply call.id effect).Holds crates other := by
  obtain ⟨row, there, own⟩ := held
  have inserted : ∀ added, state.table.insert (call.hash crates) added (other.hash crates) =
      some row := by
    intro added
    simp only [ClaimTable.insert]
    split
    · rename_i same
      simp [← same, there]
    · exact there
  have kept : state.table.abandon (call.hash crates) call.id (other.hash crates) = some row :=
    ClaimTable.abandon_eq_some.mpr ⟨there, fun own' => differs (own.symm.trans own'.2)⟩
  refine ⟨row, ?_, own⟩
  cases moved with
  | took standing free => exact inserted _
  | unheard landed standing | cancelInsert landed standing =>
      cases landed with
      | false => exact there
      | true => exact inserted _
  | released landed answered standing =>
      cases landed with
      | false => exact there
      | true => exact kept
  | cancelAbandon landed standing =>
      cases landed with
      | false => exact there
      | true => exact kept
  | _ => exact there

theorem Call.Moves.accepted_cases {table : ClaimTable} {call : Call} {action : Action}
    {effect : Effect} (moved : call.Moves crates table action effect)
    (accepted : effect.phase = .accepted) :
    effect.table = table ∧
      ∃ message, call.phase = .producing message ∧ effect.appended = [message] := by
  cases moved with
  | stored standing => exact ⟨rfl, _, standing, rfl⟩
  | resolved standing =>
      simp only [Call.resolve] at accepted
      split at accepted
      · cases accepted
      · split at accepted <;> cases accepted
  | _ => cases accepted

/-- In an orderly run what reaches the topic is acknowledged. -/
theorem Call.Moves.accepted_of_appended {state : Intake} {call : Call} {action : Action}
    {effect : Effect} (moved : call.Moves crates state.table action effect)
    (orderly : Orderly state action) {message : IngestMessage}
    (there : message ∈ effect.appended) : effect.phase = .accepted := by
  cases moved with
  | stored standing => rfl
  | undone landed standing =>
      have nothing : landed = false := orderly
      simp [nothing] at there
  | cancelProduce landed standing => exact orderly.elim
  | _ => cases there

theorem Exclusive.move {state : Intake} (exclusive : Exclusive crates state) {call : Call}
    (member : call ∈ state.calls) {action : Action} {effect : Effect}
    (moved : call.Moves crates state.table action effect) (orderly : Orderly state action) :
    Exclusive crates (state.apply call.id effect) where
  formed := exclusive.formed.move member moved
  producing := by
    intro other present message producing
    rcases (exclusive.formed.mem_apply member).mp present with rfl | ⟨present, differs⟩
    · obtain ⟨-, free, inserted, -⟩ := moved.producing_cases producing
      exact ⟨call.row crates, by simp [Intake.apply, inserted, ClaimTable.insert, free], rfl⟩
    · exact (exclusive.producing other present message producing).move moved differs
  accepted := by
    intro other present accepted
    rcases (exclusive.formed.mem_apply member).mp present with rfl | ⟨present, differs⟩
    · obtain ⟨unchanged, message, standing, -⟩ := moved.accepted_cases accepted
      obtain ⟨row, there, own⟩ := exclusive.producing call member message standing
      exact ⟨row, by simpa [Intake.apply, unchanged] using there, own⟩
    · exact (exclusive.accepted other present accepted).move moved differs
  topic := by
    intro message there
    rcases List.mem_append.mp there with old | appended
    · obtain ⟨owner, present, own, accepted⟩ := exclusive.topic message old
      by_cases same : owner.id = call.id
      · obtain rfl := exclusive.formed.unique present member same
        have unfinished := moved.standing.2.2
        simp [accepted, Phase.finished] at unfinished
      · exact ⟨owner, (exclusive.formed.mem_apply member).mpr (.inr ⟨present, same⟩), own, accepted⟩
    · obtain ⟨now, own⟩ :=
        exclusive.formed.message call member message (moved.appended_cases appended).1
      exact ⟨_, (exclusive.formed.mem_apply member).mpr (.inl rfl), ⟨now, own⟩,
        moved.accepted_of_appended orderly appended⟩

theorem Exclusive.step {state next : Intake} {action : Action}
    (exclusive : Exclusive crates state) (orderly : Orderly state action)
    (stepped : state.step crates action = some next) : Exclusive crates next := by
  rcases step_cases stepped with ⟨-, rfl⟩ | ⟨call, -, standing, fresh, parsed, rfl⟩ |
    ⟨call, member, effect, -, moved, rfl⟩
  · exact exclusive
  · refine ⟨exclusive.formed.letIn fresh standing parsed, ?_, ?_, ?_⟩
    · intro other present message producing
      rcases List.mem_cons.mp present with rfl | present
      · simp [standing] at producing
      · exact exclusive.producing other present message producing
    · intro other present accepted
      rcases List.mem_cons.mp present with rfl | present
      · simp [standing] at accepted
      · exact exclusive.accepted other present accepted
    · intro message there
      obtain ⟨owner, present, owns⟩ := exclusive.topic message there
      exact ⟨owner, List.mem_cons_of_mem _ present, owns⟩
  · exact exclusive.move member moved orderly

theorem exclusive_of_orderly {start final : Intake} {actions : List Action}
    (started : (ingestMachine crates).Start start)
    (orderly : (ingestMachine crates).Meets Orderly start actions)
    (ran : (ingestMachine crates).run start actions = some final) : Exclusive crates final := by
  refine Machine.run_preserves_of_meets (P := Exclusive crates)
    (fun s a t exclusive orderly stepped => exclusive.step orderly stepped) orderly ran ?_
  obtain ⟨empty, topic, calls⟩ := started
  exact ⟨wellFormed_start ⟨empty, topic, calls⟩, by simp [calls], by simp [calls], by simp [topic]⟩

/-- The game a message's record belongs to. -/
def gameOf (crates : Crates) (message : IngestMessage) : Option String :=
  match parseMetadata crates.serde message.raw with
  | .ok metadata => metadata.majsoulUuid
  | .error _ => none

theorem gameOf_message {call : Call} {now : DateTime}
    (parsed : parseMetadata crates.serde call.request.raw = .ok call.metadata) :
    gameOf crates (call.message now) = call.metadata.majsoulUuid := by
  have same : (call.message now).raw = call.request.raw := rfl
  simp [gameOf, same, parsed]

/-- Two calls that carry one game claim one key. -/
theorem hash_eq_of_game {call other : Call} {uuid : String}
    (carried : call.metadata.majsoulUuid = some uuid)
    (also : other.metadata.majsoulUuid = some uuid) : call.hash crates = other.hash crates := by
  simp [Call.hash, Call.scoped, scopedKey, carried, also]

/-- **One game is one record.**  After any orderly interleaving, no two messages
of the topic carry one game under two record ids, and a lookup that answers
`Existing` names the one call that holds the claim it looked up. -/
theorem one_record_per_game (crates : Crates) {start final : Intake} {actions : List Action}
    (started : (ingestMachine crates).Start start)
    (orderly : (ingestMachine crates).Meets Orderly start actions)
    (ran : (ingestMachine crates).run start actions = some final) :
    (∀ message ∈ final.topic, ∀ other ∈ final.topic, ∀ uuid,
      gameOf crates message = some uuid → gameOf crates other = some uuid →
      message.recordId = other.recordId) ∧
    ∀ caller answered next, final.step crates (.lookup caller answered) = some next →
      ∀ call ∈ next.calls, call.id = caller → ∀ id, call.phase = .existing id →
      ∃ holder ∈ final.calls, holder.id = id ∧ holder.hash crates = call.hash crates ∧
        final.Holds crates holder ∧
        ∀ other ∈ final.calls, other.hash crates = call.hash crates →
          final.Holds crates other → other = holder := by
  have exclusive := exclusive_of_orderly started orderly ran
  refine ⟨?_, ?_⟩
  · intro message there other also uuid carried alsoCarried
    obtain ⟨owner, present, ⟨now, rfl⟩, accepted⟩ := exclusive.topic message there
    obtain ⟨second, alsoPresent, ⟨later, rfl⟩, alsoAccepted⟩ := exclusive.topic other also
    rw [gameOf_message (exclusive.formed.parsed _ present)] at carried
    rw [gameOf_message (exclusive.formed.parsed _ alsoPresent)] at alsoCarried
    obtain ⟨row, held, own⟩ := exclusive.accepted owner present accepted
    obtain ⟨found, alsoHeld, alsoOwn⟩ := exclusive.accepted second alsoPresent alsoAccepted
    rw [← hash_eq_of_game carried alsoCarried, held] at alsoHeld
    cases alsoHeld
    exact own.symm.trans alsoOwn
  · intro caller answered next stepped call present named id existing
    rcases step_cases stepped with ⟨⟨_, _, _, _, enters⟩, -⟩ | ⟨_, ⟨_, _, _, _, enters⟩, -⟩ |
      ⟨asked, member, effect, same, moved, rfl⟩
    · cases enters
    · cases enters
    · obtain rfl : call = { asked with phase := effect.phase } := by
        rcases (exclusive.formed.mem_apply member).mp present with moved | ⟨-, differs⟩
        · exact moved
        · exact absurd (named.trans same.symm) differs
      obtain ⟨row, held, rfl⟩ := moved.existing_cases existing
      obtain ⟨holder, present, named, hashed, -⟩ := exclusive.formed.rowOwned _ row held
      refine ⟨holder, present, named, hashed, ⟨row, hashed ▸ held, named.symm⟩, ?_⟩
      rintro other also sameHash ⟨found, alsoHeld, own⟩
      rw [sameHash, Call.hash_withPhase, held] at alsoHeld
      cases alsoHeld
      exact exclusive.formed.unique also present (own.symm.trans named.symm)

end Exclusive

/-! ## Two uploads of one game -/

def gameText : String :=
  "[\x7b\"type\":\"start_game\",\"majsoul\":\x7b\"uuid\":\"260716-4c9a\"\x7d\x7d]"

/-- A JSON reader, as far as it reads that text. -/
def gameSerde : Serde where
  fromStr := fun _ => .error "expected value at line 1 column 1"
  fromStrVec := fun text =>
    if text = gameText then
      .ok [.object [("type", .string "start_game"),
        ("majsoul", .object [("uuid", .string "260716-4c9a")])]]
    else .error "expected value at line 1 column 1"
  print := fun _ => ""

def gameRequest (source : String) : Request where
  source := source
  key := "k"
  playedAt := none
  raw := utf8 gameText
  majsoulPb := none

def emptyIntake : Intake := ⟨fun _ => none, [], []⟩

/-- An archive's upload fails to produce after the collector met its claim; the
collector's retry stores the game. -/
def collectorRetries : List Action :=
  [.enter 1 (gameRequest "archive") 0 1000, .enter 2 (gameRequest "majsoul-watch") 0 1000,
    .insert 1 Indexer.ingestTime true true, .insert 2 Indexer.ingestTime true true,
    .lookup 2 true, .produce 1 false false, .abandon 1 true true,
    .enter 3 (gameRequest "majsoul-watch") 0 1000, .insert 3 Indexer.ingestTime true true,
    .produce 3 true true]

theorem collector_retry_is_the_one_record :
    ∃ final, (ingestMachine (reference gameSerde)).run emptyIntake collectorRetries = some final ∧
      final.topic.map (·.recordId) = [3] ∧
      ∀ message ∈ final.topic, ∀ other ∈ final.topic, ∀ uuid,
        gameOf (reference gameSerde) message = some uuid →
        gameOf (reference gameSerde) other = some uuid → message.recordId = other.recordId := by
  obtain ⟨final, ran, stored⟩ :
      ∃ final, (ingestMachine (reference gameSerde)).run emptyIntake collectorRetries = some final ∧
        final.topic.map (·.recordId) = [3] :=
    Machine.run_exists (by decide +kernel)
  have started : (ingestMachine (reference gameSerde)).Start emptyIntake :=
    ⟨fun _ => rfl, rfl, rfl⟩
  have unique := one_record_per_game (reference gameSerde) started (by decide +kernel) ran
  exact ⟨final, ran, stored, unique.1⟩

end MajsoulManager.Ingest
