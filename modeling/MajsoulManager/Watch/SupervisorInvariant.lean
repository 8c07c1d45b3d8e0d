/-
# Watch.SupervisorInvariant — one section at a time

The invariant of the runs in which the calls take turns (`serial`): who keeps the live
collectors when nobody is inside a section, while a call awaits them, and while a start
is about to store them; and that a configuration other than the stored one runs only
while some call still owes the stored one its collectors.
-/
import MajsoulManager.Watch.Supervisor

namespace MajsoulManager.Watch

open MajsoulManager.Theory
open MajsoulManager.Accounts

set_option autoImplicit false

section Invariant

variable (lower : String → String) (secrets : Secrets)

/-- The configurations a call carries. -/
def Stage.configs : Stage → List WatchServiceConfig
  | .checking next => [next]
  | .committing next => [next]
  | .probing config _ => [config]
  | .stopping next _ => next.toList
  | .waiting _ next => next.toList
  | _ => []

def ApartConfig (config : WatchServiceConfig) : Prop :=
  config.instances.Pairwise (Apart lower secrets)

/-- Collectors of one generation that can run together. -/
def Together (collectors : List Collector) : Prop :=
  (∃ generation, ∀ collector ∈ collectors, collector.generation = generation) ∧
    collectors.Pairwise fun p q => Apart lower secrets p.collects q.collects

/-- The collectors of the stored configuration, or somebody owes them. -/
def Supervisor.Current (s : Supervisor) (collectors : List Collector) : Prop :=
  collectors = [] ∨ (∃ generation, collectors = collectorsOf generation s.config) ∨
    s.calls.any Stage.owes = true

structure SupervisorInv (s : Supervisor) : Prop where
  alone : Alone Stage.inside s.calls
  config : ApartConfig lower secrets s.config
  carried : ∀ stage ∈ s.calls, ∀ config ∈ stage.configs, ApartConfig lower secrets config
  free : s.nobodyInside = true → ∃ collectors, s.yard.Kept s.yard.slot collectors ∧
    Together lower secrets collectors ∧
    (s.Current collectors ∨ ∀ handle, s.yard.alive handle = false)
  waiting : ∀ handles next, Stage.waiting handles next ∈ s.calls → s.yard.slot = [] ∧
    (∀ handle ∈ handles, ∀ task, s.yard.tasks[handle]? = some task → task.aborted = true) ∧
    (∃ collectors, s.yard.Kept handles collectors ∧ Together lower secrets collectors) ∧
    ∀ config, next = some config → config = s.config ∨ s.calls.any Stage.owes = true
  publishing : ∀ handles, Stage.publishing handles ∈ s.calls → s.yard.slot = [] ∧
    ∃ collectors, s.yard.Kept handles collectors ∧ Together lower secrets collectors ∧
      s.Current collectors

variable {lower secrets}

theorem together_collectorsOf {config : WatchServiceConfig}
    (apart : ApartConfig lower secrets config) (generation : Nat) :
    Together lower secrets (collectorsOf generation config) := by
  refine ⟨⟨generation, ?_⟩, ?_⟩
  · intro collector member
    obtain ⟨instance_, -, rfl⟩ := List.mem_map.mp member
    rfl
  · rw [collectorsOf, List.pairwise_map]
    exact List.Pairwise.filter _ apart

theorem nobodyInside_iff {s : Supervisor} :
    s.nobodyInside = true ↔ ∀ stage ∈ s.calls, stage.inside = false := by
  simp [Supervisor.nobodyInside]

theorem quiet_iff {s : Supervisor} (quiet : s.quiet = true) :
    s.nobodyInside = true ∧ ∀ handle, s.yard.alive handle = false := by
  obtain ⟨nobody, over_⟩ := Bool.and_eq_true_iff.mp quiet
  refine ⟨nobody, fun handle => ?_⟩
  by_contra living
  rw [Bool.not_eq_false] at living
  have ended := List.all_eq_true.mp over_ handle (List.mem_range.mpr (Yard.alive_lt living))
  rw [living] at ended
  cases ended

namespace SupervisorInv

variable {s t : Supervisor}

/-- A step that leaves the tasks and the calls inside alone. -/
theorem move (inv : SupervisorInv lower secrets s) (yard : t.yard = s.yard)
    (alone : Alone Stage.inside t.calls)
    (inside : ∀ stage, stage.inside = true → (stage ∈ t.calls ↔ stage ∈ s.calls))
    (config : ApartConfig lower secrets t.config)
    (carried : ∀ stage ∈ t.calls, ∀ config ∈ stage.configs, ApartConfig lower secrets config)
    (owed : (t.config = s.config ∧ (s.calls.any Stage.owes = true → t.calls.any Stage.owes = true)) ∨
      t.calls.any Stage.owes = true ∨ s.quiet = true) :
    SupervisorInv lower secrets t := by
  have nobody : t.nobodyInside = true ↔ s.nobodyInside = true := by
    rw [nobodyInside_iff, nobodyInside_iff]
    constructor
    · intro out stage member
      by_contra within
      rw [Bool.not_eq_false] at within
      rw [out stage ((inside stage within).mpr member)] at within
      cases within
    · intro out stage member
      by_contra within
      rw [Bool.not_eq_false] at within
      rw [out stage ((inside stage within).mp member)] at within
      cases within
  have busy : ∀ stage : Stage, stage.inside = true → stage ∈ s.calls → s.quiet = false := by
    intro stage within member
    by_contra quiet
    rw [Bool.not_eq_false] at quiet
    rw [nobodyInside_iff.mp (quiet_iff quiet).1 stage member] at within
    cases within
  have current : ∀ collectors, s.Current collectors → t.Current collectors ∨ s.quiet = true := by
    intro collectors current
    rcases owed with ⟨same, keeps⟩ | still | quiet
    · left
      rcases current with none_ | ⟨generation, stored⟩ | owes
      · exact .inl none_
      · exact .inr (.inl ⟨generation, by rw [same]; exact stored⟩)
      · exact .inr (.inr (keeps owes))
    · exact .inl (.inr (.inr still))
    · exact .inr quiet
  refine ⟨alone, config, carried, ?_, ?_, ?_⟩
  · intro out
    obtain ⟨collectors, kept, together, now⟩ := inv.free (nobody.mp out)
    rw [yard]
    refine ⟨collectors, kept, together, ?_⟩
    rcases now with now | dead
    · rcases current collectors now with still | quiet
      · exact .inl still
      · exact .inr (quiet_iff quiet).2
    · exact .inr dead
  · intro handles next member
    have was := (inside _ rfl).mp member
    obtain ⟨empty, aborted, kept, now⟩ := inv.waiting handles next was
    rw [yard]
    refine ⟨empty, aborted, kept, fun read asked => ?_⟩
    rcases owed with ⟨same, keeps⟩ | still | quiet
    · rw [same]
      exact (now read asked).imp_right keeps
    · exact .inr still
    · rw [busy _ rfl was] at quiet
      cases quiet
  · intro handles member
    have was := (inside _ rfl).mp member
    obtain ⟨empty, collectors, kept, together, now⟩ := inv.publishing handles was
    rw [yard]
    refine ⟨empty, collectors, kept, together, ?_⟩
    rcases current collectors now with still | quiet
    · exact still
    · rw [busy _ rfl was] at quiet
      cases quiet

/-- A call comes in. -/
theorem called (inv : SupervisorInv lower secrets s) {stage : Stage} (outside : stage.inside = false)
    (carried : ∀ config ∈ stage.configs, ApartConfig lower secrets config) :
    SupervisorInv lower secrets { s with calls := s.calls ++ [stage] } := by
  refine inv.move rfl (inv.alone.append outside) ?_ inv.config ?_ (.inl ⟨rfl, ?_⟩)
  · intro other within
    simp only [List.mem_append, List.mem_singleton]
    constructor
    · rintro (old | rfl)
      · exact old
      · rw [outside] at within
        cases within
    · exact .inl
  · intro other member
    rcases List.mem_append.mp member with old | new
    · exact inv.carried other old
    · rw [List.mem_singleton.mp new]
      exact carried
  · intro owes
    rw [List.any_append, owes, Bool.true_or]

theorem carried_set (inv : SupervisorInv lower secrets s) {i : Nat} {stage : Stage}
    (carried : ∀ config ∈ stage.configs, ApartConfig lower secrets config) :
    ∀ other ∈ s.calls.set i stage, ∀ config ∈ other.configs, ApartConfig lower secrets config := by
  intro other member
  rcases List.mem_or_eq_of_mem_set member with old | rfl
  · exact inv.carried other old
  · exact carried

/-- A call outside moves on, outside. -/
theorem moved (inv : SupervisorInv lower secrets s) {i : Nat} {old stage : Stage}
    (here : s.calls[i]? = some old) (wasOut : old.inside = false) (outside : stage.inside = false)
    (carried : ∀ config ∈ stage.configs, ApartConfig lower secrets config)
    (owed : (old.owes = true → stage.owes = true) ∨ s.quiet = true) :
    SupervisorInv lower secrets (s.at i stage) := by
  refine inv.move rfl ?_ (fun other within => mem_set_inside here wasOut outside within) inv.config
    (inv.carried_set carried) ?_
  · refine inv.alone.set here ?_
    intro within
    rw [outside] at within
    cases within
  · rcases owed with keeps | quiet
    · exact .inl ⟨rfl, any_set here keeps⟩
    · exact .inr (.inr quiet)

/-- A configuration is stored, and the call owes its collectors. -/
theorem stored (inv : SupervisorInv lower secrets s) {i : Nat} {next : WatchServiceConfig}
    (here : s.calls[i]? = some (.committing next)) (config : WatchServiceConfig)
    (same : config.instances = next.instances) (enabled : Bool) :
    SupervisorInv lower secrets { (s.at i (.stored enabled)) with config := config } := by
  have given : ApartConfig lower secrets next :=
    inv.carried _ (List.mem_of_getElem? here) next (List.mem_singleton.mpr rfl)
  refine inv.move rfl ?_ (fun other within => mem_set_inside here rfl rfl within) ?_
    (inv.carried_set nofun) (.inr (.inl ?_))
  · exact inv.alone.set here nofun
  · rw [ApartConfig, same]
    exact given
  · have inside : i < s.calls.length := (List.getElem?_eq_some_iff.mp here).1
    exact List.any_eq_true.mpr ⟨_, List.mem_set inside _, rfl⟩

/-- The tasks are taken while nobody is inside. -/
theorem taken (inv : SupervisorInv lower secrets s) {i : Nat} {next : Option WatchServiceConfig}
    {owes : Bool} (here : s.calls[i]? = some (.stopping next owes))
    (nobody : s.nobodyInside = true)
    (current : ∀ config, next = some config →
      config = s.config ∨ (s.calls.eraseIdx i).any Stage.owes = true) :
    SupervisorInv lower secrets
      { (s.at i (.waiting s.yard.slot next)) with yard := s.yard.take } := by
  obtain ⟨collectors, kept, together, -⟩ := inv.free nobody
  have out := nobodyInside_iff.mp nobody
  -- the only call inside is the one that has just entered
  have only : ∀ stage ∈ s.calls.set i (.waiting s.yard.slot next), stage.inside = true →
      stage = .waiting s.yard.slot next := by
    intro stage member within
    rcases List.mem_or_eq_of_mem_set member with old | same
    · rw [out stage old] at within
      cases within
    · exact same
  refine ⟨Alone.enter out i _, inv.config, ?_, ?_, ?_, ?_⟩
  · refine inv.carried_set fun config member => ?_
    exact inv.carried _ (List.mem_of_getElem? here) config member
  · intro free
    have inside : i < s.calls.length := (List.getElem?_eq_some_iff.mp here).1
    have absurd_ := nobodyInside_iff.mp free _ (List.mem_set inside _)
    cases absurd_
  · intro handles following member
    obtain ⟨rfl, rfl⟩ := Stage.waiting.inj (only _ member rfl)
    refine ⟨rfl, Yard.Kept.aborted_take s.yard, ⟨collectors, kept.take, together⟩, ?_⟩
    intro config asked
    rcases current config asked with same | others
    · exact .inl same
    · exact .inr (any_eraseIdx others _)
  · intro handles member
    cases only _ member rfl

/-- A call that is inside leaves. -/
theorem left (inv : SupervisorInv lower secrets s) {i : Nat} {old : Stage}
    (here : s.calls[i]? = some old) (within : old.inside = true) (quietly : old.owes = false)
    {yard : Yard Collector} {collectors : List Collector} (kept : yard.Kept yard.slot collectors)
    (together : Together lower secrets collectors) (current : s.Current collectors) :
    SupervisorInv lower secrets { (s.at i .ended) with yard := yard } := by
  have out : ∀ stage ∈ s.calls.set i .ended, stage.inside = false := by
    intro stage member
    rcases inv.alone.mem_set here within member with rfl | outside
    · rfl
    · exact outside
  refine ⟨inv.alone.set here nofun, inv.config, inv.carried_set nofun, ?_, ?_, ?_⟩
  · intro _
    refine ⟨collectors, kept, together, .inl ?_⟩
    rcases current with none_ | stored | owes
    · exact .inl none_
    · exact .inr (.inl stored)
    · refine .inr (.inr (any_set here ?_ owes))
      rw [quietly]
      exact nofun
  · intro handles next member
    cases out _ member
  · intro handles member
    cases out _ member

/-- The awaited tasks have ended, and a start spawns its collectors. -/
theorem spawned (inv : SupervisorInv lower secrets s) {i : Nat} {handles : List Nat}
    {config : WatchServiceConfig} (here : s.calls[i]? = some (.waiting handles (some config)))
    (finished : s.yard.allEnded handles = true) :
    SupervisorInv lower secrets (s.advance i (some config)) := by
  have member := List.mem_of_getElem? here
  obtain ⟨empty, -, ⟨collectors, kept, -⟩, current⟩ := inv.waiting _ _ member
  have apart : ApartConfig lower secrets config := inv.carried _ member config (by simp [Stage.configs])
  have only : ∀ stage ∈ (s.advance i (some config)).calls, stage.inside = true →
      stage = .publishing (s.yard.fresh (collectorsOf (s.generation + 1) config)) := by
    intro stage there within
    rcases inv.alone.mem_set here rfl there with same | outside
    · exact same
    · rw [outside] at within
      cases within
  refine ⟨inv.alone.set here fun _ => rfl, inv.config, inv.carried_set nofun, ?_, ?_, ?_⟩
  · intro free
    have inside : i < s.calls.length := (List.getElem?_eq_some_iff.mp here).1
    have absurd_ := nobodyInside_iff.mp free _ (List.mem_set inside _)
    cases absurd_
  · intro other next there
    cases only _ there rfl
  · intro other there
    obtain rfl := Stage.publishing.inj (only _ there rfl)
    refine ⟨empty, _, kept.spawn finished _, together_collectorsOf apart _, ?_⟩
    rcases current config rfl with same | owes
    · exact .inr (.inl ⟨s.generation + 1, by rw [same]; rfl⟩)
    · exact .inr (.inr (any_set here nofun owes))

theorem finish (inv : SupervisorInv lower secrets s) (handle : Nat) :
    SupervisorInv lower secrets { s with yard := s.yard.finish handle } := by
  refine ⟨inv.alone, inv.config, inv.carried, ?_, ?_, ?_⟩
  · intro free
    obtain ⟨collectors, kept, together, now⟩ := inv.free free
    refine ⟨collectors, kept.finish handle, together, now.imp_right ?_⟩
    intro dead other
    by_contra living
    rw [Bool.not_eq_false] at living
    have still := Yard.alive_of_finish living
    rw [dead other] at still
    cases still
  · intro handles next member
    obtain ⟨empty, aborted, ⟨collectors, kept, together⟩, current⟩ := inv.waiting handles next member
    exact ⟨empty, Yard.Kept.aborted_finish aborted, ⟨collectors, kept.finish handle, together⟩,
      current⟩
  · intro handles member
    obtain ⟨empty, collectors, kept, together, current⟩ := inv.publishing handles member
    exact ⟨empty, collectors, kept.finish handle, together, current⟩

/-- **A step of a serial run keeps the invariant.** -/
theorem step {urls : Urls} {action : Action} (inv : SupervisorInv lower secrets s)
    (ok : serial s action = true) (stepped : s.step lower urls secrets action = some t) :
    SupervisorInv lower secrets t := by
  cases action with
  | start =>
      cases stepped
      refine inv.called rfl ?_
      intro config member
      obtain rfl := List.mem_singleton.mp member
      exact inv.config
  | stop =>
      cases stepped
      exact inv.called rfl nofun
  | updateConfig next newKey =>
      simp only [Supervisor.step] at stepped
      split at stepped
      · cases stepped
        exact inv
      · rename_i accepted
        cases stepped
        refine inv.called rfl ?_
        intro config member
        obtain rfl := List.mem_singleton.mp member
        exact acceptConfig_apart accepted
  | probed call passed =>
      simp only [Supervisor.step] at stepped
      split at stepped
      · rename_i next here
        cases stepped
        have given := inv.carried _ (List.mem_of_getElem? here)
        cases passed with
        | true => exact inv.moved here rfl rfl given (.inl nofun)
        | false => exact inv.moved here rfl rfl nofun (.inl nofun)
      · rename_i config owes here
        cases stepped
        have given := inv.carried _ (List.mem_of_getElem? here)
        cases passed with
        | true => exact inv.moved here rfl rfl given (.inl id)
        | false =>
            refine inv.moved here rfl rfl nofun ?_
            simp only [serial, here, Option.all_some, Bool.or_eq_true] at ok
            rcases ok with quiet | free
            · exact .inr quiet
            · left
              intro owing
              rw [owing] at free
              cases free
      · cases stepped
  | commit call written =>
      simp only [Supervisor.step] at stepped
      split at stepped
      · rename_i next here
        cases stepped
        unfold Supervisor.commit
        split
        · refine inv.stored here _ ?_ _
          rfl
        · exact inv.moved here rfl rfl nofun (.inl nofun)
      · cases stepped
  | proceed call =>
      simp only [Supervisor.step] at stepped
      split at stepped
      · rename_i enabled here
        cases stepped
        cases enabled with
        | true =>
            refine inv.moved here rfl rfl ?_ (.inl fun _ => rfl)
            intro config member
            obtain rfl := List.mem_singleton.mp member
            exact inv.config
        | false => exact inv.moved here rfl rfl nofun (.inl fun _ => rfl)
      · cases stepped
  | take call =>
      simp only [Supervisor.step] at stepped
      split at stepped
      · rename_i next owes here
        cases stepped
        simp only [serial, here, Bool.and_eq_true] at ok
        refine inv.taken here ok.1 ?_
        rintro config rfl
        simpa using ok.2
      · cases stepped
  | advance call =>
      simp only [Supervisor.step] at stepped
      split at stepped
      · rename_i handles next here
        split at stepped
        · rename_i finished
          cases stepped
          cases next with
          | some config => exact inv.spawned here finished
          | none =>
              obtain ⟨empty, -, ⟨collectors, kept, -⟩, -⟩ :=
                inv.waiting _ _ (List.mem_of_getElem? here)
              have closed : s.yard.close.Kept s.yard.close.slot [] := by
                show s.yard.close.Kept s.yard.slot []
                rw [empty]
                exact kept.close finished
              exact inv.left here rfl rfl closed ⟨⟨0, nofun⟩, List.Pairwise.nil⟩ (.inl rfl)
        · cases stepped
      · cases stepped
  | publish call =>
      simp only [Supervisor.step] at stepped
      split at stepped
      · rename_i handles here
        cases stepped
        obtain ⟨-, collectors, kept, together, current⟩ :=
          inv.publishing _ (List.mem_of_getElem? here)
        exact inv.left here rfl rfl (kept.store handles) together current
      · cases stepped
  | drop call =>
      simp only [Supervisor.step] at stepped
      split at stepped
      · cases stepped
      · rename_i stage notEnded here
        cases stepped
        simp only [serial, here, Option.all_some, Bool.and_eq_true, Bool.not_eq_true',
          Bool.or_eq_true] at ok
        refine inv.moved here ok.1 rfl nofun ?_
        rcases ok.2 with quiet | free
        · exact .inr quiet
        · left
          rw [free]
          exact nofun
      · cases stepped
  | finish handle =>
      cases stepped
      exact inv.finish handle

theorem fresh (start : FreshSupervisor lower secrets s) : SupervisorInv lower secrets s := by
  obtain ⟨apart, yard, calls⟩ := start
  refine ⟨?_, apart, ?_, ?_, ?_, ?_⟩
  · rw [calls]
    intro i j a b here
    simp at here
  · simp [calls]
  · intro _
    rw [yard]
    exact ⟨[], Yard.kept_empty, ⟨⟨0, nofun⟩, List.Pairwise.nil⟩, .inl (.inl rfl)⟩
  · simp [calls]
  · simp [calls]

/-- Whoever is inside keeps the live collectors; otherwise the shared list does. -/
theorem keeper (inv : SupervisorInv lower secrets s) :
    ∃ handles collectors, s.yard.Kept handles collectors ∧ Together lower secrets collectors ∧
      ∀ handle ∈ handles, s.Held handle := by
  by_cases nobody : s.nobodyInside = true
  · obtain ⟨collectors, kept, together, -⟩ := inv.free nobody
    exact ⟨_, collectors, kept, together, fun handle member => .inl member⟩
  · rw [nobodyInside_iff] at nobody
    push Not at nobody
    obtain ⟨stage, member, within⟩ := nobody
    cases stage with
    | waiting handles next =>
        obtain ⟨-, aborted, ⟨collectors, kept, together⟩, -⟩ := inv.waiting handles next member
        refine ⟨handles, collectors, kept, together, fun handle inside => ?_⟩
        exact .inr (.inl ⟨handles, next, member, inside, aborted handle inside⟩)
    | publishing handles =>
        obtain ⟨-, collectors, kept, together, -⟩ := inv.publishing handles member
        refine ⟨handles, collectors, kept, together, fun handle inside => ?_⟩
        exact .inr (.inr ⟨handles, member, inside⟩)
    | checking next => exact absurd rfl within
    | committing next => exact absurd rfl within
    | stored enabled => exact absurd rfl within
    | probing config owes => exact absurd rfl within
    | stopping next owes => exact absurd rfl within
    | ended => exact absurd rfl within

theorem settled (inv : SupervisorInv lower secrets s) (rest : ∀ stage ∈ s.calls, stage = .ended) :
    s.Settled := by
  have nobody : s.nobodyInside = true := by
    rw [nobodyInside_iff]
    intro stage member
    rw [rest stage member]
    rfl
  have nothingOwed : s.calls.any Stage.owes = false := by
    by_contra some_
    rw [Bool.not_eq_false] at some_
    obtain ⟨stage, member, owes⟩ := List.any_eq_true.mp some_
    rw [rest stage member] at owes
    cases owes
  obtain ⟨collectors, kept, -, now⟩ := inv.free nobody
  rcases now with (rfl | ⟨generation, rfl⟩ | owes) | dead
  · left
    intro handle
    by_contra living
    rw [Bool.not_eq_false] at living
    have empty : s.yard.slot = [] := List.map_eq_nil_iff.mp kept.spawned
    have member := kept.owned handle living
    rw [empty] at member
    cases member
  · exact .inr ⟨kept.owned, generation, kept.spawned⟩
  · rw [nothingOwed] at owes
    cases owes
  · exact .inl dead

theorem safe (inv : SupervisorInv lower secrets s) : s.Safe lower secrets := by
  obtain ⟨handles, collectors, kept, ⟨⟨generation, one⟩, apart⟩, held⟩ := inv.keeper
  have ofGeneration : ∀ a p, s.yard.alive a = true → s.yard.spec? a = some p →
      p.generation = generation := by
    intro a p living found
    obtain ⟨spec, asked, same⟩ := kept.spec_of_alive living
    obtain rfl := Option.some.inj (found.symm.trans same)
    exact one p asked
  refine ⟨?_, fun handle living => held handle (kept.owned handle living), inv.settled, ?_, kept.late⟩
  · intro a b p q first second here there
    rw [ofGeneration a p first here, ofGeneration b q second there]
  · intro a b differ first second
    exact kept.pair_of_alive (fun p q => Apart.symm) apart first second differ

end SupervisorInv

/-- **In every run whose calls take turns**, from any fresh service on a configuration
that passes the checks, in every state reached: one generation alive, every live
collector within reach of a stop, two collectors never on one account or state file, none
that a returned stop should have ended, and at rest those of the stored configuration. -/
theorem supervisor_safe {urls : Urls} {start final : Supervisor} {actions : List Action}
    (fresh : FreshSupervisor lower secrets start)
    (turns : (supervisorMachine lower urls secrets).Meets (fun s a => serial s a = true) start actions)
    (ran : (supervisorMachine lower urls secrets).run start actions = some final) :
    final.Safe lower secrets := by
  have inv : SupervisorInv lower secrets final := by
    refine Machine.run_preserves_of_meets ?_ turns ran (SupervisorInv.fresh fresh)
    intro s action t inv ok stepped
    exact inv.step ok stepped
  exact inv.safe

end Invariant

/-! ## Two starts -/

/-- One collector, on a variable. -/
def oneCollector : Supervisor where
  config :=
    { revision := 1, enabled := true
      instances := [{ id := "default", key := "default", accountSecretRef := "env:LIVE" }] }

def liveSecrets : Secrets where
  env := fun name => if name = "LIVE" then some "live@x.com,a" else none

/-- A start, then a stop, one after the other. -/
def startThenStop : List Action :=
  [.start, .probed 0 true, .take 0, .advance 0, .publish 0,
    .stop, .take 1, .finish 0, .advance 1]

theorem supervisor_safe_startThenStop :
    ∃ final, (supervisorMachine asciiLowerCase plainUrls liveSecrets).run oneCollector
        startThenStop = some final ∧
      (final.yard.tasks.length = 1 ∧ final.yard.barrier = 1) ∧
      final.Safe asciiLowerCase liveSecrets := by
  have fresh : FreshSupervisor asciiLowerCase liveSecrets oneCollector :=
    ⟨List.pairwise_singleton _ _, rfl, rfl⟩
  obtain ⟨final, ran, shown⟩ : ∃ final,
      (supervisorMachine asciiLowerCase plainUrls liveSecrets).run oneCollector startThenStop =
        some final ∧ (final.yard.tasks.length = 1 ∧ final.yard.barrier = 1) :=
    Machine.run_exists (by decide +kernel)
  exact ⟨final, ran, shown, supervisor_safe fresh (by decide +kernel) ran⟩

/-- Two starts, each past the other's `stop_tasks` before either stores its handles. -/
def startTwice : List Action :=
  [.start, .start, .probed 0 true, .probed 1 true, .take 0, .take 1, .advance 0, .advance 1,
    .publish 0, .publish 1]

/-- **Two overlapping starts leave two generations alive**, on one account and one state
file, and the first of them is in no list that a stop aborts. -/
theorem two_starts_two_generations :
    FreshSupervisor asciiLowerCase liveSecrets oneCollector ∧
    ∃ final, (supervisorMachine asciiLowerCase plainUrls liveSecrets).run oneCollector startTwice =
        some final ∧ ¬ final.Safe asciiLowerCase liveSecrets := by
  refine ⟨⟨List.pairwise_singleton _ _, rfl, rfl⟩, ?_⟩
  obtain ⟨final, ran, first, second, generations⟩ : ∃ final,
      (supervisorMachine asciiLowerCase plainUrls liveSecrets).run oneCollector startTwice =
        some final ∧ final.yard.alive 0 = true ∧ final.yard.alive 1 = true ∧
      ((final.yard.spec? 0).map (·.generation) = some 1 ∧
        (final.yard.spec? 1).map (·.generation) = some 2) :=
    Machine.run_exists (by decide +kernel)
  refine ⟨final, ran, fun safe => ?_⟩
  obtain ⟨p, here, one⟩ := Option.map_eq_some_iff.mp generations.1
  obtain ⟨q, there, two⟩ := Option.map_eq_some_iff.mp generations.2
  have same := safe.oneGeneration 0 1 p q first second here there
  rw [one, two] at same
  cases same

end MajsoulManager.Watch
