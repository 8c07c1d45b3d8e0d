/-
# Refetch.Supervisor — one session an account, whatever the order of the calls

`RefetchSupervisor` of `refetch_service.rs`.  `stop_tasks` takes, aborts and awaits three
things in turn: the walk, the balancer and the sessions.  `start` does that, spawns one
session an account and stores the three anew.  The walk itself ends the sessions when it
has nothing left to fetch, and may be aborted while it does.

`sessions_exclusive`: while these stretches do not overlap and none is dropped half-way, no
account has two sessions and no session outlives a stop that returned.
`two_starts_two_sessions` is what two overlapping starts do.
-/
import MajsoulManager.Refetch.Accounts
import MajsoulManager.Theory.Handles
import MajsoulManager.Theory.Machine

namespace MajsoulManager.Refetch

open MajsoulManager.Theory
open MajsoulManager.Accounts
open MajsoulManager.Watch

set_option autoImplicit false

/-! ## The service -/

structure RefetchServiceConfig where
  revision : UInt64
  enabled : Bool
  server : String := "cn"
  accountSecretRef : String := "pool:refetch"
  concurrency : Nat
  requestDelayMs : Nat
  proxyMode : WatchProxyMode := .mihomo
  customProxyUrl : Option String := none
  deriving DecidableEq, Repr

def maxRequestDelayMs : Nat := 60000

def RefetchServiceConfig.validate (urls : Urls) (config : RefetchServiceConfig) :
    Except WatchServiceError Unit := do
  refuse (config.server ∉ ["cn", "en", "jp"]) "server must be cn, en or jp"
  refuse (config.concurrency < 1) "concurrency must be at least 1"
  refuse (maxRequestDelayMs < config.requestDelayMs) s!"request_delay_ms must not exceed {maxRequestDelayMs}"
  validateSecretRef config.accountSecretRef
  validateProxy urls config.proxyMode config.customProxyUrl

/-- What a session task was spawned with. -/
structure Session where
  generation : Nat
  index : Nat
  username : String
  deriving DecidableEq, Repr

/-- Where a call, or the walk's own end of the sessions, stands.  `next` is what a start
goes on with: the usernames of its accounts. -/
inductive Stage where
  /-- `update_config` has stored a configuration, and starts or stops next. -/
  | stored (enabled : Bool)
  | stopping (next : Option (List String))
  | awaitWalk (walk : List Nat) (next : Option (List String))
  | awaitBalance (balance : List Nat) (next : Option (List String))
  | awaitSessions (handles : List Nat) (next : Option (List String))
  /-- The sessions are spawned, and their handles about to be stored. -/
  | publishing (generation : Nat) (handles : List Nat)
  | storingBalance (generation : Nat) (balance : List Nat)
  | storingWalk (walk : List Nat)
  /-- A walk that is done awaits the sessions it has taken and aborted. -/
  | closing (walk : Nat) (handles : List Nat)
  | ended
  deriving DecidableEq, Repr

structure Service where
  config : RefetchServiceConfig
  generation : Nat := 0
  walks : Yard Nat := {}
  balances : Yard Nat := {}
  sessions : Yard Session := {}
  calls : List Stage := []
  deriving DecidableEq, Repr

/-- A call that resolves accounts carries what it reads them from. -/
inductive ServiceAction where
  | start (world : World)
  | stop
  | updateConfig (next : RefetchServiceConfig) (written : Bool)
  | proceed (call : Nat) (world : World)
  | take (call : Nat)
  /-- What the call awaits has ended, or its lock is free. -/
  | advance (call : Nat)
  /-- The caller goes away, and its call is dropped where it stands. -/
  | drop (call : Nat)
  /-- A walk has nothing left to fetch, and takes the sessions. -/
  | closeSessions (walk : Nat)
  /-- A walk ends, by itself or because it was aborted. -/
  | endWalk (walk : Nat)
  | endBalance (balance : Nat)
  | endSession (handle : Nat)

/-- The sessions of one start, in the order of its accounts. -/
def sessionsOf (generation : Nat) (usernames : List String) : List Session :=
  usernames.mapIdx fun index username => ⟨generation, index, username⟩

section Machine

variable (urls : Urls)

def Service.at (s : Service) (call : Nat) (stage : Stage) : Service :=
  { s with calls := s.calls.set call stage }

/-- The accounts a start goes on with, if it does. -/
def Service.startNames (s : Service) (world : World) : Option (List String) :=
  match startAccounts world s.config.accountSecretRef s.config.concurrency with
  | .error _ => none
  | .ok accounts => some (accounts.map (·.1))

/-- A walk's own stretch ends with the walk. -/
def Stage.withoutWalk (walk : Nat) : Stage → Stage
  | .closing other handles => if other = walk then .ended else .closing other handles
  | stage => stage

/-- A walk that has taken the sessions goes on until they have ended, unless aborted. -/
def Service.mayEnd (s : Service) (walk : Nat) : Stage → Bool
  | .closing other handles =>
      other != walk || s.sessions.allEnded handles || s.walks.tasks[walk]?.any (·.aborted)
  | _ => true

def Service.advance (s : Service) (call : Nat) : Stage → Option Service
  | .awaitWalk walk next =>
      if s.walks.allEnded walk then
        some { (s.at call (.awaitBalance s.balances.slot next)) with balances := s.balances.take }
      else none
  | .awaitBalance balance next =>
      if s.balances.allEnded balance then
        some { (s.at call (.awaitSessions s.sessions.slot next)) with sessions := s.sessions.take }
      else none
  | .awaitSessions handles none =>
      if s.sessions.allEnded handles then
        some { (s.at call .ended) with sessions := s.sessions.close }
      else none
  | .awaitSessions handles (some usernames) =>
      if s.sessions.allEnded handles then
        let sessions := sessionsOf (s.generation + 1) usernames
        some { (s.at call (.publishing (s.generation + 1) (s.sessions.fresh sessions))) with
          generation := s.generation + 1
          sessions := s.sessions.spawn sessions }
      else none
  | .publishing generation handles =>
      some { (s.at call (.storingBalance generation (s.balances.fresh [generation]))) with
        sessions := s.sessions.store handles
        balances := s.balances.spawn [generation] }
  | .storingBalance generation balance =>
      some { (s.at call (.storingWalk (s.walks.fresh [generation]))) with
        balances := s.balances.store balance
        walks := s.walks.spawn [generation] }
  | .storingWalk walk => some { (s.at call .ended) with walks := s.walks.store walk }
  | .closing walk handles =>
      if s.sessions.allEnded handles then
        some { (s.at call .ended) with walks := s.walks.finish walk }
      else none
  | _ => none

def Service.step (s : Service) : ServiceAction → Option Service
  | .start world =>
      match s.startNames world with
      | none => some s
      | some usernames => some { s with calls := s.calls ++ [.stopping (some usernames)] }
  | .stop => some { s with calls := s.calls ++ [.stopping none] }
  | .updateConfig next written =>
      match next.validate urls with
      | .error _ => some s
      | .ok () =>
          if next.revision = s.config.revision ∧ written then
            some { s with
              config := { next with
                customProxyUrl := restoredProxy urls next.customProxyUrl s.config.customProxyUrl
                revision := saturatingSucc s.config.revision }
              calls := s.calls ++ [.stored next.enabled] }
          else some s
  | .proceed call world =>
      match s.calls[call]? with
      | some (.stored true) =>
          match s.startNames world with
          | none => some (s.at call .ended)
          | some usernames => some (s.at call (.stopping (some usernames)))
      | some (.stored false) => some (s.at call (.stopping none))
      | _ => none
  | .take call =>
      match s.calls[call]? with
      | some (.stopping next) =>
          some { (s.at call (.awaitWalk s.walks.slot next)) with walks := s.walks.take }
      | _ => none
  | .advance call => s.calls[call]?.bind (s.advance call)
  | .drop call =>
      match s.calls[call]? with
      | some .ended => none
      | some (.closing _ _) => none
      | some _ => some (s.at call .ended)
      | none => none
  | .closeSessions walk =>
      if s.walks.alive walk ∧ s.walks.spec? walk = some s.generation then
        some { s with
          calls := s.calls ++ [.closing walk s.sessions.slot]
          sessions := s.sessions.take }
      else none
  | .endWalk walk =>
      if s.calls.all (s.mayEnd walk) then
        some { s with
          calls := s.calls.map (Stage.withoutWalk walk)
          walks := s.walks.finish walk }
      else none
  | .endBalance balance => some { s with balances := s.balances.finish balance }
  | .endSession handle => some { s with sessions := s.sessions.finish handle }

def FreshService (s : Service) : Prop := s.sessions = {} ∧ s.calls = []

def serviceMachine : Machine Service ServiceAction where
  Start := FreshService
  step := Service.step urls

end Machine

/-! ## What is asked of a run -/

/-- Between taking the walk, or for a walk the sessions, and the end of the stretch. -/
def Stage.inside : Stage → Bool
  | .stored _ => false
  | .stopping _ => false
  | .ended => false
  | _ => true

/-- The sessions in the hands of a stretch. -/
def Stage.holds : Stage → Option (List Nat)
  | .awaitSessions handles _ => some handles
  | .publishing _ handles => some handles
  | .closing _ handles => some handles
  | _ => none

theorem Stage.inside_of_holds (stage : Stage) (handles : List Nat)
    (holding : stage.holds = some handles) : stage.inside = true := by
  cases stage <;> first | rfl | cases holding

def Service.nobodyInside (s : Service) : Bool := s.calls.all fun stage => !stage.inside

/-- No two stretches overlap, none is dropped half-way, and the accounts of a start
differ up to letter case. -/
def serial (lower : String → String) (s : Service) : ServiceAction → Bool
  | .start world => (s.startNames world).all fun names => (names.map (identity lower)).Nodup
  | .proceed _ world => (s.startNames world).all fun names => (names.map (identity lower)).Nodup
  | .take _ => s.nobodyInside
  | .closeSessions _ => s.nobodyInside
  | .drop call => s.calls[call]?.all fun stage => !stage.inside
  | .endWalk walk => s.calls.all fun stage =>
      match stage with
      | .closing other handles => other != walk || s.sessions.allEnded handles
      | _ => true
  | _ => true

/-- At most one session an account, and none from before a stop that returned. -/
structure Service.Exclusive (lower : String → String) (s : Service) : Prop where
  oneSession : ∀ a b, a ≠ b → s.sessions.alive a = true → s.sessions.alive b = true →
    ∃ p q, s.sessions.spec? a = some p ∧ s.sessions.spec? b = some q ∧
      identity lower p.username ≠ identity lower q.username
  stopped : ∀ handle, s.sessions.alive handle = true → s.sessions.barrier ≤ handle

/-! ## The invariant -/

section Invariant

variable (lower : String → String)

/-- Sessions on accounts that differ up to letter case. -/
def DistinctAccounts (sessions : List Session) : Prop :=
  sessions.Pairwise fun p q => identity lower p.username ≠ identity lower q.username

/-- The accounts a start goes on with. -/
def Stage.names : Stage → Option (List String)
  | .stopping next => next
  | .awaitWalk _ next => next
  | .awaitBalance _ next => next
  | .awaitSessions _ next => next
  | _ => none

structure ServiceInv (s : Service) : Prop where
  guarded : Guarded Stage.inside Stage.holds (DistinctAccounts lower) s.sessions s.calls
  carried : ∀ stage ∈ s.calls, ∀ names, stage.names = some names →
    (names.map (identity lower)).Nodup

variable {lower}

theorem distinct_sessionsOf {names : List String} (distinct : (names.map (identity lower)).Nodup)
    (generation : Nat) : DistinctAccounts lower (sessionsOf generation names) := by
  rw [DistinctAccounts, List.pairwise_iff_getElem]
  intro i j insideI insideJ less
  simp only [sessionsOf, List.getElem_mapIdx]
  rw [sessionsOf, List.length_mapIdx] at insideI insideJ
  have apart := List.pairwise_iff_getElem.mp (List.pairwise_map.mp distinct) i j insideI insideJ less
  exact apart

namespace ServiceInv

variable {s t : Service}

theorem carried_set (inv : ServiceInv lower s) {i : Nat} {stage : Stage}
    (given : ∀ names, stage.names = some names → (names.map (identity lower)).Nodup) :
    ∀ other ∈ s.calls.set i stage, ∀ names, other.names = some names →
      (names.map (identity lower)).Nodup := by
  intro other member
  rcases List.mem_or_eq_of_mem_set member with old | rfl
  · exact inv.carried other old
  · exact given

theorem carried_append (inv : ServiceInv lower s) {stage : Stage}
    (given : ∀ names, stage.names = some names → (names.map (identity lower)).Nodup) :
    ∀ other ∈ s.calls ++ [stage], ∀ names, other.names = some names →
      (names.map (identity lower)).Nodup := by
  intro other member
  rcases List.mem_append.mp member with old | new
  · exact inv.carried other old
  · rw [List.mem_singleton.mp new]
    exact given

theorem nobody (free : s.nobodyInside = true) : ∀ stage ∈ s.calls, stage.inside = false := by
  intro stage member
  have out := List.all_eq_true.mp free stage member
  simpa using out

theorem started {world : World} {names : List String}
    (distinct : (s.startNames world).all (fun names => (names.map (identity lower)).Nodup) = true)
    (found : s.startNames world = some names) : (names.map (identity lower)).Nodup := by
  rw [found] at distinct
  exact of_decide_eq_true distinct

/-- A stretch moves on: what each of its awaits and locks does. -/
theorem advance (inv : ServiceInv lower s) {i : Nat} {stage : Stage}
    (here : s.calls[i]? = some stage) (stepped : s.advance i stage = some t) :
    ServiceInv lower t := by
  have given := inv.carried _ (List.mem_of_getElem? here)
  have holding := Stage.inside_of_holds
  cases stage with
  | stored enabled => cases stepped
  | stopping next => cases stepped
  | ended => cases stepped
  | awaitWalk walk next =>
      simp only [Service.advance] at stepped
      split at stepped
      · cases stepped
        exact ⟨inv.guarded.set here (fun _ => rfl) rfl, inv.carried_set given⟩
      · cases stepped
  | awaitBalance balance next =>
      simp only [Service.advance] at stepped
      split at stepped
      · cases stepped
        exact ⟨inv.guarded.take holding (OnlyAt.of_inside inv.guarded.alone here rfl) here rfl rfl,
          inv.carried_set given⟩
      · cases stepped
  | awaitSessions handles next =>
      cases next with
      | none =>
          simp only [Service.advance] at stepped
          split at stepped
          · rename_i finished
            cases stepped
            exact ⟨inv.guarded.close holding here rfl finished rfl List.Pairwise.nil,
              inv.carried_set nofun⟩
          · cases stepped
      | some names =>
          simp only [Service.advance] at stepped
          split at stepped
          · rename_i finished
            cases stepped
            have apart := distinct_sessionsOf (given names rfl) (s.generation + 1)
            exact ⟨inv.guarded.spawn holding here rfl finished rfl apart, inv.carried_set nofun⟩
          · cases stepped
  | publishing generation handles =>
      cases stepped
      exact ⟨inv.guarded.store holding here rfl rfl, inv.carried_set nofun⟩
  | storingBalance generation balance =>
      cases stepped
      exact ⟨inv.guarded.set here (fun _ => rfl) rfl, inv.carried_set nofun⟩
  | storingWalk walk =>
      cases stepped
      exact ⟨inv.guarded.set here nofun rfl, inv.carried_set nofun⟩
  | closing walk handles =>
      simp only [Service.advance] at stepped
      split at stepped
      · rename_i finished
        cases stepped
        exact ⟨inv.guarded.release holding here rfl finished rfl List.Pairwise.nil,
          inv.carried_set nofun⟩
      · cases stepped

/-- A walk that has taken the sessions is the only stretch there is. -/
theorem withoutWalk_eq (inv : ServiceInv lower s) {i walk : Nat} {handles : List Nat}
    (here : s.calls[i]? = some (.closing walk handles)) :
    s.calls.map (Stage.withoutWalk walk) = s.calls.set i .ended := by
  apply List.ext_getElem?
  intro j
  rw [List.getElem?_map, List.getElem?_set]
  by_cases same : i = j
  · subst same
    have inside : i < s.calls.length := (List.getElem?_eq_some_iff.mp here).1
    rw [if_pos rfl, if_pos inside, here]
    simp [Stage.withoutWalk]
  · rw [if_neg same]
    cases there : s.calls[j]? with
    | none => rfl
    | some stage =>
        have out : ∀ other, stage ≠ .closing walk other := by
          rintro other rfl
          exact same (inv.guarded.alone i j _ _ here there rfl rfl)
        cases stage with
        | closing other held =>
            have differ : other ≠ walk := by
              rintro rfl
              exact out held rfl
            simp [Stage.withoutWalk, differ]
        | _ => rfl

theorem withoutWalk_none {walk : Nat} (none_ : ∀ handles, Stage.closing walk handles ∉ s.calls) :
    s.calls.map (Stage.withoutWalk walk) = s.calls := by
  refine (List.map_congr_left fun stage member => ?_).trans (List.map_id _)
  cases stage with
  | closing other held =>
      have differ : other ≠ walk := by
        rintro rfl
        exact none_ held member
      simp [Stage.withoutWalk, differ]
  | _ => rfl

theorem step {urls : Urls} {action : ServiceAction} (inv : ServiceInv lower s)
    (ok : serial lower s action = true) (stepped : s.step urls action = some t) :
    ServiceInv lower t := by
  have holding := Stage.inside_of_holds
  cases action with
  | start world =>
      simp only [Service.step] at stepped
      split at stepped
      · cases stepped
        exact inv
      · rename_i names found
        cases stepped
        refine ⟨inv.guarded.append rfl rfl, inv.carried_append ?_⟩
        rintro other ⟨⟩
        exact started ok found
  | stop =>
      cases stepped
      exact ⟨inv.guarded.append rfl rfl, inv.carried_append nofun⟩
  | updateConfig next written =>
      simp only [Service.step] at stepped
      split at stepped
      · cases stepped
        exact inv
      · split at stepped
        · cases stepped
          exact ⟨inv.guarded.append rfl rfl, inv.carried_append nofun⟩
        · cases stepped
          exact inv
  | proceed call world =>
      simp only [Service.step] at stepped
      split at stepped
      · rename_i here
        split at stepped
        · cases stepped
          exact ⟨inv.guarded.set here nofun rfl, inv.carried_set nofun⟩
        · rename_i names found
          cases stepped
          refine ⟨inv.guarded.set here nofun rfl, inv.carried_set ?_⟩
          rintro other ⟨⟩
          exact started ok found
      · rename_i here
        cases stepped
        exact ⟨inv.guarded.set here nofun rfl, inv.carried_set nofun⟩
      · cases stepped
  | take call =>
      simp only [Service.step] at stepped
      split at stepped
      · rename_i next here
        cases stepped
        have given := inv.carried _ (List.mem_of_getElem? here)
        exact ⟨inv.guarded.enter holding here rfl (nobody ok) rfl, inv.carried_set given⟩
      · cases stepped
  | advance call =>
      obtain ⟨stage, here, moved⟩ := Option.bind_eq_some_iff.mp stepped
      exact inv.advance here moved
  | drop call =>
      simp only [Service.step] at stepped
      split at stepped
      · cases stepped
      · cases stepped
      · rename_i stage notEnded notClosing here
        cases stepped
        have outside : stage.inside = false := by simpa [serial, here] using ok
        have nothing : stage.holds = none := by
          cases held : stage.holds with
          | none => rfl
          | some handles =>
              rw [holding stage handles held] at outside
              cases outside
        exact ⟨inv.guarded.set here nofun nothing.symm, inv.carried_set nofun⟩
      · cases stepped
  | closeSessions walk =>
      simp only [Service.step] at stepped
      split at stepped
      · cases stepped
        exact ⟨inv.guarded.arrive holding (nobody ok) rfl, inv.carried_append nofun⟩
      · cases stepped
  | endWalk walk =>
      simp only [Service.step] at stepped
      split at stepped
      · cases stepped
        by_cases closing : ∃ handles, Stage.closing walk handles ∈ s.calls
        · obtain ⟨handles, member⟩ := closing
          obtain ⟨i, here⟩ := List.mem_iff_getElem?.mp member
          have finished : s.sessions.allEnded handles = true := by
            have all := List.all_eq_true.mp ok _ member
            simpa using all
          show ServiceInv lower ⟨_, _, _, _, _, s.calls.map (Stage.withoutWalk walk)⟩
          rw [inv.withoutWalk_eq here]
          exact ⟨inv.guarded.release holding here rfl finished rfl List.Pairwise.nil,
            inv.carried_set nofun⟩
        · push Not at closing
          show ServiceInv lower ⟨_, _, _, _, _, s.calls.map (Stage.withoutWalk walk)⟩
          rw [withoutWalk_none closing]
          exact ⟨inv.guarded, inv.carried⟩
      · cases stepped
  | endBalance balance =>
      cases stepped
      exact ⟨inv.guarded, inv.carried⟩
  | endSession handle =>
      cases stepped
      exact ⟨inv.guarded.finish handle, inv.carried⟩

theorem exclusive (inv : ServiceInv lower s) : s.Exclusive lower := by
  obtain ⟨handles, sessions, kept, apart⟩ := inv.guarded.keeper
  refine ⟨?_, kept.late⟩
  intro a b differ first second
  exact kept.pair_of_alive (fun p q => Ne.symm) apart first second differ

end ServiceInv

/-- **In every run whose stretches do not overlap**, from any service with no session and
no call, in every state reached: at most one session an account, and none that a
returned stop should have ended. -/
theorem sessions_exclusive {urls : Urls} {start final : Service} {actions : List ServiceAction}
    (fresh : FreshService start)
    (turns : (serviceMachine urls).Meets (fun s a => serial lower s a = true) start actions)
    (ran : (serviceMachine urls).run start actions = some final) : final.Exclusive lower := by
  have inv : ServiceInv lower final := by
    refine Machine.run_preserves_of_meets ?_ turns ran ?_
    · intro s action t inv ok stepped
      exact inv.step ok stepped
    · obtain ⟨sessions, calls⟩ := fresh
      refine ⟨?_, by simp [calls]⟩
      rw [sessions, calls]
      exact Guarded.empty List.Pairwise.nil
  exact inv.exclusive

end Invariant

/-! ## Two starts -/

/-- A pool of one account, on a file. -/
def oneAccount : Service where
  config :=
    { revision := 1, enabled := true, accountSecretRef := "file:/srv/pool", concurrency := 2
      requestDelayMs := 1500 }

def oneAccountWorld : World where
  secrets := { file := fun path => if path = "/srv/pool" then some "pool@x.com,b" else none }
  instances := []

/-- A whole start, from its first step to the last handle stored. -/
def startSteps (call : Nat) : List ServiceAction :=
  [.take call, .advance call, .advance call, .advance call, .advance call, .advance call,
    .advance call]

/-- A start, then a stop, one after the other. -/
def startThenStop : List ServiceAction :=
  [.start oneAccountWorld] ++ startSteps 0 ++
    [.stop, .take 1, .endWalk 0, .advance 1, .endBalance 0, .advance 1, .endSession 0, .advance 1]

theorem sessions_exclusive_startThenStop :
    ∃ final, (serviceMachine plainUrls).run oneAccount startThenStop = some final ∧
      (final.sessions.tasks.length = 1 ∧ final.sessions.barrier = 1) ∧
      final.Exclusive asciiLowerCase := by
  obtain ⟨final, ran, shown⟩ : ∃ final,
      (serviceMachine plainUrls).run oneAccount startThenStop = some final ∧
      (final.sessions.tasks.length = 1 ∧ final.sessions.barrier = 1) :=
    Machine.run_exists (by decide +kernel)
  exact ⟨final, ran, shown, sessions_exclusive ⟨rfl, rfl⟩ (by decide +kernel) ran⟩

/-- Two starts, each past the other's `stop_tasks` before either stores its sessions. -/
def startTwice : List ServiceAction :=
  [.start oneAccountWorld, .start oneAccountWorld, .take 0, .take 1, .advance 0, .advance 1,
    .advance 0, .advance 1, .advance 0, .advance 1]

/-- **Two overlapping starts open two sessions on one account.** -/
theorem two_starts_two_sessions :
    FreshService oneAccount ∧
    ∃ final, (serviceMachine plainUrls).run oneAccount startTwice = some final ∧
      ¬ final.Exclusive asciiLowerCase := by
  refine ⟨⟨rfl, rfl⟩, ?_⟩
  obtain ⟨final, ran, first, second, names⟩ : ∃ final,
      (serviceMachine plainUrls).run oneAccount startTwice = some final ∧
      final.sessions.alive 0 = true ∧ final.sessions.alive 1 = true ∧
      ((final.sessions.spec? 0).map (·.username) = some "pool@x.com" ∧
        (final.sessions.spec? 1).map (·.username) = some "pool@x.com") :=
    Machine.run_exists (by decide +kernel)
  refine ⟨final, ran, fun exclusive => ?_⟩
  obtain ⟨p, q, here, there, differ⟩ := exclusive.oneSession 0 1 (by decide) first second
  rw [here, there] at names
  simp only [Option.map_some, Option.some.injEq] at names
  rw [names.1, names.2] at differ
  exact differ rfl

end MajsoulManager.Refetch
