/-
# Refetch.NodeTally — who uses which exit

`NodeTally` of `refetch_service.rs`.  A session raises the gauge of its exit when it has
logged in, and lowers it when `serve` returns; its task is aborted by `stop`, by `start`
and by a walk that is done, at whatever await it stands.

`gauge_exact_iff`: after any run, every gauge is the number of live sessions on its exit
exactly if no session was aborted between the two.  `aborted_session_counted` is a stop:
nobody is left, and the gauge says one.
-/
import MajsoulManager.Theory.Edits
import MajsoulManager.Theory.Machine

namespace MajsoulManager.Refetch

open MajsoulManager.Theory

set_option autoImplicit false

/-! ## The tally -/

structure NodeTally where
  fetched : Nat := 0
  failed : Nat := 0
  nanos : Nat := 0
  sessions : Nat := 0
  deriving DecidableEq

/-- The entries by the name of the exit. -/
abbrev Tally := List (String × NodeTally)

namespace Tally

def get (tally : Tally) (node : String) : NodeTally :=
  ((tally.find? fun entry => entry.1 == node).map (·.2)).getD {}

/-- `entry(node).or_default()`, edited. -/
def edit (tally : Tally) (node : String) (f : NodeTally → NodeTally) : Tally :=
  (node, f (tally.get node)) :: tally.filter fun entry => entry.1 != node

def recordNode (tally : Tally) (node : Option String) (fetched : Bool) (took : Nat) : Tally :=
  match node with
  | none => tally
  | some node =>
      tally.edit node fun entry =>
        { entry with
          nanos := min (entry.nanos + took) (2 ^ 64 - 1)
          fetched := if fetched then entry.fetched + 1 else entry.fetched
          failed := if fetched then entry.failed else entry.failed + 1 }

def nodeSession (tally : Tally) (node : Option String) (arriving : Bool) : Tally :=
  match node with
  | none => tally
  | some node =>
      tally.edit node fun entry =>
        { entry with
          sessions := if arriving then entry.sessions + 1 else entry.sessions - 1 }

/-- A round of the balancer takes the counters, and leaves the gauge. -/
def round (tally : Tally) : Tally :=
  tally.map fun entry => (entry.1, { sessions := entry.2.sessions })

theorem get_edit (tally : Tally) (node other : String) (f : NodeTally → NodeTally) :
    (tally.edit node f).get other = if other = node then f (tally.get node) else tally.get other := by
  unfold edit get
  by_cases same : other = node
  · subst same
    simp
  · rw [if_neg same, List.find?_cons_of_neg (by simpa using Ne.symm same), List.find?_filter]
    congr 3
    funext entry
    by_cases found : entry.1 = other
    · subst found
      simp [same]
    · simp [found]

theorem sessions_recordNode (tally : Tally) (node : Option String) (fetched : Bool) (took : Nat)
    (other : String) :
    ((tally.recordNode node fetched took).get other).sessions = (tally.get other).sessions := by
  cases node with
  | none => rfl
  | some node =>
      rw [recordNode, get_edit]
      split
      · rename_i same
        rw [same]
      · rfl

theorem sessions_round (tally : Tally) (node : String) :
    (tally.round.get node).sessions = (tally.get node).sessions := by
  simp only [round, get, List.find?_map, Function.comp_def]
  cases tally.find? fun entry => entry.1 == node with
  | none => rfl
  | some entry => rfl

/-- A session that arrives or leaves moves the gauge of its exit, and no other. -/
theorem sessions_nodeSession (tally : Tally) (node : Option String) (arriving : Bool)
    (other : String) :
    ((tally.nodeSession node arriving).get other).sessions =
      if node = some other then
        if arriving then (tally.get other).sessions + 1 else (tally.get other).sessions - 1
      else (tally.get other).sessions := by
  cases node with
  | none => rfl
  | some node =>
      rw [nodeSession, get_edit]
      by_cases same : other = node
      · subst same
        rw [if_pos rfl, if_pos rfl]
      · rw [if_neg same, if_neg (by simpa using Ne.symm same)]

end Tally

/-! ## Sessions -/

/-- Where `run_worker` stands: before a login or between two, in `serve`, or gone. -/
inductive WorkerStage where
  | connecting
  | serving (node : Option String)
  | ended
  deriving DecidableEq

structure Pool where
  tally : Tally := []
  workers : List WorkerStage := []
  deriving DecidableEq

inductive PoolAction where
  | spawn (workers : Nat)
  /-- A login went through, on the exit the account is bound to then. -/
  | login (worker : Nat) (node : Option String)
  | request (worker : Nat) (fetched : Bool) (took : Nat)
  /-- `serve` returns, and the session is over. -/
  | leave (worker : Nat)
  /-- A worker gives up by itself. -/
  | exit (worker : Nat)
  /-- An abort reaches a worker at an await. -/
  | abort (worker : Nat)
  | balance

def Pool.at (s : Pool) (worker : Nat) (stage : WorkerStage) : Pool :=
  { s with workers := s.workers.modify worker fun _ => stage }

def Pool.step (s : Pool) : PoolAction → Option Pool
  | .spawn workers => some { s with workers := s.workers ++ List.replicate workers .connecting }
  | .login worker node =>
      match s.workers[worker]? with
      | some .connecting =>
          some { (s.at worker (.serving node)) with tally := s.tally.nodeSession node true }
      | _ => none
  | .request worker fetched took =>
      match s.workers[worker]? with
      | some (.serving node) => some { s with tally := s.tally.recordNode node fetched took }
      | _ => none
  | .leave worker =>
      match s.workers[worker]? with
      | some (.serving node) =>
          some { (s.at worker .connecting) with tally := s.tally.nodeSession node false }
      | _ => none
  | .exit worker =>
      match s.workers[worker]? with
      | some .connecting => some (s.at worker .ended)
      | _ => none
  | .abort worker =>
      match s.workers[worker]? with
      | some .ended => none
      | some _ => some (s.at worker .ended)
      | none => none
  | .balance => some { s with tally := s.tally.round }

def tallyMachine : Machine Pool PoolAction where
  Start s := s = {}
  step := Pool.step

/-! ## Gauges and sessions -/

def Pool.gauge (s : Pool) (node : String) : Nat := (s.tally.get node).sessions

def usesNode (node : String) (stage : WorkerStage) : Bool := stage == .serving (some node)

/-- The live sessions that use an exit. -/
def Pool.live (s : Pool) (node : String) : Nat := s.workers.countP (usesNode node)

/-- Every gauge is the number of live sessions on its exit. -/
def Pool.Exact (s : Pool) : Prop := ∀ node, s.gauge node = s.live node

/-- No session is aborted while it serves on an exit of its own. -/
def unabortedServe (s : Pool) : PoolAction → Bool
  | .abort worker =>
      s.workers[worker]?.all fun stage =>
        match stage with
        | .serving (some _) => false
        | _ => true
  | _ => true

/-- How a worker that moves on changes the sessions on an exit. -/
theorem Pool.live_at {s : Pool} {worker : Nat} {old stage : WorkerStage}
    (here : s.workers[worker]? = some old) (node : String) :
    (s.at worker stage).live node + (if usesNode node old then 1 else 0) =
      s.live node + (if usesNode node stage then 1 else 0) :=
  countP_modify here

theorem usesNode_serving (node : String) (exit : Option String) :
    usesNode node (.serving exit) = decide (exit = some node) := by
  simp only [usesNode]
  rw [Bool.eq_iff_iff]
  simp

/-- No gauge is behind its sessions. -/
def Pool.Ahead (s : Pool) : Prop := ∀ node, s.live node ≤ s.gauge node

section Step

variable {s t : Pool} {action : PoolAction}

theorem live_pos {worker : Nat} {node : String}
    (here : s.workers[worker]? = some (.serving (some node))) : 0 < s.live node :=
  List.countP_pos_iff.mpr ⟨_, List.mem_of_getElem? here, by simp [usesNode]⟩

/-- A login raises gauge and sessions alike. -/
theorem login_even {worker : Nat} {exit : Option String}
    (here : s.workers[worker]? = some .connecting) (node : String) :
    s.gauge node + (s.at worker (.serving exit)).live node =
      ((s.tally.nodeSession exit true).get node).sessions + s.live node := by
  have moved : (s.at worker (.serving exit)).live node + (if usesNode node .connecting then 1 else 0) =
      s.live node + (if usesNode node (.serving exit) then 1 else 0) := Pool.live_at here node
  rw [Tally.sessions_nodeSession, usesNode_serving] at *
  simp only [Pool.gauge, usesNode, decide_eq_true_eq] at *
  by_cases own : exit = some node
  · simp [own] at moved ⊢
    omega
  · simp [own] at moved ⊢
    omega

/-- A session that is over lowers both. -/
theorem leave_even (ahead : s.Ahead) {worker : Nat} {exit : Option String}
    (here : s.workers[worker]? = some (.serving exit)) (node : String) :
    s.gauge node + (s.at worker .connecting).live node =
      ((s.tally.nodeSession exit false).get node).sessions + s.live node := by
  have moved : (s.at worker .connecting).live node + (if usesNode node (.serving exit) then 1 else 0) =
      s.live node + (if usesNode node .connecting then 1 else 0) := Pool.live_at here node
  have bound := ahead node
  rw [Tally.sessions_nodeSession]
  rw [usesNode_serving] at moved
  simp only [Pool.gauge] at bound ⊢
  by_cases own : exit = some node
  · subst own
    have some_ := live_pos here
    simp [usesNode] at moved ⊢
    omega
  · simp [own, usesNode] at moved ⊢
    omega

/-- A worker that does not serve on the exit leaves it without a trace. -/
theorem gone_even {worker : Nat} {old stage : WorkerStage} (here : s.workers[worker]? = some old)
    {node : String} (was : usesNode node old = false) (is : usesNode node stage = false) :
    (s.at worker stage).live node = s.live node := by
  have moved : (s.at worker stage).live node + (if usesNode node old then 1 else 0) =
      s.live node + (if usesNode node stage then 1 else 0) := Pool.live_at here node
  simpa [was, is] using moved

/-- A step without such an abort keeps gauges and sessions in step. -/
theorem step_even (ahead : s.Ahead) (allowed : unabortedServe s action = true)
    (stepped : s.step action = some t) (node : String) :
    s.gauge node + t.live node = t.gauge node + s.live node := by
  cases action with
  | spawn workers =>
      cases stepped
      have same : (s.workers ++ List.replicate workers WorkerStage.connecting).countP
          (usesNode node) =
          s.workers.countP (usesNode node) := by
        rw [List.countP_append, List.countP_replicate]
        rfl
      simp only [Pool.live, Pool.gauge, same]
  | login worker exit =>
      simp only [Pool.step] at stepped
      split at stepped
      · rename_i here
        cases stepped
        exact login_even here node
      · cases stepped
  | request worker fetched took =>
      simp only [Pool.step] at stepped
      split at stepped
      · cases stepped
        show _ = (Tally.get _ node).sessions + _
        rw [Tally.sessions_recordNode]
        rfl
      · cases stepped
  | leave worker =>
      simp only [Pool.step] at stepped
      split at stepped
      · rename_i here
        cases stepped
        exact leave_even ahead here node
      · cases stepped
  | exit worker =>
      simp only [Pool.step] at stepped
      split at stepped
      · rename_i here
        cases stepped
        rw [gone_even here rfl rfl]
        rfl
      · cases stepped
  | abort worker =>
      simp only [Pool.step] at stepped
      split at stepped
      · cases stepped
      · rename_i stage _ here
        cases stepped
        rw [unabortedServe, here] at allowed
        have was : usesNode node stage = false := by
          cases stage with
          | connecting => rfl
          | ended => rfl
          | serving exit =>
              cases exit with
              | none => rfl
              | some exit => cases allowed
        rw [gone_even here was rfl]
        rfl
      · cases stepped
  | balance =>
      cases stepped
      show _ = (Tally.get _ node).sessions + _
      rw [Tally.sessions_round]
      rfl

/-- An abort of a serving session leaves one gauge behind, and touches no other. -/
theorem step_abort (broken : ¬ unabortedServe s action = true) (stepped : s.step action = some t) :
    ∃ exit, t.live exit + 1 = s.live exit ∧
      ∀ node, t.gauge node = s.gauge node ∧ t.live node ≤ s.live node := by
  cases action with
  | abort worker =>
      simp only [Pool.step] at stepped
      split at stepped
      · cases stepped
      · rename_i stage _ here
        cases stepped
        rw [unabortedServe, here] at broken
        cases stage with
        | connecting => exact absurd rfl broken
        | ended => exact absurd rfl broken
        | serving exit =>
            cases exit with
            | none => exact absurd rfl broken
            | some exit =>
                have moved : ∀ node, (s.at worker .ended).live node +
                    (if usesNode node (.serving (some exit)) then 1 else 0) =
                      s.live node + (if usesNode node .ended then 1 else 0) :=
                  fun node => Pool.live_at here node
                refine ⟨exit, by simpa [usesNode] using moved exit, fun node => ⟨rfl, ?_⟩⟩
                have once := moved node
                simp only [usesNode, reduceCtorEq, beq_iff_eq, if_false, Nat.add_zero] at once
                omega
      · cases stepped
  | _ => exact absurd rfl broken

theorem step_ahead (ahead : s.Ahead) (stepped : s.step action = some t) : t.Ahead := by
  intro node
  have bound := ahead node
  by_cases allowed : unabortedServe s action = true
  · have even := step_even ahead allowed stepped node
    omega
  · obtain ⟨-, -, rest⟩ := step_abort allowed stepped
    obtain ⟨same, fewer⟩ := rest node
    omega

end Step

/-- **The gauges, after any run.**  Every gauge is the number of live sessions on its exit
exactly if no step of the run aborted a session that served on an exit of its own. -/
theorem gauge_exact_iff {final : Pool} {actions : List PoolAction}
    (ran : tallyMachine.run {} actions = some final) :
    final.Exact ↔ tallyMachine.Meets (fun s a => unabortedServe s a = true) {} actions := by
  constructor
  · intro exact
    refine Machine.meets_of_not_trapped (P := Pool.Ahead)
      (Q := fun s => ∃ node, s.live node < s.gauge node) ?_ ?_ ?_ ran ?_ ?_
    · exact fun s a t ahead stepped => step_ahead ahead stepped
    · intro s a t ahead broken stepped
      obtain ⟨exit, fewer, rest⟩ := step_abort broken stepped
      have bound := ahead exit
      exact ⟨exit, by rw [(rest exit).1]; omega⟩
    · rintro s a t ⟨ahead, node, over_⟩ stepped
      refine ⟨node, ?_⟩
      by_cases allowed : unabortedServe s a = true
      · have even := step_even ahead allowed stepped node
        omega
      · obtain ⟨-, -, rest⟩ := step_abort allowed stepped
        obtain ⟨same, fewer⟩ := rest node
        omega
    · exact fun node => le_refl _
    · rintro ⟨node, over_⟩
      rw [exact node] at over_
      exact lt_irrefl _ over_
  · intro allowed
    have both : final.Ahead ∧ final.Exact := by
      refine Machine.run_preserves_of_meets (P := fun s => s.Ahead ∧ s.Exact) ?_ allowed ran
        ⟨fun _ => le_refl _, fun _ => rfl⟩
      rintro s a t ⟨ahead, exact⟩ ok stepped
      refine ⟨step_ahead ahead stepped, fun node => ?_⟩
      have even := step_even ahead ok stepped node
      have same := exact node
      omega
    exact both.2

/-- A session that logs in, serves, loses its connection, and logs in elsewhere. -/
def movedSession : List PoolAction :=
  [.spawn 2, .login 0 (some "荷兰"), .login 1 (some "荷兰"), .request 0 true 40, .balance, .leave 0,
    .login 0 (some "日本")]

theorem gauge_exact_iff_movedSession :
    ∃ final, tallyMachine.run {} movedSession = some final ∧
      (final.gauge "荷兰" = 1 ∧ final.gauge "日本" = 1) ∧
      (final.Exact ↔
        tallyMachine.Meets (fun s a => unabortedServe s a = true) {} movedSession) := by
  obtain ⟨final, ran, shown⟩ : ∃ final, tallyMachine.run {} movedSession = some final ∧
      (final.gauge "荷兰" = 1 ∧ final.gauge "日本" = 1) := Machine.run_exists (by decide +kernel)
  exact ⟨final, ran, shown, gauge_exact_iff ran⟩

/-- **An aborted session is counted for good.**  A session logs in and is stopped: nobody
is left, and the gauge of its exit says one. -/
theorem aborted_session_counted :
    ∃ final, tallyMachine.run {} [.spawn 1, .login 0 (some "荷兰"), .abort 0] = some final ∧
      (final.workers = [.ended] ∧ final.gauge "荷兰" = 1) ∧ ¬ final.Exact := by
  obtain ⟨final, ran, shown⟩ : ∃ final,
      tallyMachine.run {} [.spawn 1, .login 0 (some "荷兰"), .abort 0] = some final ∧
      (final.workers = [.ended] ∧ final.gauge "荷兰" = 1) := Machine.run_exists (by decide +kernel)
  refine ⟨final, ran, shown, fun exact => ?_⟩
  have counted := exact "荷兰"
  rw [shown.2, Pool.live, shown.1] at counted
  cases counted

end MajsoulManager.Refetch
