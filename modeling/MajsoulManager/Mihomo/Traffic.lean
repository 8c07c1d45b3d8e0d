/-
# Mihomo.Traffic — bytes per node out of running totals per connection

`sample_traffic` of `mihomo.rs`.  The controller lists the connections that are open, each
with what it has carried so far, and a node's figure grows by the difference to what the
connection's id had at the last round that could be read.  A connection is a number here,
beside the id the controller knows it by: an id may pass to another connection once the
first has closed, and the marks are kept by id.

`traffic_accurate_iff`: the figures are what the connections last said, in every state of a
run, exactly when no id passes from one round to the next between two connections that both
have carried something, and no node's bytes pass the word.
-/
import MajsoulManager.Theory.Latest
import MajsoulManager.Theory.Machine

namespace MajsoulManager.Mihomo

open MajsoulManager.Theory

set_option autoImplicit false

/-! ## One round -/

/-- An entry of the controller's list, by the fields that are read: texts and numbers
where they are texts and numbers. -/
structure RawConnection where
  id : Option String
  chains : Option (List (Option String))
  download : Option UInt64
  upload : Option UInt64

/-- What an entry says of its id, where it says it. -/
structure Reading where
  id : String
  node : String
  bytes : Nat
  deriving DecidableEq

/-- An entry without an id or a node at the far end is passed over. -/
def RawConnection.read (connection : RawConnection) : Option Reading :=
  match connection.id, connection.chains.bind fun chains => chains.head?.join with
  | some id, some node =>
      some ⟨id, node, ([connection.download, connection.upload].reduceOption.map UInt64.toNat).sum⟩
  | _, _ => none

/-- Two maps by name; a name that is not in `total` has carried nothing. -/
structure Traffic where
  total : String → Nat := fun _ => 0
  counted : String → Option Nat := fun _ => none

namespace Traffic

/-- What a reading adds to its node: `saturating_sub` of what its id had. -/
def fresh (traffic : Traffic) (reading : Reading) : Nat :=
  reading.bytes % 2 ^ 64 - (traffic.counted reading.id).getD 0

/-- The body of the loop. -/
def count (traffic : Traffic) (reading : Reading) : Traffic where
  total :=
    if 0 < traffic.fresh reading then
      Function.update traffic.total reading.node
        ((traffic.total reading.node + traffic.fresh reading) % 2 ^ 64)
    else traffic.total
  counted := Function.update traffic.counted reading.id (some (reading.bytes % 2 ^ 64))

/-- `retain`. -/
def keep (traffic : Traffic) (ids : List String) : Traffic :=
  { traffic with counted := fun id => if id ∈ ids then traffic.counted id else none }

end Traffic

/-- `none` where the answer has no list of connections. -/
def sampleTraffic (traffic : Traffic) (answer : Except String (Option (List RawConnection))) :
    Except String Unit × Traffic :=
  match answer with
  | .error error => (.error error, traffic)
  | .ok none => (.error "missing connections array", traffic)
  | .ok (some live) =>
      let readings := live.filterMap RawConnection.read
      (.ok (), (readings.foldl Traffic.count traffic).keep (readings.map (·.id)))

/-! ## Connections -/

/-- A reading and the connection it is of. -/
structure Live where
  connection : Nat
  reading : Reading
  deriving DecidableEq

def Live.id (live : Live) : String := live.reading.id

def Live.node (live : Live) : String := live.reading.node

def Live.bytes (live : Live) : Nat := live.reading.bytes

def readings (answered : List (Nat × RawConnection)) : List Live :=
  answered.filterMap fun entry => entry.2.read.map (Live.mk entry.1)

theorem map_reading_readings (answered : List (Nat × RawConnection)) :
    (readings answered).map Live.reading = (answered.map (·.2)).filterMap RawConnection.read := by
  rw [readings, List.map_filterMap, List.filterMap_map]
  congr 1
  funext entry
  rw [Option.map_map]
  exact Option.map_id'

/-- The figures, the connections of the last round that was read, and every connection that
was ever in one, as it was in its last. -/
structure TrafficRun where
  traffic : Traffic := {}
  opened : List Live := []
  sampled : List Live := []

/-- What the connections of a node came to. -/
def carriedOn (sampled : List Live) (node : String) : Nat :=
  Latest.amountOf Live.node Live.bytes sampled node

/-- The connection of a reading is still open, or has never been seen: one that is no longer
listed has closed. -/
def Lives (run : TrafficRun) (live : Live) : Prop :=
  (∃ old ∈ run.opened, old.connection = live.connection ∧ old.id = live.id ∧
      old.node = live.node ∧ old.bytes ≤ live.bytes) ∨
    ∀ old ∈ run.sampled, old.connection ≠ live.connection

instance (run : TrafficRun) (live : Live) : Decidable (Lives run live) := by
  unfold Lives
  infer_instance

/-- What a round answers: open connections, each listed once under an id of its own. -/
structure Answers (run : TrafficRun) (lives : List Live) : Prop where
  ids : (lives.map Live.id).Nodup
  connections : (lives.map Live.connection).Nodup
  lives : ∀ live ∈ lives, Lives run live

instance (run : TrafficRun) (lives : List Live) : Decidable (Answers run lives) :=
  decidable_of_iff ((lives.map Live.id).Nodup ∧ (lives.map Live.connection).Nodup ∧
      ∀ live ∈ lives, Lives run live)
    ⟨fun ⟨ids, connections, lives⟩ => ⟨ids, connections, lives⟩,
      fun ⟨ids, connections, lives⟩ => ⟨ids, connections, lives⟩⟩

abbrev Round := Except String (Option (List (Nat × RawConnection)))

def trafficMachine : Machine TrafficRun Round where
  Start run := run = {}
  step run round :=
    let traffic := (sampleTraffic run.traffic (round.map fun answer => answer.map (·.map (·.2)))).2
    match round with
    | .error _ | .ok none => some { run with traffic }
    | .ok (some answered) =>
        let lives := readings answered
        if Answers run lives then
          some
            { traffic
              opened := lives
              sampled := lives.foldl (Latest.put Live.connection) run.sampled }
        else none

/-! ## One reading -/

theorem count_total_le (traffic : Traffic) (reading : Reading) (node : String) :
    (traffic.count reading).total node ≤
      traffic.total node + if reading.node = node then traffic.fresh reading else 0 := by
  unfold Traffic.count
  dsimp only
  split
  · by_cases here : reading.node = node
    · subst here
      rw [Function.update_self, if_pos rfl]
      exact Nat.mod_le _ _
    · rw [Function.update_of_ne (Ne.symm here), if_neg here, Nat.add_zero]
  · exact Nat.le_add_right _ _

theorem count_total_eq {traffic : Traffic} {reading : Reading} {node : String}
    (room : traffic.total node + (if reading.node = node then traffic.fresh reading else 0) < 2 ^ 64) :
    (traffic.count reading).total node =
      traffic.total node + if reading.node = node then traffic.fresh reading else 0 := by
  unfold Traffic.count
  dsimp only
  split
  · by_cases here : reading.node = node
    · subst here
      rw [if_pos rfl] at room ⊢
      rw [Function.update_self, Nat.mod_eq_of_lt room]
    · rw [Function.update_of_ne (Ne.symm here), if_neg here, Nat.add_zero]
  · rename_i nothing
    have zero : traffic.fresh reading = 0 := Nat.eq_zero_of_not_pos nothing
    rw [zero, ite_self, Nat.add_zero]

theorem count_total_lt {traffic : Traffic} (small : ∀ node, traffic.total node < 2 ^ 64)
    (reading : Reading) (node : String) : (traffic.count reading).total node < 2 ^ 64 := by
  unfold Traffic.count
  dsimp only
  split
  · by_cases here : node = reading.node
    · rw [here, Function.update_self]
      exact Nat.mod_lt _ (by decide)
    · rw [Function.update_of_ne here]
      exact small node
  · exact small node

theorem count_fresh_of_ne (traffic : Traffic) {first second : Reading} (other : first.id ≠ second.id) :
    (traffic.count first).fresh second = traffic.fresh second := by
  have mark : (traffic.count first).counted second.id = traffic.counted second.id :=
    Function.update_of_ne (Ne.symm other) ..
  rw [Traffic.fresh, Traffic.fresh, mark]

/-! ## One round's readings -/

/-- What is not counted of a reading: what it adds to the table, less what it adds to the
figures. -/
def missed (traffic : Traffic) (sampled : List Live) (live : Live) : Nat :=
  live.bytes - Latest.held Live.connection Live.node Live.bytes sampled live.connection live.node -
    traffic.fresh live.reading

/-- A reading fits a table: the figures do not count more than the table gains, and the
connection was on this node. -/
structure Fits (traffic : Traffic) (sampled : List Live) (live : Live) : Prop where
  fresh : traffic.fresh live.reading +
    Latest.held Live.connection Live.node Live.bytes sampled live.connection live.node ≤ live.bytes
  own : ∀ node, node ≠ live.node →
    Latest.held Live.connection Live.node Live.bytes sampled live.connection node = 0

section Readings

variable {traffic : Traffic} {sampled : List Live} {live : Live}

theorem Fits.table (fits : Fits traffic sampled live) (node : String) :
    carriedOn (Latest.put Live.connection sampled live) node =
      carriedOn sampled node +
        if live.node = node then traffic.fresh live.reading + missed traffic sampled live else 0 := by
  have put := @Latest.amountOf_put _ _ _ _ _ Live.connection Live.node Live.bytes sampled live node
  unfold carriedOn missed
  by_cases here : live.node = node
  · subst here
    have fresh := fits.fresh
    rw [if_pos rfl] at put ⊢
    omega
  · rw [fits.own node (Ne.symm here), if_neg here] at put
    rw [if_neg here]
    exact put

/-- A reading of another connection, under another id, leaves what fits. -/
theorem Fits.count {other : Live} (fits : Fits traffic sampled other) (ids : live.id ≠ other.id)
    (connections : live.connection ≠ other.connection) :
    Fits (traffic.count live.reading) (Latest.put Live.connection sampled live) other where
  fresh := by
    rw [count_fresh_of_ne traffic ids, Latest.held_put_of_ne sampled connections]
    exact fits.fresh
  own node apart := by
    rw [Latest.held_put_of_ne sampled connections]
    exact fits.own node apart

theorem missed_count {other : Live} (ids : live.id ≠ other.id)
    (connections : live.connection ≠ other.connection) :
    missed (traffic.count live.reading) (Latest.put Live.connection sampled live) other =
      missed traffic sampled other := by
  rw [missed, missed, count_fresh_of_ne traffic ids, Latest.held_put_of_ne sampled connections]

end Readings

/-- What the readings of a node miss together. -/
def missedOn (traffic : Traffic) (sampled lives : List Live) (node : String) : Nat :=
  Latest.amountOf Live.node (missed traffic sampled) lives node

section Rounds

variable {lives : List Live}

theorem missedOn_cons {traffic : Traffic} {sampled : List Live} {live : Live}
    (ids : ∀ other ∈ lives, live.id ≠ other.id)
    (connections : ∀ other ∈ lives, live.connection ≠ other.connection) (node : String) :
    missedOn traffic sampled (live :: lives) node =
      (if live.node = node then missed traffic sampled live else 0) +
        missedOn (traffic.count live.reading) (Latest.put Live.connection sampled live) lives node := by
  rw [missedOn, Latest.amountOf_cons, missedOn]
  congr 1
  apply Latest.amountOf_congr
  intro other member
  exact (missed_count (ids other member) (connections other member)).symm

theorem carriedOn_le_foldl {traffic : Traffic} {sampled : List Live}
    (ids : (lives.map Live.id).Nodup) (connections : (lives.map Live.connection).Nodup)
    (fits : ∀ live ∈ lives, Fits traffic sampled live) (node : String) :
    carriedOn sampled node ≤ carriedOn (lives.foldl (Latest.put Live.connection) sampled) node := by
  induction lives generalizing traffic sampled with
  | nil => exact le_rfl
  | cons live lives ih =>
      obtain ⟨freshId, ids⟩ := List.nodup_cons.mp ids
      obtain ⟨freshConnection, connections⟩ := List.nodup_cons.mp connections
      obtain ⟨here, later⟩ := List.forall_mem_cons.mp fits
      have table := here.table node
      have rest := @ih (traffic.count live.reading) _ ids connections fun other member =>
        (later other member).count
          (fun same => freshId (List.mem_map.mpr ⟨other, member, same.symm⟩))
          (fun same => freshConnection (List.mem_map.mpr ⟨other, member, same.symm⟩))
      rw [List.foldl_cons]
      omega

/-- **A round counts what its readings add to the table, less what they miss**, or fewer
where a figure passes the word. -/
theorem counted_le {traffic : Traffic} {sampled : List Live} (ids : (lives.map Live.id).Nodup)
    (connections : (lives.map Live.connection).Nodup)
    (fits : ∀ live ∈ lives, Fits traffic sampled live) (node : String) :
    ((lives.map Live.reading).foldl Traffic.count traffic).total node + carriedOn sampled node +
        missedOn traffic sampled lives node ≤
      traffic.total node + carriedOn (lives.foldl (Latest.put Live.connection) sampled) node := by
  induction lives generalizing traffic sampled with
  | nil => exact le_rfl
  | cons live lives ih =>
      obtain ⟨freshId, ids⟩ := List.nodup_cons.mp ids
      obtain ⟨freshConnection, connections⟩ := List.nodup_cons.mp connections
      obtain ⟨here, later⟩ := List.forall_mem_cons.mp fits
      have otherIds : ∀ other ∈ lives, live.id ≠ other.id := fun other member same =>
        freshId (List.mem_map.mpr ⟨other, member, same.symm⟩)
      have otherConnections : ∀ other ∈ lives, live.connection ≠ other.connection :=
        fun other member same =>
          freshConnection (List.mem_map.mpr ⟨other, member, same.symm⟩)
      have table := here.table node
      have counted : (traffic.count live.reading).total node ≤
          traffic.total node + if live.node = node then traffic.fresh live.reading else 0 :=
        count_total_le traffic live.reading node
      have rest := ih ids connections fun other member =>
        (later other member).count (otherIds other member) (otherConnections other member)
      rw [missedOn_cons otherIds otherConnections, List.map_cons, List.foldl_cons, List.foldl_cons]
      split_ifs at * <;> omega

theorem counted_eq {traffic : Traffic} {sampled : List Live} (ids : (lives.map Live.id).Nodup)
    (connections : (lives.map Live.connection).Nodup)
    (fits : ∀ live ∈ lives, Fits traffic sampled live) {node : String}
    (under : traffic.total node ≤ carriedOn sampled node)
    (room : carriedOn (lives.foldl (Latest.put Live.connection) sampled) node < 2 ^ 64) :
    ((lives.map Live.reading).foldl Traffic.count traffic).total node + carriedOn sampled node +
        missedOn traffic sampled lives node =
      traffic.total node + carriedOn (lives.foldl (Latest.put Live.connection) sampled) node := by
  induction lives generalizing traffic sampled with
  | nil => rfl
  | cons live lives ih =>
      obtain ⟨freshId, ids⟩ := List.nodup_cons.mp ids
      obtain ⟨freshConnection, connections⟩ := List.nodup_cons.mp connections
      obtain ⟨here, later⟩ := List.forall_mem_cons.mp fits
      have otherIds : ∀ other ∈ lives, live.id ≠ other.id := fun other member same =>
        freshId (List.mem_map.mpr ⟨other, member, same.symm⟩)
      have otherConnections : ∀ other ∈ lives, live.connection ≠ other.connection :=
        fun other member same =>
          freshConnection (List.mem_map.mpr ⟨other, member, same.symm⟩)
      have after : ∀ other ∈ lives, Fits (traffic.count live.reading)
          (Latest.put Live.connection sampled live) other := fun other member =>
        (later other member).count (otherIds other member) (otherConnections other member)
      have table := here.table node
      have grows := carriedOn_le_foldl ids connections after node
      rw [List.foldl_cons] at room
      have counted : (traffic.count live.reading).total node =
          traffic.total node + if live.node = node then traffic.fresh live.reading else 0 := by
        apply count_total_eq
        show traffic.total node + (if live.node = node then _ else 0) < _
        split_ifs at * <;> omega
      have rest := ih ids connections after (by split_ifs at * <;> omega) room
      rw [missedOn_cons otherIds otherConnections, List.map_cons, List.foldl_cons, List.foldl_cons]
      split_ifs at * <;> omega

end Rounds

/-! ## What a run keeps -/

/-- The marks are those of the last round that was read. -/
structure Marked (run : TrafficRun) : Prop where
  ids : (run.opened.map Live.id).Nodup
  marks : ∀ id, run.traffic.counted id =
    (run.opened.find? (·.id == id)).map fun live => live.bytes % 2 ^ 64
  opened : ∀ live ∈ run.opened, live ∈ run.sampled
  unique : (run.sampled.map Live.connection).Nodup
  small : ∀ node, run.traffic.total node < 2 ^ 64

theorem marked_start : Marked {} where
  ids := List.nodup_nil
  marks _ := rfl
  opened _ member := member
  unique := List.nodup_nil
  small _ := Nat.two_pow_pos 64

theorem find?_id {lives : List Live} (ids : (lives.map Live.id).Nodup) {live : Live}
    (member : live ∈ lives) : lives.find? (·.id == live.id) = some live := by
  cases found : lives.find? (·.id == live.id) with
  | none => exact absurd (List.find?_eq_none.mp found live member) (by simp)
  | some other =>
      have same : other.id = live.id := by simpa using List.find?_some found
      rw [List.inj_on_of_nodup_map ids (List.mem_of_find?_eq_some found) member same]

/-- The marks a round sets. -/
theorem foldl_counted {lives : List Live} (ids : (lives.map Live.id).Nodup) (traffic : Traffic)
    (id : String) :
    ((lives.map Live.reading).foldl Traffic.count traffic).counted id =
      match lives.find? (·.id == id) with
      | some live => some (live.bytes % 2 ^ 64)
      | none => traffic.counted id := by
  induction lives generalizing traffic with
  | nil => rfl
  | cons live lives ih =>
      obtain ⟨fresh, ids⟩ := List.nodup_cons.mp ids
      rw [List.map_cons, List.foldl_cons, ih ids, List.find?_cons]
      by_cases same : live.id = id
      · subst same
        have none : lives.find? (·.id == live.id) = none := by
          rw [List.find?_eq_none]
          intro other member equal
          exact fresh (List.mem_map.mpr ⟨other, member, by simpa using equal⟩)
        rw [none, beq_self_eq_true]
        exact Function.update_self ..
      · rw [beq_eq_false_iff_ne.mpr same]
        cases lives.find? (·.id == id) with
        | none => exact Function.update_of_ne (Ne.symm same) ..
        | some other => rfl

theorem foldl_total_lt {readings : List Reading} {traffic : Traffic}
    (small : ∀ node, traffic.total node < 2 ^ 64) (node : String) :
    (readings.foldl Traffic.count traffic).total node < 2 ^ 64 := by
  induction readings generalizing traffic with
  | nil => exact small node
  | cons reading readings ih => exact ih (count_total_lt small reading)

/-- The state after a round that was read. -/
def TrafficRun.after (run : TrafficRun) (lives : List Live) : TrafficRun where
  traffic := ((lives.map Live.reading).foldl Traffic.count run.traffic).keep (lives.map Live.id)
  opened := lives
  sampled := lives.foldl (Latest.put Live.connection) run.sampled

/-- A round that failed changes nothing; another is its readings. -/
theorem traffic_step_cases {run next : TrafficRun} {round : Round}
    (stepped : trafficMachine.step run round = some next) :
    ((∀ answered, round ≠ .ok (some answered)) ∧ next = run) ∨
      ∃ answered, round = .ok (some answered) ∧ Answers run (readings answered) ∧
        next = run.after (readings answered) := by
  match round with
  | .error error =>
      cases stepped
      exact .inl ⟨nofun, rfl⟩
  | .ok none =>
      cases stepped
      exact .inl ⟨nofun, rfl⟩
  | .ok (some answered) =>
      simp only [trafficMachine, Option.ite_none_right_eq_some, Option.some.injEq] at stepped
      obtain ⟨answers, rfl⟩ := stepped
      refine .inr ⟨answered, rfl, answers, ?_⟩
      have same := map_reading_readings answered
      have ids : ((answered.map (·.2)).filterMap RawConnection.read).map (·.id) =
          (readings answered).map Live.id := by
        rw [← same, List.map_map]
        rfl
      unfold TrafficRun.after
      rw [same, ← ids]
      rfl

theorem Marked.after {run : TrafficRun} (marked : Marked run) {lives : List Live}
    (answers : Answers run lives) : Marked (run.after lives) where
  ids := answers.ids
  marks id := by
    show (if id ∈ lives.map Live.id then _ else none) = _
    split
    · rename_i listed
      obtain ⟨live, member, rfl⟩ := List.mem_map.mp listed
      rw [foldl_counted answers.ids, show (run.after lives).opened = lives from rfl,
        find?_id answers.ids member]
      rfl
    · rename_i unlisted
      have none : lives.find? (·.id == id) = none := by
        rw [List.find?_eq_none]
        intro live member same
        exact unlisted (List.mem_map.mpr ⟨live, member, by simpa using same⟩)
      rw [show (run.after lives).opened = lives from rfl, none]
      rfl
  opened live member := Latest.mem_foldl_put answers.connections member
  unique := Latest.nodup_foldl_put marked.unique lives
  small node := foldl_total_lt marked.small node

theorem Marked.step {run next : TrafficRun} {round : Round} (marked : Marked run)
    (stepped : trafficMachine.step run round = some next) : Marked next := by
  rcases traffic_step_cases stepped with ⟨-, rfl⟩ | ⟨answered, -, answers, rfl⟩
  · exact marked
  · exact marked.after answers

/-! ## The figures -/

/-- The figures are what the connections last said: on each node, and all together. -/
structure Accurate (run : TrafficRun) : Prop where
  each : ∀ node, run.traffic.total node = carriedOn run.sampled node
  all : ∀ nodes : Finset String, (∀ live ∈ run.sampled, live.node ∈ nodes) →
    ∑ node ∈ nodes, run.traffic.total node = (run.sampled.map Live.bytes).sum

theorem accurate_of_each {run : TrafficRun}
    (each : ∀ node, run.traffic.total node = carriedOn run.sampled node) : Accurate run where
  each := each
  all nodes covered := by
    simp only [each]
    exact Latest.sum_amountOf nodes covered

/-- No id passes between two connections that both have carried something, and no node's
bytes pass the word. -/
def Separate (run : TrafficRun) : Round → Prop
  | .error _ => True
  | .ok none => True
  | .ok (some answered) =>
      let lives := readings answered
      (∀ live ∈ lives, ∀ old ∈ run.opened, old.id = live.id → old.connection ≠ live.connection →
          old.bytes = 0 ∨ live.bytes = 0) ∧
        ∀ live ∈ (run.after lives).sampled,
          carriedOn (run.after lives).sampled live.node < 2 ^ 64

instance (run : TrafficRun) : DecidablePred (Separate run)
  | .error _ => .isTrue trivial
  | .ok none => .isTrue trivial
  | .ok (some answered) => by
      unfold Separate
      infer_instance

section Step

variable {run : TrafficRun} {lives : List Live} {live : Live}

/-- A connection that goes on: it is in the table, under its own mark. -/
theorem continuing (marked : Marked run) (accurate : Accurate run) {old : Live}
    (opened : old ∈ run.opened) (connection : old.connection = live.connection)
    (id : old.id = live.id) (node : old.node = live.node) :
    Latest.held Live.connection Live.node Live.bytes run.sampled live.connection live.node =
        old.bytes ∧
      run.traffic.fresh live.reading = live.bytes % 2 ^ 64 - old.bytes ∧
        ∀ other, other ≠ live.node →
          Latest.held Live.connection Live.node Live.bytes run.sampled live.connection other = 0 := by
  have sampled := marked.opened old opened
  have small : old.bytes < 2 ^ 64 := by
    have le : old.bytes ≤ carriedOn run.sampled old.node := Latest.le_amountOf sampled
    rw [← accurate.each] at le
    exact lt_of_le_of_lt le (marked.small _)
  refine ⟨?_, ?_, ?_⟩
  · rw [← connection, ← node]
    exact Latest.held_eq marked.unique sampled
  · have mark := marked.marks live.id
    rw [← id, find?_id marked.ids opened, Option.map_some, Nat.mod_eq_of_lt small, id] at mark
    unfold Traffic.fresh
    rw [show run.traffic.counted live.reading.id = some old.bytes from mark]
    rfl
  · intro other apart
    refine Latest.held_eq_zero fun row member same => ?_
    rw [List.inj_on_of_nodup_map marked.unique member sampled (same.trans connection.symm), node]
    exact Ne.symm apart

/-- A connection that is new holds nothing, whatever the mark of its id. -/
theorem held_new (new : ∀ old ∈ run.sampled, old.connection ≠ live.connection) (node : String) :
    Latest.held Live.connection Live.node Live.bytes run.sampled live.connection node = 0 :=
  Latest.held_eq_zero fun row member same => absurd same (new row member)

theorem fits_of_answers (marked : Marked run) (accurate : Accurate run)
    (lives_ : Lives run live) : Fits run.traffic run.sampled live := by
  rcases lives_ with ⟨old, opened, connection, id, node, grown⟩ | new
  · obtain ⟨held, fresh, own⟩ := continuing marked accurate opened connection id node
    refine ⟨?_, own⟩
    have mod := Nat.mod_le live.bytes (2 ^ 64)
    rw [held, fresh]
    omega
  · refine ⟨?_, fun node _ => held_new new node⟩
    have mod := Nat.mod_le live.bytes (2 ^ 64)
    rw [held_new new, Traffic.fresh]
    show live.bytes % 2 ^ 64 - _ + 0 ≤ live.bytes
    omega

/-- What a reading misses, below the word: what another connection's mark takes off it. -/
theorem missed_eq_zero_iff (marked : Marked run) (accurate : Accurate run)
    (lives_ : Lives run live) (small : live.bytes < 2 ^ 64) :
    missed run.traffic run.sampled live = 0 ↔
      ∀ old ∈ run.opened, old.id = live.id → old.connection ≠ live.connection →
        old.bytes = 0 ∨ live.bytes = 0 := by
  unfold missed
  rcases lives_ with ⟨own, opened, connection, id, node, grown⟩ | new
  · obtain ⟨held, fresh, -⟩ := continuing marked accurate opened connection id node
    rw [held, fresh, Nat.mod_eq_of_lt small, Nat.sub_self]
    refine iff_of_true rfl fun old member same apart => ?_
    rw [List.inj_on_of_nodup_map marked.ids member opened (same.trans id.symm)] at apart
    exact absurd connection apart
  · have mark := marked.marks live.id
    have fresh : run.traffic.fresh live.reading =
        live.bytes - (run.traffic.counted live.id).getD 0 := by
      show live.bytes % 2 ^ 64 - _ = _
      rw [Nat.mod_eq_of_lt small]
      rfl
    rw [held_new new, Nat.sub_zero, fresh, mark]
    cases found : run.opened.find? (·.id == live.id) with
    | none =>
        refine iff_of_true (by simp) fun old member same _ => ?_
        exact absurd same (by simpa using List.find?_eq_none.mp found old member)
    | some old =>
        have member := List.mem_of_find?_eq_some found
        have same : old.id = live.id := by simpa using List.find?_some found
        have old_small : old.bytes < 2 ^ 64 := by
          have le : old.bytes ≤ carriedOn run.sampled old.node :=
            Latest.le_amountOf (marked.opened old member)
          rw [← accurate.each] at le
          exact lt_of_le_of_lt le (marked.small _)
        rw [Option.map_some, Option.getD_some, Nat.mod_eq_of_lt old_small]
        constructor
        · intro none other there same' _
          rw [List.inj_on_of_nodup_map marked.ids there member (same'.trans same.symm)]
          omega
        · intro harmless
          rcases harmless old member same (new old (marked.opened old member)) with zero | zero
          · omega
          · omega

/-- **A round keeps the figures accurate exactly when it is separate.** -/
theorem accurate_after_iff (marked : Marked run) (accurate : Accurate run)
    (answers : Answers run lives) :
    Accurate (run.after lives) ↔
      (∀ live ∈ lives, ∀ old ∈ run.opened, old.id = live.id → old.connection ≠ live.connection →
          old.bytes = 0 ∨ live.bytes = 0) ∧
        ∀ live ∈ (run.after lives).sampled,
          carriedOn (run.after lives).sampled live.node < 2 ^ 64 := by
  have fits : ∀ live ∈ lives, Fits run.traffic run.sampled live := fun live member =>
    fits_of_answers marked accurate (answers.lives live member)
  have small := (marked.after answers).small
  constructor
  · intro after
    have room : ∀ node, carriedOn (run.after lives).sampled node < 2 ^ 64 := by
      intro node
      rw [← after.each]
      exact small node
    refine ⟨fun live member => ?_, fun live _ => room live.node⟩
    have none : ∀ node, missedOn run.traffic run.sampled lives node = 0 := by
      intro node
      have counted := counted_le answers.ids answers.connections fits node
      have now : ((lives.map Live.reading).foldl Traffic.count run.traffic).total node =
          carriedOn (lives.foldl (Latest.put Live.connection) run.sampled) node := after.each node
      have before := accurate.each node
      omega
    have bytes : live.bytes < 2 ^ 64 :=
      lt_of_le_of_lt (Latest.le_amountOf (Latest.mem_foldl_put answers.connections member))
        (room live.node)
    exact (missed_eq_zero_iff marked accurate (answers.lives live member) bytes).mp
      (Latest.amountOf_eq_zero_iff.mp none live member)
  · rintro ⟨separate, room⟩
    have allRoom : ∀ node, carriedOn (run.after lives).sampled node < 2 ^ 64 := by
      intro node
      by_cases some : ∃ live ∈ (run.after lives).sampled, live.node = node
      · obtain ⟨live, member, rfl⟩ := some
        exact room live member
      · have zero : carriedOn (run.after lives).sampled node = 0 :=
          Latest.amountOf_eq_zero fun live member same => some ⟨live, member, same⟩
        rw [zero]
        decide
    have none : ∀ node, missedOn run.traffic run.sampled lives node = 0 := by
      refine Latest.amountOf_eq_zero_iff.mpr fun live member => ?_
      have bytes : live.bytes < 2 ^ 64 :=
        lt_of_le_of_lt (Latest.le_amountOf (Latest.mem_foldl_put answers.connections member))
          (allRoom live.node)
      exact (missed_eq_zero_iff marked accurate (answers.lives live member) bytes).mpr
        (separate live member)
    refine accurate_of_each fun node => ?_
    have counted := counted_eq answers.ids answers.connections fits (accurate.each node).le
      (allRoom node)
    have before := accurate.each node
    have nothing := none node
    show ((lives.map Live.reading).foldl Traffic.count run.traffic).total node = _
    unfold TrafficRun.after
    dsimp only
    omega

/-- A round that keeps the figures accurate takes nothing away. -/
theorem total_le_after (marked : Marked run) (accurate : Accurate run)
    (answers : Answers run lives) (after : Accurate (run.after lives)) (node : String) :
    run.traffic.total node ≤ (run.after lives).traffic.total node := by
  rw [accurate.each, after.each]
  exact carriedOn_le_foldl answers.ids answers.connections
    (fun live member => fits_of_answers marked accurate (answers.lives live member)) node

end Step

/-! ## Every run -/

theorem accurate_start : Accurate {} := accurate_of_each fun _ => rfl

/-- **The figures are accurate all along a run, and none ever falls, exactly when every round
of it is separate.** -/
theorem traffic_accurate_iff {rounds : List Round} {final : TrafficRun}
    (ran : trafficMachine.run {} rounds = some final) :
    (∀ first middle, first <+: rounds → trafficMachine.run {} first = some middle →
        Accurate middle ∧ ∀ node, middle.traffic.total node ≤ final.traffic.total node) ↔
      trafficMachine.Meets Separate {} rounds := by
  have separate_step : ∀ run round next, Marked run → Accurate run →
      trafficMachine.step run round = some next → (Accurate next ↔ Separate run round) := by
    intro run round next marked accurate stepped
    rcases traffic_step_cases stepped with ⟨failed, rfl⟩ | ⟨answered, rfl, answers, rfl⟩
    · match round with
      | .error _ => exact iff_of_true accurate trivial
      | .ok none => exact iff_of_true accurate trivial
      | .ok (some answered) => exact absurd rfl (failed answered)
    · exact accurate_after_iff marked accurate answers
  constructor
  · intro throughout
    refine Machine.meets_of_throughout (P := Accurate) (Q := Marked)
      (fun _ _ _ marked stepped => marked.step stepped) ?_ ran marked_start
      fun first middle before ran => (throughout first middle before ran).1
    exact fun run round next marked accurate mixed stepped after =>
      mixed ((separate_step run round next marked accurate stepped).mp after)
  · intro met first middle before ran'
    obtain ⟨rest, rfl⟩ := before
    obtain ⟨middle', ran₁, ran₂⟩ := Machine.run_append.mp ran
    obtain rfl : middle' = middle := Option.some.inj (ran₁.symm.trans ran')
    obtain ⟨met₁, met₂⟩ := Machine.meets_append.mp met
    have kept : ∀ run round next, Marked run ∧ Accurate run → Separate run round →
        trafficMachine.step run round = some next → Marked next ∧ Accurate next :=
      fun run round next held separate stepped => ⟨held.1.step stepped,
        (separate_step run round next held.1 held.2 stepped).mpr separate⟩
    have here : Marked middle' ∧ Accurate middle' :=
      Machine.run_preserves_of_meets kept met₁ ran₁ ⟨marked_start, accurate_start⟩
    have later : (Marked final ∧ Accurate final) ∧
        ∀ node, middle'.traffic.total node ≤ final.traffic.total node := by
      refine Machine.run_preserves_of_meets (P := fun run => (Marked run ∧ Accurate run) ∧
        ∀ node, middle'.traffic.total node ≤ run.traffic.total node) ?_ (met₂ middle' ran₁) ran₂
        ⟨here, fun _ => le_rfl⟩
      rintro run round next ⟨held, above⟩ separate stepped
      have after := kept run round next held separate stepped
      refine ⟨after, fun node => (above node).trans ?_⟩
      rcases traffic_step_cases stepped with ⟨-, rfl⟩ | ⟨answered, -, answers, rfl⟩
      · exact le_rfl
      · exact total_le_after held.1 held.2 answers after.2 node
    exact ⟨here.2, later.2⟩

/-- One entry of a list: an open connection that has only received. -/
def entry (connection : Nat) (id : String) (download : UInt64) : Nat × RawConnection :=
  (connection, ⟨some id, some [some "HK 01", some "MAJSOUL"], some download, some 0⟩)

/-- Two connections, one of which closes, with a round between that failed. -/
def plainRounds : List Round :=
  [.ok (some [entry 0 "a" 100, entry 1 "b" 30]), .error "connection refused",
    .ok (some [entry 1 "b" 50]), .ok (some [entry 1 "b" 70, entry 2 "c" 5])]

theorem traffic_accurate_iff_plain : ∃ final, trafficMachine.run {} plainRounds = some final ∧
    final.traffic.total "HK 01" = 175 ∧ Accurate final := by
  obtain ⟨final, ran, total⟩ : ∃ final, trafficMachine.run {} plainRounds = some final ∧
      final.traffic.total "HK 01" = 175 := Machine.run_exists (by decide +kernel)
  have met : trafficMachine.Meets Separate {} plainRounds := by decide +kernel
  exact ⟨final, ran, total,
    ((traffic_accurate_iff ran).mpr met plainRounds final (List.prefix_refl _) ran).1⟩

/-- The id of a connection that has closed comes back with less: its bytes are not counted. -/
def reusedId : List Round := [.ok (some [entry 0 "a" 100]), .ok (some [entry 1 "a" 40])]

theorem reusedId_not_counted : ∃ final, trafficMachine.run {} reusedId = some final ∧
    (final.traffic.total "HK 01" = 100 ∧ (final.sampled.map Live.bytes).sum = 140) ∧
      ¬ Accurate final := by
  obtain ⟨final, ran, shown⟩ : ∃ final, trafficMachine.run {} reusedId = some final ∧
      (final.traffic.total "HK 01" = 100 ∧ (final.sampled.map Live.bytes).sum = 140 ∧
        ∀ live ∈ final.sampled, live.node = "HK 01") := Machine.run_exists (by decide +kernel)
  obtain ⟨total, sum, nodes⟩ := shown
  refine ⟨final, ran, ⟨total, sum⟩, fun accurate => ?_⟩
  have all := accurate.all {"HK 01"} (by simpa using nodes)
  rw [Finset.sum_singleton, total, sum] at all
  cases all

end MajsoulManager.Mihomo
