/-
# Mihomo.Outbounds — the node behind a port

Every node the pool goes out of has a slot: a listener, and a group that has to be
pointed at the node.  `set_outbound_nodes`, `lease_outbound_nodes` and
`release_outbound_nodes` of `mihomo.rs` give the slots out and clear the flag;
`apply_runtime_config` and every status poll set it, each from what it saw of mihomo
and a copy of the slots; `proxy_url_for_node` reads the flag and then the slots.

Steps of any number of each, in any order.  mihomo runs the listeners of the last file
it took and the selections it took since, and whether it puts the old ones back after a
reload is left open.

* `exits_bound`: while no slot is given out, and no selection lost, under a reader or a
  writer of the flag, an address that is handed out is that of a port mihomo listens on,
  with its group on the node.
* `exits_unbound`: six orders in which it is another node's.
-/
import MajsoulManager.Mihomo.Subscriptions

namespace MajsoulManager.Mihomo.Outbound

open MajsoulManager.Theory

set_option autoImplicit false

/-! ## Slots -/

/-- Node and slot, in the order of the nodes. -/
abbrev Assignments := List (String × UInt16)

def groupName : String := "MAJSOUL"

def outboundPortBase : UInt16 := 7900

def reservedPorts : List UInt16 := [9090]

def maxOutbounds : UInt16 := 65535 - outboundPortBase

def laneAttempts : Nat := 12

def outboundPort (slot : UInt16) : UInt16 := outboundPortBase + slot

/-- The lowest slot that is free and whose port is nobody else's. -/
def freeSlot (assignments : Assignments) : Option UInt16 :=
  ((List.range' 1 maxOutbounds.toNat).map UInt16.ofNat).find? fun slot =>
    !(assignments.map (·.2)).contains slot && !reservedPorts.contains (outboundPort slot)

/-- The loop of `refile`, which ends where the slots do. -/
def fileNodes : List String → Assignments → Assignments
  | [], assignments => assignments
  | node :: rest, assignments =>
      if (assignments.lookup node).isSome then fileNodes rest assignments
      else
        match freeSlot assignments with
        | none => assignments
        | some slot => fileNodes rest (assignments.orderedInsert (·.1 ≤ ·.1) (node, slot))

def refile (nodes : List String) (assignments : Assignments) : Assignments :=
  fileNodes nodes (assignments.filter fun entry => nodes.contains entry.1)

/-- The nodes asked for, and the borrowed ones that are not among them. -/
def wanted (nodes leased : List String) : List String :=
  leased.foldl (fun wanted node => if wanted.contains node then wanted else wanted ++ [node]) nodes

/-- No slot is given to two nodes. -/
def Distinct (assignments : Assignments) : Prop := (assignments.map (·.2)).Nodup

theorem freeSlot_free {assignments : Assignments} {slot : UInt16}
    (found : freeSlot assignments = some slot) : slot ∉ assignments.map (·.2) := by
  have free := List.find?_some found
  simp only [Bool.and_eq_true, Bool.not_eq_true', List.contains_eq_mem, decide_eq_false_iff_not]
    at free
  exact free.1

theorem fileNodes_distinct {nodes : List String} {assignments : Assignments}
    (distinct : Distinct assignments) : Distinct (fileNodes nodes assignments) := by
  induction nodes generalizing assignments with
  | nil => exact distinct
  | cons node rest ih =>
      unfold fileNodes
      split
      · exact ih distinct
      · split
        · exact distinct
        · rename_i slot found
          apply ih
          have same := (List.perm_orderedInsert (·.1 ≤ ·.1) (node, slot) assignments).map (·.2)
          apply same.nodup_iff.mpr
          exact List.nodup_cons.mpr ⟨freeSlot_free found, distinct⟩

theorem refile_distinct {nodes : List String} {assignments : Assignments}
    (distinct : Distinct assignments) : Distinct (refile nodes assignments) := by
  apply fileNodes_distinct
  exact (List.filter_sublist.map _).nodup distinct

/-- What a file holds that only `refile` has written. -/
def Filed (assignments : Assignments) : Prop :=
  ∃ rounds : List (List String), assignments = rounds.foldl (fun filed nodes => refile nodes filed) []

theorem Filed.distinct {assignments : Assignments} (filed : Filed assignments) :
    Distinct assignments := by
  obtain ⟨rounds, rfl⟩ := filed
  suffices ∀ first : Assignments, Distinct first →
      Distinct (rounds.foldl (fun filed nodes => refile nodes filed) first) from this [] .nil
  induction rounds with
  | nil => exact fun first distinct => distinct
  | cons nodes rest ih => exact fun first distinct => ih _ (refile_distinct distinct)

/-! ## The machine -/

/-- mihomo: the slots it listens for, and what each group is on. -/
structure Controller where
  running : List UInt16
  selected : UInt16 → String

/-- The slot is there and pointed at the node it was given to. -/
def Controller.carries (mihomo : Controller) (entry : String × UInt16) : Bool :=
  mihomo.running.contains entry.2 && mihomo.selected entry.2 == entry.1

/-- The file is taken, and the groups named in `lost` are back on their first entry. -/
def Controller.reloaded (mihomo : Controller) (listeners lost : List UInt16) : Controller where
  running := listeners
  selected := fun slot => if lost.contains slot then groupName else mihomo.selected slot

def Controller.select (mihomo : Controller) (entry : String × UInt16) : Controller :=
  { mihomo with selected := Function.update mihomo.selected entry.2 entry.1 }

/-- `set_outbound_nodes`, also as the end of the two that lease and release. -/
inductive Call where
  | filing (nodes : List String)
  | clearing
  | rendering
  | writing (listeners : List UInt16)
  | returned (result : Except MihomoError Bool)
  deriving DecidableEq

/-- `apply_runtime_config`.  `applied` counts the selections of `done` that mihomo
confirmed. -/
inductive Apply where
  | reloading (attempt : Nat)
  | checking (attempt : Nat)
  | copying
  | selecting (done rest : Assignments) (applied : Nat)
  | ended

/-- `read_nodes`. -/
inductive Poll where
  | fetching
  | fetched (seen : Controller)
  | copied (seen : Controller) (assignments : Assignments)
  | ended

/-- `proxy_url_for_node`, from the flag on. -/
inductive Lookup where
  | flagged (node : String)
  | ended

/-- An address that was handed out, and mihomo when it was. -/
structure Answer where
  node : String
  address : String
  mihomo : Controller

structure Outbounds where
  slots : Assignments
  leased : List String
  /-- `slots_ready` -/
  ready : Bool
  /-- The listeners of `config.yaml`. -/
  written : List UInt16
  mihomo : Controller
  calls : List Call
  applies : List Apply
  polls : List Poll
  lookups : List Lookup
  answers : List Answer

inductive Action where
  | setOutboundNodes (nodes : List String)
  | leaseOutboundNodes (nodes held : List String)
  | releaseOutboundNodes (held : List String)
  | refile (k : Nat) (persisted : Bool)
  | clear (k : Nat)
  | render (k : Nat)
  | writeConfig (k : Nat) (renamed : Bool)
  | applyRuntimeConfig
  | reload (k : Nat) (taken : Bool) (lost : List UInt16) (answered : Bool)
  | laneGroupsPresent (k : Nat) (present : Bool)
  | copySlots (k : Nat)
  | select (k : Nat) (taken answered : Bool)
  | storeApplied (k : Nat)
  | status
  | fetch (k : Nat) (answered : Bool)
  | copyPolled (k : Nat)
  | storePolled (k : Nat)
  | load (node : String)
  | lookUp (k : Nat)

/-- Where a re-file leaves its call. -/
def Call.refiled (before after : Assignments) (persisted : Bool) : Call :=
  if after = before then .returned (.ok false)
  else if persisted then .clearing
  else .returned (.error .io)

/-- Where an attempt that came to nothing leaves it. -/
def Apply.retry (attempt : Nat) : Apply :=
  if attempt < laneAttempts then .reloading (attempt + 1) else .ended

section Steps

variable (portUrl : UInt16 → Option String)

def step (s : Outbounds) : Action → Option Outbounds
  | .setOutboundNodes nodes => some { s with calls := s.calls ++ [.filing nodes] }
  | .leaseOutboundNodes nodes held =>
      some { s with leased := nodes, calls := s.calls ++ [.filing held] }
  | .releaseOutboundNodes held =>
      some { s with leased := [], calls := s.calls ++ [.filing held] }
  | .refile k persisted =>
      match s.calls[k]? with
      | some (.filing nodes) =>
          let slots := refile (wanted nodes s.leased) s.slots
          some { s with slots, calls := s.calls.set k (.refiled s.slots slots persisted) }
      | _ => none
  | .clear k =>
      match s.calls[k]? with
      | some .clearing => some { s with ready := false, calls := s.calls.set k .rendering }
      | _ => none
  | .render k =>
      match s.calls[k]? with
      | some .rendering =>
          let listeners := (s.slots.map (·.2)).insertionSort (· ≤ ·)
          some { s with calls := s.calls.set k (.writing listeners) }
      | _ => none
  | .writeConfig k renamed =>
      match s.calls[k]? with
      | some (.writing listeners) =>
          if renamed then
            some { s with written := listeners, calls := s.calls.set k (.returned (.ok true)) }
          else some { s with calls := s.calls.set k (.returned (.error .io)) }
      | _ => none
  | .applyRuntimeConfig => some { s with applies := s.applies ++ [.reloading 1] }
  | .reload k taken lost answered =>
      match s.applies[k]? with
      | some (.reloading attempt) =>
          -- an answer is one to a reload that was made
          if answered && !taken then none
          else
            let mihomo := if taken then s.mihomo.reloaded s.written lost else s.mihomo
            let apply := if answered then .checking attempt else .retry attempt
            some { s with mihomo, applies := s.applies.set k apply }
      | _ => none
  | .laneGroupsPresent k present =>
      match s.applies[k]? with
      | some (.checking attempt) =>
          some { s with applies := s.applies.set k (if present then .copying else .retry attempt) }
      | _ => none
  | .copySlots k =>
      match s.applies[k]? with
      | some .copying => some { s with applies := s.applies.set k (.selecting [] s.slots 0) }
      | _ => none
  | .select k taken answered =>
      match s.applies[k]? with
      | some (.selecting done (entry :: rest) applied) =>
          -- there is nothing to select in a group that is not there
          if (answered && !taken) || (taken && !s.mihomo.running.contains entry.2) then none
          else
            let mihomo := if taken then s.mihomo.select entry else s.mihomo
            let applied := if answered then applied + 1 else applied
            let apply := .selecting (done ++ [entry]) rest applied
            some { s with mihomo, applies := s.applies.set k apply }
      | _ => none
  | .storeApplied k =>
      match s.applies[k]? with
      | some (.selecting done [] applied) =>
          some { s with ready := applied == done.length, applies := s.applies.set k .ended }
      | _ => none
  | .status => some { s with polls := s.polls ++ [.fetching] }
  | .fetch k answered =>
      match s.polls[k]? with
      | some .fetching =>
          some { s with polls := s.polls.set k (if answered then .fetched s.mihomo else .ended) }
      | _ => none
  | .copyPolled k =>
      match s.polls[k]? with
      | some (.fetched seen) => some { s with polls := s.polls.set k (.copied seen s.slots) }
      | _ => none
  | .storePolled k =>
      match s.polls[k]? with
      | some (.copied seen assignments) =>
          let ready := assignments.all seen.carries
          some { s with ready, polls := s.polls.set k .ended }
      | _ => none
  | .load node =>
      some { s with lookups := s.lookups ++ [if s.ready then .flagged node else .ended] }
  | .lookUp k =>
      match s.lookups[k]? with
      | some (.flagged node) =>
          let address := (s.slots.lookup (Text.trim node)).bind fun slot => portUrl (outboundPort slot)
          some { s with
            lookups := s.lookups.set k .ended
            answers := s.answers ++ (address.map fun address => ⟨node, address, s.mihomo⟩).toList }
      | _ => none

/-- A process that has written the configuration of the slots it read, whatever mihomo
is running. -/
def outboundMachine : Machine Outbounds Action where
  Start := fun s => Filed s.slots ∧ s.written = (s.slots.map (·.2)).insertionSort (· ≤ ·) ∧
    s.leased = [] ∧ s.ready = false ∧ s.calls = [] ∧ s.applies = [] ∧ s.polls = [] ∧
    s.lookups = [] ∧ s.answers = []
  step := step portUrl

/-- mihomo listens on the port of the address, with its group on the node. -/
def Answer.Bound (answer : Answer) : Prop :=
  ∃ slot ∈ answer.mihomo.running, portUrl (outboundPort slot) = some answer.address ∧
    answer.mihomo.selected slot = Text.trim answer.node

end Steps

/-! ## The condition -/

/-- Everything that is bound is on its node. -/
def Outbounds.AllBound (s : Outbounds) : Prop := ∀ entry ∈ s.slots, s.mihomo.carries entry = true

/-- The slots were changed and the flag is still to be cleared. -/
def Outbounds.dirty (s : Outbounds) : Bool := s.calls.contains .clearing

def Apply.holds : Apply → Bool
  | .selecting .. => true
  | _ => false

def Poll.holds : Poll → Bool
  | .fetched _ | .copied .. => true
  | _ => false

def Lookup.holds : Lookup → Bool
  | .flagged _ => true
  | .ended => false

/-- No one holds a copy of the slots, an answer of mihomo's, or the flag. -/
def Outbounds.quiet (s : Outbounds) : Bool :=
  s.applies.all (!·.holds) && s.polls.all (!·.holds) && s.lookups.all (!·.holds)

/-- What the call's re-file would make of the slots. -/
def Outbounds.refiled (s : Outbounds) (k : Nat) : Assignments :=
  match s.calls[k]? with
  | some (.filing nodes) => refile (wanted nodes s.leased) s.slots
  | _ => s.slots

/-- A slot is given out, and a selection lost, only while no one holds anything; the
first is written to the file or the flag is down, and for the second it is down or about
to be.  And no one reads a flag that is about to be cleared. -/
def Guarded (s : Outbounds) : Action → Prop
  | .refile k persisted =>
      (∀ entry ∈ s.refiled k, entry ∈ s.slots) ∨
        (s.quiet = true ∧ (persisted = true ∨ s.ready = false))
  | .reload _ taken lost _ =>
      taken = false ∨
      (∀ entry ∈ s.slots, s.mihomo.carries entry = true →
        (s.mihomo.reloaded s.written lost).carries entry = true) ∨
      (s.quiet = true ∧ (s.ready = false ∨ s.dirty = true))
  | .load _ => s.ready = false ∨ s.dirty = false
  | _ => True

instance (s : Outbounds) : ∀ action, Decidable (Guarded s action)
  | .refile k persisted => inferInstanceAs (Decidable ((∀ entry ∈ s.refiled k, entry ∈ s.slots) ∨
      (s.quiet = true ∧ (persisted = true ∨ s.ready = false))))
  | .reload _ taken lost _ => inferInstanceAs (Decidable (taken = false ∨
      (∀ entry ∈ s.slots, s.mihomo.carries entry = true →
        (s.mihomo.reloaded s.written lost).carries entry = true) ∨
      (s.quiet = true ∧ (s.ready = false ∨ s.dirty = true))))
  | .load _ => inferInstanceAs (Decidable (s.ready = false ∨ s.dirty = false))
  | .setOutboundNodes _ | .leaseOutboundNodes .. | .releaseOutboundNodes _ | .clear _ | .render _
  | .writeConfig .. | .applyRuntimeConfig | .laneGroupsPresent .. | .copySlots _ | .select ..
  | .storeApplied _ | .status | .fetch .. | .copyPolled _ | .storePolled _ | .lookUp _ =>
      .isTrue trivial

/-! ## What every state keeps -/

/-- The copy is of slots that cover the present ones, and if every selection so far was
confirmed, what is done is bound. -/
def Apply.Stands (s : Outbounds) : Apply → Prop
  | .selecting done rest applied =>
      Distinct (done ++ rest) ∧ (∀ entry ∈ s.slots, entry ∈ done ++ rest) ∧
        applied ≤ done.length ∧
        (applied = done.length → ∀ entry ∈ done, entry ∈ s.slots → s.mihomo.carries entry = true)
  | _ => True

/-- What was seen of a present slot is still so. -/
def Fresh (s : Outbounds) (seen : Controller) : Prop :=
  ∀ entry ∈ s.slots, seen.carries entry = true → s.mihomo.carries entry = true

def Poll.Stands (s : Outbounds) : Poll → Prop
  | .fetched seen => Fresh s seen
  | .copied seen assignments => Fresh s seen ∧ ∀ entry ∈ s.slots, entry ∈ assignments
  | _ => True

def Lookup.Stands (s : Outbounds) : Lookup → Prop
  | .flagged _ => s.AllBound
  | .ended => True

structure Inv (portUrl : UInt16 → Option String) (s : Outbounds) : Prop where
  distinct : Distinct s.slots
  ready : s.ready = true → s.dirty = true ∨ s.AllBound
  applies : ∀ apply ∈ s.applies, apply.Stands s
  polls : ∀ poll ∈ s.polls, poll.Stands s
  lookups : ∀ lookup ∈ s.lookups, lookup.Stands s
  answers : ∀ answer ∈ s.answers, answer.Bound portUrl

/-- No slot is given out and no selection lost. -/
def Kept (s t : Outbounds) : Prop :=
  ∀ entry ∈ t.slots, entry ∈ s.slots ∧ (s.mihomo.carries entry = true → t.mihomo.carries entry = true)

variable {portUrl : UInt16 → Option String} {s t : Outbounds}

theorem Kept.of_eq (slots : t.slots = s.slots) (mihomo : t.mihomo = s.mihomo) : Kept s t := by
  intro entry member
  rw [mihomo]
  exact ⟨slots ▸ member, id⟩

theorem Kept.allBound (kept : Kept s t) (bound : s.AllBound) : t.AllBound :=
  fun entry member => (kept entry member).2 (bound entry (kept entry member).1)

theorem Kept.fresh (kept : Kept s t) {seen : Controller} (fresh : Fresh s seen) : Fresh t seen :=
  fun entry member saw => (kept entry member).2 (fresh entry (kept entry member).1 saw)

theorem Apply.Stands.carry {apply : Apply} (apart : Kept s t ∨ apply.holds = false)
    (stands : apply.Stands s) : apply.Stands t := by
  cases apply with
  | selecting done rest applied =>
      obtain kept | idle := apart
      · obtain ⟨distinct, covers, most, bound⟩ := stands
        refine ⟨distinct, fun entry member => covers entry (kept entry member).1, most, ?_⟩
        intro all entry isDone member
        obtain ⟨before, carried⟩ := kept entry member
        exact carried (bound all entry isDone before)
      · cases idle
  | reloading | checking | copying | ended => trivial

theorem Poll.Stands.carry {poll : Poll} (apart : Kept s t ∨ poll.holds = false)
    (stands : poll.Stands s) : poll.Stands t := by
  cases poll with
  | fetched seen =>
      obtain kept | idle := apart
      · exact kept.fresh stands
      · cases idle
  | copied seen assignments =>
      obtain kept | idle := apart
      · exact ⟨kept.fresh stands.1, fun entry member => stands.2 entry (kept entry member).1⟩
      · cases idle
  | fetching | ended => trivial

theorem Lookup.Stands.carry {lookup : Lookup} (apart : Kept s t ∨ lookup.holds = false)
    (stands : lookup.Stands s) : lookup.Stands t := by
  cases lookup with
  | flagged node =>
      obtain kept | idle := apart
      · exact kept.allBound stands
      · cases idle
  | ended => trivial

/-- **What a step may do**: keep what is bound or be alone, and answer for the applies it
changes. -/
theorem Inv.advance (inv : Inv portUrl s) (apart : Kept s t ∨ s.quiet = true)
    (distinct : Distinct t.slots) (ready : t.ready = true → t.dirty = true ∨ t.AllBound)
    (applies : ∀ apply ∈ t.applies, apply ∈ s.applies ∨ apply.Stands t)
    (polls : t.polls = s.polls) (lookups : t.lookups = s.lookups)
    (answers : t.answers = s.answers) : Inv portUrl t := by
  have idle : s.quiet = true → (∀ apply ∈ s.applies, apply.holds = false) ∧
      (∀ poll ∈ s.polls, poll.holds = false) ∧ ∀ lookup ∈ s.lookups, lookup.holds = false := by
    intro quiet
    simpa [Outbounds.quiet, and_assoc] using quiet
  refine ⟨distinct, ready, ?_, ?_, ?_, answers ▸ inv.answers⟩
  · intro apply member
    obtain before | stands := applies apply member
    · exact (inv.applies apply before).carry (apart.imp_right fun quiet => (idle quiet).1 _ before)
    · exact stands
  · rw [polls]
    intro poll member
    exact (inv.polls poll member).carry (apart.imp_right fun quiet => (idle quiet).2.1 _ member)
  · rw [lookups]
    intro lookup member
    exact (inv.lookups lookup member).carry (apart.imp_right fun quiet => (idle quiet).2.2 _ member)

/-! ## Steps -/

/-- A step that changes neither the slots nor mihomo nor a task that looks at them. -/
theorem Inv.aside (inv : Inv portUrl s) (slots : t.slots = s.slots) (mihomo : t.mihomo = s.mihomo)
    (applies : t.applies = s.applies) (polls : t.polls = s.polls) (lookups : t.lookups = s.lookups)
    (answers : t.answers = s.answers)
    (ready : t.ready = true → s.ready = true ∧ (s.dirty = true → t.dirty = true)) :
    Inv portUrl t := by
  have kept : Kept s t := .of_eq slots mihomo
  refine inv.advance (.inl kept) (slots ▸ inv.distinct) ?_ ?_ polls lookups answers
  · intro up
    obtain ⟨was, same⟩ := ready up
    exact (inv.ready was).imp same kept.allBound
  · exact fun apply member => .inl (applies ▸ member)

theorem dirty_concat {calls : List Call} {call : Call} (dirty : calls.contains .clearing = true) :
    (calls ++ [call]).contains .clearing = true := by
  simp_all

theorem dirty_set {calls : List Call} {call next : Call} {k : Nat} (here : calls[k]? = some call)
    (other : call ≠ .clearing) (dirty : calls.contains .clearing = true) :
    (calls.set k next).contains .clearing = true := by
  rw [List.contains_iff_mem] at dirty ⊢
  exact mem_set_of_ne here other dirty

/-- **A re-file.** -/
theorem Inv.refile (inv : Inv portUrl s) {k : Nat} {nodes : List String} {persisted : Bool}
    (here : s.calls[k]? = some (.filing nodes))
    (guarded : Guarded s (.refile k persisted)) :
    let slots := Outbound.refile (wanted nodes s.leased) s.slots
    Inv portUrl { s with slots, calls := s.calls.set k (.refiled s.slots slots persisted) } := by
  intro slots
  set t : Outbounds :=
    { s with slots, calls := s.calls.set k (.refiled s.slots slots persisted) } with after
  have dirty : s.dirty = true → t.dirty = true := dirty_set here nofun
  have made : s.refiled k = slots := by
    simp only [Outbounds.refiled, here]
    rfl
  have distinct : Distinct slots := refile_distinct inv.distinct
  rw [Guarded, made] at guarded
  obtain fewer | ⟨quiet, told⟩ := guarded
  · have kept : Kept s t := fun entry member => ⟨fewer entry member, id⟩
    refine inv.advance (.inl kept) distinct ?_ (fun _ => .inl) rfl rfl rfl
    exact fun up => (inv.ready up).imp dirty kept.allBound
  · refine inv.advance (.inr quiet) distinct ?_ (fun _ => .inl) rfl rfl rfl
    intro up
    by_cases changed : slots = s.slots
    · have kept : Kept s t := .of_eq changed rfl
      exact (inv.ready up).imp dirty kept.allBound
    · obtain rfl | down := told
      · left
        have inRange : k < s.calls.length := (List.getElem?_eq_some_iff.mp here).1
        show (s.calls.set k (.refiled s.slots slots true)).contains .clearing = true
        rw [List.contains_iff_mem, Call.refiled, if_neg changed, if_pos rfl]
        exact List.mem_set inRange _
      · cases down.symm.trans up

/-- **A reload.** -/
theorem Inv.reload (inv : Inv portUrl s) {k : Nat} {taken answered : Bool} {lost : List UInt16}
    {next : Apply} (guarded : Guarded s (.reload k taken lost answered)) (idle : next.Stands t)
    (after : t = { s with
      mihomo := if taken then s.mihomo.reloaded s.written lost else s.mihomo
      applies := s.applies.set k next }) :
    Inv portUrl t := by
  have applies : ∀ apply ∈ t.applies, apply ∈ s.applies ∨ apply.Stands t := by
    rw [after] at idle ⊢
    exact mem_set_imp idle
  have keeps (kept : Kept s t) : Inv portUrl t := by
    subst after
    refine inv.advance (.inl kept) inv.distinct ?_ applies rfl rfl rfl
    exact fun up => (inv.ready up).imp_right kept.allBound
  obtain rfl | same | ⟨quiet, told⟩ := guarded
  · exact keeps (after ▸ .of_eq rfl rfl)
  · apply keeps
    subst after
    intro entry member
    refine ⟨member, fun carried => ?_⟩
    cases taken with
    | true => exact same entry member carried
    | false => exact carried
  · subst after
    refine inv.advance (.inr quiet) inv.distinct ?_ applies rfl rfl rfl
    intro up
    obtain down | dirty := told
    · cases down.symm.trans up
    · exact .inl dirty

theorem Controller.carries_select_self {mihomo : Controller} {entry : String × UInt16}
    (there : mihomo.running.contains entry.2 = true) : (mihomo.select entry).carries entry = true := by
  show (mihomo.running.contains entry.2 &&
    Function.update mihomo.selected entry.2 entry.1 entry.2 == entry.1) = true
  rw [Function.update_self, beq_self_eq_true, Bool.and_true]
  exact there

theorem Controller.carries_select {mihomo : Controller} {entry other : String × UInt16}
    (same : other.2 = entry.2 → other = entry) (carried : mihomo.carries other = true) :
    (mihomo.select entry).carries other = true := by
  by_cases slot : other.2 = entry.2
  · rw [same slot] at carried ⊢
    rw [Controller.carries, Bool.and_eq_true] at carried
    exact carries_select_self carried.1
  · show (mihomo.running.contains other.2 &&
      Function.update mihomo.selected entry.2 entry.1 other.2 == other.1) = true
    rw [Function.update_of_ne slot]
    exact carried

/-- **A selection.** -/
theorem Inv.select (inv : Inv portUrl s) {k applied : Nat} {done rest : Assignments}
    {entry : String × UInt16} {taken answered : Bool}
    (here : s.applies[k]? = some (.selecting done (entry :: rest) applied))
    (made : answered = true → taken = true)
    (there : taken = true → s.mihomo.running.contains entry.2 = true) :
    Inv portUrl { s with
      mihomo := if taken then s.mihomo.select entry else s.mihomo
      applies := s.applies.set k
        (.selecting (done ++ [entry]) rest (if answered then applied + 1 else applied)) } := by
  set t : Outbounds := { s with
    mihomo := if taken then s.mihomo.select entry else s.mihomo
    applies := s.applies.set k
      (.selecting (done ++ [entry]) rest (if answered then applied + 1 else applied)) } with after
  obtain ⟨distinct, covers, most, bound⟩ := inv.applies _ (List.mem_of_getElem? here)
  have kept : Kept s t := by
    intro other member
    refine ⟨member, fun carried => ?_⟩
    cases taken with
    | false => exact carried
    | true =>
        -- the slot is this node's alone, in the copy and so in the slots
        apply Controller.carries_select _ carried
        exact List.inj_on_of_nodup_map distinct (covers other member) (by simp)
  have stands : Apply.Stands t
      (.selecting (done ++ [entry]) rest (if answered then applied + 1 else applied)) := by
    refine ⟨by simpa using distinct, by simpa using covers, ?_, ?_⟩
    · rw [List.length_append, List.length_singleton]
      split <;> omega
    · intro all other isDone member
      rw [List.length_append, List.length_singleton] at all
      cases answered with
      | false =>
          simp only [Bool.false_eq_true, if_false] at all
          omega
      | true =>
          simp only [if_true] at all
          rcases List.mem_append.mp isDone with early | last
          · exact (kept other member).2 (bound (by omega) other early member)
          · rw [List.mem_singleton.mp last]
            show (if taken then s.mihomo.select entry else s.mihomo).carries entry = true
            rw [made rfl, if_pos rfl]
            exact Controller.carries_select_self (there (made rfl))
  refine inv.advance (.inl kept) inv.distinct ?_ (mem_set_imp stands) rfl rfl rfl
  exact fun up => (inv.ready up).imp_right kept.allBound

theorem Inv.withApplies (inv : Inv portUrl s) {applies : List Apply}
    (all : ∀ apply ∈ applies, apply ∈ s.applies ∨ apply.Stands s) :
    Inv portUrl { s with applies } :=
  ⟨inv.distinct, inv.ready, fun apply member => (all apply member).elim (inv.applies apply) id,
    inv.polls, inv.lookups, inv.answers⟩

theorem Inv.withPolls (inv : Inv portUrl s) {polls : List Poll}
    (all : ∀ poll ∈ polls, poll ∈ s.polls ∨ poll.Stands s) : Inv portUrl { s with polls } :=
  ⟨inv.distinct, inv.ready, inv.applies,
    fun poll member => (all poll member).elim (inv.polls poll) id, inv.lookups, inv.answers⟩

theorem Inv.withLookups (inv : Inv portUrl s) {lookups : List Lookup}
    (all : ∀ lookup ∈ lookups, lookup ∈ s.lookups ∨ lookup.Stands s) :
    Inv portUrl { s with lookups } :=
  ⟨inv.distinct, inv.ready, inv.applies, inv.polls,
    fun lookup member => (all lookup member).elim (inv.lookups lookup) id, inv.answers⟩

/-- The flag is stored by someone who can answer for it. -/
theorem Inv.withReady (inv : Inv portUrl s) {ready : Bool} (earned : ready = true → s.AllBound) :
    Inv portUrl { s with ready } :=
  ⟨inv.distinct, fun up => .inr (earned up), inv.applies, inv.polls, inv.lookups, inv.answers⟩

/-- Every selection of the copy was confirmed. -/
theorem Apply.Stands.allBound {done : Assignments} {applied : Nat}
    (stands : Apply.Stands s (.selecting done [] applied)) (all : applied = done.length) :
    s.AllBound := by
  obtain ⟨-, covers, -, bound⟩ := stands
  intro entry member
  exact bound all entry (by simpa using covers entry member) member

/-- Every slot of the copy was as it should be. -/
theorem Poll.Stands.allBound {seen : Controller} {assignments : Assignments}
    (stands : Poll.Stands s (.copied seen assignments))
    (all : assignments.all seen.carries = true) : s.AllBound := by
  obtain ⟨fresh, covers⟩ := stands
  intro entry member
  exact fresh entry member (List.all_eq_true.mp all entry (covers entry member))

/-- An apply that goes on to a check or a copy, or has to try again. -/
theorem Apply.stands_of_idle {apply : Apply} (idle : apply.holds = false) : apply.Stands s := by
  cases apply with
  | selecting => cases idle
  | reloading | checking | copying | ended => trivial

theorem Apply.retry_idle (attempt : Nat) : (Apply.retry attempt).holds = false := by
  unfold Apply.retry
  split <;> rfl

/-- What is handed out of slots that are all bound. -/
theorem Outbounds.AllBound.answer (bound : s.AllBound) {node address : String} {slot : UInt16}
    (found : s.slots.lookup (Text.trim node) = some slot)
    (url : portUrl (outboundPort slot) = some address) :
    Answer.Bound portUrl ⟨node, address, s.mihomo⟩ := by
  obtain ⟨before, after, slots, -⟩ := List.lookup_eq_some_iff.mp found
  have carried : s.mihomo.carries (Text.trim node, slot) = true := bound _ (by simp [slots])
  rw [Controller.carries, Bool.and_eq_true, List.contains_iff_mem, beq_iff_eq] at carried
  exact ⟨slot, carried.1, url, carried.2⟩

/-- **One step.** -/
theorem Inv.step (inv : Inv portUrl s) {action : Action} (guarded : Guarded s action)
    (stepped : Outbound.step portUrl s action = some t) : Inv portUrl t := by
  cases action with
  | setOutboundNodes nodes | leaseOutboundNodes nodes held | releaseOutboundNodes held =>
      cases stepped
      exact inv.aside rfl rfl rfl rfl rfl rfl fun up => ⟨up, dirty_concat⟩
  | refile k persisted =>
      simp only [Outbound.step] at stepped
      split at stepped
      · rename_i nodes here
        cases stepped
        exact inv.refile here guarded
      · cases stepped
  | clear k =>
      simp only [Outbound.step] at stepped
      split at stepped <;> cases stepped
      exact inv.aside rfl rfl rfl rfl rfl rfl nofun
  | render k =>
      simp only [Outbound.step] at stepped
      split at stepped
      · rename_i here
        cases stepped
        exact inv.aside rfl rfl rfl rfl rfl rfl fun up => ⟨up, dirty_set here nofun⟩
      · cases stepped
  | writeConfig k renamed =>
      simp only [Outbound.step] at stepped
      split at stepped
      · rename_i listeners here
        split at stepped <;> cases stepped
        · exact inv.aside rfl rfl rfl rfl rfl rfl fun up => ⟨up, dirty_set here nofun⟩
        · exact inv.aside rfl rfl rfl rfl rfl rfl fun up => ⟨up, dirty_set here nofun⟩
      · cases stepped
  | applyRuntimeConfig =>
      cases stepped
      exact inv.withApplies (mem_concat_imp trivial)
  | reload k taken lost answered =>
      simp only [Outbound.step] at stepped
      split at stepped
      · rename_i attempt here
        split at stepped <;> cases stepped
        refine inv.reload guarded ?_ rfl
        apply Apply.stands_of_idle
        cases answered with
        | true => rfl
        | false => exact Apply.retry_idle attempt
      · cases stepped
  | laneGroupsPresent k present =>
      simp only [Outbound.step] at stepped
      split at stepped
      · rename_i attempt here
        cases stepped
        apply inv.withApplies (mem_set_imp _)
        apply Apply.stands_of_idle
        cases present with
        | true => rfl
        | false => exact Apply.retry_idle attempt
      · cases stepped
  | copySlots k =>
      simp only [Outbound.step] at stepped
      split at stepped <;> cases stepped
      apply inv.withApplies (mem_set_imp _)
      exact ⟨inv.distinct, fun entry member => member, le_rfl, fun _ entry none => by cases none⟩
  | select k taken answered =>
      simp only [Outbound.step] at stepped
      split at stepped
      · rename_i done entry rest applied here
        split at stepped
        · cases stepped
        · rename_i possible
          cases stepped
          simp only [Bool.or_eq_true, Bool.and_eq_true, Bool.not_eq_true', not_or, not_and,
            Bool.not_eq_false] at possible
          exact inv.select here possible.1 possible.2
      · cases stepped
  | storeApplied k =>
      simp only [Outbound.step] at stepped
      split at stepped
      · rename_i done applied here
        cases stepped
        have stands := inv.applies _ (List.mem_of_getElem? here)
        have stored := inv.withReady fun up => stands.allBound (beq_iff_eq.mp up)
        exact stored.withApplies (mem_set_imp trivial)
      · cases stepped
  | status =>
      cases stepped
      exact inv.withPolls (mem_concat_imp trivial)
  | fetch k answered =>
      simp only [Outbound.step] at stepped
      split at stepped <;> cases stepped
      apply inv.withPolls (mem_set_imp _)
      cases answered with
      | true => exact fun entry member seen => seen
      | false => trivial
  | copyPolled k =>
      simp only [Outbound.step] at stepped
      split at stepped
      · rename_i seen here
        cases stepped
        apply inv.withPolls (mem_set_imp _)
        exact ⟨inv.polls _ (List.mem_of_getElem? here), fun entry member => member⟩
      · cases stepped
  | storePolled k =>
      simp only [Outbound.step] at stepped
      split at stepped
      · rename_i seen assignments here
        cases stepped
        have stands := inv.polls _ (List.mem_of_getElem? here)
        have stored := inv.withReady stands.allBound
        exact stored.withPolls (mem_set_imp trivial)
      · cases stepped
  | load node =>
      cases stepped
      apply inv.withLookups (mem_concat_imp _)
      by_cases up : s.ready = true
      · rw [if_pos up]
        -- the flag is up, and no one is about to clear it
        obtain down | clean := guarded
        · cases down.symm.trans up
        · obtain dirty | bound := inv.ready up
          · cases clean.symm.trans dirty
          · exact bound
      · rw [if_neg up]
        trivial
  | lookUp k =>
      simp only [Outbound.step] at stepped
      split at stepped
      · rename_i node here
        cases stepped
        have bound : s.AllBound := inv.lookups _ (List.mem_of_getElem? here)
        have ended : Inv portUrl { s with lookups := s.lookups.set k .ended } :=
          inv.withLookups (mem_set_imp trivial)
        refine { ended with answers := ?_ }
        intro answer member
        rcases List.mem_append.mp member with old | new
        · exact inv.answers answer old
        · rw [Option.mem_toList, Option.map_eq_some_iff] at new
          obtain ⟨address, given, rfl⟩ := new
          obtain ⟨slot, found, url⟩ := Option.bind_eq_some_iff.mp given
          exact bound.answer found url
      · cases stepped

/-- **Exit binding**, in every run in which a slot is given out, and a selection lost,
only while no one holds what it read before: an address that was handed out was that of
a port mihomo listened on, with its group on the node. -/
theorem exits_bound (portUrl : UInt16 → Option String) {start final : Outbounds}
    {actions : List Action} (started : (outboundMachine portUrl).Start start)
    (guarded : (outboundMachine portUrl).Meets Guarded start actions)
    (ran : (outboundMachine portUrl).run start actions = some final) :
    ∀ answer ∈ final.answers, answer.Bound portUrl := by
  have inv : Inv portUrl final := by
    refine Machine.run_preserves_of_meets (fun s a t inv guarded stepped =>
      inv.step guarded stepped) guarded ran ?_
    obtain ⟨filed, -, -, down, -, applies, polls, lookups, answers⟩ := started
    refine ⟨filed.distinct, fun up => ?_, by simp [applies], by simp [polls], by simp [lookups],
      by simp [answers]⟩
    cases down.symm.trans up
  exact inv.answers

/-! ## One slot -/

def examplePortUrl (port : UInt16) : Option String :=
  some ("http://mihomo:" ++ toString port.toNat ++ "/")

/-- Nothing is assigned, and mihomo runs what it was started with. -/
def noOutbounds : Outbounds where
  slots := []
  leased := []
  ready := false
  written := []
  mihomo := ⟨[], fun _ => groupName⟩
  calls := []
  applies := []
  polls := []
  lookups := []
  answers := []

/-- One node is bound and asked for, another is borrowed and asked for, and a poll
confirms both. -/
def oneThenBoth : List Action :=
  [.setOutboundNodes ["hk"], .refile 0 true, .clear 0, .render 0, .writeConfig 0 true,
    .applyRuntimeConfig, .reload 0 true [] true, .laneGroupsPresent 0 true, .copySlots 0,
    .select 0 true true, .storeApplied 0, .load " hk", .lookUp 0,
    .leaseOutboundNodes ["jp"] ["hk"], .refile 1 true, .clear 1, .render 1, .writeConfig 1 true,
    .applyRuntimeConfig, .reload 1 true [] true, .laneGroupsPresent 1 true, .copySlots 1,
    .select 1 true true, .select 1 true true, .storeApplied 1, .load "jp", .lookUp 1,
    .status, .fetch 0 true, .copyPolled 0, .storePolled 0]

theorem exits_bound_oneThenBoth :
    ∃ final, (outboundMachine examplePortUrl).run noOutbounds oneThenBoth = some final ∧
      (final.ready = true ∧ final.answers.map (fun answer => (answer.node, answer.address)) =
        [(" hk", "http://mihomo:7901/"), ("jp", "http://mihomo:7902/")]) ∧
      ∀ answer ∈ final.answers, answer.Bound examplePortUrl := by
  obtain ⟨final, ran, answered⟩ : ∃ final, (outboundMachine examplePortUrl).run noOutbounds
        oneThenBoth = some final ∧
      (final.ready = true ∧ final.answers.map (fun answer => (answer.node, answer.address)) =
        [(" hk", "http://mihomo:7901/"), ("jp", "http://mihomo:7902/")]) :=
    Machine.run_exists (by decide +kernel)
  have started : (outboundMachine examplePortUrl).Start noOutbounds :=
    ⟨⟨[], rfl⟩, rfl, rfl, rfl, rfl, rfl, rfl, rfl, rfl⟩
  exact ⟨final, ran, answered, exits_bound examplePortUrl started (by decide +kernel) ran⟩

/-- A process that finds its one slot where it left it. -/
def oneOutbound : Outbounds :=
  { noOutbounds with
    slots := [("hk", 1)]
    written := [1]
    mihomo := ⟨[1], fun slot => if slot = 1 then "hk" else groupName⟩ }

/-- The slot changes hands between what is read and what comes of it:

* a poll saw the old node, and stores its answer after the flag was cleared;
* so does an apply that selected the old node;
* the address is asked for before the flag is cleared,
* or the flag was read before the slots changed;
* the new slots could not be written, and the flag is never cleared;
* mihomo reloads and does not put the selection back. -/
def strayRuns : List (List Action) :=
  [[.status, .fetch 0 true, .copyPolled 0, .setOutboundNodes ["jp"], .refile 0 true, .clear 0,
      .storePolled 0, .load "jp", .lookUp 0],
    [.applyRuntimeConfig, .reload 0 true [] true, .laneGroupsPresent 0 true, .copySlots 0,
      .select 0 true true, .setOutboundNodes ["jp"], .refile 0 true, .clear 0, .storeApplied 0,
      .load "jp", .lookUp 0],
    [.status, .fetch 0 true, .copyPolled 0, .storePolled 0, .setOutboundNodes ["jp"],
      .refile 0 true, .load "jp", .lookUp 0],
    [.status, .fetch 0 true, .copyPolled 0, .storePolled 0, .load "jp", .setOutboundNodes ["jp"],
      .refile 0 true, .clear 0, .lookUp 0],
    [.status, .fetch 0 true, .copyPolled 0, .storePolled 0, .setOutboundNodes ["jp"],
      .refile 0 false, .load "jp", .lookUp 0],
    [.status, .fetch 0 true, .copyPolled 0, .storePolled 0, .applyRuntimeConfig,
      .reload 0 true [1] true, .load "hk", .lookUp 0]]

/-- Some address was handed out for a node that no group was on. -/
def Outbounds.stray (s : Outbounds) : Bool :=
  s.answers.any fun answer =>
    answer.mihomo.running.all fun slot => answer.mihomo.selected slot != Text.trim answer.node

theorem not_bound_of_stray (stray : s.stray = true) :
    ¬ ∀ answer ∈ s.answers, answer.Bound portUrl := by
  intro bound
  obtain ⟨answer, member, elsewhere⟩ := List.any_eq_true.mp stray
  obtain ⟨slot, running, -, selected⟩ := bound answer member
  have differs := List.all_eq_true.mp elsewhere slot running
  rw [selected, bne_self_eq_false] at differs
  cases differs

theorem exits_unbound :
    (outboundMachine examplePortUrl).Start oneOutbound ∧
      ∀ actions ∈ strayRuns, ∃ final,
        (outboundMachine examplePortUrl).run oneOutbound actions = some final ∧
          ¬ ∀ answer ∈ final.answers, answer.Bound examplePortUrl := by
  constructor
  · exact ⟨⟨[["hk"]], by decide +kernel⟩, by decide +kernel, rfl, rfl, rfl, rfl, rfl, rfl, rfl⟩
  · have found : ∀ actions ∈ strayRuns, ((outboundMachine examplePortUrl).run oneOutbound
        actions).any (fun final => decide (final.stray = true)) = true := by decide +kernel
    intro actions member
    obtain ⟨final, ran, stray⟩ := Machine.run_exists (found actions member)
    exact ⟨final, ran, not_bound_of_stray stray⟩

end MajsoulManager.Mihomo.Outbound
