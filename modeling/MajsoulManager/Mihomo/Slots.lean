/-
# Mihomo.Slots — which slot a node has

`OutboundSlots::refile` of `mihomo.rs`, as `set_outbound_nodes` calls it: with the nodes
it is asked for and the borrowed ones.  A node that is still wanted stays where it is, and
a new one takes the lowest slot that is left, in the order of the list.

`refile_round` says what one call does to any filed assignment, `slots_sound` what holds
after any number of them.  `fileNodes_spec` is the loop.
-/
import MajsoulManager.Mihomo.Outbounds

namespace MajsoulManager.Mihomo.Outbound

set_option autoImplicit false

/-! ## Ports -/

/-- `external-controller` of the generated configuration. -/
def controllerPort : UInt16 := 9090

/-- `mixed-port` of the generated configuration. -/
def sharedPort : UInt16 := 7890

inductive MihomoLane where
  | watch
  | refetch
  deriving DecidableEq, Repr

def MihomoLane.port : MihomoLane → UInt16
  | .watch => 7891
  | .refetch => 7892

/-- A slot that `refile` may give out. -/
def Usable (slot : UInt16) : Prop :=
  1 ≤ slot ∧ slot ≤ maxOutbounds ∧ outboundPort slot ∉ reservedPorts

instance (slot : UInt16) : Decidable (Usable slot) :=
  inferInstanceAs (Decidable (1 ≤ slot ∧ slot ≤ maxOutbounds ∧ outboundPort slot ∉ reservedPorts))

theorem usable_iff {slot : UInt16} :
    Usable slot ↔ 1 ≤ slot.toNat ∧ slot.toNat ≤ maxOutbounds.toNat ∧
      outboundPort slot ∉ reservedPorts := by
  unfold Usable
  rw [UInt16.le_iff_toNat_le, UInt16.le_iff_toNat_le]
  rfl

/-- The port of a usable slot does not wrap, and is nobody else's. -/
theorem outboundPort_usable {slot : UInt16} (usable : Usable slot) :
    (outboundPort slot).toNat = outboundPortBase.toNat + slot.toNat ∧
      outboundPort slot ≠ controllerPort ∧ outboundPort slot ≠ sharedPort ∧
        ∀ lane : MihomoLane, outboundPort slot ≠ lane.port := by
  obtain ⟨low, high, free⟩ := usable_iff.mp usable
  have base : outboundPortBase.toNat = 7900 := rfl
  have top : maxOutbounds.toNat = 57635 := rfl
  have value : (outboundPort slot).toNat = outboundPortBase.toNat + slot.toNat := by
    rw [outboundPort, UInt16.toNat_add]
    omega
  refine ⟨value, fun same => free (by simp [same, reservedPorts, controllerPort]), ?_, ?_⟩
  · intro same
    have equal : (outboundPort slot).toNat = 7890 := congrArg UInt16.toNat same
    omega
  · intro lane same
    have equal := congrArg UInt16.toNat same
    have below : lane.port.toNat ≤ 7892 := by cases lane <;> decide
    omega

/-! ## The free slot -/

section Slots

variable {assignments : Assignments}

/-- **The slot that is found is the lowest**: every usable one below it is taken. -/
theorem freeSlot_lowest {slot : UInt16} (found : freeSlot assignments = some slot) :
    Usable slot ∧ ∀ other, Usable other → other < slot → other ∈ assignments.map (·.2) := by
  unfold freeSlot at found
  rw [List.find?_map, Option.map_eq_some_iff] at found
  obtain ⟨index, hit, rfl⟩ := found
  obtain ⟨free, range, first⟩ := List.find?_range'_eq_some.mp hit
  have top : maxOutbounds.toNat = 57635 := rfl
  obtain ⟨low, high⟩ := List.mem_range'_1.mp range
  have value : (UInt16.ofNat index).toNat = index := by
    rw [UInt16.toNat_ofNat']
    omega
  simp only [Function.comp_apply, Bool.and_eq_true, Bool.not_eq_true', List.contains_eq_mem,
    decide_eq_false_iff_not] at free
  refine ⟨usable_iff.mpr ⟨by omega, by omega, free.2⟩, ?_⟩
  intro other usable below
  obtain ⟨positive, -, open_⟩ := usable_iff.mp usable
  rw [UInt16.lt_iff_toNat_lt, value] at below
  have taken := first other.toNat positive below
  simp only [Function.comp_apply, UInt16.ofNat_toNat, Bool.not_and, Bool.not_not,
    Bool.or_eq_true, List.contains_eq_mem, decide_eq_true_eq] at taken
  rcases taken with here | reserved
  · exact here
  · exact absurd reserved open_

/-- Where none is found, every usable slot is taken. -/
theorem freeSlot_none (none_ : freeSlot assignments = none) (slot : UInt16) (usable : Usable slot) :
    slot ∈ assignments.map (·.2) := by
  unfold freeSlot at none_
  rw [List.find?_map, Option.map_eq_none_iff, List.find?_range'_eq_none] at none_
  obtain ⟨positive, high, open_⟩ := usable_iff.mp usable
  have taken := none_ slot.toNat positive (by omega)
  simp only [Function.comp_apply, UInt16.ofNat_toNat, Bool.not_and, Bool.not_not,
    Bool.or_eq_true, List.contains_eq_mem, decide_eq_true_eq] at taken
  rcases taken with here | reserved
  · exact here
  · exact absurd reserved open_

/-! ## The loop -/

/-- One slot a node, one node a slot, and every slot one that may be given out. -/
structure SlotsInv (assignments : Assignments) : Prop where
  nodes : (assignments.map (·.1)).Nodup
  slots : Distinct assignments
  usable : ∀ entry ∈ assignments, Usable entry.2

/-- What the loop of `refile` makes of an assignment. -/
structure FileSpec (nodes : List String) (before after : Assignments) : Prop where
  inv : SlotsInv after
  kept : ∀ entry ∈ before, entry ∈ after
  only : ∀ entry ∈ after, entry ∈ before ∨ entry.1 ∈ nodes
  all : (∀ node ∈ nodes, ∃ slot, (node, slot) ∈ after) ∨
    ∀ slot, Usable slot → slot ∈ after.map (·.2)
  /-- The usable slots below that of a new node are kept ones, or were given to nodes
  before it in the list. -/
  lowest : ∀ node slot, (node, slot) ∈ after → (node, slot) ∉ before →
    ∀ free, Usable free → free < slot → ∃ other, (other, free) ∈ after ∧
      ((other, free) ∈ before ∨ nodes.idxOf other < nodes.idxOf node)

theorem mem_of_lookup {node : String} (here : (assignments.lookup node).isSome) :
    ∃ slot, (node, slot) ∈ assignments := by
  induction assignments with
  | nil => simp at here
  | cons entry rest ih =>
      obtain ⟨name, slot⟩ := entry
      rw [List.lookup_cons] at here
      by_cases same : node = name
      · exact ⟨slot, by simp [same]⟩
      · have other : (node == name) = false := by simpa using same
        rw [other] at here
        obtain ⟨found, member⟩ := ih here
        exact ⟨found, List.mem_cons_of_mem _ member⟩

theorem not_mem_of_lookup {node : String} (gone : (assignments.lookup node).isSome = false) :
    node ∉ assignments.map (·.1) := by
  intro member
  obtain ⟨⟨name, slot⟩, listed, rfl⟩ := List.mem_map.mp member
  have none_ : assignments.lookup name = none := by simpa using gone
  have all := List.lookup_eq_none_iff.mp none_ (name, slot) listed
  simp at all

theorem idxOf_cons_lt {nodes : List String} {node name other : String} (different : name ≠ node)
    (earlier : nodes.idxOf other < nodes.idxOf name) :
    (node :: nodes).idxOf other < (node :: nodes).idxOf name := by
  rw [List.idxOf_cons_ne _ (Ne.symm different), List.idxOf_cons]
  cases node == other with
  | true => exact Nat.succ_pos _
  | false => exact Nat.succ_lt_succ earlier

/-- A slot that is free goes to a node that has none. -/
theorem SlotsInv.insert (inv : SlotsInv assignments) {node : String} {slot : UInt16}
    (new : node ∉ assignments.map (·.1)) (found : freeSlot assignments = some slot) :
    SlotsInv (assignments.orderedInsert (·.1 ≤ ·.1) (node, slot)) := by
  have perm := List.perm_orderedInsert (fun a b : String × UInt16 => a.1 ≤ b.1) (node, slot)
    assignments
  refine ⟨?_, ?_, ?_⟩
  · rw [(perm.map (·.1)).nodup_iff]
    exact List.nodup_cons.mpr ⟨new, inv.nodes⟩
  · rw [Distinct, (perm.map (·.2)).nodup_iff]
    exact List.nodup_cons.mpr ⟨freeSlot_free found, inv.slots⟩
  · intro entry member
    rcases List.mem_cons.mp (perm.mem_iff.mp member) with rfl | old
    · exact (freeSlot_lowest found).1
    · exact inv.usable entry old

theorem fileNodes_spec {nodes : List String} (inv : SlotsInv assignments) :
    FileSpec nodes assignments (fileNodes nodes assignments) := by
  induction nodes generalizing assignments with
  | nil =>
      exact ⟨inv, fun _ member => member, fun _ member => .inl member, .inl (by simp),
        fun _ _ after new => absurd after new⟩
  | cons node rest ih =>
      rw [fileNodes]
      by_cases here : (assignments.lookup node).isSome = true
      · -- the node stays where it is
        rw [if_pos here]
        obtain ⟨own, held⟩ := mem_of_lookup here
        have spec := ih inv
        refine ⟨spec.inv, spec.kept, ?_, ?_, ?_⟩
        · intro entry member
          exact (spec.only entry member).imp_right (List.mem_cons_of_mem _)
        · refine spec.all.imp_left fun every => ?_
          exact List.forall_mem_cons.mpr ⟨⟨own, spec.kept _ held⟩, every⟩
        · intro name slot member new free usable below
          obtain ⟨other, given, earlier⟩ := spec.lowest name slot member new free usable below
          have different : name ≠ node := by
            rintro rfl
            have same := List.inj_on_of_nodup_map spec.inv.nodes member (spec.kept _ held) rfl
            exact new (same ▸ held)
          exact ⟨other, given, earlier.imp_right (idxOf_cons_lt different)⟩
      · have gone : (assignments.lookup node).isSome = false := eq_false_of_ne_true here
        rw [if_neg here]
        cases found : freeSlot assignments with
        | none =>
            refine ⟨inv, fun _ member => member, fun _ member => .inl member,
              .inr (freeSlot_none found), fun _ _ after new => absurd after new⟩
        | some slot =>
            -- the node takes the lowest, and the rest are filed behind it
            have perm := List.perm_orderedInsert (fun a b : String × UInt16 => a.1 ≤ b.1)
              (node, slot) assignments
            have spec := ih (inv.insert (not_mem_of_lookup gone) found)
            have own := spec.kept (node, slot) (perm.mem_iff.mpr List.mem_cons_self)
            refine ⟨spec.inv, ?_, ?_, ?_, ?_⟩
            · intro entry member
              exact spec.kept entry (perm.mem_iff.mpr (List.mem_cons_of_mem _ member))
            · intro entry member
              rcases spec.only entry member with old | later
              · rcases List.mem_cons.mp (perm.mem_iff.mp old) with rfl | before
                · exact .inr List.mem_cons_self
                · exact .inl before
              · exact .inr (List.mem_cons_of_mem _ later)
            · refine spec.all.imp_left fun every => ?_
              exact List.forall_mem_cons.mpr ⟨⟨slot, own⟩, every⟩
            · intro name given member new free usable below
              by_cases first : name = node
              · subst first
                have same := List.inj_on_of_nodup_map spec.inv.nodes member own rfl
                have equal : given = slot := congrArg Prod.snd same
                subst equal
                have taken := (freeSlot_lowest found).2 free usable below
                obtain ⟨⟨other, _⟩, held, rfl⟩ := List.mem_map.mp taken
                exact ⟨other, spec.kept _ (perm.mem_iff.mpr (List.mem_cons_of_mem _ held)),
                  .inl held⟩
              · have fresh : (name, given) ∉ assignments.orderedInsert (·.1 ≤ ·.1) (node, slot) := by
                  intro old
                  rcases List.mem_cons.mp (perm.mem_iff.mp old) with same | before
                  · exact first (congrArg Prod.fst same)
                  · exact new before
                obtain ⟨other, placed, earlier⟩ :=
                  spec.lowest name given member fresh free usable below
                refine ⟨other, placed, ?_⟩
                rcases earlier with old | earlier
                · rcases List.mem_cons.mp (perm.mem_iff.mp old) with same | before
                  · have equal : other = node := congrArg Prod.fst same
                    right
                    rw [equal, List.idxOf_cons_self, List.idxOf_cons_ne _ (Ne.symm first)]
                    exact Nat.succ_pos _
                  · exact .inl before
                · exact .inr (idxOf_cons_lt first earlier)

end Slots

/-! ## A call, and any number of them -/

theorem mem_wanted {nodes leased : List String} {node : String} :
    node ∈ wanted nodes leased ↔ node ∈ nodes ∨ node ∈ leased := by
  unfold wanted
  induction leased generalizing nodes with
  | nil => simp
  | cons first rest ih =>
      rw [List.foldl_cons, ih, List.mem_cons]
      split
      · rename_i here
        have inside : first ∈ nodes := List.contains_iff_mem.mp here
        constructor
        · exact fun either => either.imp_right .inr
        · rintro (old | rfl | later)
          · exact .inl old
          · exact .inl inside
          · exact .inr later
      · simp [or_assoc]

/-- What a call with these nodes, and these leased, makes of an assignment. -/
structure RefileSound (nodes leased : List String) (before after : Assignments) : Prop where
  inv : SlotsInv after
  kept : ∀ node slot, (node, slot) ∈ before → node ∈ nodes ∨ node ∈ leased → (node, slot) ∈ after
  only : ∀ entry ∈ after, entry.1 ∈ nodes ∨ entry.1 ∈ leased
  all : (∀ node, node ∈ nodes ∨ node ∈ leased → ∃ slot, (node, slot) ∈ after) ∨
    ∀ slot, Usable slot → slot ∈ after.map (·.2)
  /-- The usable slots below that of a new node are those of nodes that stayed, and of new
  ones before it. -/
  lowest : ∀ node slot, (node, slot) ∈ after → node ∉ before.map (·.1) →
    ∀ free, Usable free → free < slot → ∃ other, (other, free) ∈ after ∧
      ((other, free) ∈ before ∨
        (wanted nodes leased).idxOf other < (wanted nodes leased).idxOf node)

theorem refile_round {nodes leased : List String} {assignments : Assignments}
    (inv : SlotsInv assignments) :
    RefileSound nodes leased assignments (refile (wanted nodes leased) assignments) := by
  let retained := assignments.filter fun entry => (wanted nodes leased).contains entry.1
  have sub : retained.Sublist assignments := List.filter_sublist
  have still : SlotsInv retained :=
    ⟨(sub.map _).nodup inv.nodes, (sub.map _).nodup inv.slots,
      fun entry member => inv.usable entry (sub.subset member)⟩
  have spec : FileSpec (wanted nodes leased) retained (refile (wanted nodes leased) assignments) :=
    fileNodes_spec still
  refine ⟨spec.inv, ?_, ?_, ?_, ?_⟩
  · intro node slot held named
    refine spec.kept _ (List.mem_filter.mpr ⟨held, ?_⟩)
    exact List.contains_iff_mem.mpr (mem_wanted.mpr named)
  · intro entry member
    rcases spec.only entry member with old | new
    · exact mem_wanted.mp (List.contains_iff_mem.mp (List.mem_filter.mp old).2)
    · exact mem_wanted.mp new
  · exact spec.all.imp_left fun every node named => every node (mem_wanted.mpr named)
  · intro node slot member new free usable below
    have fresh : (node, slot) ∉ retained := fun old =>
      new (List.mem_map.mpr ⟨_, sub.subset old, rfl⟩)
    obtain ⟨other, given, earlier⟩ := spec.lowest node slot member fresh free usable below
    exact ⟨other, given, earlier.imp_left fun old => sub.subset old⟩

/-- The assignment after a sequence of calls, each with its nodes and what is leased then. -/
def refiledBy (calls : List (List String × List String)) : Assignments :=
  calls.foldl (fun slots call => refile (wanted call.1 call.2) slots) []

theorem refiledBy_inv (calls : List (List String × List String)) : SlotsInv (refiledBy calls) := by
  unfold refiledBy
  suffices ∀ first : Assignments, SlotsInv first →
      SlotsInv (calls.foldl (fun slots call => refile (wanted call.1 call.2) slots) first) from
    this [] ⟨List.nodup_nil, List.nodup_nil, by simp⟩
  induction calls with
  | nil => exact fun first inv => inv
  | cons call rest ih => exact fun first inv => ih _ (refile_round inv).inv

/-- **The slots are sound**, after every sequence of calls: no two nodes share one, none is
outside the range or on a port of somebody else, and the next call, whatever it names,
moves nobody who stays, assigns whom it names while there is room, and from the bottom. -/
theorem slots_sound (calls : List (List String × List String)) :
    (∀ node other slot, (node, slot) ∈ refiledBy calls → (other, slot) ∈ refiledBy calls →
      node = other) ∧
    (∀ entry ∈ refiledBy calls, 1 ≤ entry.2 ∧ entry.2 ≤ maxOutbounds ∧
      (outboundPort entry.2).toNat = outboundPortBase.toNat + entry.2.toNat ∧
      outboundPort entry.2 ≠ controllerPort ∧ outboundPort entry.2 ≠ sharedPort ∧
      ∀ lane : MihomoLane, outboundPort entry.2 ≠ lane.port) ∧
    ∀ nodes leased, RefileSound nodes leased (refiledBy calls)
      (refiledBy (calls ++ [(nodes, leased)])) := by
  have inv := refiledBy_inv calls
  refine ⟨?_, ?_, ?_⟩
  · intro node other slot first second
    have same := List.inj_on_of_nodup_map inv.slots first second rfl
    exact congrArg Prod.fst same
  · intro entry member
    have usable := inv.usable entry member
    exact ⟨usable.1, usable.2.1, outboundPort_usable usable⟩
  · intro nodes leased
    have step : refiledBy (calls ++ [(nodes, leased)]) =
        refile (wanted nodes leased) (refiledBy calls) := by
      simp [refiledBy]
    rw [step]
    exact refile_round inv

end MajsoulManager.Mihomo.Outbound
