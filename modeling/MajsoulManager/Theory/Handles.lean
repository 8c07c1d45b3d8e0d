/-
# Theory.Handles — tasks, the handles that reach them, and the sections that move them

Tasks are spawned, run until they end by themselves or because they were aborted, and
are reached by handles.  One list of handles is shared: a caller takes it, aborts what
it took, waits until all of it has ended, and may then spawn new tasks and put their
handles back.  A handle that is dropped detaches its task.

`Kept y handles specs` says that whatever is alive is among `handles`, which were
spawned together as `specs`, and that nothing started before the last stop that
returned is alive.  It is kept by every move of the shared list (`Kept.take`,
`Kept.spawn`, `Kept.close`), as long as no two callers are inside such a section at
once (`Alone`).
-/
import MajsoulManager.Theory.Edits

namespace MajsoulManager.Theory

set_option autoImplicit false

/-! ## Tasks and handles -/

structure Spawned (σ : Type) where
  spec : σ
  aborted : Bool := false
  ended : Bool := false
  deriving DecidableEq, Repr

/-- Every task ever spawned, under its handle; the shared list; and how many tasks had
been started when a stop last returned. -/
structure Yard (σ : Type) where
  tasks : List (Spawned σ) := []
  slot : List Nat := []
  barrier : Nat := 0
  deriving DecidableEq, Repr

namespace Yard

variable {σ : Type}

def alive (y : Yard σ) (handle : Nat) : Bool := y.tasks[handle]?.any fun task => !task.ended

def spec? (y : Yard σ) (handle : Nat) : Option σ := y.tasks[handle]?.map (·.spec)

/-- Awaiting handles is over once all of them have ended. -/
def allEnded (y : Yard σ) (handles : List Nat) : Bool := handles.all fun handle => !y.alive handle

/-- The shared list is taken, and everything in it aborted. -/
def take (y : Yard σ) : Yard σ :=
  { y with
    tasks := y.tasks.mapIdx fun handle task =>
      if handle ∈ y.slot then { task with aborted := true } else task
    slot := [] }

/-- The handles of the tasks about to be spawned. -/
def fresh (y : Yard σ) (specs : List σ) : List Nat := List.range' y.tasks.length specs.length

def spawn (y : Yard σ) (specs : List σ) : Yard σ :=
  { y with tasks := y.tasks ++ specs.map fun spec => { spec := spec } }

def store (y : Yard σ) (handles : List Nat) : Yard σ := { y with slot := handles }

/-- A task ends, by itself or at the next point where an abort reaches it. -/
def finish (y : Yard σ) (handle : Nat) : Yard σ :=
  { y with tasks := y.tasks.modify handle fun task => { task with ended := true } }

/-- A stop returns. -/
def close (y : Yard σ) : Yard σ := { y with barrier := y.tasks.length }

/-! ## What is alive -/

theorem alive_iff {y : Yard σ} {handle : Nat} :
    y.alive handle = true ↔ ∃ task, y.tasks[handle]? = some task ∧ task.ended = false := by
  simp [alive, Option.any_eq_true]

theorem alive_lt {y : Yard σ} {handle : Nat} (living : y.alive handle = true) :
    handle < y.tasks.length := by
  obtain ⟨task, here, -⟩ := alive_iff.mp living
  exact (List.getElem?_eq_some_iff.mp here).1

@[simp] theorem alive_take (y : Yard σ) (handle : Nat) : y.take.alive handle = y.alive handle := by
  simp only [alive, take, List.getElem?_mapIdx]
  cases y.tasks[handle]? with
  | none => rfl
  | some task =>
      simp only [Option.map_some, Option.any_some]
      split <;> rfl

@[simp] theorem alive_store (y : Yard σ) (handles : List Nat) (handle : Nat) :
    (y.store handles).alive handle = y.alive handle := rfl

@[simp] theorem alive_close (y : Yard σ) (handle : Nat) : y.close.alive handle = y.alive handle := rfl

theorem alive_of_finish {y : Yard σ} {ended handle : Nat}
    (living : (y.finish ended).alive handle = true) : y.alive handle = true := by
  obtain ⟨task, here, running⟩ := alive_iff.mp living
  rcases getElem?_modify_cases here with ⟨-, old, -, rfl⟩ | ⟨-, old⟩
  · cases running
  · exact alive_iff.mpr ⟨task, old, running⟩

@[simp] theorem spec?_take (y : Yard σ) (handle : Nat) : y.take.spec? handle = y.spec? handle := by
  simp only [spec?, take, List.getElem?_mapIdx]
  cases y.tasks[handle]? with
  | none => rfl
  | some task =>
      simp only [Option.map_some]
      split <;> rfl

@[simp] theorem spec?_finish (y : Yard σ) (ended handle : Nat) :
    (y.finish ended).spec? handle = y.spec? handle := by
  have specs : (y.finish ended).tasks.map (·.spec) = y.tasks.map (·.spec) := map_modify fun _ => rfl
  rw [spec?, spec?, ← List.getElem?_map, ← List.getElem?_map, specs]

theorem spec?_spawn_old {y : Yard σ} {specs : List σ} {handle : Nat}
    (old : handle < y.tasks.length) : (y.spawn specs).spec? handle = y.spec? handle := by
  rw [spec?, spec?, spawn, List.getElem?_append_left old]

theorem spec?_spawn_new (y : Yard σ) (specs : List σ) (i : Nat) :
    (y.spawn specs).spec? (y.tasks.length + i) = specs[i]? := by
  rw [spec?, spawn, List.getElem?_append_right (Nat.le_add_right ..), Nat.add_sub_cancel_left,
    List.getElem?_map, Option.map_map]
  exact Option.map_id'

theorem fresh_specs (y : Yard σ) (specs : List σ) :
    (y.fresh specs).map (y.spawn specs).spec? = specs.map some := by
  apply List.ext_getElem
  · simp [fresh]
  · intro i inside _
    have bound : i < specs.length := by simpa [fresh] using inside
    simp [fresh, spec?_spawn_new, bound]

/-! ## What is kept -/

/-- Whatever is alive is among `handles`, which were spawned together as `specs`. -/
structure Kept (y : Yard σ) (handles : List Nat) (specs : List σ) : Prop where
  owned : ∀ handle, y.alive handle = true → handle ∈ handles
  spawned : handles.map y.spec? = specs.map some
  distinct : handles.Nodup
  late : ∀ handle, y.alive handle = true → y.barrier ≤ handle
  past : y.barrier ≤ y.tasks.length

namespace Kept

variable {y : Yard σ} {handles : List Nat} {specs : List σ}

theorem none_alive (kept : Kept y handles specs) (finished : y.allEnded handles = true) (handle : Nat) :
    y.alive handle = false := by
  by_contra living
  rw [Bool.not_eq_false] at living
  have ended := List.all_eq_true.mp finished handle (kept.owned handle living)
  rw [living] at ended
  cases ended

theorem take (kept : Kept y handles specs) : Kept y.take handles specs where
  owned handle living := kept.owned handle (by simpa using living)
  spawned := by
    rw [← kept.spawned]
    exact List.map_congr_left fun handle _ => spec?_take y handle
  distinct := kept.distinct
  late handle living := kept.late handle (by simpa using living)
  past := by
    show y.barrier ≤ (y.tasks.mapIdx _).length
    rw [List.length_mapIdx]
    exact kept.past

theorem store (kept : Kept y handles specs) (stored : List Nat) :
    Kept (y.store stored) handles specs :=
  ⟨kept.owned, kept.spawned, kept.distinct, kept.late, kept.past⟩

theorem finish (kept : Kept y handles specs) (ended : Nat) : Kept (y.finish ended) handles specs where
  owned handle living := kept.owned handle (alive_of_finish living)
  spawned := by
    rw [← kept.spawned]
    exact List.map_congr_left fun handle _ => spec?_finish y ended handle
  distinct := kept.distinct
  late handle living := kept.late handle (alive_of_finish living)
  past := by
    show y.barrier ≤ (y.tasks.modify _ _).length
    rw [List.length_modify]
    exact kept.past

theorem spawn_alive (kept : Kept y handles specs) (finished : y.allEnded handles = true)
    {next : List σ} {handle : Nat} (living : (y.spawn next).alive handle = true) :
    y.tasks.length ≤ handle ∧ handle < y.tasks.length + next.length := by
  refine ⟨?_, by simpa [Yard.spawn] using alive_lt living⟩
  by_contra old
  have same : (y.spawn next).alive handle = y.alive handle := by
    rw [alive, alive, Yard.spawn, List.getElem?_append_left (by omega)]
  rw [same, kept.none_alive finished handle] at living
  cases living

/-- Once everything kept has ended, what is spawned is all there is. -/
theorem spawn (kept : Kept y handles specs) (finished : y.allEnded handles = true) (next : List σ) :
    Kept (y.spawn next) (y.fresh next) next where
  owned handle living := by
    rw [fresh, List.mem_range'_1]
    exact kept.spawn_alive finished living
  spawned := fresh_specs y next
  distinct := List.nodup_range'
  late handle living := kept.past.trans (kept.spawn_alive finished living).1
  past := by
    have bound := kept.past
    simp only [Yard.spawn, List.length_append]
    omega

/-- A stop that waited for everything leaves nothing behind. -/
theorem close (kept : Kept y handles specs) (finished : y.allEnded handles = true) :
    Kept y.close [] [] where
  owned handle living := by
    rw [alive_close, kept.none_alive finished handle] at living
    cases living
  spawned := rfl
  distinct := List.nodup_nil
  late handle living := by
    rw [alive_close, kept.none_alive finished handle] at living
    cases living
  past := le_refl _

/-- Once everything kept has ended, nothing has to be kept. -/
theorem rest (kept : Kept y handles specs) (finished : y.allEnded handles = true) : Kept y [] [] where
  owned handle living := by
    rw [kept.none_alive finished handle] at living
    cases living
  spawned := rfl
  distinct := List.nodup_nil
  late := kept.late
  past := kept.past

/-- A barrier set while nothing is alive. -/
theorem closeIdle (kept : Kept y handles specs) (idle : ∀ handle, y.alive handle = false) :
    Kept y.close handles specs where
  owned handle living := by
    rw [alive_close, idle handle] at living
    cases living
  spawned := kept.spawned
  distinct := kept.distinct
  late handle living := by
    rw [alive_close, idle handle] at living
    cases living
  past := le_refl _

/-- What was taken has been aborted. -/
theorem aborted_take (y : Yard σ) : ∀ handle ∈ y.slot, ∀ task, y.take.tasks[handle]? = some task →
    task.aborted = true := by
  intro handle member task here
  rw [Yard.take, List.getElem?_mapIdx] at here
  obtain ⟨old, -, rfl⟩ := Option.map_eq_some_iff.mp here
  rw [if_pos member]

theorem aborted_finish {ended : Nat}
    (aborted : ∀ handle ∈ handles, ∀ task, y.tasks[handle]? = some task → task.aborted = true) :
    ∀ handle ∈ handles, ∀ task, (y.finish ended).tasks[handle]? = some task →
      task.aborted = true := by
  intro handle member task here
  rcases getElem?_modify_cases here with ⟨-, old, found, rfl⟩ | ⟨-, old⟩
  · exact aborted handle member old found
  · exact aborted handle member task old

/-- What is alive was asked for. -/
theorem spec_of_alive (kept : Kept y handles specs) {handle : Nat} (living : y.alive handle = true) :
    ∃ spec ∈ specs, y.spec? handle = some spec := by
  have member : y.spec? handle ∈ handles.map y.spec? :=
    List.mem_map.mpr ⟨handle, kept.owned handle living, rfl⟩
  rw [kept.spawned] at member
  obtain ⟨spec, asked, same⟩ := List.mem_map.mp member
  exact ⟨spec, asked, same.symm⟩

/-- Two live tasks stand for two places of the list they were spawned from. -/
theorem pair_of_alive (kept : Kept y handles specs) {R : σ → σ → Prop}
    (symmetric : ∀ p q, R p q → R q p)
    (apart : specs.Pairwise R) {a b : Nat} (first : y.alive a = true) (second : y.alive b = true)
    (differ : a ≠ b) :
    ∃ p q, y.spec? a = some p ∧ y.spec? b = some q ∧ R p q := by
  obtain ⟨i, insideI, rfl⟩ := List.mem_iff_getElem.mp (kept.owned a first)
  obtain ⟨j, insideJ, rfl⟩ := List.mem_iff_getElem.mp (kept.owned b second)
  have size : handles.length = specs.length := by
    simpa using congrArg List.length kept.spawned
  have here : ∀ k (inside : k < handles.length),
      y.spec? handles[k] = some (specs.get ⟨k, size ▸ inside⟩) := by
    intro k inside
    have same := List.getElem_of_eq kept.spawned (by simpa using inside)
    simpa using same
  have places : i ≠ j := by
    rintro rfl
    exact differ rfl
  refine ⟨_, _, here i insideI, here j insideJ, ?_⟩
  rcases Nat.lt_or_gt_of_ne places with less | greater
  · exact List.pairwise_iff_getElem.mp apart i j _ _ less
  · exact symmetric _ _ (List.pairwise_iff_getElem.mp apart j i _ _ greater)

end Kept

theorem kept_empty : Kept ({} : Yard σ) [] [] where
  owned handle living := by simp [alive] at living
  spawned := rfl
  distinct := List.nodup_nil
  late handle living := by simp [alive] at living
  past := le_refl _

end Yard

/-! ## Sections -/

/-- At most one of the calls is inside. -/
def Alone {α : Type} (inside : α → Bool) (calls : List α) : Prop :=
  ∀ (i j : Nat) (a b : α), calls[i]? = some a → calls[j]? = some b → inside a = true → inside b = true → i = j

namespace Alone

variable {α : Type} {inside : α → Bool} {calls : List α}

theorem append (alone : Alone inside calls) {call : α} (outside : inside call = false) :
    Alone inside (calls ++ [call]) := by
  have old : ∀ (i : Nat) (a : α), (calls ++ [call])[i]? = some a → inside a = true → calls[i]? = some a := by
    intro i a here within
    rcases Nat.lt_or_ge i calls.length with before | after
    · rwa [List.getElem?_append_left before] at here
    · rw [List.getElem?_append_right after] at here
      obtain ⟨bound, rfl⟩ := List.getElem?_eq_some_iff.mp here
      rw [List.getElem_singleton, outside] at within
      cases within
  intro i j a b here there within also
  exact alone i j a b (old i a here within) (old j b there also) within also

/-- A call that leaves, or was inside already. -/
theorem set (alone : Alone inside calls) {i : Nat} {old call : α} (here : calls[i]? = some old)
    (stays : inside call = true → inside old = true) : Alone inside (calls.set i call) := by
  have back : ∀ (j : Nat) (b : α), (calls.set i call)[j]? = some b → inside b = true →
      ∃ c, calls[j]? = some c ∧ inside c = true := by
    intro j b there within
    rw [List.getElem?_set] at there
    split at there
    · rename_i same
      subst same
      split at there
      · cases there
        exact ⟨old, here, stays within⟩
      · cases there
    · exact ⟨b, there, within⟩
  intro j k a b there also within inner
  obtain ⟨c, old₁, in₁⟩ := back j a there within
  obtain ⟨d, old₂, in₂⟩ := back k b also inner
  exact alone j k c d old₁ old₂ in₁ in₂

/-- A call that enters while nobody is inside. -/
theorem enter (nobody : ∀ call ∈ calls, inside call = false) (i : Nat) (call : α) :
    Alone inside (calls.set i call) := by
  have only : ∀ (j : Nat) (b : α), (calls.set i call)[j]? = some b → inside b = true → j = i := by
    intro j b there within
    rw [List.getElem?_set] at there
    split at there
    · rename_i same
      exact same.symm
    · have outside := nobody b (List.mem_of_getElem? there)
      rw [outside] at within
      cases within
  intro j k a b there also within inner
  rw [only j a there within, only k b also inner]

/-- A call that arrives inside while nobody is. -/
theorem append_only (nobody : ∀ call ∈ calls, inside call = false) (call : α) :
    Alone inside (calls ++ [call]) := by
  have last : ∀ (j : Nat) (b : α), (calls ++ [call])[j]? = some b → inside b = true →
      j = calls.length := by
    intro j b there within
    rcases Nat.lt_trichotomy j calls.length with before | same | after
    · rw [List.getElem?_append_left before] at there
      rw [nobody b (List.mem_of_getElem? there)] at within
      cases within
    · exact same
    · have bound := (List.getElem?_eq_some_iff.mp there).1
      rw [List.length_append, List.length_singleton] at bound
      omega
  intro j k a b there also within inner
  rw [last j a there within, last k b also inner]

/-- While one call is inside, the others are not. -/
theorem mem_set (alone : Alone inside calls) {i : Nat} {old call stage : α}
    (here : calls[i]? = some old) (within : inside old = true) (member : stage ∈ calls.set i call) :
    stage = call ∨ inside stage = false := by
  obtain ⟨j, there⟩ := List.mem_iff_getElem?.mp member
  rw [List.getElem?_set] at there
  split at there
  · split at there
    · cases there
      exact .inl rfl
    · cases there
  · rename_i differ
    right
    by_contra also
    rw [Bool.not_eq_false] at also
    exact differ (alone i j old stage here there within also)

end Alone

/-- What some call meets is still met after a call has moved on. -/
theorem any_set {α : Type} {p : α → Bool} {calls : List α} {i : Nat} {old call : α}
    (here : calls[i]? = some old) (keeps : p old = true → p call = true)
    (met : calls.any p = true) : (calls.set i call).any p = true := by
  obtain ⟨stage, member, holds⟩ := List.any_eq_true.mp met
  obtain ⟨j, there⟩ := List.mem_iff_getElem?.mp member
  have inside : i < calls.length := (List.getElem?_eq_some_iff.mp here).1
  by_cases same : i = j
  · subst same
    obtain rfl := Option.some.inj (here.symm.trans there)
    exact List.any_eq_true.mpr ⟨call, List.mem_set inside _, keeps holds⟩
  · refine List.any_eq_true.mpr ⟨stage, List.mem_iff_getElem?.mpr ⟨j, ?_⟩, holds⟩
    rw [List.getElem?_set_ne same, there]

theorem any_eraseIdx {α : Type} {p : α → Bool} {calls : List α} {i : Nat}
    (met : (calls.eraseIdx i).any p = true) (call : α) : (calls.set i call).any p = true := by
  obtain ⟨stage, member, holds⟩ := List.any_eq_true.mp met
  obtain ⟨j, inside, differ, rfl⟩ := List.mem_eraseIdx_iff_getElem.mp member
  refine List.any_eq_true.mpr ⟨_, List.mem_iff_getElem?.mpr ⟨j, ?_⟩, holds⟩
  rw [List.getElem?_set_ne differ.symm, List.getElem?_eq_getElem inside]

/-- Where a call stays outside, the calls inside are the same. -/
theorem mem_set_inside {α : Type} {inside : α → Bool} {calls : List α} {i : Nat} {old call stage : α}
    (here : calls[i]? = some old) (wasOut : inside old = false) (staysOut : inside call = false)
    (within : inside stage = true) : stage ∈ calls.set i call ↔ stage ∈ calls := by
  rw [List.mem_iff_getElem?, List.mem_iff_getElem?]
  refine exists_congr fun j => ?_
  rw [List.getElem?_set]
  by_cases same : i = j
  · subst same
    have bound : i < calls.length := (List.getElem?_eq_some_iff.mp here).1
    rw [if_pos rfl, if_pos bound, here, Option.some_inj, Option.some_inj]
    constructor
    · rintro rfl
      rw [staysOut] at within
      cases within
    · rintro rfl
      rw [wasOut] at within
      cases within
  · rw [if_neg same]

/-! ## Guarded lists -/

section Guarded

variable {α σ : Type} {inside : α → Bool} {holds : α → Option (List Nat)} {good : List σ → Prop}

/-- The live tasks are kept by the shared list, or by the one call that holds them. -/
structure Guarded (inside : α → Bool) (holds : α → Option (List Nat)) (good : List σ → Prop)
    (y : Yard σ) (calls : List α) : Prop where
  alone : Alone inside calls
  free : (∀ call ∈ calls, holds call = none) → ∃ specs, y.Kept y.slot specs ∧ good specs
  held : ∀ call ∈ calls, ∀ handles, holds call = some handles →
    y.slot = [] ∧ ∃ specs, y.Kept handles specs ∧ good specs

/-- Nobody but the call at `i` is inside. -/
def OnlyAt (inside : α → Bool) (calls : List α) (i : Nat) : Prop :=
  ∀ j call, calls[j]? = some call → inside call = true → j = i

theorem OnlyAt.of_nobody {calls : List α} (nobody : ∀ call ∈ calls, inside call = false) (i : Nat) :
    OnlyAt inside calls i := by
  intro j call here within
  rw [nobody call (List.mem_of_getElem? here)] at within
  cases within

theorem OnlyAt.of_inside {calls : List α} (alone : Alone inside calls) {i : Nat} {old : α}
    (here : calls[i]? = some old) (within : inside old = true) : OnlyAt inside calls i :=
  fun j call there also => alone j i call old there here also within

theorem OnlyAt.alone {calls : List α} {i : Nat} (only : OnlyAt inside calls i) (call : α) :
    Alone inside (calls.set i call) := by
  have back : ∀ (j : Nat) (b : α), (calls.set i call)[j]? = some b → inside b = true → j = i := by
    intro j b there within
    rw [List.getElem?_set] at there
    split at there
    · rename_i same
      exact same.symm
    · exact only j b there within
  intro j k a b there also within inner
  rw [back j a there within, back k b also inner]

/-- The others hold nothing. -/
theorem OnlyAt.mem_set {calls : List α} {i : Nat} (only : OnlyAt inside calls i)
    (holding : ∀ call handles, holds call = some handles → inside call = true) {call other : α}
    (member : other ∈ calls.set i call) : other = call ∨ holds other = none := by
  obtain ⟨j, there⟩ := List.mem_iff_getElem?.mp member
  rw [List.getElem?_set] at there
  split at there
  · split at there
    · cases there
      exact .inl rfl
    · cases there
  · rename_i differ
    right
    cases held : holds other with
    | none => rfl
    | some handles => exact absurd (only j other there (holding other handles held)).symm differ

namespace Guarded

variable {y : Yard σ} {calls : List α}

/-- After the call at `i` alone has moved, what it holds, or else the shared list,
keeps the live tasks. -/
theorem of_only {y' : Yard σ} {i : Nat} {old call : α}
    (holding : ∀ call handles, holds call = some handles → inside call = true)
    (only : OnlyAt inside calls i) (here : calls[i]? = some old)
    (free : holds call = none → ∃ specs, y'.Kept y'.slot specs ∧ good specs)
    (held : ∀ handles, holds call = some handles →
      y'.slot = [] ∧ ∃ specs, y'.Kept handles specs ∧ good specs) :
    Guarded inside holds good y' (calls.set i call) := by
  have bound : i < calls.length := (List.getElem?_eq_some_iff.mp here).1
  refine ⟨only.alone call, ?_, ?_⟩
  · intro none_
    exact free (none_ call (List.mem_set bound _))
  · intro other member handles holdsIt
    rcases only.mem_set holding member with rfl | nothing
    · exact held handles holdsIt
    · rw [nothing] at holdsIt
      cases holdsIt

/-- What is kept while the call at `i` alone may be inside and holds nothing. -/
theorem kept_of_only (guarded : Guarded inside holds good y calls)
    (holding : ∀ call handles, holds call = some handles → inside call = true) {i : Nat} {old : α}
    (only : OnlyAt inside calls i) (here : calls[i]? = some old) (nothing : holds old = none) :
    ∃ specs, y.Kept y.slot specs ∧ good specs := by
  refine guarded.free fun call member => ?_
  obtain ⟨j, there⟩ := List.mem_iff_getElem?.mp member
  cases held : holds call with
  | none => rfl
  | some handles =>
      obtain rfl := only j call there (holding call handles held)
      obtain rfl := Option.some.inj (here.symm.trans there)
      rw [nothing] at held
      cases held

theorem append (guarded : Guarded inside holds good y calls) {call : α}
    (outside : inside call = false) (nothing : holds call = none) :
    Guarded inside holds good y (calls ++ [call]) := by
  refine ⟨guarded.alone.append outside, ?_, ?_⟩
  · intro none_
    exact guarded.free fun other member => none_ other (List.mem_append_left _ member)
  · intro other member handles holdsIt
    rcases List.mem_append.mp member with old | new
    · exact guarded.held other old handles holdsIt
    · rw [List.mem_singleton.mp new, nothing] at holdsIt
      cases holdsIt

/-- A call moves on with what it holds, and does not enter. -/
theorem set (guarded : Guarded inside holds good y calls) {i : Nat} {old call : α}
    (here : calls[i]? = some old) (stays : inside call = true → inside old = true)
    (same : holds call = holds old) : Guarded inside holds good y (calls.set i call) := by
  have bound : i < calls.length := (List.getElem?_eq_some_iff.mp here).1
  refine ⟨guarded.alone.set here stays, ?_, ?_⟩
  · intro none_
    refine guarded.free fun other member => ?_
    obtain ⟨j, there⟩ := List.mem_iff_getElem?.mp member
    by_cases at_ : i = j
    · subst at_
      obtain rfl := Option.some.inj (here.symm.trans there)
      rw [← same]
      exact none_ call (List.mem_set bound _)
    · refine none_ other (List.mem_iff_getElem?.mpr ⟨j, ?_⟩)
      rw [List.getElem?_set_ne at_, there]
  · intro other member handles holdsIt
    rcases List.mem_or_eq_of_mem_set member with was | rfl
    · exact guarded.held other was handles holdsIt
    · rw [same] at holdsIt
      exact guarded.held old (List.mem_of_getElem? here) handles holdsIt

variable (holding : ∀ call handles, holds call = some handles → inside call = true)

include holding

/-- A call enters while nobody is inside, and has not taken anything yet. -/
theorem enter (guarded : Guarded inside holds good y calls) {i : Nat} {old call : α}
    (here : calls[i]? = some old) (nothing : holds old = none)
    (nobody : ∀ call ∈ calls, inside call = false) (still : holds call = none) :
    Guarded inside holds good y (calls.set i call) := by
  have only := OnlyAt.of_nobody nobody i
  refine of_only holding only here (fun _ => guarded.kept_of_only holding only here nothing) ?_
  intro handles holdsIt
  rw [still] at holdsIt
  cases holdsIt

/-- The shared list is taken. -/
theorem take (guarded : Guarded inside holds good y calls) {i : Nat} {old call : α}
    (only : OnlyAt inside calls i) (here : calls[i]? = some old) (nothing : holds old = none)
    (took : holds call = some y.slot) : Guarded inside holds good y.take (calls.set i call) := by
  obtain ⟨specs, kept, fine⟩ := guarded.kept_of_only holding only here nothing
  refine of_only holding only here ?_ ?_
  · intro none_
    rw [took] at none_
    cases none_
  · intro handles holdsIt
    obtain rfl := Option.some.inj (took.symm.trans holdsIt)
    exact ⟨rfl, specs, kept.take, fine⟩

/-- Somebody new takes the shared list while nobody is inside. -/
theorem arrive (guarded : Guarded inside holds good y calls) {call : α}
    (nobody : ∀ call ∈ calls, inside call = false) (took : holds call = some y.slot) :
    Guarded inside holds good y.take (calls ++ [call]) := by
  have nothing : ∀ other ∈ calls, holds other = none := by
    intro other member
    cases held : holds other with
    | none => rfl
    | some handles =>
        have within := holding other handles held
        rw [nobody other member] at within
        cases within
  obtain ⟨specs, kept, fine⟩ := guarded.free nothing
  refine ⟨Alone.append_only nobody call, ?_, ?_⟩
  · intro none_
    rw [none_ call (List.mem_append_right _ (List.mem_singleton.mpr rfl))] at took
    cases took
  · intro other member handles holdsIt
    rcases List.mem_append.mp member with old | new
    · rw [nothing other old] at holdsIt
      cases holdsIt
    · obtain rfl := List.mem_singleton.mp new
      obtain rfl := Option.some.inj (took.symm.trans holdsIt)
      exact ⟨rfl, specs, kept.take, fine⟩

/-- Everything held has ended, and new tasks are spawned. -/
theorem spawn (guarded : Guarded inside holds good y calls) {i : Nat} {old call : α}
    {handles : List Nat} {specs : List σ} (here : calls[i]? = some old)
    (holds_ : holds old = some handles) (finished : y.allEnded handles = true)
    (took : holds call = some (y.fresh specs)) (fine : good specs) :
    Guarded inside holds good (y.spawn specs) (calls.set i call) := by
  obtain ⟨empty, before, kept, -⟩ := guarded.held old (List.mem_of_getElem? here) handles holds_
  refine of_only holding (OnlyAt.of_inside guarded.alone here (holding old handles holds_)) here ?_ ?_
  · intro none_
    rw [took] at none_
    cases none_
  · intro new holdsIt
    obtain rfl := Option.some.inj (took.symm.trans holdsIt)
    exact ⟨empty, specs, kept.spawn finished specs, fine⟩

/-- Everything held has ended, and the call lets go of it. -/
theorem release (guarded : Guarded inside holds good y calls) {i : Nat} {old call : α}
    {handles : List Nat} (here : calls[i]? = some old) (holds_ : holds old = some handles)
    (finished : y.allEnded handles = true) (nothing : holds call = none) (fine : good []) :
    Guarded inside holds good y (calls.set i call) := by
  obtain ⟨empty, before, kept, -⟩ := guarded.held old (List.mem_of_getElem? here) handles holds_
  refine of_only holding (OnlyAt.of_inside guarded.alone here (holding old handles holds_)) here ?_ ?_
  · intro _
    rw [empty]
    exact ⟨[], kept.rest finished, fine⟩
  · intro new holdsIt
    rw [nothing] at holdsIt
    cases holdsIt

/-- Everything held has ended, and a stop returns. -/
theorem close (guarded : Guarded inside holds good y calls) {i : Nat} {old call : α}
    {handles : List Nat} (here : calls[i]? = some old) (holds_ : holds old = some handles)
    (finished : y.allEnded handles = true) (nothing : holds call = none) (fine : good []) :
    Guarded inside holds good y.close (calls.set i call) := by
  obtain ⟨empty, before, kept, -⟩ := guarded.held old (List.mem_of_getElem? here) handles holds_
  refine of_only holding (OnlyAt.of_inside guarded.alone here (holding old handles holds_)) here ?_ ?_
  · intro _
    refine ⟨[], ?_, fine⟩
    show y.close.Kept y.slot []
    rw [empty]
    exact kept.close finished
  · intro new holdsIt
    rw [nothing] at holdsIt
    cases holdsIt

/-- The handles held are stored. -/
theorem store (guarded : Guarded inside holds good y calls) {i : Nat} {old call : α}
    {handles : List Nat} (here : calls[i]? = some old) (holds_ : holds old = some handles)
    (nothing : holds call = none) :
    Guarded inside holds good (y.store handles) (calls.set i call) := by
  obtain ⟨-, specs, kept, fine⟩ := guarded.held old (List.mem_of_getElem? here) handles holds_
  refine of_only holding (OnlyAt.of_inside guarded.alone here (holding old handles holds_)) here ?_ ?_
  · intro _
    exact ⟨specs, kept.store handles, fine⟩
  · intro new holdsIt
    rw [nothing] at holdsIt
    cases holdsIt

omit holding

theorem finish (guarded : Guarded inside holds good y calls) (handle : Nat) :
    Guarded inside holds good (y.finish handle) calls := by
  refine ⟨guarded.alone, ?_, ?_⟩
  · intro none_
    obtain ⟨specs, kept, fine⟩ := guarded.free none_
    exact ⟨specs, kept.finish handle, fine⟩
  · intro call member handles holdsIt
    obtain ⟨empty, specs, kept, fine⟩ := guarded.held call member handles holdsIt
    exact ⟨empty, specs, kept.finish handle, fine⟩

/-- A barrier set by a call that holds nothing, while nothing is alive. -/
theorem closeIdle (guarded : Guarded inside holds good y calls)
    (idle : ∀ handle, y.alive handle = false) : Guarded inside holds good y.close calls := by
  refine ⟨guarded.alone, ?_, ?_⟩
  · intro none_
    obtain ⟨specs, kept, fine⟩ := guarded.free none_
    exact ⟨specs, kept.closeIdle idle, fine⟩
  · intro call member handles holdsIt
    obtain ⟨empty, specs, kept, fine⟩ := guarded.held call member handles holdsIt
    exact ⟨empty, specs, kept.closeIdle idle, fine⟩

/-- Whoever it is, somebody keeps the live tasks. -/
theorem keeper (guarded : Guarded inside holds good y calls) :
    ∃ handles specs, y.Kept handles specs ∧ good specs := by
  by_cases none_ : ∀ call ∈ calls, holds call = none
  · obtain ⟨specs, kept, fine⟩ := guarded.free none_
    exact ⟨_, specs, kept, fine⟩
  · push Not at none_
    obtain ⟨call, member, some_⟩ := none_
    obtain ⟨handles, holdsIt⟩ := Option.ne_none_iff_exists'.mp some_
    obtain ⟨-, specs, kept, fine⟩ := guarded.held call member handles holdsIt
    exact ⟨handles, specs, kept, fine⟩

theorem empty (fine : good []) : Guarded inside holds good ({} : Yard σ) ([] : List α) :=
  ⟨fun i j a b here => by simp at here, fun _ => ⟨[], Yard.kept_empty, fine⟩, by simp⟩

end Guarded

end Guarded

end MajsoulManager.Theory
