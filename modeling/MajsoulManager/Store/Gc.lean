/-
# Store.Gc — collecting the packs that nothing points at

`gc.rs`, against the pack workers of `indexer.rs`.  A worker uploads a pack, checks what
is stored and then inserts its rows; a pass of the collector reads the keys the index
points at, then lists the bucket, then looks at the clock, and deletes what is listed,
not referenced and at least `grace` old.

Rows of a pack are inserted while it is younger than `grace` or not at all, and the
listing and the clocks are right: these are the guards of `insert` and `list`.
`gc_safe`: no deleted pack is referenced, then or later, as long as the packs indexed
between a pass's reading of the index and its look at the clock are still young then.
`indexed_pack_deleted` is a pack that comes of age in between.
-/
import MajsoulManager.Theory.Edits
import MajsoulManager.Theory.Machine

namespace MajsoulManager.Store

open MajsoulManager.Theory

set_option autoImplicit false

/-! ## What dies -/

def packPrefix : String := "packs/"

def packSuffix : String := ".mjpack"

/-- An entry of a listing; instants are nanoseconds since the epoch. -/
structure ObjectEntry where
  key : String
  size : Nat
  lastModified : Int
  deriving DecidableEq

/-- An age that is negative is not old enough, whatever the grace period. -/
def oldEnough (now lastModified : Int) (grace : Nat) : Bool :=
  0 ≤ now - lastModified && grace ≤ now - lastModified

def orphans (listed : List ObjectEntry) (referenced : List String) (now : Int) (grace : Nat) :
    List String :=
  if referenced.isEmpty then []
  else
    (((listed.filter fun entry => packSuffix.toList.isSuffixOf entry.key.toList).filter
      fun entry => entry.key ∉ referenced).filter
      fun entry => oldEnough now entry.lastModified grace).map (·.key)

/-- An orphan is a pack that is listed, not referenced and old enough. -/
theorem mem_orphans {listed : List ObjectEntry} {referenced : List String} {now : Int} {grace : Nat}
    {key : String} (dies : key ∈ orphans listed referenced now grace) :
    ∃ entry ∈ listed, entry.key = key ∧ key ∉ referenced ∧
      oldEnough now entry.lastModified grace = true := by
  unfold orphans at dies
  split at dies
  · cases dies
  · obtain ⟨entry, kept, rfl⟩ := List.mem_map.mp dies
    obtain ⟨kept, old⟩ := List.mem_filter.mp kept
    obtain ⟨kept, unreferenced⟩ := List.mem_filter.mp kept
    exact ⟨entry, (List.mem_filter.mp kept).1, rfl, by simpa using unreferenced, old⟩

/-! ## Workers and passes -/

/-- Where `upload_and_index` stands with a pack. -/
inductive SealStage where
  | uploaded
  | verified
  | ended
  deriving DecidableEq

structure SealJob where
  key : String
  size : Nat
  stage : SealStage
  deriving DecidableEq

/-- Where `collect` stands. -/
inductive Pass where
  | reading
  | listing (referenced : List String)
  | deciding (referenced : List String) (listed : List ObjectEntry)
  | deleting (keys : List String)
  | ended
  deriving DecidableEq

/-- The bucket, the index, and who works on them.  `uploads` has the time of every upload
and `rows` the pack key of every row of the index; `deleted` is what a pass deleted. -/
structure Shelf where
  clock : Int
  objects : List ObjectEntry := []
  uploads : List (String × Int) := []
  rows : List String := []
  jobs : List SealJob := []
  passes : List Pass := []
  deleted : List String := []
  deriving DecidableEq

inductive ShelfAction where
  | tick (nanos : Nat)
  /-- A pack under a new key is uploaded; `stored` is what came to lie in the bucket. -/
  | put (key : String) (size : Nat) (stored : Option Nat) (answered : Bool)
  | head (job : Nat) (answered : Bool)
  | insert (job : Nat) (landed : Bool)
  /-- The index drops a row that another has replaced. -/
  | merge (key : String)
  | begin
  | readIndex (pass : Nat) (answered : Bool)
  | list (pass : Nat) (listed : List ObjectEntry) (answered : Bool)
  /-- The clock is read, and what dies is decided. -/
  | decide (pass : Nat)
  | delete (pass : Nat) (answered : Bool)

section Machine

variable (grace : Nat)

namespace Shelf

def job (s : Shelf) (i : Nat) (stage : SealStage) : Shelf :=
  { s with jobs := s.jobs.modify i fun job => { job with stage := stage } }

def pass (s : Shelf) (i : Nat) (stage : Pass) : Shelf :=
  { s with passes := s.passes.set i stage }

def size? (s : Shelf) (key : String) : Option Nat :=
  (s.objects.find? fun entry => entry.key == key).map (·.size)

/-- Whether the rows of a pack may still be inserted. -/
def young (s : Shelf) (key : String) : Bool :=
  s.uploads.any fun upload => upload.1 == key && s.clock < upload.2 + grace

def step (s : Shelf) : ShelfAction → Option Shelf
  | .tick nanos => some { s with clock := s.clock + nanos }
  | .put key size stored answered =>
      if key ∈ s.uploads.map (·.1) then none
      else
        some { s with
          objects := s.objects ++ (stored.map fun stored => ⟨key, stored, s.clock⟩).toList
          uploads := s.uploads ++ [(key, s.clock)]
          jobs := s.jobs ++ [⟨key, size, if answered then .uploaded else .ended⟩] }
  | .head i answered =>
      match s.jobs[i]? with
      | some ⟨key, size, .uploaded⟩ =>
          some (s.job i (if answered && s.size? key == some size then .verified else .ended))
      | _ => none
  | .insert i landed =>
      match s.jobs[i]? with
      | some ⟨key, _, .verified⟩ =>
          if landed then
            if s.young grace key then
              some { (s.job i .ended) with rows := s.rows ++ [key] }
            else none
          else some (s.job i .ended)
      | _ => none
  | .merge key => some { s with rows := s.rows.erase key }
  | .begin => some { s with passes := s.passes ++ [.reading] }
  | .readIndex i answered =>
      match s.passes[i]? with
      | some .reading =>
          some (s.pass i (if answered && !s.rows.isEmpty then .listing s.rows else .ended))
      | _ => none
  | .list i listed answered =>
      match s.passes[i]? with
      | some (.listing referenced) =>
          if answered then
            if listed.all fun entry => packPrefix.toList.isPrefixOf entry.key.toList &&
                (entry.key, entry.lastModified) ∈ s.uploads then
              some (s.pass i (.deciding referenced listed))
            else none
          else some (s.pass i .ended)
      | _ => none
  | .decide i =>
      match s.passes[i]? with
      | some (.deciding referenced listed) =>
          some (s.pass i (.deleting (orphans listed referenced s.clock grace)))
      | _ => none
  | .delete i answered =>
      match s.passes[i]? with
      | some (.deleting (key :: rest)) =>
          if answered then
            some { (s.pass i (.deleting rest)) with
              objects := s.objects.filter (·.key != key)
              deleted := s.deleted ++ [key] }
          else some (s.pass i .ended)
      | _ => none

end Shelf

/-- A bucket and an index as a deployment finds them: every key was uploaded once. -/
def shelfMachine : Machine Shelf ShelfAction where
  Start s := (s.uploads.map (·.1)).Nodup ∧ s.jobs = [] ∧ s.passes = [] ∧ s.deleted = []
  step := Shelf.step grace

/-! ## What is asked of a run, and promised -/

/-- When a pass looks at the clock, the listed packs that were indexed since it read the
index are younger than the grace period. -/
def settled (s : Shelf) : ShelfAction → Bool
  | .decide i =>
      match s.passes[i]? with
      | some (.deciding referenced listed) =>
          listed.all fun entry => entry.key ∉ s.rows || entry.key ∈ referenced ||
            !oldEnough s.clock entry.lastModified grace
      | _ => true
  | _ => true

/-- No row of the index points at a pack that was deleted. -/
def Shelf.Safe (s : Shelf) : Prop := ∀ key ∈ s.deleted, key ∉ s.rows

/-! ## The invariant -/

/-- A pack that no row points at, and that is too old to be indexed. -/
def Dead (s : Shelf) (key : String) : Prop :=
  key ∉ s.rows ∧ ∃ at_, (key, at_) ∈ s.uploads ∧ at_ + grace ≤ s.clock

structure ShelfInv (s : Shelf) : Prop where
  once : (s.uploads.map (·.1)).Nodup
  dead : ∀ key ∈ s.deleted, Dead grace s key
  doomed : ∀ keys, Pass.deleting keys ∈ s.passes → ∀ key ∈ keys, Dead grace s key
  accurate : ∀ referenced listed, Pass.deciding referenced listed ∈ s.passes →
    ∀ entry ∈ listed, (entry.key, entry.lastModified) ∈ s.uploads

variable {grace} {s t : Shelf}

/-- The dead stay dead while no row comes for them. -/
theorem Dead.mono {key : String} (dead : Dead grace s key)
    (rows : key ∈ t.rows → key ∈ s.rows) (uploads : ∀ upload ∈ s.uploads, upload ∈ t.uploads)
    (clock : s.clock ≤ t.clock) : Dead grace t key := by
  obtain ⟨unreferenced, at_, uploaded, old⟩ := dead
  exact ⟨fun row => unreferenced (rows row), at_, uploads _ uploaded, old.trans clock⟩

/-- A pack that may be indexed is not dead. -/
theorem Dead.not_young {key : String} (dead : Dead grace s key)
    (once : (s.uploads.map (·.1)).Nodup) : s.young grace key = false := by
  obtain ⟨-, at_, uploaded, old⟩ := dead
  by_contra young
  rw [Bool.not_eq_false, Shelf.young, List.any_eq_true] at young
  obtain ⟨⟨name, later⟩, member, fits⟩ := young
  simp only [Bool.and_eq_true, beq_iff_eq, decide_eq_true_eq] at fits
  obtain ⟨rfl, before⟩ := fits
  have same := List.inj_on_of_nodup_map once member uploaded rfl
  cases same
  omega

namespace ShelfInv

theorem fresh (start : (shelfMachine grace).Start s) : ShelfInv grace s := by
  obtain ⟨once, -, passes, deleted⟩ := start
  refine ⟨once, ?_, ?_, ?_⟩
  · rw [deleted]
    nofun
  · rw [passes]
    nofun
  · rw [passes]
    nofun

/-- A step that moves no pass, and brings no row for the dead. -/
theorem still (inv : ShelfInv grace s) (once : (t.uploads.map (·.1)).Nodup)
    (rows : ∀ key, Dead grace s key → key ∈ t.rows → key ∈ s.rows)
    (uploads : ∀ upload ∈ s.uploads, upload ∈ t.uploads) (clock : s.clock ≤ t.clock)
    (passes : t.passes = s.passes) (deleted : t.deleted = s.deleted) : ShelfInv grace t := by
  refine ⟨once, ?_, ?_, ?_⟩
  · intro key member
    rw [deleted] at member
    exact (inv.dead key member).mono (rows key (inv.dead key member)) uploads clock
  · intro keys member key dies
    rw [passes] at member
    have dead := inv.doomed keys member key dies
    exact dead.mono (rows key dead) uploads clock
  · intro referenced listed member entry seen
    rw [passes] at member
    exact uploads _ (inv.accurate referenced listed member entry seen)

/-- A pass moves on; what it is about to delete is dead, and what it has listed was
uploaded. -/
theorem moved (inv : ShelfInv grace s) {i : Nat} {stage : Pass}
    (doomed : ∀ keys, stage = .deleting keys → ∀ key ∈ keys, Dead grace s key)
    (accurate : ∀ referenced listed, stage = .deciding referenced listed →
      ∀ entry ∈ listed, (entry.key, entry.lastModified) ∈ s.uploads) :
    ShelfInv grace (s.pass i stage) := by
  refine ⟨inv.once, inv.dead, ?_, ?_⟩
  · intro keys member
    rcases List.mem_or_eq_of_mem_set member with old | new
    · exact inv.doomed keys old
    · exact doomed keys new.symm
  · intro referenced listed member
    rcases List.mem_or_eq_of_mem_set member with old | new
    · exact inv.accurate referenced listed old
    · exact accurate referenced listed new.symm

theorem step (inv : ShelfInv grace s) {action : ShelfAction} (allowed : settled grace s action = true)
    (stepped : s.step grace action = some t) : ShelfInv grace t := by
  cases action with
  | tick nanos =>
      cases stepped
      exact inv.still inv.once (fun _ _ row => row) (fun _ member => member) (by simp) rfl rfl
  | put key size stored answered =>
      simp only [Shelf.step] at stepped
      split at stepped
      · cases stepped
      · rename_i new
        cases stepped
        refine inv.still ?_ (fun _ _ row => row) (fun _ member => List.mem_append_left _ member)
          (le_refl _) rfl rfl
        rw [List.map_append, List.nodup_append]
        refine ⟨inv.once, List.nodup_singleton _, ?_⟩
        rintro name member other single rfl
        obtain rfl : name = key := List.mem_singleton.mp single
        exact new member
  | head i answered =>
      simp only [Shelf.step] at stepped
      split at stepped
      · cases stepped
        exact inv.still inv.once (fun _ _ row => row) (fun _ member => member) (le_refl _) rfl rfl
      · cases stepped
  | insert i landed =>
      simp only [Shelf.step] at stepped
      split at stepped
      · split at stepped
        · split at stepped
          · rename_i young
            cases stepped
            refine inv.still inv.once ?_ (fun _ member => member) (le_refl _) rfl rfl
            intro name dead row
            rcases List.mem_append.mp row with old | new
            · exact old
            · rw [List.mem_singleton.mp new] at dead
              rw [dead.not_young inv.once] at young
              cases young
          · cases stepped
        · cases stepped
          exact inv.still inv.once (fun _ _ row => row) (fun _ member => member) (le_refl _) rfl rfl
      · cases stepped
  | merge key =>
      cases stepped
      exact inv.still inv.once (fun _ _ row => List.mem_of_mem_erase row) (fun _ member => member)
        (le_refl _) rfl rfl
  | begin =>
      cases stepped
      refine ⟨inv.once, inv.dead, ?_, ?_⟩
      · intro keys member
        rcases List.mem_append.mp member with old | new
        · exact inv.doomed keys old
        · cases List.mem_singleton.mp new
      · intro referenced listed member
        rcases List.mem_append.mp member with old | new
        · exact inv.accurate referenced listed old
        · cases List.mem_singleton.mp new
  | readIndex i answered =>
      simp only [Shelf.step] at stepped
      split at stepped
      · cases stepped
        split
        · exact inv.moved nofun nofun
        · exact inv.moved nofun nofun
      · cases stepped
  | list i listed answered =>
      simp only [Shelf.step] at stepped
      split at stepped
      · split at stepped
        · split at stepped
          · rename_i right
            cases stepped
            refine inv.moved nofun ?_
            rintro referenced listed ⟨⟩ entry seen
            have known := List.all_eq_true.mp right entry seen
            simp only [Bool.and_eq_true, decide_eq_true_eq] at known
            exact known.2
          · cases stepped
        · cases stepped
          exact inv.moved nofun nofun
      · cases stepped
  | decide i =>
      simp only [Shelf.step] at stepped
      split at stepped
      · rename_i referenced listed here
        cases stepped
        refine inv.moved ?_ nofun
        rintro keys ⟨⟩ key dies
        obtain ⟨entry, seen, rfl, unreferenced, old⟩ := mem_orphans dies
        have uploaded := inv.accurate referenced listed (List.mem_of_getElem? here) entry seen
        simp only [settled, here, List.all_eq_true] at allowed
        have fits := allowed entry seen
        refine ⟨?_, entry.lastModified, uploaded, ?_⟩
        · simpa [unreferenced, old] using fits
        · simp only [oldEnough, Bool.and_eq_true, decide_eq_true_eq] at old
          omega
      · cases stepped
  | delete i answered =>
      simp only [Shelf.step] at stepped
      split at stepped
      · rename_i key rest here
        have doomed := inv.doomed (key :: rest) (List.mem_of_getElem? here)
        split at stepped
        · cases stepped
          have after : ShelfInv grace (s.pass i (.deleting rest)) := by
            refine inv.moved ?_ nofun
            rintro keys ⟨⟩ other member
            exact doomed other (List.mem_cons_of_mem _ member)
          refine ⟨after.once, ?_, after.doomed, after.accurate⟩
          intro other member
          rcases List.mem_append.mp member with old | new
          · exact inv.dead other old
          · rw [List.mem_singleton.mp new]
            exact doomed key (List.mem_cons_self ..)
        · cases stepped
          exact inv.moved nofun nofun
      · cases stepped

end ShelfInv

/-- **No pack is deleted that the index points at, then or later**, in every run in which
the packs indexed while a pass is between the index and the clock are still young at the
clock. -/
theorem gc_safe {start final : Shelf} {actions : List ShelfAction}
    (began : (shelfMachine grace).Start start)
    (young : (shelfMachine grace).Meets (fun s a => settled grace s a = true) start actions)
    (ran : (shelfMachine grace).run start actions = some final) : final.Safe := by
  have inv : ShelfInv grace final := by
    refine Machine.run_preserves_of_meets ?_ young ran (ShelfInv.fresh began)
    intro s action t inv allowed stepped
    exact inv.step allowed stepped
  exact fun key gone => (inv.dead key gone).1

end Machine

/-! ## A pack that comes of age -/

/-- A bucket with one pack, and an index that points at it. -/
def onePack : Shelf where
  clock := 0
  objects := [⟨"packs/2026/07/25/0-a.mjpack", 10, -1000⟩]
  uploads := [("packs/2026/07/25/0-a.mjpack", -1000)]
  rows := ["packs/2026/07/25/0-a.mjpack"]

/-- A pack whose worker died and one that was indexed, and a pass a day later. -/
def orphanCollected : List ShelfAction :=
  [.put "packs/2026/07/26/0-b.mjpack" 10 (some 10) false,
    .put "packs/2026/07/26/0-c.mjpack" 10 (some 10) true, .head 1 true, .tick 50, .insert 1 true,
    .tick 60, .begin, .readIndex 0 true,
    .list 0 [⟨"packs/2026/07/25/0-a.mjpack", 10, -1000⟩, ⟨"packs/2026/07/26/0-b.mjpack", 10, 0⟩,
      ⟨"packs/2026/07/26/0-c.mjpack", 10, 0⟩] true,
    .decide 0, .delete 0 true]

theorem gc_safe_orphanCollected :
    ∃ final, (shelfMachine 100).run onePack orphanCollected = some final ∧
      (final.deleted = ["packs/2026/07/26/0-b.mjpack"] ∧
        final.rows = ["packs/2026/07/25/0-a.mjpack", "packs/2026/07/26/0-c.mjpack"]) ∧
      final.Safe := by
  obtain ⟨final, ran, shown⟩ : ∃ final,
      (shelfMachine 100).run onePack orphanCollected = some final ∧
      (final.deleted = ["packs/2026/07/26/0-b.mjpack"] ∧
        final.rows = ["packs/2026/07/25/0-a.mjpack", "packs/2026/07/26/0-c.mjpack"]) :=
    Machine.run_exists (by decide +kernel)
  have began : (shelfMachine 100).Start onePack := ⟨by decide, rfl, rfl, rfl⟩
  exact ⟨final, ran, shown, gc_safe began (by decide +kernel) ran⟩

/-- The rows of a pack come just after a pass has read the index and just before the pack
is as old as the grace period; the listing takes a moment. -/
def indexedMeanwhile : List ShelfAction :=
  [.put "packs/2026/07/26/0-b.mjpack" 10 (some 10) true, .head 0 true, .tick 99, .begin,
    .readIndex 0 true, .insert 0 true, .tick 1,
    .list 0 [⟨"packs/2026/07/25/0-a.mjpack", 10, -1000⟩, ⟨"packs/2026/07/26/0-b.mjpack", 10, 0⟩]
      true,
    .decide 0, .delete 0 true]

/-- **A pack that is indexed in time is deleted.** -/
theorem indexed_pack_deleted :
    (shelfMachine 100).Start onePack ∧
    ∃ final, (shelfMachine 100).run onePack indexedMeanwhile = some final ∧
      (final.deleted = ["packs/2026/07/26/0-b.mjpack"] ∧
        final.rows = ["packs/2026/07/25/0-a.mjpack", "packs/2026/07/26/0-b.mjpack"]) ∧
      ¬ final.Safe := by
  refine ⟨⟨by decide, rfl, rfl, rfl⟩, ?_⟩
  obtain ⟨final, ran, deleted, rows⟩ : ∃ final,
      (shelfMachine 100).run onePack indexedMeanwhile = some final ∧
      (final.deleted = ["packs/2026/07/26/0-b.mjpack"] ∧
        final.rows = ["packs/2026/07/25/0-a.mjpack", "packs/2026/07/26/0-b.mjpack"]) :=
    Machine.run_exists (by decide +kernel)
  refine ⟨final, ran, ⟨deleted, rows⟩, fun safe => ?_⟩
  refine safe "packs/2026/07/26/0-b.mjpack" ?_ ?_
  · rw [deleted]
    decide
  · rw [rows]
    decide

end MajsoulManager.Store
