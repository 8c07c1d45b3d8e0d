/-
# Index.GameClaims — the claims a pass writes, and the order of its reads

The claims backfill reads the records of a page sixteen at a time and takes them
as their reads complete; the first one of a game to complete claims it, unless
the table or an earlier page has.  Which of two records of one game that is may
depend on the reads.

* `claims_order_free_iff`: the table is the same for every order exactly when, on the
  first page that carries a game not claimed before, the first sixteen records
  that carry it are one record.
* `claims_depend_on_reads`: two orders, two tables.
-/
import MajsoulManager.Theory.Arrivals
import MajsoulManager.Index.Passes

namespace MajsoulManager.Index

open MajsoulManager.Theory
open MajsoulManager.Record
open MajsoulManager.Store

set_option autoImplicit false

def readConcurrency : Nat := 16

/-! ## The pass over a claim table -/

/-- The order in which the reads of a page complete, for pages of every length. -/
abbrev Completion := (n : Nat) → { order : List Nat // order.Perm (List.range n) }

/-- `buffer_unordered` allows it. -/
def Completion.Feasible (completion : Completion) : Prop :=
  ∀ n, Windowed readConcurrency n (completion n).1

def PageWorld.completing (world : PageWorld) (completion : Completion) : PageWorld :=
  { world with completes := completion }

/-- The same index and the same bytes, with the reads of the `n`-th page completing as
`completions n` says. -/
def completing (completions : Nat → Completion) : List PageWorld → List PageWorld
  | [] => []
  | world :: later =>
      world.completing (completions 0) :: completing (fun n => completions (n + 1)) later

/-- The record a game's key is claimed for. -/
abbrev ClaimTable := String → Option Uuid

/-- `adopt_game_claims`: a key that is there keeps its record. -/
def adoptGameClaims (table : ClaimTable) (claims : List (String × Uuid × String)) : ClaimTable :=
  fun key => (table key).or ((claims.lookup key).map Prod.fst)

section Pass

variable (crates : Crates)

/-- The claims of one page. -/
def pageClaims (world : PageWorld) (rows : List Store.Record) : List (String × Uuid × String) :=
  ((world.arrivals rows).foldl (claimRow crates world) (⟨0, 0, 0, 0⟩, [])).2

/-- `scan_game_claims`, with every statement landing. -/
def scanGameClaims : List PageWorld → Option Cursor → ClaimTable → ClaimTable
  | [], _, table => table
  | world :: later, cursor, table =>
      match world.scan {} cursor with
      | none => table
      | some (rows, next) =>
          let table := adoptGameClaims table (pageClaims crates world rows)
          match next with
          | some next => scanGameClaims later (some next) table
          | none => table

/-- The claim of a page's row, if its bytes come and name a game. -/
def claimAt (page : PageWorld × List Store.Record) (i : Nat) : Option (String × Uuid × String) := do
  let row ← page.2[i]?
  let raw ← page.1.read i .mjai row.storage
  let uuid ← (parseMetadata crates.serde raw).toOption.bind (·.majsoulUuid)
  some (Ingest.gameScopeKey uuid, row.id, row.sha256)

def carries (page : PageWorld × List Store.Record) (key : String) (i : Nat) : Bool :=
  (claimAt crates page i).map Prod.fst == some key

/-- The record a page's row claims for. -/
def claimantAt (page : PageWorld × List Store.Record) (i : Nat) : Option Uuid :=
  (claimAt crates page i).map fun claim => claim.2.1

/-- The pages the walk lists. -/
def visited : List PageWorld → Option Cursor → List (PageWorld × List Store.Record)
  | [], _ => []
  | world :: later, cursor =>
      match world.scan {} cursor with
      | none => []
      | some (rows, some next) => (world, rows) :: visited later (some next)
      | some (rows, none) => [(world, rows)]

/-- Where a game is first met unclaimed, the first `readConcurrency` rows that carry it
are one record's. -/
def Undisputed (pages : List (PageWorld × List Store.Record)) (table : ClaimTable) : Prop :=
  ∀ before page after key, pages = before ++ page :: after → table key = none →
    (∀ earlier ∈ before, ∀ i, carries crates earlier key i = false) →
    ∀ i j, carries crates page key i = true → Early readConcurrency (carries crates page key) i →
      carries crates page key j = true → Early readConcurrency (carries crates page key) j →
        claimantAt crates page i = claimantAt crates page j

end Pass

/-! ## The claims of one page -/

section Page

variable {crates : Crates}

theorem lookup_skip {claim : String × Uuid × String} {key : String} (other : key ≠ claim.1)
    (claims rest : List (String × Uuid × String)) :
    (claims ++ claim :: rest).lookup key = (claims ++ rest).lookup key := by
  induction claims with
  | nil => simp [List.lookup, beq_eq_false_iff_ne.mpr other]
  | cons first more ih =>
      simp only [List.cons_append, List.lookup]
      rw [ih]

/-- A claim of a key that is there already is not looked at. -/
theorem lookup_append_cons {claims rest : List (String × Uuid × String)}
    {claim : String × Uuid × String} (seen : claim.1 ∈ claims.map Prod.fst) (key : String) :
    (claims ++ claim :: rest).lookup key = (claims ++ rest).lookup key := by
  induction claims with
  | nil => cases seen
  | cons first more ih =>
      obtain ⟨name, value⟩ := first
      by_cases own : key = name
      · simp [own]
      · by_cases here : claim.1 = name
        · -- the first one answers for the claim's key, and `key` is another
          exact lookup_skip (fun same => own (same.trans here)) _ _
        · have later : claim.1 ∈ more.map Prod.fst := by
            simpa [here] using seen
          simp only [List.cons_append, List.lookup, beq_eq_false_iff_ne.mpr own]
          exact ih later

/-- The counts have no part in the claims. -/
theorem foldl_claimRow_snd (world : PageWorld) (entries : List (Nat × Store.Record))
    {work other : Progress × List (String × Uuid × String)} (same : work.2 = other.2) :
    (entries.foldl (claimRow crates world) work).2 =
      (entries.foldl (claimRow crates world) other).2 := by
  induction entries generalizing work other with
  | nil => exact same
  | cons entry rest ih =>
      refine ih ?_
      unfold claimRow
      cases world.read entry.1 .mjai entry.2.storage with
      | none => exact same
      | some raw =>
          simp only
          cases (parseMetadata crates.serde raw).toOption.bind (·.majsoulUuid) with
          | none => exact same
          | some uuid =>
              simp only [same]
              split
              · exact same
              · rfl

/-- A page of the pass went through exactly if its claims were adopted. -/
theorem claimsPage_ok_iff (world : PageWorld) (rows : List Store.Record) (progress : Progress) :
    (∃ final, claimsPage crates world rows progress = .ok final) ↔
      world.adoptGameClaims (pageClaims crates world rows) = true := by
  have claims : ((world.arrivals rows).foldl (claimRow crates world) (progress, [])).2 =
      pageClaims crates world rows := foldl_claimRow_snd world _ rfl
  unfold claimsPage
  simp only [claims]
  split
  · rename_i adopted
    exact ⟨fun _ => adopted, fun _ => ⟨_, rfl⟩⟩
  · rename_i refused
    refine ⟨?_, fun adopted => absurd adopted refused⟩
    rintro ⟨final, returned⟩
    cases returned

/-- What is claimed in the end is claimed by the first row that carries it. -/
theorem lookup_foldl_claimRow (world : PageWorld) (rows : List Store.Record)
    {entries : List (Nat × Store.Record)}
    (listed : ∀ entry ∈ entries, rows[entry.1]? = some entry.2)
    (work : Progress × List (String × Uuid × String)) (key : String) :
    (entries.foldl (claimRow crates world) work).2.lookup key =
      (work.2 ++ entries.filterMap fun entry => claimAt crates (world, rows) entry.1).lookup key := by
  induction entries generalizing work with
  | nil => simp
  | cons entry rest ih =>
      obtain ⟨here, later⟩ := List.forall_mem_cons.mp listed
      rw [List.foldl_cons, ih later]
      have claim : claimAt crates (world, rows) entry.1 =
          (world.read entry.1 .mjai entry.2.storage).bind fun raw =>
            ((parseMetadata crates.serde raw).toOption.bind (·.majsoulUuid)).map fun uuid =>
              (Ingest.gameScopeKey uuid, entry.2.id, entry.2.sha256) := by
        simp only [claimAt, here, Option.bind_eq_bind, Option.bind_some]
        congr 1
        funext raw
        cases (parseMetadata crates.serde raw).toOption.bind (·.majsoulUuid) <;> rfl
      rw [List.filterMap_cons, claim, claimRow]
      cases world.read entry.1 .mjai entry.2.storage with
      | none => rfl
      | some raw =>
          simp only [Option.bind_some]
          cases (parseMetadata crates.serde raw).toOption.bind (·.majsoulUuid) with
          | none => rfl
          | some uuid =>
              simp only [Option.map_some]
              split
              · rename_i seen
                rw [lookup_append_cons (by simpa using seen)]
              · simp

theorem lookup_filterMap {f : Nat → Option (String × Uuid × String)} (order : List Nat)
    (key : String) :
    (order.filterMap f).lookup key =
      ((order.find? fun i => (f i).map Prod.fst == some key).bind f).map Prod.snd := by
  induction order with
  | nil => rfl
  | cons i rest ih =>
      rw [List.filterMap_cons, List.find?_cons]
      cases claim : f i with
      | none => simpa [claim] using ih
      | some found =>
          by_cases own : found.1 = key
          · simp [claim, own, List.lookup]
          · have other : (key == found.1) = false := beq_eq_false_iff_ne.mpr (Ne.symm own)
            have differs : (some found.1 == some key) = false := by simpa using own
            rw [List.lookup, other, Option.map_some, differs]
            exact ih

/-- The record a page claims a key for, when its reads complete in this order. -/
def claimedBy (crates : Crates) (page : PageWorld × List Store.Record) (completion : Completion)
    (key : String) : Option Uuid :=
  ((completion page.2.length).1.find? (carries crates page key)).bind (claimantAt crates page)

/-- **The first row of a game to complete claims it.** -/
theorem pageClaims_lookup (world : PageWorld) (rows : List Store.Record) (completion : Completion)
    (key : String) :
    ((pageClaims crates (world.completing completion) rows).lookup key).map Prod.fst =
      claimedBy crates (world, rows) completion key := by
  have listed : ∀ entry ∈ (world.completing completion).arrivals rows,
      rows[entry.1]? = some entry.2 := by
    rintro ⟨i, row⟩ member
    exact mem_arrivals.mp member
  have claims : ((world.completing completion).arrivals rows).filterMap (fun entry =>
      claimAt crates (world.completing completion, rows) entry.1) =
      (completion rows.length).1.filterMap (claimAt crates (world, rows)) := by
    show ((completion rows.length).1.filterMap fun i => rows[i]?.map (i, ·)).filterMap (fun entry =>
      claimAt crates (world, rows) entry.1) = _
    rw [List.filterMap_filterMap]
    congr 1
    funext i
    cases found : rows[i]? with
    | none => simp [claimAt, found]
    | some row => simp
  rw [pageClaims, lookup_foldl_claimRow _ rows listed, claims, List.nil_append, lookup_filterMap,
    Option.map_map]
  show (((completion rows.length).1.find? (carries crates (world, rows) key)).bind
    (claimAt crates (world, rows))).map _ = ((completion rows.length).1.find?
      (carries crates (world, rows) key)).bind (claimantAt crates (world, rows))
  cases (completion rows.length).1.find? (carries crates (world, rows) key) <;> rfl

/-! ## The claim of a key over all pages -/

/-- What a key is claimed for after the pages, from what it was before. -/
def settle (crates : Crates) (key : String) :
    List (PageWorld × List Store.Record) → (Nat → Completion) → Option Uuid → Option Uuid
  | [], _, held => held
  | page :: later, completions, held =>
      settle crates key later (fun n => completions (n + 1))
        (held.or (claimedBy crates page (completions 0) key))

theorem scanGameClaims_eq (worlds : List PageWorld) (completions : Nat → Completion)
    (cursor : Option Cursor) (table : ClaimTable) (key : String) :
    scanGameClaims crates (completing completions worlds) cursor table key =
      settle crates key (visited worlds cursor) completions (table key) := by
  induction worlds generalizing completions cursor table with
  | nil => rfl
  | cons world later ih =>
      rw [completing, scanGameClaims, visited]
      have same : (world.completing (completions 0)).scan {} cursor = world.scan {} cursor := rfl
      rw [same]
      cases world.scan {} cursor with
      | none => rfl
      | some found =>
          obtain ⟨rows, next⟩ := found
          have adopted : adoptGameClaims table
              (pageClaims crates (world.completing (completions 0)) rows) key =
              (table key).or (claimedBy crates (world, rows) (completions 0) key) := by
            rw [adoptGameClaims, pageClaims_lookup]
          cases next with
          | none => exact adopted
          | some next =>
              simp only [settle]
              rw [ih, adopted]

theorem settle_some (key : String) (pages : List (PageWorld × List Store.Record))
    (completions : Nat → Completion) (id : Uuid) :
    settle crates key pages completions (some id) = some id := by
  induction pages generalizing completions with
  | nil => rfl
  | cons page later ih => exact ih _

theorem inside_of_carries {page : PageWorld × List Store.Record} {key : String} {i : Nat}
    (carried : carries crates page key i = true) : i < page.2.length := by
  by_contra outside
  have none : page.2[i]? = none := List.getElem?_eq_none (by omega)
  simp [carries, claimAt, none] at carried

theorem claimedBy_of_find {page : PageWorld × List Store.Record} {completion : Completion}
    {key : String} {i : Nat}
    (first : (completion page.2.length).1.find? (carries crates page key) = some i) :
    claimedBy crates page completion key = claimantAt crates page i := by
  rw [claimedBy, first]
  rfl

/-- A page nobody of which carries the key claims nothing for it. -/
theorem claimedBy_none {page : PageWorld × List Store.Record} {key : String}
    (nobody : ∀ i, carries crates page key i = false) (completion : Completion) :
    claimedBy crates page completion key = none := by
  have absent : (completion page.2.length).1.find? (carries crates page key) = none := by
    rw [List.find?_eq_none]
    intro i _
    simp [nobody i]
  rw [claimedBy, absent]
  rfl

/-- A page some row of which carries the key claims it for an early one. -/
theorem claimedBy_some {page : PageWorld × List Store.Record} {key : String} {i : Nat}
    (carried : carries crates page key i = true) {completion : Completion}
    (feasible : completion.Feasible) :
    ∃ j id, carries crates page key j = true ∧
      Early readConcurrency (carries crates page key) j ∧
      claimantAt crates page j = some id ∧ claimedBy crates page completion key = some id := by
  have listed : i ∈ (completion page.2.length).1 :=
    (completion page.2.length).2.mem_iff.mpr (List.mem_range.mpr (inside_of_carries carried))
  obtain ⟨j, first⟩ : ∃ j, (completion page.2.length).1.find? (carries crates page key) = some j := by
    rw [← Option.isSome_iff_exists, List.find?_isSome]
    exact ⟨i, listed, carried⟩
  have own : carries crates page key j = true := List.find?_some first
  have early := early_of_first (feasible page.2.length) first
  obtain ⟨claim, found⟩ : ∃ claim, claimAt crates page j = some claim := by
    cases found : claimAt crates page j with
    | none => simp [carries, found] at own
    | some claim => exact ⟨claim, rfl⟩
  have claimant : claimantAt crates page j = some claim.2.1 := by rw [claimantAt, found]; rfl
  exact ⟨j, claim.2.1, own, early, claimant, (claimedBy_of_find first).trans claimant⟩

end Page

/-! ## Two runs -/

section Runs

variable {crates : Crates}

theorem settle_eq_of_undisputed {pages : List (PageWorld × List Store.Record)} {key : String}
    (undisputed : ∀ before page after, pages = before ++ page :: after →
      (∀ earlier ∈ before, ∀ i, carries crates earlier key i = false) →
      ∀ i j, carries crates page key i = true → Early readConcurrency (carries crates page key) i →
        carries crates page key j = true → Early readConcurrency (carries crates page key) j →
          claimantAt crates page i = claimantAt crates page j)
    {one other : Nat → Completion} (feasible : ∀ n, (one n).Feasible)
    (alsoFeasible : ∀ n, (other n).Feasible) :
    settle crates key pages one none = settle crates key pages other none := by
  induction pages generalizing one other with
  | nil => rfl
  | cons page later ih =>
      rw [settle, settle, Option.none_or, Option.none_or]
      by_cases someone : ∃ i, carries crates page key i = true
      · -- both runs settle the key here, for early rows of this page
        obtain ⟨i, carried⟩ := someone
        obtain ⟨j, id, own, early, claimant, claimed⟩ := claimedBy_some carried (feasible 0)
        obtain ⟨k, id', own', early', claimant', claimed'⟩ := claimedBy_some carried (alsoFeasible 0)
        have same := undisputed [] page later rfl (by simp) j k own early own' early'
        rw [claimant, claimant', Option.some.injEq] at same
        rw [claimed, claimed', settle_some, settle_some, same]
      · have nobody : ∀ i, carries crates page key i = false := by
          intro i
          by_contra carried
          exact someone ⟨i, by simpa using carried⟩
        rw [claimedBy_none nobody, claimedBy_none nobody]
        refine ih ?_ (fun n => feasible (n + 1)) (fun n => alsoFeasible (n + 1))
        intro before next after cut clear
        refine undisputed (page :: before) next after (by rw [cut]; rfl) ?_
        intro earlier member
        rcases List.mem_cons.mp member with rfl | inside
        · exact nobody
        · exact clear earlier inside

theorem range_perm (n : Nat) : (List.range n).Perm (List.range n) := .refl _

/-- Reads that complete as they were started. -/
def inTurn : Completion := fun n => ⟨List.range n, range_perm n⟩

/-- One order for pages of one length, and reads in turn for all others. -/
def completionAt (n : Nat) (order : List Nat) (all : order.Perm (List.range n)) : Completion :=
  fun m => if same : m = n then ⟨order, same ▸ all⟩ else inTurn m

theorem completionAt_feasible {n : Nat} {order : List Nat}
    (windowed : Windowed readConcurrency n order) : (completionAt n order windowed.all).Feasible := by
  intro m
  unfold completionAt
  split
  · rename_i same
    subst same
    exact windowed
  · exact windowed_range (by decide) m

/-- Some feasible reads let this row claim the key, on the first page that carries it. -/
theorem exists_settle {before : List (PageWorld × List Store.Record)}
    {page : PageWorld × List Store.Record} (after : List (PageWorld × List Store.Record))
    {key : String} (clear : ∀ earlier ∈ before, ∀ i, carries crates earlier key i = false) {i : Nat}
    (carried : carries crates page key i = true)
    (early : Early readConcurrency (carries crates page key) i) :
    ∃ completions : Nat → Completion, (∀ n, (completions n).Feasible) ∧
      settle crates key (before ++ page :: after) completions none = claimantAt crates page i := by
  obtain ⟨order, windowed, first⟩ := exists_first (inside_of_carries carried) carried early
  refine ⟨fun _ => completionAt page.2.length order windowed.all,
    fun _ => completionAt_feasible windowed, ?_⟩
  obtain ⟨id, claimant⟩ : ∃ id, claimantAt crates page i = some id := by
    cases found : claimAt crates page i with
    | none => simp [carries, found] at carried
    | some claim => exact ⟨claim.2.1, by rw [claimantAt, found]; rfl⟩
  have claimed : claimedBy crates page (completionAt page.2.length order windowed.all) key =
      some id := by
    have here : (completionAt page.2.length order windowed.all page.2.length).1 = order := by
      simp [completionAt]
    rw [claimedBy, here, first]
    exact claimant
  rw [claimant]
  induction before with
  | nil => rw [List.nil_append, settle, claimed, Option.none_or, settle_some]
  | cons earlier rest ih =>
      obtain ⟨nobody, later⟩ := List.forall_mem_cons.mp clear
      rw [List.cons_append, settle, claimedBy_none nobody, Option.none_or]
      exact ih later

/-- **The claims do not depend on the reads exactly when no game is disputed.** -/
theorem claims_order_free_iff (crates : Crates) (worlds : List PageWorld) (table : ClaimTable) :
    (∀ one other : Nat → Completion, (∀ n, (one n).Feasible) → (∀ n, (other n).Feasible) →
      scanGameClaims crates (completing one worlds) none table =
        scanGameClaims crates (completing other worlds) none table) ↔
      Undisputed crates (visited worlds none) table := by
  constructor
  · intro free before page after key cut unclaimed clear i j carried early carried' early'
    obtain ⟨one, feasible, claims⟩ := exists_settle after clear carried early
    obtain ⟨other, alsoFeasible, claims'⟩ := exists_settle after clear carried' early'
    have same := congrFun (free one other feasible alsoFeasible) key
    rw [scanGameClaims_eq, scanGameClaims_eq, unclaimed, cut, claims, claims'] at same
    exact same
  · intro undisputed one other feasible alsoFeasible
    funext key
    rw [scanGameClaims_eq, scanGameClaims_eq]
    cases unclaimed : table key with
    | some id => rw [settle_some, settle_some]
    | none =>
        refine settle_eq_of_undisputed ?_ feasible alsoFeasible
        intro before page after cut clear
        exact undisputed before page after key cut unclaimed clear

end Runs

/-! ## Two records of one game -/

def oneGameText : String :=
  "[\x7b\"type\":\"start_game\",\"majsoul\":\x7b\"uuid\":\"260716-4c9a\"\x7d\x7d]"

/-- A JSON reader, as far as it reads that text. -/
def oneGameSerde : Serde where
  fromStr := fun _ => .error "expected value at line 1 column 1"
  fromStrVec := fun text =>
    if text = oneGameText then
      .ok [.object [("type", .string "start_game"),
        ("majsoul", .object [("uuid", .string "260716-4c9a")])]]
    else .error "expected value at line 1 column 1"
  print := fun _ => ""

def storedGame (id : Uuid) (source : String) : Store.Record where
  id := id
  source := source
  sha256 := "ab"
  receivedAt := Indexer.ingestTime
  playedAt := none
  players := []
  rule := none
  eventCount := 1
  storage := ⟨"packs/1", 12, 34, 56, .zstd⟩
  majsoulPb := none

/-- The archive and the collector each stored the game. -/
def twiceStored : PageWorld where
  table := some [⟨1, storedGame 1 "archive"⟩, ⟨2, storedGame 2 "majsoul-watch"⟩]
  read := fun _ _ _ => some (utf8 oneGameText)
  completes := inTurn
  insertBatch := fun _ => true
  adoptGameClaims := fun _ => true
  insertPlayerGames := fun _ => true
  produce := fun _ => true

theorem secondFirst_windowed : Windowed readConcurrency 2 [1, 0] := by
  refine ⟨by decide, ?_⟩
  intro k i found
  match k with
  | 0 =>
      cases found
      decide
  | 1 =>
      cases found
      decide
  | k + 2 => cases found

theorem claims_depend_on_reads :
    ∃ one other : Nat → Completion, (∀ n, (one n).Feasible) ∧ (∀ n, (other n).Feasible) ∧
      scanGameClaims (reference oneGameSerde) (completing one [twiceStored]) none (fun _ => none) ≠
        scanGameClaims (reference oneGameSerde) (completing other [twiceStored]) none
          (fun _ => none) := by
  refine ⟨fun _ => inTurn, fun _ => completionAt 2 [1, 0] secondFirst_windowed.all,
    fun _ n => windowed_range (by decide) n, fun _ => completionAt_feasible secondFirst_windowed, ?_⟩
  intro same
  have claimed := congrFun same (Ingest.gameScopeKey "260716-4c9a")
  revert claimed
  decide +kernel

end MajsoulManager.Index
