/-
# Index.Passes — the one-shot passes and their markers

Four passes walk the whole index at boot, each until its name stands in
`completed_backfills`: the metadata, the claims under the game's uuid, the scores
of the players, and the re-conversion of what has a protobuf.  Each reads the
bytes of every record its walk lists; what the world answers meanwhile (a page, a
frame, a batch, the marker) is a `Boot`.

* `checkedPass_reads`: a pass that looks at its own count earns its marker.
* `reconvert_returns_iff`: the re-conversion looks at nothing but its errors.
* `marker_earned_iff`: so a marker says that every record was read, except one the
  re-conversion wrote over a read that failed.
* `Backfill.ReadAll.whole`: in an index that stays as it is, every record there is.
-/
import MajsoulManager.Index.Backfill
import MajsoulManager.Index.Pages
import MajsoulManager.Indexer.Frames
import MajsoulManager.Ingest.Keys
import MajsoulManager.Majsoul.Convert
import MajsoulManager.Refetch.Sweep

namespace MajsoulManager.Index

open MajsoulManager.Theory
open MajsoulManager.Record
open MajsoulManager.Store

set_option autoImplicit false

/-! ## The re-conversion of one record -/

/-- What the re-conversion uses of its crates: the compressor both ways, and the
equality of two JSON values. -/
structure Converting where
  gzip : Bytes → Bytes
  gunzip : Bytes → Option Bytes
  same : Value → Value → Bool

/-- The uuid and the metadata off the header a record was indexed with. -/
def majsoulHeader (serde : Serde) (raw : Bytes) : Option (String × Majsoul.GameMetadata) := do
  let events ← (events serde raw).toOption
  let start ← events.find? isStartGame
  let majsoul ← start.get "majsoul"
  let uuid ← (← majsoul.get "uuid").asStr
  some (uuid,
    { modeId := (((majsoul.get "mode_id").bind Value.asI64).getD 0).toInt32
      room := ((majsoul.get "room").bind Value.asStr).getD ""
      gameLength := ((majsoul.get "game_length").bind Value.asStr).getD ""
      players := (((majsoul.get "players").bind Value.asU64).getD 0).toUInt8
      year := (((majsoul.get "year").bind Value.asI64).getD 0).toInt32 })

def kindOf (event : Value) : String := ((event.get "type").bind Value.asStr).getD "?"

def hands (events : List Value) : Nat := events.countP fun event => kindOf event == "end_kyoku"

/-- The text of a refusal says where the two first differ, or else what the stored
record has past the end of the fresh one: a slice that panics when that is longer. -/
def truncated (converting : Converting) (fresh before : List Value) :
    Outcome Refetch.Unconvertible Bytes :=
  if (fresh.zip before).any fun pair => !converting.same pair.1 pair.2 then .err .truncated
  else do
    let _ ← Outcome.slice before fresh.length before.length
    .err .truncated

/-- The protobuf converted with today's converter, if it is the same game and a
whole one. -/
def reconverted (converting : Converting) (serde : Serde) (pb : Bytes)
    (metadata : Majsoul.GameMetadata) (stored : Bytes) (expectedUuid : String) :
    Outcome Refetch.Unconvertible Bytes :=
  match Majsoul.convertRecordBytes ⟨serde, converting.gzip⟩ pb (some metadata) with
  | .panic => .panic
  | .err _ => .err .convertFailed
  | .ok (uuid, compressed) =>
      if uuid ≠ expectedUuid then .err .wrongGame
      else
        match converting.gunzip compressed with
        | none => .err .convertFailed
        | some mjai =>
            match events serde mjai, events serde stored with
            | .ok fresh, .ok before =>
                if hands fresh ≠ hands before ∨ fresh.getLast?.map kindOf ≠ some "end_game" then
                  truncated converting fresh before
                else .ok mjai
            | _, _ => .err .convertFailed

/-! ## What a boot meets -/

/-- The two frames a record can have in its pack. -/
inductive Frame where
  | mjai
  | pb
  deriving DecidableEq

/-- What the world answers while one page is worked off.  A table that is absent is
a scan that failed, and reads are told apart by the row's place on the page. -/
structure PageWorld where
  table : Option RecordTable
  read : Nat → Frame → PackLocation → Option Bytes
  /-- The order in which the concurrent reads complete. -/
  completes : (n : Nat) → { order : List Nat // order.Perm (List.range n) }
  insertBatch : List Store.Record → Bool
  adoptGameClaims : List (String × Uuid × String) → Bool
  insertPlayerGames : List PlayerGame → Bool
  produce : IngestMessage → Bool

/-- One run of a pass.  The pages end where the process does. -/
structure Boot where
  /-- Whether PostgreSQL says if the pass is done. -/
  markerAnswers : Bool
  pages : List PageWorld
  /-- Whether the marker reaches the table. -/
  markLands : Bool

inductive PassError where
  | catalog
  | ingest
  | join
  | stopped
  deriving DecidableEq

def PageWorld.scan (world : PageWorld) (filter : RecordFilter) (cursor : Option Cursor) :
    Option (List Store.Record × Option Cursor) :=
  world.table.map fun table => catalogPage uuidRank (final indexKey table) filter cursor pageSize

/-- The rows of a page with their places, as their reads complete. -/
def PageWorld.arrivals (world : PageWorld) (rows : List Store.Record) : List (Nat × Store.Record) :=
  (world.completes rows.length).1.filterMap fun i => rows[i]?.map (i, ·)

def Progress.unread (progress : Progress) : Progress :=
  { progress with unreadable := progress.unreadable + 1 }

def Progress.unparsed (progress : Progress) : Progress :=
  { progress with unparsable := progress.unparsable + 1 }

/-- What every page adds to the count at its end. -/
def Progress.page (progress : Progress) (rows written : Nat) : Progress :=
  { progress with scanned := progress.scanned + rows, rewritten := progress.rewritten + written }

/-- The loop all four passes share: list a page, work it off, follow the cursor. -/
def walkPages (filter : RecordFilter)
    (work : PageWorld → List Store.Record → Progress → Outcome PassError Progress) :
    List PageWorld → Option Cursor → Progress → Outcome PassError Progress
  | [], _, _ => .err .stopped
  | world :: later, cursor, progress =>
      match world.scan filter cursor with
      | none => .err .catalog
      | some (rows, next) => do
          let progress ← work world rows progress
          match next with
          | some next => walkPages filter work later (some next) progress
          | none => .ok progress

/-! ## The four walks -/

section Walks

variable (crates : Crates) (heap : Heap) (converting : Converting)

/-- One after another, in the order of the page. -/
def metadataPage (world : PageWorld) (rows : List Store.Record) (progress : Progress) :
    Outcome PassError Progress :=
  let work := rows.zipIdx.foldl (fun work entry =>
    work.take crates (world.read entry.2 .mjai entry.1.storage)) (⟨rows, [], progress⟩ : PageWork)
  if world.insertBatch work.batch then .ok (work.progress.page rows.length work.batch.length)
  else .err .catalog

/-- The first row of a game claims it; `seen` holds the keys already claimed. -/
def claimRow (world : PageWorld) (work : Progress × List (String × Uuid × String))
    (entry : Nat × Store.Record) : Progress × List (String × Uuid × String) :=
  match world.read entry.1 .mjai entry.2.storage with
  | none => (work.1.unread, work.2)
  | some raw =>
      match (parseMetadata crates.serde raw).toOption.bind (·.majsoulUuid) with
      | none => (work.1.unparsed, work.2)
      | some uuid =>
          let key := Ingest.gameScopeKey uuid
          let seen := work.2.map (·.1)
          if seen.contains key then work
          else (work.1, work.2 ++ [(key, entry.2.id, entry.2.sha256)])

def claimsPage (world : PageWorld) (rows : List Store.Record) (progress : Progress) :
    Outcome PassError Progress :=
  let work := (world.arrivals rows).foldl (claimRow crates world) (progress, [])
  if world.adoptGameClaims work.2 then .ok (work.1.page rows.length work.2.length)
  else .err .catalog

def scoreRow (world : PageWorld) (work : Progress × List PlayerGame) (entry : Nat × Store.Record) :
    Outcome PassError (Progress × List PlayerGame) :=
  match world.read entry.1 .mjai entry.2.storage with
  | none => .ok (work.1.unread, work.2)
  | some raw =>
      match events crates.serde raw with
      | .error _ => .ok (work.1.unparsed, work.2)
      | .ok events => do
          let game ← Outcome.embed (replay heap events)
          match game with
          | none => .ok (work.1.unparsed, work.2)
          | some game => .ok (work.1, work.2 ++ PlayerGame.of entry.2 game)

def scorePage (world : PageWorld) (rows : List Store.Record) (progress : Progress) :
    Outcome PassError Progress := do
  let work ← (world.arrivals rows).foldlM (scoreRow crates heap world) (progress, [])
  if world.insertPlayerGames work.2 then .ok (work.1.page rows.length work.2.length)
  else .err .catalog

/-- `reindex_one`: parsed again before it is produced. -/
def reindexOne (world : PageWorld) (row : Store.Record) (raw : Bytes) (majsoulPb : Option Bytes) :
    Outcome PassError Unit :=
  match parseMetadata crates.serde raw with
  | .error _ => .err .ingest
  | .ok _ =>
      if world.produce (.reindex row.id row.source row.receivedAt row.playedAt raw majsoulPb) then
        .ok ()
      else .err .ingest

/-- A conversion that panics is a task that does not join. -/
def reconvertRow (world : PageWorld) (progress : Progress) (entry : Nat × Store.Record) :
    Outcome PassError Progress :=
  match entry.2.majsoulPb with
  | none => .ok progress
  | some stored =>
      match world.read entry.1 .mjai entry.2.storage,
        world.read entry.1 .pb (Indexer.inPack entry.2.storage.packKey stored) with
      | some mjai, some pb =>
          match majsoulHeader crates.serde mjai with
          | none => .ok progress.unparsed
          | some (uuid, metadata) =>
              match reconverted converting crates.serde pb metadata mjai uuid with
              | .panic => .err .join
              | .err _ => .ok progress.unparsed
              | .ok fresh => do
                  reindexOne crates world entry.2 fresh (some pb)
                  .ok { progress with rewritten := progress.rewritten + 1 }
      | _, _ => .ok progress.unread

def reconvertPage (world : PageWorld) (rows : List Store.Record) (progress : Progress) :
    Outcome PassError Progress := do
  let progress ← (world.arrivals rows).foldlM (reconvertRow crates converting world) progress
  .ok (progress.page rows.length 0)

/-! ## The markers -/

/-- What a pass leaves: the names in `completed_backfills`, and how its walk ended
if it got as far as walking. -/
structure Ran where
  completed : List String
  walked : Option (Outcome PassError Progress)

/-- `ON CONFLICT DO NOTHING`. -/
def markDone (boot : Boot) (name : String) (completed : List String) : List String :=
  if boot.markLands && !completed.contains name then completed ++ [name] else completed

/-- The passes that look at their count before they write the marker. -/
def checkedPass (name : String) (walk : List PageWorld → Outcome PassError Progress) (boot : Boot)
    (completed : List String) : Ran :=
  if !boot.markerAnswers || completed.contains name then ⟨completed, none⟩
  else
    match walk boot.pages with
    | .ok progress =>
        if !progress.isComplete then ⟨completed, some (.ok progress)⟩
        else ⟨markDone boot name completed, some (.ok progress)⟩
    | ended => ⟨completed, some ended⟩

inductive Backfill where
  | metadata
  | gameClaims
  | playerStats
  | reconvert
  deriving DecidableEq

def Backfill.name : Backfill → String
  | metadata => "records_rule_played_at"
  | gameClaims => "game_scoped_claims"
  | playerStats => "player_game_stats_v2"
  | reconvert => "reconvert_stored_pb_v1"

/-- Only the re-conversion asks for less than the whole index. -/
def Backfill.filter : Backfill → RecordFilter
  | reconvert => { storedPb := true }
  | _ => {}

def Backfill.page : Backfill → PageWorld → List Store.Record → Progress → Outcome PassError Progress
  | metadata => metadataPage crates
  | gameClaims => claimsPage crates
  | playerStats => scorePage crates heap
  | reconvert => reconvertPage crates converting

/-- `scan`, `scan_game_claims`, `score` and `reconvert`. -/
def Backfill.walk (pass : Backfill) (pages : List PageWorld) : Outcome PassError Progress :=
  walkPages pass.filter (pass.page crates heap converting) pages none ⟨0, 0, 0, 0⟩

def rewriteRecordMetadata (boot : Boot) (completed : List String) : Ran :=
  checkedPass Backfill.metadata.name (Backfill.walk crates heap converting .metadata) boot completed

def writeGameScopedClaims (boot : Boot) (completed : List String) : Ran :=
  checkedPass Backfill.gameClaims.name (Backfill.walk crates heap converting .gameClaims) boot
    completed

def scoreIndexedRecords (boot : Boot) (completed : List String) : Ran :=
  checkedPass Backfill.playerStats.name (Backfill.walk crates heap converting .playerStats) boot
    completed

/-- The one that reports its count and writes the marker whatever it says. -/
def reconvertStoredRecords (boot : Boot) (completed : List String) : Ran :=
  if !boot.markerAnswers || completed.contains Backfill.reconvert.name then ⟨completed, none⟩
  else
    match Backfill.walk crates heap converting .reconvert boot.pages with
    | .ok progress => ⟨markDone boot Backfill.reconvert.name completed, some (.ok progress)⟩
    | ended => ⟨completed, some ended⟩

def Backfill.run : Backfill → Boot → List String → Ran
  | metadata => rewriteRecordMetadata crates heap converting
  | gameClaims => writeGameScopedClaims crates heap converting
  | playerStats => scoreIndexedRecords crates heap converting
  | reconvert => reconvertStoredRecords crates heap converting

end Walks

/-! ## Every record read -/

/-- The pages a walk lists, if it gets to the last one. -/
def listed (filter : RecordFilter) :
    List PageWorld → Option Cursor → Option (List (PageWorld × List Store.Record))
  | [], _ => none
  | world :: later, cursor =>
      match world.scan filter cursor with
      | none => none
      | some (rows, none) => some [(world, rows)]
      | some (rows, some next) => (listed filter later (some next)).map ((world, rows) :: ·)

/-- The frames a pass has to read for a row. -/
def Backfill.needs (pass : Backfill) (row : Store.Record) : List (Frame × PackLocation) :=
  match pass with
  | reconvert => (.mjai, row.storage) ::
      (row.majsoulPb.map fun stored => (.pb, Indexer.inPack row.storage.packKey stored)).toList
  | _ => [(.mjai, row.storage)]

/-- Every row of a page had its bytes read. -/
def Backfill.PageRead (pass : Backfill) (world : PageWorld) (rows : List Store.Record) : Prop :=
  ∀ i row, rows[i]? = some row → ∀ frame ∈ pass.needs row,
    (world.read i frame.1 frame.2).isSome = true

/-- The pass read every record it had to read. -/
def Backfill.ReadAll (pass : Backfill) (pages : List PageWorld) : Prop :=
  ∃ shown, listed pass.filter pages none = some shown ∧
    ∀ page ∈ shown, pass.PageRead page.1 page.2

/-- A marker the pass writes says that it read everything, and a pass that did not
walks again at the next boot that can tell. -/
structure Earned (crates : Crates) (heap : Heap) (converting : Converting) (pass : Backfill)
    (boot : Boot) (completed : List String) : Prop where
  marker : pass.name ∉ completed →
    pass.name ∈ (pass.run crates heap converting boot completed).completed →
    pass.ReadAll boot.pages
  again : pass.name ∉ completed → ¬ pass.ReadAll boot.pages →
    ∀ next : Boot, next.markerAnswers = true →
      (pass.run crates heap converting next
        (pass.run crates heap converting boot completed).completed).walked =
        some (pass.walk crates heap converting next.pages)

theorem mem_arrivals {world : PageWorld} {rows : List Store.Record} {i : Nat} {row : Store.Record} :
    (i, row) ∈ world.arrivals rows ↔ rows[i]? = some row := by
  constructor
  · intro member
    obtain ⟨j, -, found⟩ := List.mem_filterMap.mp member
    obtain ⟨_, there, same⟩ := Option.map_eq_some_iff.mp found
    cases same
    exact there
  · intro there
    have inside : i < rows.length := (List.getElem?_eq_some_iff.mp there).1
    refine List.mem_filterMap.mpr ⟨i, ?_, by simp [there]⟩
    exact (world.completes rows.length).2.mem_iff.mpr (List.mem_range.mpr inside)

/-! ## A count that stays at zero -/

section Count

variable {crates : Crates} {heap : Heap} {converting : Converting} {world : PageWorld}

/-- A row whose bytes did not come is counted, and the count never goes back. -/
theorem take_unreadable {work : PageWork} {row : Store.Record} {rest : List Store.Record}
    (here : work.rest = row :: rest) {raw : Option Bytes} :
    (work.take crates raw).rest = rest ∧
      ((work.take crates raw).progress.unreadable = 0 →
        work.progress.unreadable = 0 ∧ raw.isSome = true) := by
  unfold PageWork.take
  rw [here]
  cases raw with
  | none => simp
  | some raw =>
      cases parsed : parseMetadata crates.serde raw <;> simp [parsed]

theorem foldl_take_unreadable {rows : List Store.Record} {k : Nat} {work : PageWork}
    (here : work.rest = rows)
    (none : ((rows.zipIdx k).foldl (fun work entry =>
      work.take crates (world.read entry.2 .mjai entry.1.storage)) work).progress.unreadable = 0) :
    work.progress.unreadable = 0 ∧
      ∀ entry ∈ rows.zipIdx k, (world.read entry.2 .mjai entry.1.storage).isSome = true := by
  induction rows generalizing k work with
  | nil => simpa using none
  | cons row rest ih =>
      rw [List.zipIdx_cons, List.foldl_cons] at none
      obtain ⟨left, counted⟩ := take_unreadable here
      obtain ⟨before, later⟩ := ih left none
      obtain ⟨start, read⟩ := counted before
      refine ⟨start, fun entry member => ?_⟩
      rw [List.zipIdx_cons] at member
      rcases List.mem_cons.mp member with rfl | member
      · exact read
      · exact later entry member

theorem claimRow_unreadable {work : Progress × List (String × Uuid × String)}
    {entry : Nat × Store.Record} (none : (claimRow crates world work entry).1.unreadable = 0) :
    work.1.unreadable = 0 ∧ (world.read entry.1 .mjai entry.2.storage).isSome = true := by
  unfold claimRow at none
  cases came : world.read entry.1 .mjai entry.2.storage with
  | none => simp [came, Progress.unread] at none
  | some raw =>
      refine ⟨?_, rfl⟩
      rw [came] at none
      simp only at none
      split at none
      · exact none
      · split at none <;> exact none

theorem scoreRow_unreadable {work scored : Progress × List PlayerGame}
    {entry : Nat × Store.Record} (returned : scoreRow crates heap world work entry = .ok scored)
    (none : scored.1.unreadable = 0) :
    work.1.unreadable = 0 ∧ (world.read entry.1 .mjai entry.2.storage).isSome = true := by
  unfold scoreRow at returned
  cases came : world.read entry.1 .mjai entry.2.storage with
  | none =>
      rw [came] at returned
      cases returned
      simp [Progress.unread] at none
  | some raw =>
      refine ⟨?_, rfl⟩
      rw [came] at returned
      simp only at returned
      split at returned
      · cases returned
        exact none
      · obtain ⟨game, -, returned⟩ := Outcome.bind_eq_ok.mp returned
        split at returned <;> cases returned <;> exact none

/-- What a page of a checked pass says when its count is still at zero. -/
theorem Backfill.page_unreadable {pass : Backfill} (checked : pass ≠ .reconvert)
    {rows : List Store.Record} {progress final : Progress}
    (returned : pass.page crates heap converting world rows progress = .ok final)
    (none : final.unreadable = 0) : progress.unreadable = 0 ∧ pass.PageRead world rows := by
  -- all three need the record's own frame only
  have whole : pass.needs = fun row => [(.mjai, row.storage)] := by
    cases pass <;> first | rfl | exact absurd rfl checked
  have reads : (∀ entry ∈ world.arrivals rows,
      (world.read entry.1 .mjai entry.2.storage).isSome = true) → pass.PageRead world rows := by
    intro each i row there frame needed
    rw [whole] at needed
    cases List.mem_singleton.mp needed
    exact each (i, row) (mem_arrivals.mpr there)
  cases pass with
  | metadata =>
      simp only [Backfill.page, metadataPage] at returned
      split at returned <;> cases returned
      obtain ⟨before, each⟩ := foldl_take_unreadable rfl none
      refine ⟨before, reads fun entry member => ?_⟩
      exact each (entry.2, entry.1) (List.mk_mem_zipIdx_iff_getElem?.mpr (mem_arrivals.mp member))
  | gameClaims =>
      simp only [Backfill.page, claimsPage] at returned
      split at returned <;> cases returned
      have folded : (world.arrivals rows).foldlM (fun work entry =>
          (pure (claimRow crates world work entry) : Outcome Empty _)) (progress, []) =
          .ok ((world.arrivals rows).foldl (claimRow crates world) (progress, [])) :=
        List.foldlM_pure
      obtain ⟨before, each⟩ := Outcome.foldlM_backward (P := fun work => work.1.unreadable = 0)
        (Q := fun entry => (world.read entry.1 .mjai entry.2.storage).isSome = true)
        (by rintro work entry _ ⟨⟩; exact claimRow_unreadable) folded none
      exact ⟨before, reads each⟩
  | playerStats =>
      obtain ⟨work, scored, returned⟩ := Outcome.bind_eq_ok.mp returned
      split at returned <;> cases returned
      obtain ⟨before, each⟩ := Outcome.foldlM_backward (P := fun work => work.1.unreadable = 0)
        (Q := fun entry => (world.read entry.1 .mjai entry.2.storage).isSome = true)
        (fun _ _ _ => scoreRow_unreadable) scored none
      exact ⟨before, reads each⟩
  | reconvert => exact absurd rfl checked

end Count

/-! ## Walks -/

section Walk

variable {filter : RecordFilter}
  {work : PageWorld → List Store.Record → Progress → Outcome PassError Progress}

/-- What every page says backwards, the walk says of all pages it listed. -/
theorem walkPages_backward {P : Progress → Prop} {Q : PageWorld → List Store.Record → Prop}
    (step : ∀ world rows progress final, work world rows progress = .ok final → P final →
      P progress ∧ Q world rows) {pages : List PageWorld} {cursor : Option Cursor}
    {progress final : Progress} (returned : walkPages filter work pages cursor progress = .ok final)
    (holds : P final) :
    P progress ∧ ∃ shown, listed filter pages cursor = some shown ∧
      ∀ page ∈ shown, Q page.1 page.2 := by
  induction pages generalizing cursor progress with
  | nil => cases returned
  | cons world later ih =>
      rw [walkPages] at returned
      rw [listed]
      cases scanned : world.scan filter cursor with
      | none =>
          rw [scanned] at returned
          cases returned
      | some found =>
          obtain ⟨rows, next⟩ := found
          rw [scanned] at returned
          obtain ⟨between, worked, returned⟩ := Outcome.bind_eq_ok.mp returned
          cases next with
          | none =>
              cases returned
              obtain ⟨before, here⟩ := step world rows progress _ worked holds
              exact ⟨before, [(world, rows)], rfl, by simpa using here⟩
          | some next =>
              obtain ⟨after, shown, found, each⟩ := ih returned
              obtain ⟨before, here⟩ := step world rows progress _ worked after
              refine ⟨before, (world, rows) :: shown, by simp [found], ?_⟩
              exact List.forall_mem_cons.mpr ⟨here, each⟩

/-- A walk returns when it gets to the last page and every page goes through. -/
theorem walkPages_returns {Q : PageWorld → List Store.Record → Prop}
    (step : ∀ world rows progress, (work world rows progress).Returns ↔ Q world rows)
    {pages : List PageWorld} {cursor : Option Cursor} {progress : Progress} :
    (walkPages filter work pages cursor progress).Returns ↔
      ∃ shown, listed filter pages cursor = some shown ∧ ∀ page ∈ shown, Q page.1 page.2 := by
  induction pages generalizing cursor progress with
  | nil => simp [walkPages, listed]
  | cons world later ih =>
      rw [walkPages, listed]
      cases scanned : world.scan filter cursor with
      | none => simp
      | some found =>
          obtain ⟨rows, next⟩ := found
          have here := step world rows progress
          cases worked : work world rows progress with
          | ok between =>
              have passes : Q world rows := here.mp (by simp [worked])
              cases next with
              | none => simp [worked, passes]
              | some next =>
                  simp only [worked, Outcome.ok_bind, ih, Option.map_eq_some_iff]
                  constructor
                  · rintro ⟨shown, found, each⟩
                    exact ⟨_, ⟨shown, found, rfl⟩, List.forall_mem_cons.mpr ⟨passes, each⟩⟩
                  · rintro ⟨_, ⟨shown, found, rfl⟩, each⟩
                    exact ⟨shown, found, (List.forall_mem_cons.mp each).2⟩
          | err _ | panic =>
              have stuck : ¬ Q world rows := fun passes => by simpa [worked] using here.mpr passes
              cases next with
              | none => simp [worked, stuck]
              | some next =>
                  simp only [worked, Outcome.err_bind, Outcome.panic_bind, Outcome.err_returns,
                    Outcome.panic_returns, Option.map_eq_some_iff, false_iff]
                  rintro ⟨_, ⟨shown, found, rfl⟩, each⟩
                  exact stuck (List.forall_mem_cons.mp each).1

end Walk

/-! ## The passes that check -/

section Passes

variable {crates : Crates} {heap : Heap} {converting : Converting} {pass : Backfill} {boot : Boot}
  {completed : List String}

/-- **A pass that looks at its count read everything** its walk listed. -/
theorem checkedPass_reads (checked : pass ≠ .reconvert) {progress : Progress}
    (returned : pass.walk crates heap converting boot.pages = .ok progress)
    (complete : progress.isComplete = true) : pass.ReadAll boot.pages := by
  have zero : progress.unreadable = 0 := by simpa [Progress.isComplete] using complete
  obtain ⟨-, shown, found, each⟩ := walkPages_backward (P := fun p => p.unreadable = 0)
    (Q := pass.PageRead) (fun _ _ _ _ => pass.page_unreadable checked) returned zero
  exact ⟨shown, found, each⟩

theorem Backfill.run_of_checked (checked : pass ≠ .reconvert) :
    pass.run crates heap converting boot completed =
      checkedPass pass.name (pass.walk crates heap converting) boot completed := by
  cases pass with
  | reconvert => exact absurd rfl checked
  | metadata | gameClaims | playerStats => rfl

/-- A pass without its marker walks, once PostgreSQL says that it has none. -/
theorem Backfill.run_walks (answers : boot.markerAnswers = true) (unmarked : pass.name ∉ completed) :
    (pass.run crates heap converting boot completed).walked =
      some (pass.walk crates heap converting boot.pages) := by
  by_cases checked : pass = .reconvert
  · subst checked
    simp only [Backfill.run, reconvertStoredRecords]
    split
    · simp_all
    · split <;> rename_i ended <;> simp [ended]
  · rw [Backfill.run_of_checked checked, checkedPass]
    split
    · simp_all
    · split
      · rename_i ended
        split <;> simp [ended]
      · rfl

/-- The marker of a checked pass is new only after a walk whose count is at zero. -/
theorem checkedPass_marks {name : String} {walk : List PageWorld → Outcome PassError Progress}
    (unmarked : name ∉ completed) (marked : name ∈ (checkedPass name walk boot completed).completed) :
    ∃ progress, walk boot.pages = .ok progress ∧ progress.isComplete = true := by
  unfold checkedPass at marked
  split at marked
  · exact absurd marked unmarked
  · split at marked
    · rename_i progress returned
      split at marked
      · exact absurd marked unmarked
      · rename_i complete
        exact ⟨progress, returned, by simpa using complete⟩
    · exact absurd marked unmarked

/-! ## The one that does not -/

/-- The protobuf of a row and what it converts to, when both frames were read and
the record has a header. -/
def conversion (crates : Crates) (converting : Converting) (world : PageWorld) (i : Nat)
    (row : Store.Record) : Option (Bytes × Outcome Refetch.Unconvertible Bytes) := do
  let stored ← row.majsoulPb
  let mjai ← world.read i .mjai row.storage
  let pb ← world.read i .pb (Indexer.inPack row.storage.packKey stored)
  let (uuid, metadata) ← majsoulHeader crates.serde mjai
  some (pb, reconverted converting crates.serde pb metadata mjai uuid)

/-- Nothing but a frame that cannot be read keeps the re-conversion from this row:
what is converted converts without a panic, parses and is taken by the broker. -/
def RowPasses (crates : Crates) (converting : Converting) (world : PageWorld) (i : Nat)
    (row : Store.Record) : Prop :=
  ∀ found, conversion crates converting world i row = some found →
    ¬ found.2.Panics ∧ ∀ fresh, found.2 = .ok fresh →
      (∃ parsed, parseMetadata crates.serde fresh = .ok parsed) ∧
        world.produce (.reindex row.id row.source row.receivedAt row.playedAt fresh
          (some found.1)) = true

theorem reindexOne_returns {world : PageWorld} {row : Store.Record} {raw : Bytes}
    {majsoulPb : Option Bytes} :
    (reindexOne crates world row raw majsoulPb).Returns ↔
      (∃ parsed, parseMetadata crates.serde raw = .ok parsed) ∧
        world.produce (.reindex row.id row.source row.receivedAt row.playedAt raw majsoulPb) = true := by
  unfold reindexOne
  cases parseMetadata crates.serde raw with
  | error _ => simp
  | ok metadata =>
      by_cases taken : world.produce (.reindex row.id row.source row.receivedAt row.playedAt raw
          majsoulPb) = true
      · simp [taken]
      · simp [taken]

theorem reconvertRow_returns {world : PageWorld} {progress : Progress} {entry : Nat × Store.Record} :
    (reconvertRow crates converting world progress entry).Returns ↔
      RowPasses crates converting world entry.1 entry.2 := by
  obtain ⟨i, row⟩ := entry
  unfold reconvertRow RowPasses conversion
  cases row.majsoulPb with
  | none => simp
  | some stored =>
      cases came : world.read i .mjai row.storage with
      | none => simp
      | some mjai =>
          cases alsoCame : world.read i .pb (Indexer.inPack row.storage.packKey stored) with
          | none => simp [alsoCame]
          | some pb =>
              cases header : majsoulHeader crates.serde mjai with
              | none => simp [alsoCame, header]
              | some found =>
                  obtain ⟨uuid, metadata⟩ := found
                  cases converted : reconverted converting crates.serde pb metadata mjai uuid with
                  | panic | err _ => simp [alsoCame, header, converted]
                  | ok fresh =>
                      have taken : (reindexOne crates world row fresh (some pb)).Returns ↔ _ :=
                        reindexOne_returns
                      simp only [alsoCame, header, converted, Option.bind_eq_bind,
                        Option.bind_some, Option.some.injEq, forall_eq', Outcome.ok_panics,
                        not_false_eq_true, true_and, Outcome.ok.injEq, ← taken]
                      cases reindexOne crates world row fresh (some pb) <;> simp

/-- **The re-conversion returns whatever it could not read**: only a page, a
conversion that panics or a replacement that is not taken stops it. -/
theorem reconvert_returns_iff {pages : List PageWorld} :
    (Backfill.reconvert.walk crates heap converting pages).Returns ↔
      ∃ shown, listed Backfill.reconvert.filter pages none = some shown ∧
        ∀ page ∈ shown, ∀ i row, page.2[i]? = some row →
          RowPasses crates converting page.1 i row := by
  refine walkPages_returns (Q := fun world rows => ∀ i row, rows[i]? = some row →
    RowPasses crates converting world i row) fun world rows progress => ?_
  have rowsReturn : ((world.arrivals rows).foldlM (reconvertRow crates converting world)
      progress).Returns ↔ ∀ entry ∈ world.arrivals rows,
        RowPasses crates converting world entry.1 entry.2 := by
    apply Outcome.foldlM_returns (f := reconvertRow crates converting world)
    intro progress entry
    exact reconvertRow_returns
  have pageReturns : (reconvertPage crates converting world rows progress).Returns ↔
      ((world.arrivals rows).foldlM (reconvertRow crates converting world) progress).Returns := by
    unfold reconvertPage
    cases (world.arrivals rows).foldlM (reconvertRow crates converting world) progress <;> simp
  show (reconvertPage crates converting world rows progress).Returns ↔ _
  rw [pageReturns, rowsReturn]
  constructor
  · intro each i row there
    exact each (i, row) (mem_arrivals.mpr there)
  · rintro each ⟨i, row⟩ member
    exact each i row (mem_arrivals.mp member)

/-- One of the frames the re-conversion asks for does not come, and nothing else
keeps it from its marker. -/
def ReconvertSkips (crates : Crates) (converting : Converting) (boot : Boot)
    (completed : List String) : Prop :=
  boot.markerAnswers = true ∧ Backfill.reconvert.name ∉ completed ∧ boot.markLands = true ∧
    ∃ shown, listed Backfill.reconvert.filter boot.pages none = some shown ∧
      (∀ page ∈ shown, ∀ i row, page.2[i]? = some row → RowPasses crates converting page.1 i row) ∧
      ∃ page ∈ shown, ∃ i row, page.2[i]? = some row ∧ ∃ frame ∈ Backfill.reconvert.needs row,
        page.1.read i frame.1 frame.2 = none

theorem reconvert_marks_iff (unmarked : Backfill.reconvert.name ∉ completed) :
    Backfill.reconvert.name ∈
        (Backfill.reconvert.run crates heap converting boot completed).completed ↔
      boot.markerAnswers = true ∧ boot.markLands = true ∧
        (Backfill.reconvert.walk crates heap converting boot.pages).Returns := by
  simp only [Backfill.run, reconvertStoredRecords]
  split
  · rename_i returnsEarly
    have silent : boot.markerAnswers = false := by simpa [unmarked] using returnsEarly
    simp [silent, unmarked]
  · rename_i walks
    have answers : boot.markerAnswers = true := by simp_all
    cases ended : Backfill.reconvert.walk crates heap converting boot.pages with
    | ok progress => by_cases lands : boot.markLands = true <;> simp [markDone, *]
    | err _ | panic => simp [unmarked]

/-- A page was not all read when a frame of one of its rows did not come. -/
theorem not_readAll_iff {pages : List PageWorld} {shown : List (PageWorld × List Store.Record)}
    (found : listed pass.filter pages none = some shown) :
    ¬ pass.ReadAll pages ↔ ∃ page ∈ shown, ∃ i row, page.2[i]? = some row ∧
      ∃ frame ∈ pass.needs row, page.1.read i frame.1 frame.2 = none := by
  simp [Backfill.ReadAll, Backfill.PageRead, found]

/-- The marker of a pass that skipped a record is the re-conversion's. -/
theorem marker_new_iff (unmarked : pass.name ∉ completed) :
    (pass.name ∈ (pass.run crates heap converting boot completed).completed ∧
      ¬ pass.ReadAll boot.pages) ↔
      pass = .reconvert ∧ ReconvertSkips crates converting boot completed := by
  by_cases reconverts : pass = .reconvert
  · subst reconverts
    rw [reconvert_marks_iff unmarked, reconvert_returns_iff]
    constructor
    · rintro ⟨⟨answers, lands, shown, found, passes⟩, skipped⟩
      exact ⟨rfl, answers, unmarked, lands, shown, found, passes, (not_readAll_iff found).mp skipped⟩
    · rintro ⟨-, answers, -, lands, shown, found, passes, skipped⟩
      exact ⟨⟨answers, lands, shown, found, passes⟩, (not_readAll_iff found).mpr skipped⟩
  · constructor
    · rintro ⟨marked, skipped⟩
      rw [Backfill.run_of_checked reconverts] at marked
      obtain ⟨progress, returned, complete⟩ := checkedPass_marks unmarked marked
      exact absurd (checkedPass_reads reconverts returned complete) skipped
    · rintro ⟨same, -⟩
      exact absurd same reconverts

end Passes

/-- **A marker is earned**, by every pass and whatever the world answers, exactly
unless it is the re-conversion's, a frame it asked for did not come, and nothing
else kept it from its marker. -/
theorem marker_earned_iff (crates : Crates) (heap : Heap) (converting : Converting)
    (pass : Backfill) (boot : Boot) (completed : List String) :
    Earned crates heap converting pass boot completed ↔
      ¬ (pass = .reconvert ∧ ReconvertSkips crates converting boot completed) := by
  constructor
  · rintro earned ⟨rfl, skips⟩
    have unmarked : Backfill.reconvert.name ∉ completed := skips.2.1
    obtain ⟨marked, skipped⟩ :
        Backfill.reconvert.name ∈
            (Backfill.reconvert.run crates heap converting boot completed).completed ∧
          ¬ Backfill.reconvert.ReadAll boot.pages :=
      (marker_new_iff unmarked).mpr ⟨rfl, skips⟩
    exact skipped (earned.marker unmarked marked)
  · intro sound
    have none : pass.name ∉ completed → ¬ pass.ReadAll boot.pages →
        pass.name ∉ (pass.run crates heap converting boot completed).completed := by
      intro unmarked skipped marked
      exact sound ((marker_new_iff unmarked).mp ⟨marked, skipped⟩)
    constructor
    · intro unmarked marked
      by_contra skipped
      exact none unmarked skipped marked
    · intro unmarked skipped next answers
      exact Backfill.run_walks answers (none unmarked skipped)

/-! ## An index that does not change -/

/-- Over one table the pages a walk lists are the keyset walk of it. -/
theorem listed_eq_walk {filter : RecordFilter} {table : RecordTable} {pages : List PageWorld}
    (unchanged : ∀ world ∈ pages, world.table = some table) {cursor : Option Cursor}
    {shown : List (PageWorld × List Store.Record)} (found : listed filter pages cursor = some shown)
    {fuel : Nat} (enough : pages.length ≤ fuel) :
    Keyset.walk (fun cursor => catalogPage uuidRank (final indexKey table) filter cursor pageSize)
        some fuel cursor = some (shown.flatMap (·.2)) ∧
      ∀ page ∈ shown, page.1 ∈ pages := by
  induction pages generalizing cursor shown fuel with
  | nil => cases found
  | cons world later ih =>
      obtain ⟨here, unchanged⟩ := List.forall_mem_cons.mp unchanged
      obtain ⟨fuel, rfl⟩ : ∃ more, fuel = more + 1 := ⟨fuel - 1, by simp at enough; omega⟩
      simp only [listed, PageWorld.scan, here, Option.map_some] at found
      rw [Keyset.walk]
      split at found
      · cases found
      · rename_i rows last
        rw [Option.some.injEq] at last
        cases found
        simp [last]
      · rename_i rows next more
        rw [Option.some.injEq] at more
        obtain ⟨rest, foundRest, rfl⟩ := Option.map_eq_some_iff.mp found
        obtain ⟨walked, inPages⟩ := ih unchanged foundRest (by simpa using enough)
        refine ⟨by simp [more, walked], ?_⟩
        intro page member
        rcases List.mem_cons.mp member with rfl | member
        · exact List.mem_cons_self
        · exact List.mem_cons_of_mem _ (inPages page member)

/-- **Everything the index holds.**  If the index stays as it is during the walk, a
pass that read all it listed read every record the pass is about. -/
theorem Backfill.ReadAll.whole {pass : Backfill} {pages : List PageWorld} {table : RecordTable}
    (all : pass.ReadAll pages) (unchanged : ∀ world ∈ pages, world.table = some table)
    (distinct : ((final indexKey table).map fun row =>
      (timestampMillis row.receivedAt, row.id)).Nodup)
    {row : Store.Record} (held : row ∈ final indexKey table)
    (asked : pass.filter.matches row = true) :
    ∃ world ∈ pages, ∃ i, ∀ frame ∈ pass.needs row,
      (world.read i frame.1 frame.2).isSome = true := by
  obtain ⟨shown, found, each⟩ := all
  have complete : Keyset.walk (fun cursor =>
      catalogPage uuidRank (final indexKey table) pass.filter cursor pageSize) some
      ((final indexKey table).length + 1 + pages.length) none = some _ :=
    walk_catalogPage uuidRank_injective distinct pass.filter (by decide)
      (fun row _ => ⟨cursorOf row, rfl, rfl⟩) (by omega)
  obtain ⟨walked, inPages⟩ := listed_eq_walk unchanged found
    (show pages.length ≤ (final indexKey table).length + 1 + pages.length by omega)
  rw [walked, Option.some.injEq] at complete
  have listedRow : row ∈ shown.flatMap (·.2) := by
    rw [complete, (Keyset.descending_perm _).mem_iff]
    exact List.mem_filter.mpr ⟨held, asked⟩
  obtain ⟨page, member, onPage⟩ := List.mem_flatMap.mp listedRow
  obtain ⟨i, there⟩ := List.mem_iff_getElem?.mp onPage
  exact ⟨page.1, inPages page member, i, each page member i row there⟩

/-! ## One record that cannot be read -/

/-- One record with a protobuf, in a store that serves nothing. -/
def unreadablePage : PageWorld where
  table := some [⟨10, refetchedRow⟩]
  read := fun _ _ _ => none
  completes := fun n => ⟨List.range n, .refl _⟩
  insertBatch := fun _ => true
  adoptGameClaims := fun _ => true
  insertPlayerGames := fun _ => true
  produce := fun _ => true

def unreadableBoot : Boot := ⟨true, [unreadablePage], true⟩

/-- The store is unreachable for one boot, and the re-conversion is done for good. -/
theorem reconvert_marks_unread :
    ¬ Earned (reference (Indexer.startSerde 1699999000)) ⟨0, by decide⟩ ⟨id, some, fun _ _ => true⟩
      .reconvert unreadableBoot [] := by
  intro earned
  have found : listed Backfill.reconvert.filter unreadableBoot.pages none =
      some [(unreadablePage, [refetchedRow])] := rfl
  refine absurd (earned.marker (by decide) (by decide +kernel)) ((not_readAll_iff found).mpr ?_)
  exact ⟨_, List.mem_singleton_self _, 0, refetchedRow, rfl, _, List.mem_cons_self, rfl⟩

end MajsoulManager.Index
