/-
# Index.Rewrites — a second metadata pass over what the first one wrote

`rewritten` compares freshly parsed metadata with a row that went through the
table and back.  The table keeps no empty rule and no year outside 1900 to
2299, so metadata with either of them differs from its own row forever.

* `second_pass_quiet_iff`: a second pass finds nothing to rewrite exactly when the
  parser derives neither, or the insert is refused.
* `empty_rule_rewritten_again`: a record with an empty rule.
-/
import MajsoulManager.Store.Rows
import MajsoulManager.Index.Backfill

namespace MajsoulManager.Index

open MajsoulManager.Theory
open MajsoulManager.Record
open MajsoulManager.Store

set_option autoImplicit false

/-! ## The table between two passes -/

/-- A `DateTime64(3)` column: what it shows for an instant that was inserted, `none`
where the server refuses the insert.  It shows instants of its years only, and
those as they were given. -/
structure DateTime64 where
  hold : DateTime → Option DateTime
  hold_indexable : ∀ t, IndexableYear t → hold t = some t.truncMillis
  hold_range : ∀ t kept, hold t = some kept → IndexableYear kept

def DateTime64.holdOptional (column : DateTime64) : Option DateTime → Option (Option DateTime)
  | none => some none
  | some t => (column.hold t).map some

section Passes

variable (uuid : UuidText) (naive : NaiveText) (column : DateTime64)

/-- The row after an insert that landed. -/
def heldRow (record : Store.Record) : Option Store.Record := do
  let receivedAt ← column.hold record.receivedAt
  let playedAt ← column.holdOptional record.playedAt
  some { record with receivedAt, playedAt }

/-- The row as the next pass reads it. -/
def reread (record : Store.Record) : Option Store.Record :=
  (heldRow column record.stored).bind (Store.Record.readBack uuid naive)

/-- Once the pass has rewritten a row, the next pass leaves it alone. -/
def SecondPassQuiet (row : Store.Record) (metadata : Metadata) : Prop :=
  ∀ changed back, rewritten row metadata = some changed → reread uuid naive column changed = some back →
    rewritten back metadata = none

end Passes

/-- A row as it is read from the table. -/
structure AsRead (row : Store.Record) : Prop where
  settled : row.settled = row
  indexable : row.Indexable
  fits : row.OffsetsFit

/-! ## What is read back -/

theorem AsRead.rule {row : Store.Record} (asRead : AsRead row) : row.rule ≠ some "" := by
  intro empty
  have same := congrArg Store.Record.rule asRead.settled
  rw [empty] at same
  have kept : row.settled.rule = none := by simp [Store.Record.settled, empty, Option.filter_some]
  rw [kept] at same
  cases same

theorem AsRead.playedAt {row : Store.Record} (asRead : AsRead row) :
    row.playedAt.map DateTime.truncMillis = row.playedAt :=
  congrArg Store.Record.playedAt asRead.settled

/-- A start time is a whole second. -/
theorem playedAt_whole {serde : Serde} {raw : List UInt8} {metadata : Metadata} {t : DateTime}
    (parsed : parseMetadata serde raw = .ok metadata) (played : metadata.playedAt = some t) :
    t.truncMillis = t := by
  obtain ⟨read, -, rfl⟩ := parseMetadata_eq_ok.mp parsed
  obtain ⟨seconds, -, made⟩ := Option.bind_eq_some_iff.mp played
  unfold DateTime.fromTimestamp at made
  split at made
  · cases made
    rfl
  · cases made

/-- What a rewrite puts into a row. -/
def mergedRow (row : Store.Record) (metadata : Metadata) : Store.Record :=
  { row with rule := metadata.rule.or row.rule, playedAt := metadata.playedAt.or row.playedAt }

theorem rewritten_eq_none_iff {row : Store.Record} {metadata : Metadata} :
    rewritten row metadata = none ↔
      metadata.rule.or row.rule = row.rule ∧ metadata.playedAt.or row.playedAt = row.playedAt := by
  simp [rewritten]

theorem rewritten_eq_some_iff {row changed : Store.Record} {metadata : Metadata} :
    rewritten row metadata = some changed ↔
      changed = mergedRow row metadata ∧
        ¬ (metadata.rule.or row.rule = row.rule ∧
          metadata.playedAt.or row.playedAt = row.playedAt) := by
  have shown : rewritten row metadata = if metadata.rule.or row.rule = row.rule ∧
      metadata.playedAt.or row.playedAt = row.playedAt then none
      else some (mergedRow row metadata) := rfl
  rw [shown]
  split
  · simp_all
  · rename_i differs
    rw [Option.some.injEq, eq_comm]
    exact ⟨fun same => ⟨same, differs⟩, fun both => both.1⟩

section Quiet

variable {uuid : UuidText} {naive : NaiveText} {column : DateTime64} {row : Store.Record}
  {metadata : Metadata}

/-- A rewritten row's time has nothing to truncate. -/
theorem merged_whole (asRead : AsRead row)
    (whole : ∀ t, metadata.playedAt = some t → t.truncMillis = t) :
    (metadata.playedAt.or row.playedAt).map DateTime.truncMillis =
      metadata.playedAt.or row.playedAt := by
  cases present : metadata.playedAt with
  | none => simpa using asRead.playedAt
  | some t => simp [whole t present]

/-- What the next pass reads: the row settled, with the time its column shows. -/
theorem reread_eq (asRead : AsRead row)
    (whole : ∀ t, metadata.playedAt = some t → t.truncMillis = t) :
    reread uuid naive column (mergedRow row metadata) =
      (column.holdOptional (metadata.playedAt.or row.playedAt)).map fun played =>
        { (mergedRow row metadata).settled with playedAt := played.map DateTime.truncMillis } := by
  have played := merged_whole asRead whole
  have received : column.hold row.receivedAt.truncMillis = some row.receivedAt.truncMillis := by
    have years : IndexableYear row.receivedAt.truncMillis := asRead.indexable.1
    rw [column.hold_indexable _ years, DateTime.truncMillis_truncMillis]
  have held : heldRow column (mergedRow row metadata).stored =
      (column.holdOptional (metadata.playedAt.or row.playedAt)).map fun shown =>
        { (mergedRow row metadata).stored with playedAt := shown } := by
    simp only [heldRow, mergedRow, Store.Record.stored, received, played, Option.bind_eq_bind,
      Option.bind_some]
    cases column.holdOptional (metadata.playedAt.or row.playedAt) <;> rfl
  rw [reread, held]
  cases shown : column.holdOptional (metadata.playedAt.or row.playedAt) with
  | none => rfl
  | some kept =>
      have indexable : ({ (mergedRow row metadata).stored with playedAt := kept } :
          Store.Record).Indexable := by
        refine ⟨asRead.indexable.1, ?_⟩
        rintro t rfl
        cases given : metadata.playedAt.or row.playedAt with
        | none =>
            rw [given] at shown
            cases shown
        | some inserted =>
            rw [given] at shown
            obtain ⟨back, holds, same⟩ := Option.map_eq_some_iff.mp shown
            cases same
            exact column.hold_range _ _ holds
      rw [Option.map_some, Option.bind_some,
        readBack_stored indexable (show Store.Record.OffsetsFit _ from asRead.fits), Option.map_some]
      simp [Store.Record.settled, Store.Record.stored]

/-- A time that the column holds comes back. -/
theorem holdOptional_indexable {played : Option DateTime}
    (whole : played.map DateTime.truncMillis = played)
    (indexable : ∀ t, played = some t → IndexableYear t) :
    column.holdOptional played = some played := by
  cases played with
  | none => rfl
  | some t =>
      have same : t.truncMillis = t := by simpa using whole
      simp [DateTime64.holdOptional, column.hold_indexable t (indexable t rfl), same]

/-- The parser derives nothing that the table would not show again. -/
def Keepable (metadata : Metadata) : Prop :=
  metadata.rule ≠ some "" ∧ ∀ t, metadata.playedAt = some t → IndexableYear t

theorem quiet_of_keepable (asRead : AsRead row)
    (whole : ∀ t, metadata.playedAt = some t → t.truncMillis = t) (keepable : Keepable metadata) :
    SecondPassQuiet uuid naive column row metadata := by
  obtain ⟨ruled, timed⟩ := keepable
  intro changed back rewrote read
  obtain ⟨rfl, -⟩ := rewritten_eq_some_iff.mp rewrote
  have merged := merged_whole asRead whole
  have indexable : ∀ t, metadata.playedAt.or row.playedAt = some t → IndexableYear t := by
    intro t given
    cases present : metadata.playedAt with
    | none =>
        rw [present, Option.none_or] at given
        exact asRead.indexable.2 t given
    | some own =>
        rw [present, Option.some_or] at given
        cases given
        exact timed _ present
  rw [reread_eq asRead whole, holdOptional_indexable merged indexable, Option.map_some] at read
  cases read
  rw [rewritten_eq_none_iff]
  constructor
  · -- a rule that is not empty comes back, from the bytes or from the row
    have kept : (metadata.rule.or row.rule).filter (· ≠ "") = metadata.rule.or row.rule := by
      cases present : metadata.rule with
      | none =>
          rw [Option.none_or]
          exact congrArg Store.Record.rule asRead.settled
      | some rule =>
          have some_ : rule ≠ "" := fun empty => ruled (by rw [present, empty])
          simp [Option.filter_some, some_]
    show metadata.rule.or ((metadata.rule.or row.rule).filter (· ≠ "")) =
      (metadata.rule.or row.rule).filter (· ≠ "")
    rw [kept]
    cases metadata.rule <;> rfl
  · show metadata.playedAt.or ((metadata.playedAt.or row.playedAt).map DateTime.truncMillis) =
      (metadata.playedAt.or row.playedAt).map DateTime.truncMillis
    rw [merged]
    cases metadata.playedAt <;> rfl

theorem quiet_of_refused (asRead : AsRead row)
    (whole : ∀ t, metadata.playedAt = some t → t.truncMillis = t) {t : DateTime}
    (played : metadata.playedAt = some t) (refused : column.hold t = none) :
    SecondPassQuiet uuid naive column row metadata := by
  intro changed back rewrote read
  obtain ⟨rfl, -⟩ := rewritten_eq_some_iff.mp rewrote
  rw [reread_eq asRead whole, played] at read
  simp [DateTime64.holdOptional, refused] at read

/-- A time outside the column's years, and an empty rule, come back as something else. -/
theorem keepable_of_quiet (asRead : AsRead row)
    (whole : ∀ t, metadata.playedAt = some t → t.truncMillis = t)
    (accepted : ∀ t, metadata.playedAt = some t → column.hold t ≠ none)
    (quiet : SecondPassQuiet uuid naive column row metadata) : Keepable metadata := by
  obtain ⟨shown, held⟩ : ∃ shown,
      column.holdOptional (metadata.playedAt.or row.playedAt) = some shown := by
    cases present : metadata.playedAt with
    | none =>
        rw [Option.none_or]
        exact ⟨_, holdOptional_indexable asRead.playedAt asRead.indexable.2⟩
    | some t =>
        obtain ⟨kept, holds⟩ := Option.ne_none_iff_exists'.mp (accepted t present)
        exact ⟨some kept, by simp [DateTime64.holdOptional, holds]⟩
  have read : reread uuid naive column (mergedRow row metadata) =
      some { (mergedRow row metadata).settled with
        playedAt := shown.map DateTime.truncMillis } := by
    rw [reread_eq asRead whole, held, Option.map_some]
  constructor
  · intro empty
    -- the row has no rule where the bytes have an empty one
    have differs : rewritten row metadata = some (mergedRow row metadata) := by
      refine rewritten_eq_some_iff.mpr ⟨rfl, fun same => asRead.rule ?_⟩
      rw [← same.1, empty]
      rfl
    have none_ := (rewritten_eq_none_iff.mp (quiet _ _ differs read)).1
    rw [empty] at none_
    have back : (mergedRow row metadata).settled.rule = none := by
      simp [mergedRow, Store.Record.settled, empty, Option.filter_some]
    change some "" = (mergedRow row metadata).settled.rule at none_
    rw [back] at none_
    cases none_
  · intro t present
    have differs_or : IndexableYear t ∨ row.playedAt ≠ some t := by
      by_cases own : row.playedAt = some t
      · exact Or.inl (asRead.indexable.2 t own)
      · exact Or.inr own
    rcases differs_or with years | other
    · exact years
    · have differs : rewritten row metadata = some (mergedRow row metadata) := by
        refine rewritten_eq_some_iff.mpr ⟨rfl, fun same => other ?_⟩
        rw [← same.2, present]
        rfl
      have same := (rewritten_eq_none_iff.mp (quiet _ _ differs read)).2
      rw [present, Option.some_or] at same held
      obtain ⟨kept, holds, rfl⟩ := Option.map_eq_some_iff.mp held
      change some t = (some kept).map DateTime.truncMillis at same
      rw [Option.map_some, Option.some.injEq] at same
      have years : IndexableYear kept.truncMillis := column.hold_range t kept holds
      rwa [← same] at years

/-- **A second pass is quiet exactly when the table shows the metadata again.** -/
theorem second_pass_quiet_iff {serde : Serde} {raw : Bytes} (asRead : AsRead row)
    (parsed : parseMetadata serde raw = .ok metadata) :
    SecondPassQuiet uuid naive column row metadata ↔
      Keepable metadata ∨ ∃ t, metadata.playedAt = some t ∧ column.hold t = none := by
  have whole : ∀ t, metadata.playedAt = some t → t.truncMillis = t := fun t played =>
    playedAt_whole parsed played
  constructor
  · intro quiet
    by_cases refused : ∃ t, metadata.playedAt = some t ∧ column.hold t = none
    · exact Or.inr refused
    · left
      refine keepable_of_quiet asRead whole (fun t played none_ => ?_) quiet
      exact refused ⟨t, played, none_⟩
  · rintro (keepable | ⟨t, played, refused⟩)
    · exact quiet_of_keepable asRead whole keepable
    · exact quiet_of_refused asRead whole played refused

end Quiet

/-! ## A record with an empty rule -/

/-- A column that refuses what it cannot hold. -/
def strictColumn : DateTime64 where
  hold := fun t => if 1900 ≤ t.year ∧ t.year ≤ 2299 then some t.truncMillis else none
  hold_indexable := fun t years => if_pos years
  hold_range := by
    intro t kept held
    split at held
    · rename_i years
      cases held
      exact years
    · cases held

def ruledText (rule : String) : String :=
  "[\x7b\"type\":\"start_game\",\"rule\":\"" ++ rule ++ "\"\x7d]"

def ruledSerde (rule : String) : Serde where
  fromStr := fun _ => .error "expected value at line 1 column 1"
  fromStrVec := fun text =>
    if text = ruledText rule then
      .ok [.object [("type", .string "start_game"), ("rule", .string rule)]]
    else .error "expected value at line 1 column 1"
  print := fun _ => ""

/-- A row from before rules were read. -/
def unruledRow : Store.Record where
  id := 1
  source := "upload"
  sha256 := "ab"
  receivedAt := .ofParts 1784207242 123000000 rfl
  playedAt := none
  players := []
  rule := none
  eventCount := 1
  storage := ⟨"packs/1", 12, 34, 56, .zstd⟩
  majsoulPb := none

theorem unruledRow_asRead : AsRead unruledRow := by
  refine ⟨by decide, ⟨⟨by decide, by decide⟩, ?_⟩, by decide, ?_⟩
  · intro at_ present
    cases present
  · intro pb present
    cases present

/-- The metadata of a header with this rule and no start time. -/
theorem ruled_parses {rule : String}
    (shown : (parseMetadata (ruledSerde rule) (utf8 (ruledText rule))).toOption.map
      (fun metadata => (metadata.rule, metadata.playedAt)) = some (some rule, none)) :
    ∃ metadata, parseMetadata (ruledSerde rule) (utf8 (ruledText rule)) = .ok metadata ∧
      metadata.rule = some rule ∧ metadata.playedAt = none := by
  cases parsed : parseMetadata (ruledSerde rule) (utf8 (ruledText rule)) with
  | error reason =>
      rw [parsed] at shown
      cases shown
  | ok metadata =>
      rw [parsed] at shown
      simp only [Except.toOption, Option.map_some, Option.some.injEq, Prod.mk.injEq] at shown
      exact ⟨metadata, rfl, shown⟩

theorem second_pass_quiet_with_rule :
    ∃ metadata, parseMetadata (ruledSerde "4p-east") (utf8 (ruledText "4p-east")) = .ok metadata ∧
      metadata.rule = some "4p-east" ∧
      SecondPassQuiet uuidText naiveText strictColumn unruledRow metadata := by
  obtain ⟨metadata, parsed, rule, played⟩ := ruled_parses
    (show _ = some (some "4p-east", none) by decide +kernel)
  refine ⟨metadata, parsed, rule, (second_pass_quiet_iff unruledRow_asRead parsed).mpr (Or.inl ?_)⟩
  refine ⟨by simp [rule], ?_⟩
  intro t present
  rw [played] at present
  cases present

theorem empty_rule_rewritten_again :
    ∃ metadata, parseMetadata (ruledSerde "") (utf8 (ruledText "")) = .ok metadata ∧
      ¬ SecondPassQuiet uuidText naiveText strictColumn unruledRow metadata := by
  obtain ⟨metadata, parsed, rule, played⟩ := ruled_parses
    (show _ = some (some "", none) by decide +kernel)
  have untimed : ∀ t, metadata.playedAt ≠ some t := by
    intro t present
    rw [played] at present
    cases present
  refine ⟨metadata, parsed, fun quiet => ?_⟩
  have keepable := keepable_of_quiet unruledRow_asRead (fun t present => absurd present (untimed t))
    (fun t present => absurd present (untimed t)) quiet
  exact keepable.1 rule

end MajsoulManager.Index
