/-
# Index.MonthBlocks — seat rows split by month for their inserts

`month_blocks` of `catalog.rs`.  The table is partitioned by month and an insert
block may not touch too many partitions, so the rows are grouped by month and a
block is closed once it holds `MAX_MONTHS_PER_INSERT` of them.
-/
import MajsoulManager.Theory.Grouping
import MajsoulManager.Store.RowText

namespace MajsoulManager.Index

open MajsoulManager.Theory
open MajsoulManager.Store

set_option autoImplicit false

def maxMonthsPerInsert : Nat := 64

/-- `(year, month)`, compared in that order. -/
def monthOf (game : PlayerGame) : Int ×ₗ Int :=
  toLex (game.playedAt.year, game.playedAt.month)

/-- `Vec::join("\n")`. -/
def joinLines (rows : List String) : String :=
  String.ofList (Text.joinWith '\n' (rows.map String.toList))

section Blocks

variable (floatText : UInt64 → List Char) (uuid : UuidText)

def monthBlocks (games : List PlayerGame) : List String :=
  let byMonth := groupRows monthOf (playerGameText floatText uuid) games
  (closeBatches maxMonthsPerInsert (byMonth.map Prod.snd) [] 0).map joinLines

end Blocks

/-- The months a block's rows belong to. -/
def monthsIn (rows : List PlayerGame) : List (Int ×ₗ Int) := (rows.map monthOf).dedup

/-! ## The lines of a block -/

theorem linesFrom_plain {line : List Char} (inside : '\n' ∉ line) (current : List Char)
    (some_ : current.reverse ++ line ≠ []) :
    Text.linesFrom current line = [current.reverse ++ line] := by
  induction line generalizing current with
  | nil =>
      have held : current ≠ [] := by simpa using some_
      simp [Text.linesFrom, held]
  | cons c rest ih =>
      obtain ⟨other, later⟩ := not_or.mp (List.mem_cons.not.mp inside)
      rw [Text.linesFrom, if_neg (Ne.symm other), ih later _ (by simp)]
      simp

/-- **Joined rows are the lines of their block.** -/
theorem lines_joinLines {rows : List String}
    (clean : ∀ row ∈ rows, '\n' ∉ row.toList ∧ '\r' ∉ row.toList ∧ row.toList ≠ []) :
    Text.lines (joinLines rows) = rows := by
  have chars : Text.linesFrom [] (Text.joinWith '\n' (rows.map String.toList)) =
      rows.map String.toList := by
    induction rows with
    | nil => rfl
    | cons row rest ih =>
        obtain ⟨⟨newline, carriage, some_⟩, later⟩ := List.forall_mem_cons.mp clean
        cases rest with
        | nil => exact linesFrom_plain newline [] (by simpa using some_)
        | cons next rest =>
            simp only [List.map_cons, Text.joinWith] at ih ⊢
            rw [Text.linesFrom_line newline, ih later, List.reverse_nil, List.nil_append,
              Text.dropCarriageReturn_of_not_mem carriage]
  rw [Text.lines, joinLines, String.toList_ofList, chars, List.map_map]
  simp

theorem playerGameText_clean (floatText : UInt64 → List Char) (uuid : UuidText)
    (game : PlayerGame) :
    '\n' ∉ (playerGameText floatText uuid game).toList ∧
      '\r' ∉ (playerGameText floatText uuid game).toList ∧
      (playerGameText floatText uuid game).toList ≠ [] := by
  have printable := playerGameText_printable floatText uuid game
  refine ⟨?_, ?_, playerGameText_ne_empty floatText uuid game⟩
  · intro member
    exact absurd (printable _ member) (by decide)
  · intro member
    exact absurd (printable _ member) (by decide)

/-! ## The months of a block -/

/-- Groups under distinct keys hold as many keys as there are groups. -/
theorem length_dedup_keys {κ α : Type} [DecidableEq κ] (key : α → κ)
    {groups : List (κ × List α)} (distinct : (groups.map Prod.fst).Nodup)
    (own : ∀ group ∈ groups, group.2 ≠ [] ∧ ∀ row ∈ group.2, key row = group.1) :
    ((groups.flatMap Prod.snd).map key).dedup.length = groups.length := by
  have same : ((groups.flatMap Prod.snd).map key).dedup.Perm (groups.map Prod.fst) := by
    refine (List.perm_ext_iff_of_nodup (List.nodup_dedup _) distinct).mpr fun k => ?_
    rw [List.mem_dedup, List.mem_map, List.mem_map]
    constructor
    · rintro ⟨row, inside, rfl⟩
      obtain ⟨group, member, held⟩ := List.mem_flatMap.mp inside
      exact ⟨group, member, ((own group member).2 row held).symm⟩
    · rintro ⟨group, member, rfl⟩
      obtain ⟨row, rest, rows⟩ := List.exists_cons_of_ne_nil (own group member).1
      have held : row ∈ group.2 := by simp [rows]
      exact ⟨row, List.mem_flatMap.mpr ⟨group, member, held⟩, (own group member).2 row held⟩
  rw [same.length_eq, List.length_map]

/-- The rows of one key among groups that each hold their own key's. -/
theorem filter_flatMap_key {κ α : Type} [DecidableEq κ] {key : α → κ}
    {groups : List (κ × List α)} (distinct : (groups.map Prod.fst).Nodup)
    (own : ∀ group ∈ groups, ∀ row ∈ group.2, key row = group.1) {k : κ} {rows : List α}
    (member : (k, rows) ∈ groups) :
    (groups.flatMap Prod.snd).filter (fun row => key row = k) = rows := by
  induction groups with
  | nil => cases member
  | cons first rest ih =>
      obtain ⟨here, later⟩ := List.forall_mem_cons.mp own
      rw [List.map_cons, List.nodup_cons] at distinct
      rw [List.flatMap_cons, List.filter_append]
      rcases List.mem_cons.mp member with rfl | inside
      · have others : (rest.flatMap Prod.snd).filter (fun row => key row = k) = [] := by
          refine List.filter_eq_nil_iff.mpr fun row held => ?_
          obtain ⟨group, among, holds⟩ := List.mem_flatMap.mp held
          have same := later group among row holds
          simp only [decide_eq_true_eq]
          intro equal
          refine distinct.1 (List.mem_map.mpr ⟨group, among, ?_⟩)
          rw [← same, equal]
        have all : rows.filter (fun row => key row = k) = rows :=
          List.filter_eq_self.mpr fun row held => by simpa using here row held
        rw [others, all, List.append_nil]
      · have none : first.2.filter (fun row => key row = k) = [] := by
          refine List.filter_eq_nil_iff.mpr fun row held => ?_
          simp only [decide_eq_true_eq]
          intro equal
          refine distinct.1 (List.mem_map.mpr ⟨(k, rows), inside, ?_⟩)
          rw [← here row held, equal]
        rw [none, List.nil_append]
        exact ih distinct.2 later inside

/-! ## The blocks -/

/-- The groups of a block's months, and the rows they hold. -/
structure Packed (games : List PlayerGame) (parts : List (List ((Int ×ₗ Int) × List PlayerGame))) :
    Prop where
  packing : Packing maxMonthsPerInsert (groupRows monthOf id games) parts
  own : ∀ group ∈ groupRows monthOf id games,
    group.2 ≠ [] ∧ ∀ row ∈ group.2, monthOf row = group.1
  distinct : ((groupRows monthOf id games).map Prod.fst).Nodup

section Packed

variable {games : List PlayerGame} {parts : List (List ((Int ×ₗ Int) × List PlayerGame))}

theorem Packed.mem_groups (packed : Packed games parts) {part : List ((Int ×ₗ Int) × List PlayerGame)}
    (member : part ∈ parts) : ∀ group ∈ part, group ∈ groupRows monthOf id games := by
  intro group inside
  rw [← packed.packing.whole]
  exact List.mem_flatten.mpr ⟨part, member, inside⟩

theorem Packed.distinct_part (packed : Packed games parts)
    {part : List ((Int ×ₗ Int) × List PlayerGame)} (member : part ∈ parts) :
    (part.map Prod.fst).Nodup := by
  have sub : part.Sublist (groupRows monthOf id games) := by
    rw [← packed.packing.whole]
    exact List.sublist_flatten_of_mem member
  exact packed.distinct.sublist (sub.map Prod.fst)

/-- A block spans as many months as it has groups. -/
theorem Packed.months_part (packed : Packed games parts)
    {part : List ((Int ×ₗ Int) × List PlayerGame)} (member : part ∈ parts) :
    (monthsIn (part.flatMap Prod.snd)).length = part.length :=
  length_dedup_keys monthOf (packed.distinct_part member) fun group inside =>
    packed.own group (packed.mem_groups member group inside)

/-- A month's rows are in one block, in their input order, and in no other. -/
theorem Packed.month_together (packed : Packed games parts) {game : PlayerGame}
    (row : game ∈ games) :
    ∃ before part after, parts = before ++ part :: after ∧
      (part.flatMap Prod.snd).filter (fun other => monthOf other = monthOf game) =
        games.filter (fun other => monthOf other = monthOf game) ∧
      ∀ other ∈ before ++ after, ∀ seat ∈ other.flatMap Prod.snd, monthOf seat ≠ monthOf game := by
  have group : (monthOf game, games.filter fun other => monthOf other = monthOf game) ∈
      groupRows monthOf id games := by
    rw [mem_groupRows]
    refine ⟨by simp, ?_⟩
    exact List.ne_nil_of_mem (List.mem_filter.mpr ⟨row, by simp⟩)
  obtain ⟨part, member, inside⟩ := List.mem_flatten.mp (packed.packing.whole.symm ▸ group)
  obtain ⟨before, after, cut⟩ := List.append_of_mem member
  have ownRows : ∀ part ∈ parts, ∀ group ∈ part, ∀ row ∈ group.2, monthOf row = group.1 :=
    fun part member group inside => (packed.own group (packed.mem_groups member group inside)).2
  refine ⟨before, part, after, cut, ?_, ?_⟩
  · exact filter_flatMap_key (packed.distinct_part member) (ownRows part member) inside
  · intro other elsewhere seat held same
    obtain ⟨holder, among, holds⟩ := List.mem_flatMap.mp held
    -- the other block would hold a group of the same month
    have keys : (((before.flatten ++ after.flatten) ++ part).map Prod.fst).Nodup := by
      refine (List.Perm.nodup_iff (List.Perm.map Prod.fst ?_)).mp packed.distinct
      rw [← packed.packing.whole, cut, List.flatten_append, List.flatten_cons, List.append_assoc]
      exact List.Perm.append_left _ List.perm_append_comm
    have outside : other ∈ parts := by
      rw [cut]
      rcases List.mem_append.mp elsewhere with first | last
      · exact List.mem_append_left _ first
      · exact List.mem_append_right _ (List.mem_cons_of_mem _ last)
    have foreign : holder ∈ before.flatten ++ after.flatten := by
      rw [← List.flatten_append]
      exact List.mem_flatten.mpr ⟨other, elsewhere, among⟩
    have key : holder.1 = monthOf game := by
      rw [← ownRows other outside holder among seat holds, same]
    rw [List.map_append, List.nodup_append'] at keys
    refine keys.2.2 (List.mem_map_of_mem foreign) ?_
    rw [key]
    exact List.mem_map_of_mem inside

end Packed

theorem monthBlocks_parts (floatText : UInt64 → List Char) (uuid : UuidText)
    (games : List PlayerGame) :
    ∃ parts, Packed games parts ∧
      monthBlocks floatText uuid games =
        parts.map fun part =>
          joinLines ((part.flatMap Prod.snd).map (playerGameText floatText uuid)) := by
  have own : ∀ group ∈ groupRows monthOf id games,
      group.2 ≠ [] ∧ ∀ row ∈ group.2, monthOf row = group.1 := by
    rintro ⟨k, rows⟩ member
    obtain ⟨rfl, some_⟩ := (mem_groupRows monthOf id games k rows).mp member
    refine ⟨some_, fun row held => ?_⟩
    rw [List.map_id] at held
    simpa using (List.mem_filter.mp held).2
  obtain ⟨parts, same, packing⟩ := closeBatches_eq (fun group member => (own group member).1) []
    (by simp) (show [].length < maxMonthsPerInsert by decide)
  refine ⟨parts, ⟨packing, own, (groupRows_sorted _ _ _).nodup⟩, ?_⟩
  have texts : (groupRows monthOf (playerGameText floatText uuid) games).map Prod.snd =
      ((groupRows monthOf id games).map Prod.snd).map (List.map (playerGameText floatText uuid)) := by
    have mapped := groupRows_map (playerGameText floatText uuid) monthOf id games
    simp only [id_eq] at mapped
    rw [mapped, List.map_map, List.map_map]
    rfl
  have closed := closeBatches_map (playerGameText floatText uuid) maxMonthsPerInsert
    ((groupRows monthOf id games).map Prod.snd) [] 0
  simp only [List.flatMap_nil, List.length_nil] at same
  rw [same, List.map_nil] at closed
  show (closeBatches maxMonthsPerInsert ((groupRows monthOf (playerGameText floatText uuid)
    games).map Prod.snd) [] 0).map joinLines = _
  rw [texts, closed, List.map_map, List.map_map]
  rfl

/-- **Every row is one line of one block, whole months together, under the bound.** -/
theorem monthBlocks_packed (floatText : UInt64 → List Char) (uuid : UuidText)
    (games : List PlayerGame) :
    ∃ packed : List (List PlayerGame),
      (monthBlocks floatText uuid games).map Text.lines =
        packed.map (List.map (playerGameText floatText uuid)) ∧
      (∀ rows ∈ packed, rows ≠ []) ∧
      packed.flatten.Perm games ∧
      (∀ rows ∈ packed, (monthsIn rows).length ≤ maxMonthsPerInsert) ∧
      (∀ game ∈ games, ∃ before rows after, packed = before ++ rows :: after ∧
        rows.filter (fun other => monthOf other = monthOf game) =
          games.filter (fun other => monthOf other = monthOf game) ∧
        ∀ others ∈ before ++ after, ∀ row ∈ others, monthOf row ≠ monthOf game) ∧
      ∀ rows ∈ packed.dropLast, (monthsIn rows).length = maxMonthsPerInsert := by
  obtain ⟨parts, packed, blocks⟩ := monthBlocks_parts floatText uuid games
  refine ⟨parts.map (List.flatMap Prod.snd), ?_, ?_, ?_, ?_, ?_, ?_⟩
  · rw [blocks, List.map_map, List.map_map]
    refine List.map_congr_left fun part member => ?_
    refine lines_joinLines fun row inside => ?_
    obtain ⟨game, -, rfl⟩ := List.mem_map.mp inside
    exact playerGameText_clean floatText uuid game
  · intro rows member
    obtain ⟨part, inside, rfl⟩ := List.mem_map.mp member
    obtain ⟨group, rest, rfl⟩ := List.exists_cons_of_ne_nil (packed.packing.some_ part inside)
    have some_ := (packed.own group (packed.mem_groups inside group List.mem_cons_self)).1
    simp [some_]
  · have flat : (parts.map (List.flatMap Prod.snd)).flatten =
        (groupRows monthOf id games).flatMap Prod.snd := by
      rw [← packed.packing.whole, ← List.flatMap_def, ← List.flatMap_id, List.flatMap_assoc]
      rfl
    rw [flat]
    simpa using flatMap_groupRows_perm monthOf id games
  · intro rows member
    obtain ⟨part, inside, rfl⟩ := List.mem_map.mp member
    rw [packed.months_part inside]
    exact packed.packing.bounded part inside
  · intro game row
    obtain ⟨before, part, after, cut, rows, others⟩ := packed.month_together row
    refine ⟨before.map (List.flatMap Prod.snd), part.flatMap Prod.snd,
      after.map (List.flatMap Prod.snd), by simp [cut], rows, ?_⟩
    intro other member
    rw [← List.map_append] at member
    obtain ⟨elsewhere, inside, rfl⟩ := List.mem_map.mp member
    exact others elsewhere inside
  · intro rows member
    rw [← List.map_dropLast] at member
    obtain ⟨part, inside, rfl⟩ := List.mem_map.mp member
    rw [packed.months_part (List.mem_of_mem_dropLast inside)]
    exact packed.packing.full part inside

end MajsoulManager.Index
