/-
# Theory.Keyset — reading a set page by page

Rows with distinct keys, largest key first.  A page is the first rows below a
cursor, and the cursor after it is made of its last row when one more row follows.
Cursors may be carried in another form between two pages, as long as the key they
stand for survives.

`walk_exact`: following the cursors from the first page until there is none returns
every row once, in order, whatever the limit.  `page_spec` and `Walked` say what is left of
that when the rows change between two pages.
-/
import Mathlib

namespace MajsoulManager.Theory.Keyset

set_option autoImplicit false

section Pages

variable {α K C : Type} [LinearOrder K] (key : α → K) (position : C → K) (mark : α → C)

/-- Largest key first. -/
def descending (rows : List α) : List α := rows.insertionSort fun a b => key b ≤ key a

/-- Whether a row stands below the cursor, if there is one. -/
def below (cursor : Option C) (row : α) : Bool := cursor.all fun c => key row < position c

/-- A page of `limit` rows, and the cursor after it when more follow. -/
def page (rows : List α) (limit : Nat) (cursor : Option C) : List α × Option C :=
  let found := (descending key (rows.filter (below key position cursor))).take (limit + 1)
  if limit < found.length then (found.take limit, (found.take limit).getLast?.map mark)
  else (found, none)

/-- Follow the cursors, at most `fuel` pages. -/
def walk (read : Option C → List α × Option C) (carry : C → Option C) :
    Nat → Option C → Option (List α)
  | 0, _ => none
  | fuel + 1, cursor =>
      match read cursor with
      | (page, none) => some page
      | (page, some next) => do
          let carried ← carry next
          let rest ← walk read carry fuel (some carried)
          some (page ++ rest)

variable {key position mark}

/-! ## One order -/

theorem descending_perm (rows : List α) : (descending key rows).Perm rows :=
  List.perm_insertionSort _ rows

theorem descending_pairwise (rows : List α) :
    (descending key rows).Pairwise fun a b => key b ≤ key a := by
  have total : Std.Total fun a b : α => key b ≤ key a := ⟨fun a b => le_total (key b) (key a)⟩
  have trans : IsTrans α fun a b => key b ≤ key a := ⟨fun _ _ _ first second => second.trans first⟩
  exact List.pairwise_insertionSort _ rows

/-- With distinct keys the order is strict. -/
theorem descending_strict {rows : List α} (distinct : (rows.map key).Nodup) :
    (descending key rows).Pairwise fun a b => key b < key a := by
  have nodup : ((descending key rows).map key).Nodup :=
    ((descending_perm rows).map key).nodup_iff.mpr distinct
  have differ : (descending key rows).Pairwise fun a b => key a ≠ key b := List.pairwise_map.mp nodup
  refine ((descending_pairwise rows).and differ).imp ?_
  intro a b both
  exact lt_of_le_of_ne both.1 (Ne.symm both.2)

/-- **Filtering and ordering commute**, with distinct keys. -/
theorem descending_filter {rows : List α} (distinct : (rows.map key).Nodup) (keep : α → Bool) :
    descending key (rows.filter keep) = (descending key rows).filter keep := by
  refine List.Perm.eq_of_pairwise ?_ (descending_pairwise _)
    ((descending_pairwise rows).filter keep)
    ((descending_perm _).trans ((descending_perm rows).symm.filter keep))
  intro a b first second le ge
  have here : a ∈ rows := (List.mem_filter.mp ((descending_perm _).mem_iff.mp first)).1
  have there : b ∈ rows := (descending_perm rows).mem_iff.mp (List.mem_filter.mp second).1
  exact List.inj_on_of_nodup_map distinct here there (le_antisymm ge le)

/-- Below the key of a row stand the rows after it. -/
theorem filter_below {sorted : List α} (strict : sorted.Pairwise fun a b => key b < key a) {i : Nat}
    (inside : i < sorted.length) :
    sorted.filter (fun row => key row < key sorted[i]) = sorted.drop (i + 1) := by
  have parts : sorted.take (i + 1) ++ sorted.drop (i + 1) = sorted := List.take_append_drop _ _
  have before : (sorted.take (i + 1)).filter (fun row => key row < key sorted[i]) = [] := by
    refine List.filter_eq_nil_iff.mpr fun row member => ?_
    obtain ⟨j, bound, rfl⟩ := List.mem_iff_getElem.mp member
    rw [List.length_take] at bound
    rw [List.getElem_take, decide_eq_true_eq, not_lt]
    rcases Nat.lt_or_eq_of_le (show j ≤ i by omega) with earlier | rfl
    · exact (List.pairwise_iff_getElem.mp strict j i (by omega) inside earlier).le
    · exact le_refl _
  have after : (sorted.drop (i + 1)).filter (fun row => key row < key sorted[i]) =
      sorted.drop (i + 1) := by
    refine List.filter_eq_self.mpr fun row member => ?_
    obtain ⟨j, bound, rfl⟩ := List.mem_iff_getElem.mp member
    rw [List.length_drop] at bound
    rw [List.getElem_drop, decide_eq_true_eq]
    exact List.pairwise_iff_getElem.mp strict i (i + 1 + j) inside (by omega) (by omega)
  calc sorted.filter (fun row => key row < key sorted[i])
      = (sorted.take (i + 1) ++ sorted.drop (i + 1)).filter (fun row => key row < key sorted[i]) := by
        rw [parts]
    _ = sorted.drop (i + 1) := by rw [List.filter_append, before, after, List.nil_append]

/-! ## The walk -/

/-- The cursor stands after the first `i` rows. -/
def StandsAt (key : α → K) (position : C → K) (sorted : List α) (cursor : Option C) (i : Nat) :
    Prop :=
  (cursor = none ∧ i = 0) ∨
    ∃ c j, ∃ inside : j < sorted.length, cursor = some c ∧ i = j + 1 ∧ position c = key sorted[j]

theorem below_standsAt {rows : List α} (distinct : (rows.map key).Nodup) {cursor : Option C}
    {i : Nat} (stands : StandsAt key position (descending key rows) cursor i) :
    descending key (rows.filter (below key position cursor)) = (descending key rows).drop i := by
  rw [descending_filter distinct]
  rcases stands with ⟨rfl, rfl⟩ | ⟨c, j, inside, rfl, rfl, same⟩
  · simp [below]
  · have keep : below key position (some c) =
        fun row => decide (key row < key (descending key rows)[j]) := by
      funext row
      simp [below, same]
    rw [keep, filter_below (descending_strict distinct) inside]

/-- A page with no more rows after it. -/
theorem page_last {rows : List α} (distinct : (rows.map key).Nodup) {cursor : Option C} {i limit : Nat}
    (stands : StandsAt key position (descending key rows) cursor i)
    (few : (descending key rows).length ≤ i + limit) :
    page key position mark rows limit cursor = ((descending key rows).drop i, none) := by
  have rest : ((descending key rows).drop i).length ≤ limit := by
    rw [List.length_drop]
    omega
  rw [page, below_standsAt distinct stands, List.take_of_length_le (by omega), if_neg (by omega)]

/-- A page with more rows after it: the cursor stands at its last row. -/
theorem page_more {rows : List α} (distinct : (rows.map key).Nodup) {cursor : Option C} {i limit : Nat}
    (stands : StandsAt key position (descending key rows) cursor i) (positive : 1 ≤ limit)
    (inside : i + limit - 1 < (descending key rows).length)
    (more : i + limit < (descending key rows).length) :
    page key position mark rows limit cursor =
      (((descending key rows).drop i).take limit,
        some (mark (descending key rows)[i + limit - 1])) := by
  have full : (((descending key rows).drop i).take (limit + 1)).length = limit + 1 := by
    rw [List.length_take, List.length_drop]
    omega
  have sized : (((descending key rows).drop i).take limit).length = limit := by
    rw [List.length_take, List.length_drop]
    omega
  have last : (((descending key rows).drop i).take limit).getLast? =
      some (descending key rows)[i + limit - 1] := by
    rw [List.getLast?_eq_getElem?, sized, List.getElem?_take_of_lt (by omega), List.getElem?_drop,
      show i + (limit - 1) = i + limit - 1 by omega, List.getElem?_eq_getElem inside]
  rw [page, below_standsAt distinct stands, if_pos (by omega), List.take_take,
    Nat.min_eq_left (by omega), last]
  rfl

/-- **Every row once, in order.**  `rows.length + 1` pages are always enough. -/
theorem walk_exact {rows : List α} (distinct : (rows.map key).Nodup) {limit : Nat}
    (positive : 1 ≤ limit) {carry : C → Option C}
    (carried : ∀ row ∈ rows, ∃ c, carry (mark row) = some c ∧ position c = key row) {fuel : Nat}
    (enough : rows.length < fuel) :
    walk (page key position mark rows limit) carry fuel none = some (descending key rows) := by
  have size : (descending key rows).length = rows.length := (descending_perm rows).length_eq
  -- from a cursor after `i` rows, the rest of the rows
  have reads : ∀ fuel cursor i, StandsAt key position (descending key rows) cursor i →
      i ≤ (descending key rows).length → (descending key rows).length < fuel + i →
      walk (page key position mark rows limit) carry fuel cursor =
        some ((descending key rows).drop i) := by
    intro fuel
    induction fuel with
    | zero =>
        intro cursor i stands inside short
        omega
    | succ fuel ih =>
        intro cursor i stands inside enough
        rw [walk]
        by_cases few : (descending key rows).length ≤ i + limit
        · rw [page_last distinct stands few]
        · have last : i + limit - 1 < (descending key rows).length := by omega
          have member : (descending key rows)[i + limit - 1] ∈ rows :=
            (descending_perm rows).mem_iff.mp (List.getElem_mem last)
          obtain ⟨c, read, same⟩ := carried _ member
          have next : StandsAt key position (descending key rows) (some c) (i + limit) :=
            .inr ⟨c, i + limit - 1, last, rfl, by omega, same⟩
          rw [page_more distinct stands positive last (by omega)]
          simp only [read, ih (some c) (i + limit) next (by omega) (by omega), bind, Option.bind]
          rw [← List.drop_drop, List.take_append_drop]
  have all := reads fuel none 0 (.inl ⟨rfl, rfl⟩) (by omega) (by omega)
  rwa [List.drop_zero] at all

/-! ## Over rows that change -/

/-- What a page says of the rows it was read from, from whatever cursor. -/
structure PageSpec (key : α → K) (position : C → K) (rows : List α) (cursor : Option C)
    (got : List α) (next : Option C) : Prop where
  strict : got.Pairwise fun a b => key b < key a
  found : ∀ row ∈ got, row ∈ rows ∧ below key position cursor row = true
  stands : ∀ c, next = some c → got.getLast?.map key = some (position c)
  rest : ∀ row ∈ rows, below key position cursor row = true →
    row ∈ got ∨ ∃ c, next = some c ∧ key row < position c

/-- **One page, from any cursor**: it is in order, its cursor stands at its last row, and of
the rows below the old cursor those it leaves out are below the new one. -/
theorem page_spec {rows : List α} (distinct : (rows.map key).Nodup) {limit : Nat}
    (positive : 1 ≤ limit) (marked : ∀ row ∈ rows, position (mark row) = key row)
    (cursor : Option C) {got : List α} {next : Option C}
    (read : page key position mark rows limit cursor = (got, next)) :
    PageSpec key position rows cursor got next := by
  have sorted : (descending key (rows.filter (below key position cursor))).Pairwise
      fun a b => key b < key a :=
    descending_strict (distinct.sublist (List.filter_sublist.map _))
  have members : ∀ row, row ∈ descending key (rows.filter (below key position cursor)) ↔
      row ∈ rows ∧ below key position cursor row = true := by
    intro row
    rw [(descending_perm _).mem_iff, List.mem_filter]
  rw [page] at read
  generalize descending key (rows.filter (below key position cursor)) = found at sorted members read
  simp only [List.length_take, List.take_take] at read
  split at read
  · rename_i more
    have long : limit < found.length := by omega
    obtain ⟨rfl, rfl⟩ := Prod.mk.inj read
    rw [Nat.min_eq_left (by omega : limit ≤ limit + 1)]
    have sized : (found.take limit).length = limit := by
      rw [List.length_take]
      omega
    have last : (found.take limit).getLast? = some found[limit - 1] := by
      rw [List.getLast?_eq_getElem?, sized, List.getElem?_take_of_lt (by omega),
        List.getElem?_eq_getElem (by omega)]
    have marks : position (mark found[limit - 1]) = key found[limit - 1] :=
      marked _ ((members _).mp (List.getElem_mem _)).1
    refine ⟨sorted.sublist (List.take_sublist _ _),
      fun row member => (members row).mp (List.mem_of_mem_take member), ?_, ?_⟩
    · intro c here
      rw [last, Option.map_some, Option.some_inj] at here
      rw [last, Option.map_some, ← here, marks]
    · intro row member under
      obtain ⟨j, inside, rfl⟩ := List.mem_iff_getElem.mp ((members row).mpr ⟨member, under⟩)
      by_cases early : j < limit
      · exact .inl (List.mem_take_iff_getElem.mpr ⟨j, by omega, rfl⟩)
      · refine .inr ⟨mark found[limit - 1], by rw [last, Option.map_some], ?_⟩
        rw [marks]
        exact List.pairwise_iff_getElem.mp sorted (limit - 1) j (by omega) inside (by omega)
  · rename_i few
    have short : found.length ≤ limit := by omega
    obtain ⟨rfl, rfl⟩ := Prod.mk.inj read
    rw [List.take_of_length_le (by omega)]
    exact ⟨sorted, fun row member => (members row).mp member, nofun,
      fun row member under => .inl ((members row).mpr ⟨member, under⟩)⟩

/-- What a walk has read, in order, and a cursor that stands at the last of it. -/
structure Walked (key : α → K) (position : C → K) (read : List α) (cursor : Option C) : Prop where
  strict : read.Pairwise fun a b => key b < key a
  stands : cursor.map position = read.getLast?.map key

namespace Walked

theorem start : Walked key position ([] : List α) (none : Option C) := ⟨List.Pairwise.nil, rfl⟩

/-- Whatever is below the cursor is below all that has been read. -/
theorem below_read {read : List α} {cursor : Option C} (walked : Walked key position read cursor)
    {row : α} (under : below key position cursor row = true) : ∀ old ∈ read, key row < key old := by
  intro old member
  obtain ⟨shorter, last, rfl⟩ := List.eq_nil_or_concat' read |>.resolve_left
    (List.ne_nil_of_mem member)
  cases cursor with
  | none => simpa using walked.stands
  | some c =>
      have stands : position c = key last := by simpa using walked.stands
      have less : key row < key last := by
        rw [below, Option.all_some, decide_eq_true_eq, stands] at under
        exact under
      rcases List.mem_append.mp member with earlier | here
      · have apart := (List.pairwise_append.mp walked.strict).2.2 old earlier last (by simp)
        exact less.trans apart
      · rwa [List.mem_singleton.mp here]

/-- The pages of a walk follow each other, whatever rows each of them was read from. -/
theorem append {read rows got : List α} {cursor next : Option C}
    (walked : Walked key position read cursor)
    (spec : PageSpec key position rows cursor got next) :
    (read ++ got).Pairwise fun a b => key b < key a := by
  refine List.pairwise_append.mpr ⟨walked.strict, spec.strict, fun old member row new => ?_⟩
  exact walked.below_read (spec.found row new).2 old member

theorem next {read rows got : List α} {cursor : Option C} {c : C}
    (walked : Walked key position read cursor)
    (spec : PageSpec key position rows cursor got (some c)) :
    Walked key position (read ++ got) (some c) := by
  refine ⟨walked.append spec, ?_⟩
  have last := spec.stands c rfl
  obtain ⟨row, here, same⟩ := Option.map_eq_some_iff.mp last
  rw [List.getLast?_append, here, Option.map_some, ← same]
  rfl

end Walked

end Pages

end MajsoulManager.Theory.Keyset
