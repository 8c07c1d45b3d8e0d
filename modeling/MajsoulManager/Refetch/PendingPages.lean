/-
# Refetch.PendingPages — the cursor follows the finished prefix

`PendingPages` of `refetch_service.rs` under every order of its calls.  A walk keeps, beside
the queue, what the queue was told and what it gave back: the pages pushed and the numbers
they got, the answers, and the reports.  An answer is for a game in flight, as the sweep
asks for each game of a page once.

A number is the page's place among all pages pushed, `done` of which have left the front
(`kept`); so an answer finds its page until the page commits, and a page commits once
every one of its games has come back served.
-/
import MajsoulManager.Refetch.Sweep

namespace MajsoulManager.Refetch

open MajsoulManager.Theory

set_option autoImplicit false

/-! ## One page -/

namespace PageCommit

/-- What a report says of a page that is alone in it. -/
def listed (page : PageCommit) : Committed := ⟨page.position, page.rows, page.present⟩

/-- A page with some answers booked. -/
def after (page : PageCommit) (answers : List Bool) : PageCommit := answers.foldl book page

@[simp] theorem listed_book (page : PageCommit) (unserved : Bool) :
    (page.book unserved).listed = page.listed := rfl

@[simp] theorem listed_after (page : PageCommit) (answers : List Bool) :
    (page.after answers).listed = page.listed := by
  induction answers generalizing page with
  | nil => rfl
  | cons unserved answers ih => exact (ih (page.book unserved)).trans (page.listed_book unserved)

theorem after_append (page : PageCommit) (answers : List Bool) (unserved : Bool) :
    page.after (answers ++ [unserved]) = (page.after answers).book unserved := by
  rw [after, List.foldl_append]
  rfl

theorem after_outstanding (page : PageCommit) (answers : List Bool) :
    (page.after answers).outstanding = page.outstanding - answers.length := by
  induction answers generalizing page with
  | nil => rfl
  | cons unserved answers ih =>
      show ((page.book unserved).after answers).outstanding = _
      rw [ih, List.length_cons]
      show page.outstanding - 1 - answers.length = _
      omega

theorem after_unserved (page : PageCommit) (answers : List Bool) :
    (page.after answers).unserved = (page.unserved || answers.any id) := by
  induction answers generalizing page with
  | nil => simp [after]
  | cons unserved answers ih =>
      show ((page.book unserved).after answers).unserved = _
      rw [ih, List.any_cons]
      exact Bool.or_assoc ..

/-- A page is finished when all its games have answered and none of them unserved. -/
theorem finished_after_iff {page : PageCommit} {answers : List Bool}
    (within : answers.length ≤ page.outstanding) :
    (page.after answers).finished = true ↔
      answers.length = page.outstanding ∧ page.unserved = false ∧ ∀ unserved ∈ answers, unserved = false := by
  rw [finished, after_outstanding, after_unserved]
  simp only [Bool.and_eq_true, beq_iff_eq, Bool.not_eq_true', Bool.or_eq_false_iff,
    List.any_eq_false, id, Bool.not_eq_true]
  constructor
  · rintro ⟨all, served, answers⟩
    exact ⟨by omega, served, answers⟩
  · rintro ⟨all, served, answers⟩
    exact ⟨by omega, served, answers⟩

end PageCommit

/-! ## One commit -/

/-- A report is about these pages: their counts together, and the position of the last. -/
structure Reports (pages : List Committed) (report : Committed) : Prop where
  position : pages.getLast?.map (·.position) = some report.position
  rows : report.rows = (pages.map (·.rows)).sum
  present : report.present = (pages.map (·.present)).sum

theorem le_length_takeWhile_iff {p : PageCommit → Bool} {list : List PageCommit} {m : Nat} :
    m ≤ (list.takeWhile p).length ↔ ∀ k < m, ∃ page ∈ list[k]?, p page = true := by
  induction list generalizing m with
  | nil =>
      rw [List.takeWhile_nil, List.length_nil, Nat.le_zero]
      constructor
      · rintro rfl k early
        exact absurd early (Nat.not_lt_zero k)
      · intro all
        by_contra some
        obtain ⟨page, present, -⟩ := all 0 (Nat.pos_of_ne_zero some)
        cases present
  | cons page rest ih =>
      rw [List.takeWhile_cons]
      cases m with
      | zero =>
          refine ⟨fun _ k early => absurd early (Nat.not_lt_zero k), fun _ => Nat.zero_le _⟩
      | succ m =>
          split
          · rename_i holds
            rw [List.length_cons, Nat.add_le_add_iff_right, ih]
            constructor
            · intro all k early
              cases k with
              | zero => exact ⟨page, rfl, holds⟩
              | succ k => exact all k (Nat.lt_of_succ_lt_succ early)
            · exact fun all k early => all (k + 1) (Nat.succ_lt_succ early)
          · rename_i fails
            constructor
            · exact fun le => absurd le (Nat.not_succ_le_zero m)
            · intro all
              obtain ⟨_, ⟨⟩, holds⟩ := all 0 (Nat.succ_pos m)
              exact absurd holds fails

theorem committableFrom_pending (list : List PageCommit) (done : Nat) (committed : Option Committed) :
    (committableFrom list done committed).2 =
      ⟨list.dropWhile (·.finished), done + (list.takeWhile (·.finished)).length⟩ := by
  induction list generalizing done committed with
  | nil => rfl
  | cons page rest ih =>
      rw [committableFrom, List.dropWhile_cons, List.takeWhile_cons]
      split
      · rw [ih, List.length_cons, Nat.add_right_comm, Nat.add_assoc]
      · rfl

theorem committableFrom_report (list : List PageCommit) (done : Nat) {before : List Committed}
    {committed : Option Committed} (reports : ∀ c, committed = some c → Reports before c)
    (nothing : committed = none → before = []) :
    (∀ c, (committableFrom list done committed).1 = some c →
        Reports (before ++ (list.takeWhile (·.finished)).map PageCommit.listed) c) ∧
      ((committableFrom list done committed).1 = none →
        before ++ (list.takeWhile (·.finished)).map PageCommit.listed = []) := by
  induction list generalizing done before committed with
  | nil =>
      rw [committableFrom, List.takeWhile_nil, List.map_nil, List.append_nil]
      exact ⟨reports, nothing⟩
  | cons page rest ih =>
      rw [committableFrom, List.takeWhile_cons]
      split
      · -- The page joins what this call has committed so far.
        rw [List.map_cons, List.append_cons]
        refine ih (done + 1) ?_ nofun
        rintro c ⟨⟩
        have sums : (committed.map (·.rows)).getD 0 = (before.map (·.rows)).sum ∧
            (committed.map (·.present)).getD 0 = (before.map (·.present)).sum := by
          cases same : committed with
          | none =>
              rw [nothing same]
              exact ⟨rfl, rfl⟩
          | some c => exact ⟨(reports c same).rows, (reports c same).present⟩
        refine ⟨?_, ?_, ?_⟩
        · rw [List.getLast?_concat]
          rfl
        · rw [List.map_append, List.sum_append, ← sums.1]
          rfl
        · rw [List.map_append, List.sum_append, ← sums.2]
          rfl
      · rw [List.map_nil, List.append_nil]
        exact ⟨reports, nothing⟩

/-! ## Walks -/

structure PageWalk where
  pending : PendingPages := {}
  pages : List PageCommit := []
  tags : List Nat := []
  answers : List (Nat × Bool) := []
  reports : List Committed := []

inductive PageCall where
  | push (page : PageCommit)
  | answered (tag : Nat) (unserved : Bool)
  | committable

namespace PageWalk

def answersTo (walk : PageWalk) (tag : Nat) : List Bool :=
  (walk.answers.filter (·.1 == tag)).map (·.2)

/-- The page with this number has a game that has not come back. -/
def InFlight (walk : PageWalk) (tag : Nat) : Prop :=
  ∃ page ∈ walk.pages[tag]?, (walk.answersTo tag).length < page.outstanding

instance (walk : PageWalk) (tag : Nat) : Decidable (walk.InFlight tag) :=
  match found : walk.pages[tag]? with
  | none => .isFalse (by simp [InFlight, found])
  | some page =>
      decidable_of_iff ((walk.answersTo tag).length < page.outstanding) (by simp [InFlight, found])

/-- All games of the page with this number have answered, and none unserved. -/
def Complete (walk : PageWalk) (tag : Nat) : Prop :=
  ∃ page ∈ walk.pages[tag]?, (walk.answersTo tag).length = page.outstanding ∧
    page.unserved = false ∧ ∀ unserved ∈ walk.answersTo tag, unserved = false

end PageWalk

def pageMachine : Machine PageWalk PageCall where
  Start walk := walk = {}
  step walk
    | .push page =>
        let (pending, tag) := walk.pending.push page
        some { walk with pending, pages := walk.pages ++ [page], tags := walk.tags ++ [tag] }
    | .answered tag unserved =>
        if walk.InFlight tag then
          some { walk with
            pending := walk.pending.answered tag unserved
            answers := walk.answers ++ [(tag, unserved)] }
        else none
    | .committable =>
        let (committed, pending) := walk.pending.committable
        some { walk with pending, reports := walk.reports ++ committed.toList }

/-- The queue holds what the walk was told, less the pages at the front that committed. -/
structure PageWalk.Keeps (walk : PageWalk) : Prop where
  tags : walk.tags = List.range walk.pages.length
  numbered : walk.pages.length = walk.pending.done + walk.pending.pages.length
  kept : ∀ tag page, walk.pages[tag]? = some page → walk.pending.done ≤ tag →
    walk.pending.pages[tag - walk.pending.done]? = some (page.after (walk.answersTo tag))
  within : ∀ tag page, walk.pages[tag]? = some page →
    (walk.answersTo tag).length ≤ page.outstanding
  asked : ∀ tag, walk.pages.length ≤ tag → walk.answersTo tag = []
  committed : ∀ tag < walk.pending.done, walk.Complete tag
  reported : ∃ parts : List (List Committed),
    parts.flatten = (walk.pages.take walk.pending.done).map PageCommit.listed ∧
      List.Forall₂ Reports parts walk.reports

namespace PageWalk

variable {walk : PageWalk}

theorem answersTo_answer (walk : PageWalk) (pending : PendingPages) (tag : Nat) (unserved : Bool)
    (other : Nat) :
    ({ walk with pending, answers := walk.answers ++ [(tag, unserved)] } : PageWalk).answersTo other =
      if tag = other then walk.answersTo other ++ [unserved] else walk.answersTo other := by
  unfold answersTo
  rw [List.filter_append, List.map_append]
  split
  · rename_i same
    simp [same]
  · rename_i apart
    simp [apart]

/-- **An answer finds its page**: a page with a game in flight has not left the front. -/
theorem Keeps.found (keeps : walk.Keeps) {tag : Nat} (flying : walk.InFlight tag) :
    walk.pending.done ≤ tag ∧ tag - walk.pending.done < walk.pending.pages.length := by
  obtain ⟨page, present, more⟩ := flying
  have inside := (List.getElem?_eq_some_iff.mp present).1
  have numbered := keeps.numbered
  constructor
  · by_contra passed
    obtain ⟨page', present', all, -⟩ := keeps.committed tag (by omega)
    obtain rfl : page = page' := Option.some.inj (present.symm.trans present')
    omega
  · by_contra passed
    by_cases front : walk.pending.done ≤ tag
    · omega
    · obtain ⟨page', present', all, -⟩ := keeps.committed tag (by omega)
      obtain rfl : page = page' := Option.some.inj (present.symm.trans present')
      omega

theorem keeps_start : ({} : PageWalk).Keeps where
  tags := rfl
  numbered := rfl
  kept tag page present := by cases present
  within tag page present := by cases present
  asked _ _ := rfl
  committed tag early := absurd early (Nat.not_lt_zero tag)
  reported := ⟨[], rfl, .nil⟩

theorem getElem?_pushed {pages : List PageCommit} {page listed : PageCommit} {tag : Nat}
    (present : (pages ++ [page])[tag]? = some listed) :
    pages[tag]? = some listed ∨ tag = pages.length ∧ listed = page := by
  rw [List.getElem?_append] at present
  split at present
  · exact .inl present
  · rename_i late
    obtain ⟨inside, rfl⟩ := List.getElem?_eq_some_iff.mp present
    rw [List.length_singleton] at inside
    exact .inr ⟨by omega, List.getElem_singleton _⟩

/-- **A page is pushed**: its number is its place among all pages. -/
theorem Keeps.push (keeps : walk.Keeps) (page : PageCommit) :
    ({ walk with
      pending := (walk.pending.push page).1
      pages := walk.pages ++ [page]
      tags := walk.tags ++ [(walk.pending.push page).2] } : PageWalk).Keeps := by
  have numbered := keeps.numbered
  have unanswered := keeps.asked walk.pages.length le_rfl
  refine ⟨?_, ?_, ?_, ?_, ?_, ?_, ?_⟩
  · show walk.tags ++ [walk.pending.done + walk.pending.pages.length] = _
    rw [← numbered, keeps.tags, List.length_append, List.length_singleton, List.range_succ]
  · show (walk.pages ++ [page]).length = walk.pending.done + (walk.pending.pages ++ [page]).length
    rw [List.length_append, List.length_append, numbered, Nat.add_assoc]
  · intro tag listed present front
    show (walk.pending.pages ++ [page])[tag - walk.pending.done]? =
      some (listed.after (walk.answersTo tag))
    rcases getElem?_pushed present with old | ⟨rfl, rfl⟩
    · have inside := (List.getElem?_eq_some_iff.mp old).1
      have front : walk.pending.done ≤ tag := front
      rw [List.getElem?_append_left (by omega)]
      exact keeps.kept tag listed old front
    · rw [unanswered, numbered, Nat.add_sub_cancel_left, List.getElem?_concat_length]
      rfl
  · intro tag listed present
    rcases getElem?_pushed present with old | ⟨rfl, rfl⟩
    · exact keeps.within tag listed old
    · show (walk.answersTo walk.pages.length).length ≤ _
      rw [unanswered]
      exact Nat.zero_le _
  · intro tag late
    have late : (walk.pages ++ [page]).length ≤ tag := late
    rw [List.length_append] at late
    exact keeps.asked tag (by omega)
  · intro tag early
    obtain ⟨listed, present, complete⟩ := keeps.committed tag early
    have inside := (List.getElem?_eq_some_iff.mp present).1
    exact ⟨listed, (List.getElem?_append_left inside).trans present, complete⟩
  · obtain ⟨parts, flat, reports⟩ := keeps.reported
    refine ⟨parts, ?_, reports⟩
    show parts.flatten = ((walk.pages ++ [page]).take walk.pending.done).map PageCommit.listed
    rw [flat, List.take_append_of_le_length (by omega)]

/-- **An answer is booked** on the page it is for, and on no other. -/
theorem Keeps.answered (keeps : walk.Keeps) {tag : Nat} (flying : walk.InFlight tag)
    (unserved : Bool) :
    ({ walk with
      pending := walk.pending.answered tag unserved
      answers := walk.answers ++ [(tag, unserved)] } : PageWalk).Keeps := by
  have numbered := keeps.numbered
  obtain ⟨front, inside⟩ := keeps.found flying
  obtain ⟨page, present, more⟩ := flying
  have booked : walk.pending.answered tag unserved =
      { walk.pending with
        pages := walk.pending.pages.modify (tag - walk.pending.done) (·.book unserved) } := by
    rw [PendingPages.answered, if_neg (by omega)]
  rw [booked]
  refine ⟨keeps.tags, ?_, ?_, ?_, ?_, ?_, keeps.reported⟩
  · show walk.pages.length = walk.pending.done + (walk.pending.pages.modify _ _).length
    rw [List.length_modify, numbered]
  · intro other listed present' front'
    have front' : walk.pending.done ≤ other := front'
    have kept := keeps.kept other listed present' front'
    rw [answersTo_answer]
    show (walk.pending.pages.modify (tag - walk.pending.done) (·.book unserved))[other - walk.pending.done]? = _
    rw [List.getElem?_modify, kept]
    by_cases same : tag = other
    · subst same
      rw [if_pos rfl, PageCommit.after_append, Option.map_eq_map, Option.map_some, if_pos rfl]
    · rw [if_neg same, Option.map_eq_map, Option.map_some, if_neg (by omega)]
  · intro other listed present'
    rw [answersTo_answer]
    split
    · rename_i same
      subst same
      obtain rfl : page = listed := Option.some.inj (present.symm.trans present')
      rw [List.length_append, List.length_singleton]
      omega
    · exact keeps.within other listed present'
  · intro other late
    rw [answersTo_answer, if_neg, keeps.asked other late]
    have late : walk.pages.length ≤ other := late
    omega
  · intro other early
    have early : other < walk.pending.done := early
    obtain ⟨listed, present', complete⟩ := keeps.committed other early
    refine ⟨listed, present', ?_⟩
    rw [answersTo_answer, if_neg (by omega)]
    exact complete

/-- The queue's pages are those after the front. -/
theorem Keeps.getElem? (keeps : walk.Keeps) (k : Nat) :
    walk.pending.pages[k]? = (walk.pages[walk.pending.done + k]?).map fun page =>
      page.after (walk.answersTo (walk.pending.done + k)) := by
  have numbered := keeps.numbered
  by_cases inside : walk.pending.done + k < walk.pages.length
  · have present := List.getElem?_eq_getElem inside
    have kept := keeps.kept _ _ present (Nat.le_add_right ..)
    rw [Nat.add_sub_cancel_left] at kept
    rw [kept, present, Option.map_some]
  · rw [List.getElem?_eq_none (by omega), List.getElem?_eq_none (by omega)]
    rfl

theorem Keeps.listed_pending (keeps : walk.Keeps) :
    walk.pending.pages.map PageCommit.listed =
      (walk.pages.drop walk.pending.done).map PageCommit.listed := by
  apply List.ext_getElem?
  intro k
  rw [List.getElem?_map, List.getElem?_map, List.getElem?_drop, keeps.getElem?, Option.map_map]
  congr 1
  funext page
  exact page.listed_after _

/-- A page in the queue is finished when it is complete. -/
theorem Keeps.finished_iff (keeps : walk.Keeps) {k : Nat} {page : PageCommit}
    (present : walk.pending.pages[k]? = some page) :
    page.finished = true ↔ walk.Complete (walk.pending.done + k) := by
  rw [keeps.getElem?, Option.map_eq_some_iff] at present
  obtain ⟨listed, here, rfl⟩ := present
  rw [PageCommit.finished_after_iff (keeps.within _ _ here)]
  constructor
  · exact fun complete => ⟨listed, here, complete⟩
  · rintro ⟨listed', here', complete⟩
    obtain rfl : listed = listed' := Option.some.inj (here.symm.trans here')
    exact complete

/-- What `committable` leaves has the longest complete prefix behind it. -/
theorem Keeps.done_committable_iff (keeps : walk.Keeps) (m : Nat) :
    m ≤ walk.pending.committable.2.done ↔ ∀ tag < m, walk.Complete tag := by
  have moved : walk.pending.committable.2.done =
      walk.pending.done + (walk.pending.pages.takeWhile (·.finished)).length := by
    rw [PendingPages.committable, committableFrom_pending]
  rw [moved]
  constructor
  · intro le tag early
    by_cases passed : tag < walk.pending.done
    · exact keeps.committed tag passed
    · have inside : tag - walk.pending.done + 1 ≤
          (walk.pending.pages.takeWhile (·.finished)).length := by omega
      obtain ⟨page, present, finished⟩ :=
        le_length_takeWhile_iff.mp inside (tag - walk.pending.done) (Nat.lt_succ_self _)
      have complete := (keeps.finished_iff present).mp finished
      rwa [Nat.add_sub_cancel' (by omega)] at complete
  · intro complete
    by_cases passed : m ≤ walk.pending.done
    · omega
    · have more : m - walk.pending.done ≤ (walk.pending.pages.takeWhile (·.finished)).length := by
        apply le_length_takeWhile_iff.mpr
        intro k early
        have whole := complete (walk.pending.done + k) (by omega)
        obtain ⟨page, present, -⟩ := id whole
        have queued := keeps.getElem? k
        rw [show walk.pages[walk.pending.done + k]? = some page from present, Option.map_some] at queued
        exact ⟨_, queued, (keeps.finished_iff queued).mpr whole⟩
      omega

/-- **A commit** takes the finished prefix off the front and reports it once. -/
theorem Keeps.committable (keeps : walk.Keeps) :
    ({ walk with
      pending := walk.pending.committable.2
      reports := walk.reports ++ walk.pending.committable.1.toList } : PageWalk).Keeps := by
  have numbered := keeps.numbered
  have listed := keeps.listed_pending
  have complete := keeps.done_committable_iff
  have report := @committableFrom_report walk.pending.pages walk.pending.done [] none
    (fun c same => by cases same) fun _ => rfl
  rw [List.nil_append, ← PendingPages.committable] at report
  have moved := committableFrom_pending walk.pending.pages walk.pending.done none
  rw [← PendingPages.committable] at moved
  have split : walk.pending.pages.takeWhile (·.finished) ++ walk.pending.pages.dropWhile (·.finished) =
      walk.pending.pages := List.takeWhile_append_dropWhile
  generalize walk.pending.pages.takeWhile (·.finished) = front at report moved split
  generalize walk.pending.pages.dropWhile (·.finished) = rest at moved split
  rw [moved] at complete ⊢
  rw [← split, List.map_append] at listed
  rw [← split, List.length_append] at numbered
  refine ⟨keeps.tags, ?_, ?_, keeps.within, keeps.asked, ?_, ?_⟩
  · show walk.pages.length = walk.pending.done + front.length + rest.length
    omega
  · intro tag page present passed
    have passed : walk.pending.done + front.length ≤ tag := passed
    have kept := keeps.kept tag page present (by omega)
    rw [← split, List.getElem?_append_right (by omega), Nat.sub_sub] at kept
    exact kept
  · exact (complete _).mp le_rfl
  · obtain ⟨parts, flat, reports⟩ := keeps.reported
    have flat' : (parts ++ [front.map PageCommit.listed]).flatten =
        (walk.pages.take (walk.pending.done + front.length)).map PageCommit.listed := by
      have taken : ((walk.pages.drop walk.pending.done).take front.length).map PageCommit.listed =
          front.map PageCommit.listed := by
        rw [List.map_take, ← listed]
        exact List.take_left' (List.length_map _)
      rw [List.flatten_append, flat, List.take_add, List.map_append, taken]
      simp
    cases committed : walk.pending.committable.1 with
    | none =>
        have nothing := report.2 committed
        refine ⟨parts, ?_, by simpa using reports⟩
        rw [← flat', nothing]
        simp
    | some c =>
        refine ⟨_, flat', ?_⟩
        exact List.rel_append reports (.cons (report.1 c committed) .nil)

theorem Keeps.step {next : PageWalk} {call : PageCall} (keeps : walk.Keeps)
    (stepped : pageMachine.step walk call = some next) : next.Keeps := by
  cases call with
  | push page =>
      cases stepped
      exact keeps.push page
  | answered tag unserved =>
      simp only [pageMachine, Option.ite_none_right_eq_some, Option.some.injEq] at stepped
      obtain ⟨flying, rfl⟩ := stepped
      exact keeps.answered flying unserved
  | committable =>
      cases stepped
      exact keeps.committable

theorem keeps_of_reachable (reached : pageMachine.Reachable walk) : walk.Keeps :=
  reached.invariant (fun _ start => start ▸ keeps_start) fun _ _ _ keeps stepped => keeps.step stepped

end PageWalk

/-! ## Every order of the calls -/

/-- What holds of a walk at any time, and what its next commit does. -/
structure Commits (walk : PageWalk) : Prop where
  /-- The page pushed `n`-th got the number `n`. -/
  tags : walk.tags = List.range walk.pages.length
  /-- Until a page commits, its number finds it, with its own answers booked. -/
  refers : ∀ tag page, walk.pages[tag]? = some page → walk.pending.done ≤ tag →
    walk.pending.pages[tag - walk.pending.done]? = some (page.after (walk.answersTo tag))
  /-- A game in flight is one of a page that has not committed. -/
  flying : ∀ tag, walk.InFlight tag → walk.pending.done ≤ tag
  /-- The next commit leaves the longest prefix of complete pages behind the front. -/
  longest : ∀ m, m ≤ walk.pending.committable.2.done ↔ ∀ tag < m, walk.Complete tag
  /-- The reports are of the committed pages in their order, each page in one report. -/
  reported : ∃ parts : List (List Committed),
    parts.flatten = (walk.pages.take walk.pending.done).map PageCommit.listed ∧
      List.Forall₂ Reports parts walk.reports

/-- **The cursor follows the finished prefix**, in every order of pushes, answers and
commits. -/
theorem pages_commit {walk : PageWalk} (reached : pageMachine.Reachable walk) : Commits walk where
  tags := (PageWalk.keeps_of_reachable reached).tags
  refers := (PageWalk.keeps_of_reachable reached).kept
  flying _ flying := ((PageWalk.keeps_of_reachable reached).found flying).1
  longest := (PageWalk.keeps_of_reachable reached).done_committable_iff
  reported := (PageWalk.keeps_of_reachable reached).reported

def lastOf (rows present outstanding : Nat) : PageCommit :=
  ⟨⟨(.ofParts 0 0 rfl), "last"⟩, rows, present, outstanding, false⟩

/-- Three pages, the second finished when it is read and the third before the first. -/
def threePages : List PageCall :=
  [.push (lastOf 1000 900 1), .push (lastOf 1000 1000 0), .push (lastOf 1000 999 1), .committable,
    .answered 2 false, .committable, .answered 0 false, .committable]

theorem pages_commit_three : ∃ walk, pageMachine.run {} threePages = some walk ∧
    walk.reports.map (fun report => (report.rows, report.present)) = [(3000, 2899)] ∧
      Commits walk := by
  obtain ⟨walk, ran, reported⟩ : ∃ walk, pageMachine.run {} threePages = some walk ∧
      walk.reports.map (fun report => (report.rows, report.present)) = [(3000, 2899)] :=
    Machine.run_exists (by decide +kernel)
  exact ⟨walk, ran, reported, pages_commit ⟨{}, threePages, rfl, ran⟩⟩

end MajsoulManager.Refetch
