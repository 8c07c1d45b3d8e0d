/-
# Refetch.SweepInvariant — the cursor never passes an unanswered game

Every game that a pass has read and that got no answer is still waiting for one, or
its page is marked (`Booked`); a page leaves the front only with nobody waiting and
without a mark, so what the cursor has passed is answered.  That is the sweep's own
argument, and it holds in every run in which no game ends in an error: an error is
booked like an answer, and the cursor passes a game that was never fetched
(`noSession_passes`).
-/
import MajsoulManager.Refetch.Sweep
import MajsoulManager.Store.Reference

namespace MajsoulManager.Refetch

open MajsoulManager.Theory
open MajsoulManager.Store
open MajsoulManager.Ingest

set_option autoImplicit false

/-! ## What the sweep promises -/

/-- The cursor stands at the end of the last page it has passed, every game on the
pages it has passed got an answer, and so did every game listed by a pass that is
reported finished. -/
def Sweep.Honest (sweep : Sweep) : Prop :=
  sweep.cursor = sweep.behind.getLast?.bind (·.getLast?) ∧
  (∀ page ∈ sweep.behind, ∀ row ∈ page, row.uuid ∈ sweep.answered) ∧
  ∀ passEnd ∈ sweep.ended, passEnd.outcome.finished = true ∨ passEnd.stop = some .done →
    ∀ row ∈ passEnd.listed, row.uuid ∈ sweep.answered

instance (sweep : Sweep) : Decidable sweep.Honest :=
  inferInstanceAs (Decidable (_ ∧ _ ∧ _))

/-- Neither the pool, nor the converter, nor the claim table or the broker fails. -/
def GameRun.Clean (run : GameRun) : Prop :=
  (run.fetched = .error .unserved → 0 < run.sessions) ∧
  (∀ error, run.converted ≠ .error error) ∧
  ∀ attempt ∈ run.ingested, (∃ duplicate, attempt = .ok (.accepted duplicate)) ∨
    ∃ lag, attempt = .ok (.backlogged lag)

/-- No game comes back with an error. -/
def Action.Clean : Action → Prop
  | .turn taken => ∀ run, taken.joined = .game run → run.Clean
  | _ => True

theorem ingestLoop_clean {attempts : List (Except String Ingested)}
    (clean : ∀ attempt ∈ attempts, (∃ duplicate, attempt = .ok (.accepted duplicate)) ∨
      ∃ lag, attempt = .ok (.backlogged lag)) (error : String) :
    ingestLoop attempts ≠ some (.error error) := by
  induction attempts with
  | nil => simp [ingestLoop]
  | cons attempt rest ih =>
      obtain ⟨here, later⟩ := List.forall_mem_cons.mp clean
      rcases here with ⟨duplicate, rfl⟩ | ⟨lag, rfl⟩
      · cases duplicate <;> simp [ingestLoop]
      · exact ih later

theorem oneGame_clean {run : GameRun} (clean : run.Clean) (error : String) :
    oneGame run ≠ some (.error error) := by
  obtain ⟨pool, converter, ingest⟩ := clean
  unfold oneGame
  split
  · rename_i unserved
    have some := pool unserved
    rw [if_neg (by omega)]
    simp
  · simp
  · split
    · rename_i died failed
      exact absurd failed (converter died)
    · simp
    · exact ingestLoop_clean ingest error

/-! ## Pages and the games they wait for -/

/-- The games of the pages read, against the games that are waited for: `stalled`
says that some request was not served. -/
structure Booked (answered : List String) (pages : List (List SweepPosition))
    (pending : PendingPages) (waiting : List (Nat × String)) (stalled : Prop) : Prop where
  numbered : pages.length = pending.done + pending.pages.length
  live : ∀ game ∈ waiting, pending.done ≤ game.1 ∧ game.1 < pages.length
  counted : ∀ k page, pending.pages[k]? = some page →
    page.outstanding = waiting.countP (·.1 == pending.done + k)
  ends : ∀ k page, pending.pages[k]? = some page →
    pages[pending.done + k]?.bind (·.getLast?) = some page.position
  covered : ∀ n rows, pages[n]? = some rows → ∀ row ∈ rows,
    row.uuid ∈ answered ∨ (n, row.uuid) ∈ waiting ∨
      ∃ k page, n = pending.done + k ∧ pending.pages[k]? = some page ∧ page.unserved = true
  marked : ∀ page ∈ pending.pages, page.unserved = true → stalled

section Booked

variable {answered : List String} {pages : List (List SweepPosition)} {pending : PendingPages}
  {waiting : List (Nat × String)} {stalled : Prop}

/-- In which order games are waited for does not matter. -/
theorem Booked.perm (booked : Booked answered pages pending waiting stalled)
    {other : List (Nat × String)} (same : waiting.Perm other) :
    Booked answered pages pending other stalled where
  numbered := booked.numbered
  live game member := booked.live game (same.mem_iff.mpr member)
  counted k page present := by rw [booked.counted k page present, same.countP_eq]
  ends := booked.ends
  covered n rows present row member := by
    rcases booked.covered n rows present row member with done | waits | mark
    · exact .inl done
    · exact .inr (.inl (same.mem_iff.mp waits))
    · exact .inr (.inr mark)
  marked := booked.marked

/-- What has left the front is answered. -/
theorem Booked.passed (booked : Booked answered pages pending waiting stalled) {n : Nat}
    {rows : List SweepPosition} (present : pages[n]? = some rows) (early : n < pending.done) :
    ∀ row ∈ rows, row.uuid ∈ answered := by
  intro row member
  rcases booked.covered n rows present row member with done | waits | ⟨k, page, here, -, -⟩
  · exact done
  · have late := (booked.live _ waits).1
    omega
  · omega

/-- **A page that is done may leave the front.** -/
theorem Booked.pop {page : PageCommit} {rest : List PageCommit} {done : Nat}
    (booked : Booked answered pages ⟨page :: rest, done⟩ waiting stalled)
    (finished : page.finished = true) : Booked answered pages ⟨rest, done + 1⟩ waiting stalled := by
  simp only [PageCommit.finished, Bool.and_eq_true, beq_iff_eq, Bool.not_eq_true'] at finished
  have nobody : ∀ game ∈ waiting, game.1 ≠ done := by
    have count := booked.counted 0 page rfl
    rw [finished.1, eq_comm, List.countP_eq_zero] at count
    intro game member same
    exact count game member (by simpa using same)
  refine ⟨?_, ?_, ?_, ?_, ?_, ?_⟩
  · have length := booked.numbered
    simp only [List.length_cons] at length ⊢
    omega
  · intro game member
    have placed := booked.live game member
    have other := nobody game member
    show done + 1 ≤ game.1 ∧ game.1 < pages.length
    simp only at placed
    omega
  · intro k next present
    have count := booked.counted (k + 1) next present
    rw [count]
    congr 1
    funext game
    congr 1
    show done + (k + 1) = done + 1 + k
    omega
  · intro k next present
    have last := booked.ends (k + 1) next present
    rw [← last]
    congr 2
    show done + 1 + k = done + (k + 1)
    omega
  · intro n rows present row member
    rcases booked.covered n rows present row member with here | waits | ⟨k, next, place, found, mark⟩
    · exact .inl here
    · exact .inr (.inl waits)
    · cases k with
      | zero =>
          cases found
          rw [finished.2] at mark
          cases mark
      | succ k =>
          refine .inr (.inr ⟨k, next, ?_, found, mark⟩)
          show n = done + 1 + k
          simp only at place
          omega
  · exact fun next member => booked.marked next (List.mem_cons_of_mem _ member)

/-- **Committing keeps the books**, and the position it commits to is the end of the
last page that left the front. -/
theorem Booked.committable_from {list : List PageCommit} {done : Nat} {committed : Option Committed}
    (booked : Booked answered pages ⟨list, done⟩ waiting stalled)
    (position : ∀ c, committed = some c →
      (pages.take done).getLast?.bind (·.getLast?) = some c.position) :
    Booked answered pages (committableFrom list done committed).2 waiting stalled ∧
      ∀ c, (committableFrom list done committed).1 = some c →
        (pages.take (committableFrom list done committed).2.done).getLast?.bind (·.getLast?) =
          some c.position := by
  induction list generalizing done committed with
  | nil => exact ⟨booked, position⟩
  | cons page rest ih =>
      rw [committableFrom]
      split
      · rename_i finished
        refine ih (booked.pop finished) ?_
        intro c same
        cases same
        have last := booked.ends 0 page rfl
        have inside : done < pages.length := by
          have length := booked.numbered
          simp only [List.length_cons] at length
          omega
        rw [List.take_add_one, List.getElem?_eq_getElem inside, Option.toList_some,
          List.getLast?_concat]
        simpa [List.getElem?_eq_getElem inside] using last
      · exact ⟨booked, position⟩

/-- **A page is taken**, with its unclaimed games waiting. -/
theorem Booked.push (booked : Booked answered pages pending waiting stalled)
    {page : List SweepPosition} {commit : PageCommit} {games : List (Nat × String)}
    {held : List String} (last : page.getLast? = some commit.position)
    (fresh : commit.unserved = false) (sized : commit.outstanding = games.length)
    (own : ∀ game ∈ games, game.1 = pending.done + pending.pages.length)
    (all : ∀ row ∈ page, row.uuid ∈ held ∨
      (pending.done + pending.pages.length, row.uuid) ∈ games) :
    Booked (answered ++ held) (pages ++ [page]) { pending with pages := pending.pages ++ [commit] }
      (waiting ++ games) stalled := by
  have length := booked.numbered
  refine ⟨?_, ?_, ?_, ?_, ?_, ?_⟩
  · simp only [List.length_append, List.length_singleton]
    omega
  · intro game member
    rw [List.length_append, List.length_singleton]
    rcases List.mem_append.mp member with member | member
    · have placed := booked.live game member
      show pending.done ≤ game.1 ∧ _
      omega
    · have placed := own game member
      show pending.done ≤ game.1 ∧ _
      omega
  · intro k next present
    rw [List.countP_append]
    rcases Nat.lt_trichotomy k pending.pages.length with early | rfl | late
    · -- an older page: none of the new games is its own
      have none : games.countP (·.1 == pending.done + k) = 0 := by
        refine List.countP_eq_zero.mpr fun game member same => ?_
        have placed := own game member
        simp only [beq_iff_eq] at same
        omega
      rw [List.getElem?_append_left early] at present
      rw [none, booked.counted k next present, Nat.add_zero]
    · -- the page itself: nobody waited for it before
      have before : waiting.countP (·.1 == pending.done + pending.pages.length) = 0 := by
        refine List.countP_eq_zero.mpr fun game member same => ?_
        have placed := booked.live game member
        simp only [beq_iff_eq] at same
        omega
      have after : games.countP (·.1 == pending.done + pending.pages.length) = games.length := by
        refine List.countP_eq_length.mpr fun game member => ?_
        simp [own game member]
      rw [List.getElem?_concat_length] at present
      cases present
      rw [before, after, Nat.zero_add, sized]
    · rw [List.getElem?_eq_none (by simp; omega)] at present
      cases present
  · intro k next present
    rcases Nat.lt_trichotomy k pending.pages.length with early | rfl | late
    · rw [List.getElem?_append_left early] at present
      have old : pending.done + k < pages.length := by omega
      show ((pages ++ [page])[pending.done + k]?.bind _) = _
      rw [List.getElem?_append_left old]
      exact booked.ends k next present
    · rw [List.getElem?_concat_length] at present
      cases present
      rw [← length, List.getElem?_concat_length]
      exact last
    · rw [List.getElem?_eq_none (by simp; omega)] at present
      cases present
  · intro n rows present row member
    rcases Nat.lt_trichotomy n pages.length with early | rfl | late
    · rw [List.getElem?_append_left early] at present
      rcases booked.covered n rows present row member with done | waits | ⟨k, next, place, found, mark⟩
      · exact .inl (List.mem_append_left _ done)
      · exact .inr (.inl (List.mem_append_left _ waits))
      · refine .inr (.inr ⟨k, next, place, ?_, mark⟩)
        rw [List.getElem?_append_left (by omega), found]
    · rw [List.getElem?_concat_length] at present
      cases present
      rcases all row member with here | here
      · exact .inl (List.mem_append_right _ here)
      · rw [length]
        exact .inr (.inl (List.mem_append_right _ here))
    · rw [List.getElem?_eq_none (by simp; omega)] at present
      cases present
  · intro next member mark
    rcases List.mem_append.mp member with member | member
    · exact booked.marked next member mark
    · rw [List.mem_singleton.mp member, fresh] at mark
      cases mark

theorem answered_getElem? {k : Nat} {number : Nat} (late : pending.done ≤ number)
    {unserved : Bool} {page : PageCommit}
    (present : (pending.answered number unserved).pages[k]? = some page) :
    ∃ before, pending.pages[k]? = some before ∧
      page = if number = pending.done + k then before.book unserved else before := by
  rw [PendingPages.answered, if_neg (by omega), List.getElem?_modify] at present
  obtain ⟨before, found, same⟩ := Option.map_eq_some_iff.mp present
  refine ⟨before, found, ?_⟩
  rw [← same]
  by_cases here : number - pending.done = k
  · rw [if_pos here, if_pos (by omega)]
  · rw [if_neg here, if_neg (by omega)]

theorem answered_done (number : Nat) (unserved : Bool) :
    (pending.answered number unserved).done = pending.done := by
  unfold PendingPages.answered
  split <;> rfl

theorem answered_length (number : Nat) (unserved : Bool) :
    (pending.answered number unserved).pages.length = pending.pages.length := by
  unfold PendingPages.answered
  split <;> simp

/-- **A game comes back**: answered, or with its page marked. -/
theorem Booked.book {game : Nat × String}
    (booked : Booked answered pages pending (game :: waiting) stalled) {unserved : Bool}
    {after : List String} {stalls : Prop} (known : ∀ uuid ∈ answered, uuid ∈ after)
    (told : unserved = false → game.2 ∈ after) (keeps : stalled → stalls)
    (mark : unserved = true → stalls) :
    Booked after pages (pending.answered game.1 unserved) waiting stalls := by
  obtain ⟨late, inside⟩ := booked.live game List.mem_cons_self
  have length := booked.numbered
  refine ⟨?_, ?_, ?_, ?_, ?_, ?_⟩
  · rw [answered_done, answered_length]
    exact length
  · intro other member
    rw [answered_done]
    exact booked.live other (List.mem_cons_of_mem _ member)
  · intro k page present
    obtain ⟨before, found, rfl⟩ := answered_getElem? late present
    have count := booked.counted k before found
    rw [List.countP_cons] at count
    rw [answered_done]
    by_cases here : game.1 = pending.done + k
    · rw [if_pos (by simpa using here)] at count
      rw [if_pos here, PageCommit.book]
      show before.outstanding - 1 = _
      omega
    · rw [if_neg (by simpa using here)] at count
      rw [if_neg here]
      omega
  · intro k page present
    obtain ⟨before, found, rfl⟩ := answered_getElem? late present
    rw [answered_done, booked.ends k before found]
    split <;> rfl
  · intro n rows present row member
    have marks : ∀ (k : Nat) (page : PageCommit), pending.pages[k]? = some page → page.unserved = true →
        ∃ next : PageCommit, (pending.answered game.1 unserved).pages[k]? = some next ∧
          next.unserved = true := by
      intro k page found flagged
      rw [PendingPages.answered, if_neg (by omega), List.getElem?_modify, found]
      refine ⟨_, rfl, ?_⟩
      split
      · simp [PageCommit.book, flagged]
      · exact flagged
    rcases booked.covered n rows present row member with done | waits | ⟨k, page, place, found, flagged⟩
    · exact .inl (known _ done)
    · rcases List.mem_cons.mp waits with here | waits
      · cases unserved with
        | false =>
            refine .inl ?_
            have same := told rfl
            rw [← here] at same
            exact same
        | true =>
            -- nobody served it: its page is marked now
            subst here
            simp only at late inside
            have slot : n - pending.done < pending.pages.length := by omega
            refine .inr (.inr ⟨n - pending.done, pending.pages[n - pending.done].book true,
              ?_, ?_, ?_⟩)
            · rw [answered_done]
              omega
            · rw [PendingPages.answered, if_neg (by omega), List.getElem?_modify,
                List.getElem?_eq_getElem slot]
              simp
            · simp [PageCommit.book]
      · exact .inr (.inl waits)
    · obtain ⟨next, found, flagged⟩ := marks k page found flagged
      refine .inr (.inr ⟨k, next, ?_, found, flagged⟩)
      rw [answered_done]
      exact place
  · intro page member flagged
    obtain ⟨k, inside, same⟩ := List.mem_iff_getElem.mp member
    obtain ⟨before, found, rfl⟩ := answered_getElem? late
      (List.getElem?_eq_some_iff.mpr ⟨inside, same⟩)
    have old := booked.marked before (List.mem_of_getElem? found)
    by_cases here : game.1 = pending.done + k
    · rw [if_pos here] at flagged
      simp only [PageCommit.book, Bool.or_eq_true] at flagged
      rcases flagged with flagged | flagged
      · exact keeps (old flagged)
      · exact mark flagged
    · rw [if_neg here] at flagged
      exact keeps (old flagged)

end Booked

/-! ## The pass and the sweep -/

/-- The games of a pass that have not come back. -/
def Pass.waiting (pass : Pass) : List (Nat × String) := pass.queued ++ pass.dropped ++ pass.fetching

structure PassInv (answered : List String) (pass : Pass) : Prop where
  booked : Booked answered pass.pages pass.pending pass.waiting (0 < pass.unserved)
  stopped : pass.dropped ≠ [] → 0 < pass.unserved

structure SweepInv (sweep : Sweep) : Prop where
  cursor : sweep.cursor = sweep.behind.getLast?.bind (·.getLast?)
  behind : ∀ page ∈ sweep.behind, ∀ row ∈ page, row.uuid ∈ sweep.answered
  ended : ∀ passEnd ∈ sweep.ended, passEnd.outcome.finished = true →
    ∀ row ∈ passEnd.listed, row.uuid ∈ sweep.answered
  stops : ∀ passEnd ∈ sweep.ended, passEnd.stop = some .done → passEnd.outcome.finished = true

theorem PassInv.begin (answered : List String) (readingFrom : Option SweepPosition) :
    PassInv answered { readingFrom } where
  booked := by constructor <;> simp [Pass.waiting]
  stopped := by simp

/-- Answers that come in do no harm. -/
theorem SweepInv.more {sweep : Sweep} (inv : SweepInv sweep) (answered : List String)
    (progress : Progress) :
    SweepInv { sweep with answered := sweep.answered ++ answered, progress := progress } where
  cursor := inv.cursor
  behind page member row inside := List.mem_append_left _ (inv.behind page member row inside)
  ended passEnd member finished row inside :=
    List.mem_append_left _ (inv.ended passEnd member finished row inside)
  stops := inv.stops

theorem SweepInv.abandon {sweep : Sweep} (inv : SweepInv sweep) : SweepInv sweep.abandon :=
  ⟨inv.cursor, inv.behind, inv.ended, inv.stops⟩

/-- The walk says that it is done only after a pass that finished. -/
theorem WalkTally.after_done {tally : WalkTally} {outcome : PassOutcome}
    (done : (tally.after outcome).2 = some .done) : outcome.finished = true := by
  cases finished : outcome.finished with
  | true => rfl
  | false =>
      simp only [WalkTally.after, finished, if_true] at done
      split at done <;> split at done <;> cases done

theorem SweepInv.conclude {sweep : Sweep} (inv : SweepInv sweep) (pass : Pass) {finished : Bool}
    (stillCurrent : Bool)
    (all : finished = true → ∀ row ∈ pass.pages.flatten, row.uuid ∈ sweep.answered) :
    SweepInv (sweep.conclude pass finished stillCurrent) := by
  have ended : ∀ stop, ∀ passEnd ∈ sweep.ended ++
      [⟨⟨pass.scanned, pass.replaced, finished⟩, stop, pass.pages.flatten⟩],
      passEnd.outcome.finished = true → ∀ row ∈ passEnd.listed, row.uuid ∈ sweep.answered := by
    intro stop passEnd member
    rcases List.mem_append.mp member with member | member
    · exact inv.ended passEnd member
    · rw [List.mem_singleton.mp member]
      exact all
  have stops : ∀ stop, (stop = some .done → finished = true) → ∀ passEnd ∈ sweep.ended ++
      [⟨⟨pass.scanned, pass.replaced, finished⟩, stop, pass.pages.flatten⟩],
      passEnd.stop = some .done → passEnd.outcome.finished = true := by
    intro stop fair passEnd member
    rcases List.mem_append.mp member with member | member
    · exact inv.stops passEnd member
    · rw [List.mem_singleton.mp member]
      exact fair
  unfold Sweep.conclude
  split
  · exact ⟨inv.cursor, inv.behind, ended _, stops _ fun done => WalkTally.after_done done⟩
  · exact ⟨inv.cursor, inv.behind, ended _, stops _ (by simp)⟩

/-! ## One turn -/

section Turn

variable {crates : Crates} {inFlight : Nat}

/-- A game of a page is stored already, or it is wanted. -/
theorem held_or_wanted (page : List SweepPosition) (held : List Hash) {row : SweepPosition}
    (member : row ∈ page) :
    row.uuid ∈ heldGames crates page held ∨
      row.uuid ∈ unclaimed crates (page.map (·.uuid)) held := by
  have listed : row.uuid ∈ page.map (·.uuid) := List.mem_map_of_mem member
  by_cases claimed : held.contains (gameClaimHash crates row.uuid) = true
  · exact .inl (List.mem_filter.mpr ⟨listed, claimed⟩)
  · exact .inr (List.mem_filter.mpr ⟨listed, by simpa using claimed⟩)

theorem PassInv.takePage {answered : List String} {pass : Pass} (inv : PassInv answered pass)
    {page : List SweepPosition} {last : SweepPosition} (ends : page.getLast? = some last)
    (held : List Hash) :
    PassInv (answered ++ heldGames crates page held) (pass.takePage crates page last held) := by
  refine ⟨?_, inv.stopped⟩
  set wanted := unclaimed crates (page.map (·.uuid)) held with unheld
  set number := pass.pending.done + pass.pending.pages.length with numbered
  have pushed : Booked (answered ++ heldGames crates page held) (pass.pages ++ [page])
      (pass.takePage crates page last held).pending
      (pass.waiting ++ wanted.map fun uuid => (number, uuid)) (0 < pass.unserved) := by
    refine inv.booked.push ends rfl (List.length_map _).symm ?_ ?_
    · intro game member
      obtain ⟨uuid, -, rfl⟩ := List.mem_map.mp member
      rfl
    · intro row member
      rcases held_or_wanted page held member with stored | open_
      · exact .inl stored
      · exact .inr (List.mem_map_of_mem open_)
  refine pushed.perm ?_
  show (pass.queued ++ pass.dropped ++ pass.fetching ++ _).Perm
    (pass.queued ++ _ ++ pass.dropped ++ pass.fetching)
  rw [List.append_assoc, List.append_assoc, List.append_assoc, List.append_assoc]
  refine List.Perm.append_left _ ?_
  rw [← List.append_assoc]
  exact List.perm_append_comm

theorem readAhead_inv {sweep next : Sweep} {pass after : Pass} {turn : Turn} (inv : SweepInv sweep)
    (passInv : PassInv sweep.answered pass)
    (read : sweep.readAhead crates inFlight pass turn = .ok (next, after)) :
    SweepInv next ∧ PassInv next.answered after := by
  unfold Sweep.readAhead at read
  split at read
  · cases listing : turn.listing with
    | error fault => simp [listing, bind, Except.bind] at read
    | ok page =>
        simp only [listing, bind, Except.bind] at read
        cases last : page.getLast? with
        | none =>
            simp only [last] at read
            cases read
            exact ⟨inv, passInv.booked, passInv.stopped⟩
        | some row =>
            simp only [last] at read
            cases claims : turn.held with
            | error fault => simp [claims] at read
            | ok held =>
                simp only [claims] at read
                cases read
                exact ⟨inv.more _ sweep.progress, passInv.takePage last held⟩
  · cases read
    exact ⟨inv, passInv⟩

/-- The cursor moves to the end of the pages that are done. -/
theorem SweepInv.land {sweep : Sweep} (inv : SweepInv sweep) {pages : List (List SweepPosition)}
    {position : SweepPosition} {progress : Progress}
    (last : pages.getLast?.bind (·.getLast?) = some position)
    (answered : ∀ page ∈ pages, ∀ row ∈ page, row.uuid ∈ sweep.answered) :
    SweepInv
      { sweep with
        cursor := some position, behind := sweep.behind ++ pages, progress := progress } where
  cursor := by
    obtain ⟨page, ends, -⟩ := Option.bind_eq_some_iff.mp last
    show some position = (sweep.behind ++ pages).getLast?.bind _
    rw [List.getLast?_append, ends, Option.some_or, ← ends, last]
  behind page member := by
    rcases List.mem_append.mp member with member | member
    · exact inv.behind page member
    · exact answered page member
  ended := inv.ended
  stops := inv.stops

theorem Booked.take {answered : List String} {pages : List (List SweepPosition)}
    {pending : PendingPages} {waiting : List (Nat × String)} {stalled : Prop}
    (booked : Booked answered pages pending waiting stalled) :
    ∀ page ∈ pages.take pending.done, ∀ row ∈ page, row.uuid ∈ answered := by
  intro page member
  obtain ⟨n, inside, same⟩ := List.mem_iff_getElem.mp member
  rw [List.length_take] at inside
  have present : pages[n]? = some page := by
    rw [List.getElem?_eq_getElem (by omega), ← same, List.getElem_take]
  exact booked.passed present (by omega)

theorem commit_inv {sweep : Sweep} {pass : Pass} (inv : SweepInv sweep)
    (passInv : PassInv sweep.answered pass) (lands : Bool) :
    SweepInv (sweep.commit pass lands).1 ∧
      PassInv (sweep.commit pass lands).1.answered (sweep.commit pass lands).2 := by
  have nothing : ∀ c, (none : Option Committed) = some c →
      (pass.pages.take pass.pending.done).getLast?.bind (·.getLast?) = some c.position := by simp
  have kept := passInv.booked.committable_from nothing
  unfold Sweep.commit PendingPages.committable
  cases result : committableFrom pass.pending.pages pass.pending.done none with
  | mk committed pending =>
      obtain ⟨booked, position⟩ := kept
      rw [result] at booked position
      cases committed with
      | none => exact ⟨inv, booked, passInv.stopped⟩
      | some done =>
          refine ⟨?_, booked, passInv.stopped⟩
          cases lands with
          | true => exact inv.land (position done rfl) booked.take
          | false => exact ⟨inv.cursor, inv.behind, inv.ended, inv.stops⟩

theorem feed_inv {answered : List String} {pass : Pass} (inv : PassInv answered pass) :
    PassInv answered (pass.feed inFlight) := by
  refine ⟨inv.booked.perm ?_, inv.stopped⟩
  set room := inFlight - pass.fetching.length with free
  show (pass.queued ++ pass.dropped ++ pass.fetching).Perm
    (pass.queued.drop room ++ pass.dropped ++ (pass.fetching ++ pass.queued.take room))
  calc pass.queued ++ pass.dropped ++ pass.fetching
      = pass.queued.take room ++ (pass.queued.drop room ++ pass.dropped ++ pass.fetching) := by
        rw [← List.append_assoc, ← List.append_assoc, List.take_append_drop]
    List.Perm _ (pass.queued.drop room ++ pass.dropped ++ pass.fetching ++ pass.queued.take room) :=
        List.perm_append_comm
    _ = _ := List.append_assoc _ _ _

/-- **A game that comes back without an error keeps the books.** -/
theorem book_inv {sweep : Sweep} {pass : Pass} {game : Nat × String} {outcome : Outcome}
    (inv : SweepInv sweep)
    (booked : Booked sweep.answered pass.pages pass.pending (game :: pass.waiting)
      (0 < pass.unserved)) (stopped : pass.dropped ≠ [] → 0 < pass.unserved) :
    SweepInv (sweep.book pass game (.ok outcome)).1 ∧
      PassInv (sweep.book pass game (.ok outcome)).1.answered
        (sweep.book pass game (.ok outcome)).2 := by
  have heard : Booked (sweep.answered ++ [game.2]) pass.pages (pass.pending.answered game.1 false)
      pass.waiting (0 < pass.unserved) :=
    booked.book (fun _ => List.mem_append_left _) (fun _ => by simp) id (by simp)
  have unheard : Booked sweep.answered pass.pages (pass.pending.answered game.1 true)
      pass.waiting (0 < pass.unserved + 1) :=
    booked.book (fun _ => id) (by simp) (fun _ => by omega) (fun _ => by omega)
  cases outcome with
  | unserved =>
      refine ⟨⟨inv.cursor, inv.behind, inv.ended, inv.stops⟩, unheard.perm ?_, ?_⟩
      · show (pass.queued ++ pass.dropped ++ pass.fetching).Perm
          ([] ++ (pass.dropped ++ pass.queued) ++ pass.fetching)
        exact List.perm_append_comm.append_right _
      · intro _
        show 0 < pass.unserved + 1
        omega
  | _ => exact ⟨inv.more _ _, heard, stopped⟩

/-- At the end of the list, with every request served and nothing in the air, every
game is answered. -/
theorem PassInv.all_answered {answered : List String} {pass : Pass} (inv : PassInv answered pass)
    (served : pass.unserved = 0) (queued : pass.queued = []) (fetching : pass.fetching = []) :
    ∀ row ∈ pass.pages.flatten, row.uuid ∈ answered := by
  intro row member
  obtain ⟨rows, listed, inside⟩ := List.mem_flatten.mp member
  obtain ⟨n, present⟩ := List.mem_iff_getElem?.mp listed
  have dropped : pass.dropped = [] := by
    by_contra some
    have stalled := inv.stopped some
    omega
  rcases inv.booked.covered n rows present row inside with done | waits | ⟨k, page, -, found, mark⟩
  · exact done
  · rw [Pass.waiting, queued, dropped, fetching] at waits
    cases waits
  · have stalled := inv.booked.marked page (List.mem_of_getElem? found) mark
    omega

/-- The sweep, and the pass that runs. -/
def Kept (sweep : Sweep) : Prop :=
  SweepInv sweep ∧ ∀ pass, sweep.pass = some pass → PassInv sweep.answered pass

theorem Kept.honest {sweep : Sweep} (kept : Kept sweep) : sweep.Honest := by
  refine ⟨kept.1.cursor, kept.1.behind, fun passEnd member reported => ?_⟩
  rcases reported with finished | done
  · exact kept.1.ended passEnd member finished
  · exact kept.1.ended passEnd member (kept.1.stops passEnd member done)

theorem kept_of_idle {sweep : Sweep} (inv : SweepInv sweep) (idle : sweep.pass = none) :
    Kept sweep := ⟨inv, fun pass running => by simp [idle] at running⟩

theorem conclude_pass (sweep : Sweep) (pass : Pass) (finished stillCurrent : Bool) :
    (sweep.conclude pass finished stillCurrent).pass = none := by
  unfold Sweep.conclude
  split <;> rfl

/-- The cursor goes back to the beginning. -/
theorem SweepInv.clear {sweep : Sweep} (inv : SweepInv sweep) :
    SweepInv { sweep with cursor := none, behind := [] } :=
  ⟨rfl, by simp, inv.ended, inv.stops⟩

theorem idle_kept {sweep : Sweep} {pass : Pass} (turn : Turn) (inv : SweepInv sweep)
    (passInv : PassInv sweep.answered pass) (quiet : pass.fetching = []) :
    Kept (sweep.idle pass turn) := by
  unfold Sweep.idle
  split
  · rename_i over_
    split
    · exact kept_of_idle (inv.conclude pass _ (by simp)) (conclude_pass _ _ _ _)
    · rename_i served
      have all := passInv.all_answered (by omega) over_.1 quiet
      split
      · exact kept_of_idle (inv.clear.conclude pass _ fun _ => all) (conclude_pass _ _ _ _)
      · exact kept_of_idle inv.abandon rfl
  · refine ⟨⟨inv.cursor, inv.behind, inv.ended, inv.stops⟩, fun running same => ?_⟩
    cases same
    exact passInv

theorem join_kept {sweep next : Sweep} {pass : Pass} {turn : Turn} (inv : SweepInv sweep)
    (passInv : PassInv sweep.answered pass) (clean : ∀ run, turn.joined = .game run → run.Clean)
    (joined : sweep.join pass turn = some next) : Kept next := by
  unfold Sweep.join at joined
  split at joined
  · rename_i quiet
    cases joined
    exact idle_kept turn inv passInv quiet
  · obtain ⟨game, found, joined⟩ := Option.bind_eq_some_iff.mp joined
    split at joined
    · cases joined
      exact kept_of_idle inv.abandon rfl
    · rename_i run came
      obtain ⟨result, played, same⟩ := Option.bind_eq_some_iff.mp joined
      cases result with
      | error error => exact absurd played (oneGame_clean (clean run came) error)
      | ok outcome =>
          set rest : Pass := { pass with fetching := pass.fetching.eraseIdx turn.index } with left
          have booked : Booked sweep.answered rest.pages rest.pending (game :: rest.waiting)
              (0 < rest.unserved) := by
            obtain ⟨inside, rfl⟩ := List.getElem?_eq_some_iff.mp found
            refine passInv.booked.perm ?_
            have taken := (List.getElem_cons_eraseIdx_perm inside).symm
            exact (taken.append_left _).trans List.perm_middle
          have booking : SweepInv (sweep.book rest game (.ok outcome)).1 ∧
              PassInv (sweep.book rest game (.ok outcome)).1.answered
                (sweep.book rest game (.ok outcome)).2 := book_inv inv booked passInv.stopped
          obtain ⟨after, passAfter⟩ := booking
          cases same
          refine ⟨⟨after.cursor, after.behind, after.ended, after.stops⟩, fun running same => ?_⟩
          cases same
          exact passAfter

theorem turn_kept {sweep next : Sweep} {pass : Pass} {turn : Turn} (kept : Kept sweep)
    (running : sweep.pass = some pass) (clean : ∀ run, turn.joined = .game run → run.Clean)
    (turned : sweep.turn crates inFlight pass turn = some next) : Kept next := by
  obtain ⟨inv, passes⟩ := kept
  unfold Sweep.turn at turned
  split at turned
  · cases turned
    exact kept_of_idle (inv.conclude pass _ (by simp)) (conclude_pass _ _ _ _)
  · split at turned
    · cases turned
      exact kept_of_idle inv.abandon rfl
    · rename_i ahead after read
      obtain ⟨inv, passInv⟩ := readAhead_inv inv (passes pass running) read
      obtain ⟨inv, passInv⟩ := commit_inv inv passInv turn.lands
      exact join_kept inv (feed_inv passInv) clean turned

theorem step_kept {sweep next : Sweep} {action : Action} (kept : Kept sweep) (clean : action.Clean)
    (stepped : sweep.step crates inFlight action = some next) : Kept next := by
  obtain ⟨inv, passes⟩ := kept
  cases action with
  | start =>
      cases stepped
      exact kept_of_idle ⟨inv.cursor, inv.behind, inv.ended, inv.stops⟩ rfl
  | begin sweepFrom =>
      simp only [Sweep.step] at stepped
      split at stepped
      · cases stepped
        refine ⟨⟨inv.cursor, inv.behind, inv.ended, inv.stops⟩, fun pass same => ?_⟩
        cases same
        exact .begin _ _
      · cases stepped
  | turn turn =>
      obtain ⟨pass, running, turned⟩ := Option.bind_eq_some_iff.mp stepped
      exact turn_kept ⟨inv, passes⟩ running clean turned
  | halt =>
      cases stepped
      exact kept_of_idle inv.abandon rfl

theorem fresh_kept : Kept {} := kept_of_idle ⟨rfl, by simp, by simp, by simp⟩ rfl

end Turn

/-! ## Two games -/

def firstGame : SweepPosition :=
  ⟨(.ofParts 1700000000 0 rfl), "231114-a"⟩

def secondGame : SweepPosition :=
  ⟨(.ofParts 1700000060 0 rfl), "231114-b"⟩

/-- A game that is fetched and stored. -/
def storedRun : GameRun := ⟨.ok [], 1, .ok (some []), [.ok (.accepted false)]⟩

/-- A request that nobody picks up while no session is logged in. -/
def noSessionRun : GameRun := ⟨.error .unserved, 0, .ok none, []⟩

/-- The first game comes back with `run`, the second is stored. -/
def twoPages (run : GameRun) : List Action :=
  [ .start, .begin none
  , .turn { listing := .ok [firstGame], joined := .game run }
  , .turn { listing := .ok [secondGame], joined := .game storedRun } ]

def sweepSample : Machine Sweep Action :=
  sweepMachine (reference ⟨fun _ => .error "", fun _ => .error "", fun _ => ""⟩) 1

theorem storedRun_clean : storedRun.Clean := by
  refine ⟨by simp [storedRun], by simp [storedRun], ?_⟩
  intro attempt member
  exact .inl ⟨false, List.mem_singleton.mp member⟩

theorem twoPages_clean {run : GameRun} (clean : run.Clean) :
    ∀ action ∈ twoPages run, action.Clean := by
  have both : ∀ played, played = run ∨ played = storedRun → played.Clean := by
    rintro played (rfl | rfl)
    · exact clean
    · exact storedRun_clean
  simp only [twoPages, List.forall_mem_cons, Action.Clean, Joined.game.injEq]
  exact ⟨trivial, trivial, fun played same => both played (.inl same.symm),
    fun played same => both played (.inr same.symm), by simp⟩

end MajsoulManager.Refetch
