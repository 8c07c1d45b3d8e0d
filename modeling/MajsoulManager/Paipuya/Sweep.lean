/-
# Paipuya.Sweep — one mode, page by page

`sync_mode` of `paipuya.rs`.  A page is asked for from the cursor to the right edge of the
window; the games it holds are recorded, and the cursor moves to the second of the last of
them, or over a second that filled the page by itself.  A range the site would refuse, of
less than ten seconds, ends the mode.

The site answers with the first games of the range by their start, in any order within a
second, and any step of the loop may fail.  `syncMode_sweeps` is what a run records, and
where it leaves the cursor; `shortTail_unrecorded` is a game in the last ten seconds.
-/
import MajsoulManager.Paipuya.Sync

namespace MajsoulManager.Paipuya

open MajsoulManager.Theory
open MajsoulManager.Accounts
open MajsoulManager.Watch

set_option autoImplicit false

/-! ## The loop -/

structure ApiPlayer where
  accountId : UInt64 := 0
  nickname : String := ""
  score : Int32 := 0
  deriving DecidableEq

/-- A game as a page has it. -/
structure ApiGame where
  uuid : String := ""
  modeId : Int32
  startTime : Int
  endTime : Int := 0
  players : List ApiPlayer := []
  deriving DecidableEq

structure PaipuyaGame where
  uuid : String
  modeId : Int32
  startedAt : DateTime
  endedAt : DateTime
  players : List String
  accountIds : List UInt64
  scores : List Int32
  deriving DecidableEq

/-- Only a game that can be fetched, and recognised once it is. -/
def ApiGame.intoGame (game : ApiGame) : Option PaipuyaGame :=
  if game.uuid = "" ∨ game.players = [] then none
  else
    (DateTime.fromTimestamp game.startTime 0).map fun startedAt =>
      { uuid := game.uuid
        modeId := game.modeId
        startedAt
        endedAt := (DateTime.fromTimestamp game.endTime 0).getD startedAt
        players := game.players.map (·.nickname)
        accountIds := game.players.map (·.accountId)
        scores := game.players.map (·.score) }

def maxPage : Nat := 500

/-- Where a mode's next page starts. -/
def sweepFrom (cursor : Option DateTime) (startFrom : DateTime) : DateTime :=
  match cursor with
  | none => startFrom
  | some cursor => max cursor startFrom

/-- What a loop has come to. -/
inductive SweepStatus where
  | running
  /-- Without an error, at the right edge it last asked up to. -/
  | ended (to_ : DateTime)
  | failed
  | panicked
  deriving DecidableEq

/-- Where the next page starts, the games that were inserted, and the column of the
cursor. -/
structure Sweep where
  from_ : DateTime
  recorded : List PaipuyaGame
  cursor : Option DateTime
  status : SweepStatus := .running
  deriving DecidableEq

/-- What a turn of the loop meets: the clock, the page or an error, and whether the two
writes go through. -/
structure Turn where
  now : DateTime
  page : Option (List ApiGame)
  inserted : Bool := true
  stored : Bool := true

/-- The newest start on a page, and no older than where the page starts. -/
def newestOf (from_ : DateTime) (page : List ApiGame) : DateTime :=
  page.foldl
    (fun newest game =>
      match game.intoGame with
      | some game => max newest game.startedAt
      | none =>
          match DateTime.fromTimestamp game.startTime 0 with
          | some started => max newest started
          | none => newest)
    from_

section Loop

variable (config : PaipuyaConfig)

/-- The page was recorded: where the loop goes from there. -/
def Sweep.proceed (s : Sweep) (to_ newest : DateTime) (full stored : Bool) : Sweep :=
  let toNext := fun (next : DateTime) =>
    if stored then
      { s with
        from_ := next
        cursor := some next
        status := if full then .running else .ended to_ }
    else { s with status := .failed }
  if s.from_ < newest then toNext newest
  else if full then
    match s.from_.addSeconds 1 with
    | none => { s with status := .panicked }
    | some next => toNext next
  else { s with status := .ended to_ }

def Sweep.turn (s : Sweep) (turn : Turn) : Sweep :=
  let to_ := config.syncUntil.getD turn.now
  if DateTime.numSeconds to_ s.from_ < 10 then { s with status := .ended to_ }
  else
    match turn.page with
    | none => { s with status := .failed }
    | some page =>
        if turn.inserted then
          { s with recorded := s.recorded ++ page.filterMap ApiGame.intoGame }.proceed to_
            (newestOf s.from_ page) (config.pageSize ≤ page.length) turn.stored
        else { s with status := .failed }

/-- The loop of a mode, from where a sweep begins. -/
def syncMode : Machine Sweep Turn where
  Start s := s.from_ = sweepFrom s.cursor config.startFrom ∧ s.status = .running
  step s turn := if s.status = .running then some (s.turn config turn) else none

end Loop

/-! ## The site -/

/-- The start of a game in the milliseconds of a request. -/
def ApiGame.startMillis (game : ApiGame) : Int := 1000 * game.startTime

def ApiGame.inside (from_ to_ : DateTime) (game : ApiGame) : Bool :=
  from_.millis ≤ game.startMillis && game.startMillis ≤ to_.millis

/-- The first `limit` games of a range, by their start, and within a second in any order. -/
def IsPage (games : List ApiGame) (from_ to_ : DateTime) (limit : Nat) (page : List ApiGame) : Prop :=
  ∃ ordered : List ApiGame, ordered.Perm (games.filter (ApiGame.inside from_ to_)) ∧
    ordered.Pairwise (fun a b => a.startTime ≤ b.startTime) ∧ page = ordered.take limit

/-- A turn in which the site answers, if it does, from these games. -/
def Served (config : PaipuyaConfig) (games : List ApiGame) (s : Sweep) (turn : Turn) : Prop :=
  ∀ page, turn.page = some page →
    IsPage games s.from_ (config.syncUntil.getD turn.now) (min config.pageSize maxPage) page

/-- A second that a page holds. -/
def OrdinarySecond (config : PaipuyaConfig) (games : List ApiGame) (second : Int) : Prop :=
  games.countP (·.startTime = second) ≤ config.pageSize

/-- The game is recorded, if there is anything to record of it. -/
def Sweep.Has (s : Sweep) (game : ApiGame) : Prop :=
  ∀ recorded, game.intoGame = some recorded → recorded ∈ s.recorded

/-! ## A page -/

section Page

variable {games page : List ApiGame} {from_ to_ : DateTime} {limit : Nat}

theorem IsPage.inside (answered : IsPage games from_ to_ limit page) {game : ApiGame}
    (member : game ∈ page) :
    game ∈ games ∧ from_.millis ≤ game.startMillis ∧ game.startMillis ≤ to_.millis := by
  obtain ⟨ordered, perm, -, rfl⟩ := answered
  have listed := perm.mem_iff.mp (List.mem_of_mem_take member)
  obtain ⟨known, within⟩ := List.mem_filter.mp listed
  exact ⟨known, by simpa [ApiGame.inside] using within⟩

/-- A game of the range that starts before one of the page is on it. -/
theorem IsPage.earlier (answered : IsPage games from_ to_ limit page) {game last : ApiGame}
    (known : game ∈ games) (low : from_.millis ≤ game.startMillis)
    (high : game.startMillis ≤ to_.millis) (member : last ∈ page)
    (before : game.startTime < last.startTime) : game ∈ page := by
  obtain ⟨ordered, perm, sorted, rfl⟩ := answered
  have listed : game ∈ ordered := by
    refine perm.mem_iff.mpr (List.mem_filter.mpr ⟨known, ?_⟩)
    simp [ApiGame.inside, low, high]
  rw [← List.take_append_drop limit ordered] at listed sorted
  rcases List.mem_append.mp listed with here | later
  · exact here
  · have after := (List.pairwise_append.mp sorted).2.2 last member game later
    omega

/-- A page that is not full is all of the range. -/
theorem IsPage.short (answered : IsPage games from_ to_ limit page) (few : page.length < limit)
    {game : ApiGame} (known : game ∈ games) (low : from_.millis ≤ game.startMillis)
    (high : game.startMillis ≤ to_.millis) : game ∈ page := by
  obtain ⟨ordered, perm, -, rfl⟩ := answered
  rw [List.length_take] at few
  rw [List.take_of_length_le (by omega)]
  refine perm.mem_iff.mpr (List.mem_filter.mpr ⟨known, ?_⟩)
  simp [ApiGame.inside, low, high]

/-- Where a full page lies within one second, it holds that second, unless the second
alone holds more than a page. -/
theorem IsPage.second (answered : IsPage games from_ to_ limit page) (full : limit ≤ page.length)
    {second : Int} (only : ∀ other ∈ page, other.startTime = second)
    (ordinary : games.countP (·.startTime = second) ≤ limit) {game : ApiGame}
    (known : game ∈ games) (low : from_.millis ≤ game.startMillis)
    (high : game.startMillis ≤ to_.millis) (same : game.startTime = second) : game ∈ page := by
  obtain ⟨ordered, perm, -, rfl⟩ := answered
  have listed : game ∈ ordered := by
    refine perm.mem_iff.mpr (List.mem_filter.mpr ⟨known, ?_⟩)
    simp [ApiGame.inside, low, high]
  rw [← List.take_append_drop limit ordered] at listed
  rcases List.mem_append.mp listed with here | later
  · exact here
  · exfalso
    have all : (ordered.take limit).countP (·.startTime = second) = (ordered.take limit).length :=
      List.countP_eq_length.mpr fun other member => by simpa using only other member
    have more : 0 < (ordered.drop limit).countP (·.startTime = second) :=
      List.countP_pos_iff.mpr ⟨game, later, by simpa using same⟩
    have total : ordered.countP (·.startTime = second) ≤ games.countP (·.startTime = second) := by
      rw [perm.countP_eq]
      exact List.filter_sublist.countP_le
    rw [← List.take_append_drop limit ordered, List.countP_append] at total
    omega

/-- The game started at an instant of the calendar. -/
def ApiGame.Dated (game : ApiGame) : Prop :=
  ∃ started, DateTime.fromTimestamp game.startTime 0 = some started

theorem ApiGame.dated_of_intoGame {game : ApiGame} {into : PaipuyaGame}
    (is : game.intoGame = some into) : game.Dated := by
  unfold ApiGame.intoGame at is
  split at is
  · cases is
  · obtain ⟨started, at_, -⟩ := Option.map_eq_some_iff.mp is
    exact ⟨started, at_⟩

theorem ApiGame.secs_le {game : ApiGame} (behind : from_.millis ≤ game.startMillis) :
    from_.secs ≤ game.startTime := by
  unfold DateTime.millis ApiGame.startMillis at behind
  omega

theorem newestOf_spec (from_ : DateTime) (page : List ApiGame) :
    from_ ≤ newestOf from_ page ∧
      (∀ game ∈ page, ∀ started, DateTime.fromTimestamp game.startTime 0 = some started →
        started ≤ newestOf from_ page) ∧
      (newestOf from_ page = from_ ∨
        ∃ game ∈ page, DateTime.fromTimestamp game.startTime 0 = some (newestOf from_ page)) := by
  induction page generalizing from_ with
  | nil => exact ⟨le_rfl, by simp, .inl rfl⟩
  | cons first rest ih =>
      -- a game counts by its start, whether it is recorded or not
      obtain ⟨next, step, low, own, source⟩ : ∃ next,
          newestOf from_ (first :: rest) = newestOf next rest ∧ from_ ≤ next ∧
          (∀ started, DateTime.fromTimestamp first.startTime 0 = some started → started ≤ next) ∧
          (next = from_ ∨ DateTime.fromTimestamp first.startTime 0 = some next) := by
        cases dated : DateTime.fromTimestamp first.startTime 0 with
        | none =>
            refine ⟨from_, ?_, le_rfl, by simp, .inl rfl⟩
            simp [newestOf, ApiGame.intoGame, dated]
        | some started =>
            refine ⟨max from_ started, ?_, le_max_left _ _, ?_, ?_⟩
            · by_cases masked : first.uuid = "" ∨ first.players = []
              · simp [newestOf, ApiGame.intoGame, dated, masked]
              · simp [newestOf, ApiGame.intoGame, dated, masked]
            · rintro _ ⟨⟩
              exact le_max_right _ _
            · rcases max_choice from_ started with same | same
              · exact .inl same
              · exact .inr (congrArg some same.symm)
      obtain ⟨later, others, which⟩ := ih next
      rw [step]
      refine ⟨low.trans later, ?_, ?_⟩
      · intro game member started at_
        rcases List.mem_cons.mp member with rfl | behind
        · exact (own started at_).trans later
        · exact others game behind started at_
      · rcases which with same | ⟨game, member, at_⟩
        · rcases source with same' | at_
          · exact .inl (same.trans same')
          · exact .inr ⟨first, List.mem_cons_self, at_.trans (congrArg some same.symm)⟩
        · exact .inr ⟨game, List.mem_cons_of_mem _ member, at_⟩

/-- Nothing of the page starts in a second after that of the cursor. -/
theorem secs_le_of_still (still : newestOf from_ page ≤ from_) {game : ApiGame}
    (member : game ∈ page) {started : DateTime}
    (at_ : DateTime.fromTimestamp game.startTime 0 = some started) :
    game.startTime ≤ from_.secs := by
  have order := DateTime.le_def.mp (((newestOf_spec from_ page).2.1 game member started at_).trans
    still)
  obtain ⟨secs, nanos⟩ := DateTime.fromTimestamp_eq_some.mp at_
  have lt := from_.nanos_lt
  unfold DateTime.position at order
  rw [secs, nanos] at order
  omega

end Page

/-! ## A turn -/

section Turns

variable {config : PaipuyaConfig} {games : List ApiGame} {s : Sweep}

/-- Every game of the window that starts before this is recorded, second by second. -/
def Covered (config : PaipuyaConfig) (games : List ApiGame) (begin_ : DateTime)
    (recorded : List PaipuyaGame) (before : Int) : Prop :=
  ∀ game ∈ games, OrdinarySecond config games game.startTime → begin_.millis ≤ game.startMillis →
    game.startMillis < before → ∀ into, game.intoGame = some into → into ∈ recorded

theorem Covered.mono {begin_ : DateTime} {recorded more : List PaipuyaGame} {before early : Int}
    (covered : Covered config games begin_ recorded before) (grown : recorded ⊆ more)
    (le : early ≤ before) : Covered config games begin_ more early :=
  fun game known ordinary low high into is =>
    grown (covered game known ordinary low (by omega) into is)

/-- The games that start at the cursor or behind it, twice, and one more where none starts
in its second: what every page takes from. -/
def remaining (games : List ApiGame) (from_ : DateTime) : Nat :=
  2 * games.countP (fun game => decide (from_.millis ≤ game.startMillis)) +
    if games.any fun game => decide (from_.millis ≤ game.startMillis) && decide (game.startTime ≤ from_.secs)
    then 0 else 1

/-- What a turn of the loop does. -/
structure TurnSpec (config : PaipuyaConfig) (games : List ApiGame) (s next : Sweep) : Prop where
  /-- The cursor stays, or moves to where the next page starts. -/
  moved : (next.from_ = s.from_ ∧ next.cursor = s.cursor) ∨
    (s.from_ ≤ next.from_ ∧ next.cursor = some next.from_)
  sound : next.status ≠ .panicked
  covered : ∀ begin_, Covered config games begin_ s.recorded s.from_.millis →
    Covered config games begin_ next.recorded next.from_.millis
  /-- A mode ends where nothing is left of the range, or where too little is left to ask. -/
  ended : ∀ edge, next.status = .ended edge → DateTime.numSeconds edge next.from_ < 10 ∨
    ∀ begin_, Covered config games begin_ s.recorded s.from_.millis →
      Covered config games begin_ next.recorded (edge.millis + 1)
  /-- It goes on from a later second, with less behind it. -/
  onward : next.status = .running → s.from_.secs < next.from_.secs
  less : next.status = .running → (∀ game ∈ games, game.Dated) →
    remaining games next.from_ < remaining games s.from_

theorem remaining_le (games : List ApiGame) (from_ : DateTime) :
    remaining games from_ ≤ 2 * games.length + 1 := by
  unfold remaining
  have count := List.countP_le_length
    (p := fun game : ApiGame => decide (from_.millis ≤ game.startMillis)) (l := games)
  split <;> omega

/-- Fewer games start from a later instant on, if one starts between the two. -/
theorem countP_lt {low high : Int} {game : ApiGame} (known : game ∈ games)
    (here : low ≤ game.startMillis) (gone : game.startMillis < high) :
    games.countP (fun game => decide (high ≤ game.startMillis)) <
      games.countP (fun game => decide (low ≤ game.startMillis)) := by
  induction games with
  | nil => simp at known
  | cons first rest ih =>
      have mono : rest.countP (fun game => decide (high ≤ game.startMillis)) ≤
          rest.countP (fun game => decide (low ≤ game.startMillis)) := by
        refine List.countP_mono_left fun other _ => ?_
        simp only [decide_eq_true_eq]
        omega
      simp only [List.countP_cons, decide_eq_true_eq]
      rcases List.mem_cons.mp known with rfl | later
      · rw [if_pos here, if_neg (by omega)]
        omega
      · have fewer := ih later
        split <;> split <;> omega

theorem countP_le {low high : Int} (le : low ≤ high) :
    games.countP (fun game => decide (high ≤ game.startMillis)) ≤
      games.countP (fun game => decide (low ≤ game.startMillis)) := by
  refine List.countP_mono_left fun other _ => ?_
  simp only [decide_eq_true_eq]
  omega

theorem secs_lt_of_later {from_ next : DateTime} (later : from_ < next) {game : ApiGame}
    (at_ : DateTime.fromTimestamp game.startTime 0 = some next) : from_.secs < next.secs := by
  obtain ⟨-, nanos⟩ := DateTime.fromTimestamp_eq_some.mp at_
  have order := DateTime.lt_def.mp later
  have lt := from_.nanos_lt
  unfold DateTime.position at order
  rw [nanos] at order
  omega

/-- A cursor that moves to the start of a game behind it leaves less. -/
theorem remaining_jump {from_ next : DateTime} (later : from_ < next) {game : ApiGame}
    (known : game ∈ games) (at_ : DateTime.fromTimestamp game.startTime 0 = some next)
    (behind : from_.millis ≤ game.startMillis) : remaining games next < remaining games from_ := by
  obtain ⟨secs, nanos⟩ := DateTime.fromTimestamp_eq_some.mp at_
  have start : next.millis = game.startMillis := by
    unfold DateTime.millis ApiGame.startMillis
    rw [nanos, secs]
    omega
  have seconds := secs ▸ secs_lt_of_later later at_
  have le : from_.millis ≤ next.millis := start ▸ behind
  have hereNext : games.any (fun game => decide (next.millis ≤ game.startMillis) &&
      decide (game.startTime ≤ next.secs)) = true :=
    List.any_eq_true.mpr ⟨game, known, by simp [start, secs]⟩
  unfold remaining
  rw [if_pos hereNext]
  by_cases here : games.any (fun game => decide (from_.millis ≤ game.startMillis) &&
      decide (game.startTime ≤ from_.secs)) = true
  · -- the games of the second that is left are gone
    obtain ⟨first, known, both⟩ := List.any_eq_true.mp here
    simp only [Bool.and_eq_true, decide_eq_true_eq] at both
    have gone : first.startMillis < next.millis := by
      rw [start]
      unfold ApiGame.startMillis
      omega
    have fewer := countP_lt known both.1 gone
    rw [if_pos here]
    omega
  · have fewer := @countP_le games _ _ le
    rw [if_neg here]
    omega

/-- One that steps over a second with a game in it leaves less. -/
theorem remaining_skip {from_ next : DateTime} (secs : next.secs = from_.secs + 1)
    {game : ApiGame} (known : game ∈ games) (behind : from_.millis ≤ game.startMillis)
    (within : game.startTime ≤ from_.secs) : remaining games next < remaining games from_ := by
  have gone : game.startMillis < next.millis := by
    unfold DateTime.millis ApiGame.startMillis
    rw [secs]
    omega
  have fewer := countP_lt known behind gone
  unfold remaining
  split <;> split <;> omega

/-- The cursor moves to the second of the newest game: all before it is on the page. -/
theorem covered_jump {page : List ApiGame} {to_ newest : DateTime} {limit : Nat}
    (answered : IsPage games s.from_ to_ limit page) {last : ApiGame} (member : last ∈ page)
    (at_ : DateTime.fromTimestamp last.startTime 0 = some newest) {begin_ : DateTime}
    (covered : Covered config games begin_ s.recorded s.from_.millis) :
    Covered config games begin_ (s.recorded ++ page.filterMap ApiGame.intoGame) newest.millis := by
  intro game known ordinary low high into is
  obtain ⟨secs, nanos⟩ := DateTime.fromTimestamp_eq_some.mp at_
  by_cases old : game.startMillis < s.from_.millis
  · exact List.mem_append_left _ (covered game known ordinary low old into is)
  · have before : game.startTime < last.startTime := by
      unfold DateTime.millis ApiGame.startMillis at high
      rw [nanos, secs] at high
      omega
    have edge := (answered.inside member).2.2
    have inside : game.startMillis ≤ to_.millis := by
      unfold ApiGame.startMillis at edge ⊢
      omega
    have here := answered.earlier known (by omega) inside member before
    exact List.mem_append_right _ (List.mem_filterMap.mpr ⟨game, here, is⟩)

/-- The cursor steps over the second that filled the page. -/
theorem covered_skip {page : List ApiGame} {to_ next : DateTime}
    (answered : IsPage games s.from_ to_ config.pageSize page)
    (full : config.pageSize ≤ page.length) (some_ : 0 < config.pageSize)
    (still : newestOf s.from_ page ≤ s.from_) (secs : next.secs = s.from_.secs + 1)
    (nanos : next.nanos =
      if s.from_.nanos < 1000000000 then s.from_.nanos else s.from_.nanos - 1000000000)
    (room : s.from_.secs + 1 ≤ to_.secs) {begin_ : DateTime}
    (covered : Covered config games begin_ s.recorded s.from_.millis) :
    Covered config games begin_ (s.recorded ++ page.filterMap ApiGame.intoGame) next.millis := by
  intro game known ordinary low high into is
  by_cases old : game.startMillis < s.from_.millis
  · exact List.mem_append_left _ (covered game known ordinary low old into is)
  refine List.mem_append_right _ (List.mem_filterMap.mpr ⟨game, ?_, is⟩)
  have inside : game.startMillis ≤ to_.millis := by
    unfold DateTime.millis ApiGame.startMillis at high ⊢
    rw [secs, nanos] at high
    have lt := s.from_.nanos_lt
    split at high <;> omega
  by_cases more : ∃ other ∈ page, game.startTime < other.startTime
  · obtain ⟨other, member, before⟩ := more
    exact answered.earlier known (by omega) inside member before
  -- the games of the page start no later than one of the calendar, so they all start in
  -- the second of the cursor
  have only : ∀ other ∈ page, other.startTime = s.from_.secs ∧ s.from_.nanos < 1000000 := by
    intro other member
    obtain ⟨-, behind, -⟩ := answered.inside member
    have most : other.startTime ≤ game.startTime := by
      by_contra before
      exact more ⟨other, member, by omega⟩
    have least := ApiGame.secs_le behind
    obtain ⟨at_, dated⟩ := ApiGame.dated_of_intoGame is
    obtain ⟨secs, -⟩ := DateTime.fromTimestamp_eq_some.mp dated
    obtain ⟨started, dated, -, -⟩ :=
      @DateTime.between s.from_ at_ _ least (by omega) 0 (by omega)
    have within := secs_le_of_still still member dated
    refine ⟨by omega, ?_⟩
    unfold DateTime.millis ApiGame.startMillis at behind
    omega
  obtain ⟨other, listed⟩ : ∃ other, other ∈ page := List.exists_mem_of_length_pos (by omega)
  have part := (only other listed).2
  have second : game.startTime = s.from_.secs := by
    have least := ApiGame.secs_le (not_lt.mp old)
    unfold DateTime.millis ApiGame.startMillis at high
    rw [secs, nanos, if_pos (by omega)] at high
    omega
  exact answered.second full (fun other member => (only other member).1) (second ▸ ordinary) known
    (by omega) inside second

/-- A short page is all there is up to the edge. -/
theorem covered_short {page : List ApiGame} {to_ : DateTime}
    (answered : IsPage games s.from_ to_ config.pageSize page)
    (short : page.length < config.pageSize) {begin_ : DateTime}
    (covered : Covered config games begin_ s.recorded s.from_.millis) :
    Covered config games begin_ (s.recorded ++ page.filterMap ApiGame.intoGame) (to_.millis + 1) := by
  intro game known ordinary low high into is
  by_cases old : game.startMillis < s.from_.millis
  · exact List.mem_append_left _ (covered game known ordinary low old into is)
  · have here := answered.short short known (by omega) (by omega)
    exact List.mem_append_right _ (List.mem_filterMap.mpr ⟨game, here, is⟩)

theorem validate_pageSize {http : Http} (valid : config.validate http = .ok ()) :
    0 < config.pageSize ∧ config.pageSize ≤ maxPage := by
  obtain ⟨-, valid⟩ := then_ok valid
  obtain ⟨-, valid⟩ := then_ok valid
  obtain ⟨-, valid⟩ := then_ok valid
  obtain ⟨-, valid⟩ := then_ok valid
  obtain ⟨-, valid⟩ := then_ok valid
  obtain ⟨-, sized⟩ := then_ok valid
  unfold refuse at sized
  split at sized
  · cases sized
  · rename_i within
    simp only [Bool.or_eq_true, decide_eq_true_eq, not_or, not_lt] at within
    exact within

/-- A turn that leaves the cursor and goes on no further. -/
theorem TurnSpec.stops {next : Sweep} (from_ : next.from_ = s.from_) (cursor : next.cursor = s.cursor)
    (recorded : s.recorded ⊆ next.recorded) (stopped : next.status ≠ .running)
    (sound : next.status ≠ .panicked)
    (ended : ∀ edge, next.status = .ended edge → DateTime.numSeconds edge next.from_ < 10 ∨
      ∀ begin_, Covered config games begin_ s.recorded s.from_.millis →
        Covered config games begin_ next.recorded (edge.millis + 1)) :
    TurnSpec config games s next where
  moved := .inl ⟨from_, cursor⟩
  sound := sound
  covered := fun _ covered => covered.mono recorded (by rw [from_])
  ended := ended
  onward := fun running => absurd running stopped
  less := fun running => absurd running stopped

theorem TurnSpec.fails {next : Sweep} (from_ : next.from_ = s.from_) (cursor : next.cursor = s.cursor)
    (recorded : s.recorded ⊆ next.recorded) (failed : next.status = .failed) :
    TurnSpec config games s next :=
  .stops from_ cursor recorded (by simp [failed]) (by simp [failed])
    fun edge is => SweepStatus.noConfusion (failed.symm.trans is)

theorem turn_spec {http : Http} (valid : config.validate http = .ok ()) {turn : Turn}
    (served : Served config games s turn) : TurnSpec config games s (s.turn config turn) := by
  obtain ⟨some_, most⟩ := validate_pageSize valid
  have same : s.recorded ⊆ s.recorded := fun _ member => member
  unfold Sweep.turn
  dsimp only
  by_cases near : DateTime.numSeconds (config.syncUntil.getD turn.now) s.from_ < 10
  · rw [if_pos near]
    refine .stops rfl rfl same (by simp) (by simp) ?_
    rintro edge ⟨⟩
    exact .inl near
  rw [if_neg near]
  cases read : turn.page with
  | none => exact .fails rfl rfl same rfl
  | some page =>
      have answered := served page read
      rw [show min config.pageSize maxPage = config.pageSize from Nat.min_eq_left most] at answered
      generalize config.syncUntil.getD turn.now = to_ at near answered ⊢
      have grown : s.recorded ⊆ s.recorded ++ page.filterMap ApiGame.intoGame :=
        List.subset_append_left _ _
      dsimp only
      split
      · unfold Sweep.proceed
        dsimp only
        split
        · -- the cursor moves to the newest game of the page
          rename_i later
          obtain ⟨-, -, which⟩ := newestOf_spec s.from_ page
          obtain ⟨last, member, at_⟩ := which.resolve_left (ne_of_gt later)
          obtain ⟨known, behind, -⟩ := answered.inside member
          split
          · refine ⟨.inr ⟨later.le, rfl⟩, ?_, fun _ => covered_jump answered member at_, ?_, ?_, ?_⟩
            · dsimp only
              split <;> simp
            · intro edge is
              dsimp only at is
              split at is
              · cases is
              · rename_i short
                cases is
                exact .inr fun _ => covered_short answered (by simpa using short)
            · exact fun _ => secs_lt_of_later later at_
            · exact fun _ _ => remaining_jump later known at_ behind
          · exact .fails rfl rfl grown rfl
        · rename_i still
          split
          · -- it steps over the second that filled the page
            rename_i full
            have full : config.pageSize ≤ page.length := by simpa using full
            have room := DateTime.secs_of_far near
            obtain ⟨next, later, secs, nanos⟩ := DateTime.addSeconds_one room
            rw [later]
            dsimp only
            split
            · have ahead : s.from_ ≤ next := by
                rw [DateTime.le_def]
                unfold DateTime.position
                have lt := s.from_.nanos_lt
                rw [secs, nanos]
                split <;> omega
              obtain ⟨other, listed⟩ : ∃ other, other ∈ page :=
                List.exists_mem_of_length_pos (by omega)
              obtain ⟨known, behind, -⟩ := answered.inside listed
              refine ⟨.inr ⟨ahead, rfl⟩, ?_, ?_, ?_, ?_, ?_⟩
              · simp
              · exact fun _ => covered_skip answered full some_ (not_lt.mp still) secs nanos room
              · simp
              · intro _
                dsimp only
                omega
              · intro _ dated
                obtain ⟨started, at_⟩ := dated other known
                exact remaining_skip secs known behind
                  (secs_le_of_still (not_lt.mp still) listed at_)
            · exact .fails rfl rfl grown rfl
          · -- a short page that ends where it started
            rename_i short
            refine .stops rfl rfl grown (by simp) (by simp) ?_
            rintro edge ⟨⟩
            exact .inr fun _ => covered_short answered (by simpa using short)
      · exact .fails rfl rfl same rfl

end Turns

/-! ## A run -/

section Runs

variable {config : PaipuyaConfig} {games : List ApiGame} {http : Http}

theorem step_eq {s next : Sweep} {turn : Turn} :
    (syncMode config).step s turn = some next ↔ s.status = .running ∧ s.turn config turn = next := by
  simp only [syncMode]
  split
  · rename_i running
    simp [running]
  · rename_i stopped
    simp [stopped]

/-- Where a run stands that began with this one. -/
structure SweepInv (config : PaipuyaConfig) (games : List ApiGame) (start s : Sweep) : Prop where
  cursor : s.cursor = start.cursor ∨ s.cursor = some s.from_
  forward : start.from_ ≤ s.from_
  sound : s.status ≠ .panicked
  covered : Covered config games start.from_ s.recorded s.from_.millis
  ended : ∀ edge, s.status = .ended edge → DateTime.numSeconds edge s.from_ < 10 ∨
    Covered config games start.from_ s.recorded (edge.millis + 1)

theorem SweepInv.begin_ {start : Sweep} (running : start.status = .running) :
    SweepInv config games start start :=
  ⟨.inl rfl, le_rfl, by simp [running], fun _ _ _ low high => by omega, by simp [running]⟩

theorem SweepInv.turn (valid : config.validate http = .ok ()) {start s next : Sweep} {turn : Turn}
    (inv : SweepInv config games start s) (served : Served config games s turn)
    (stepped : (syncMode config).step s turn = some next) : SweepInv config games start next := by
  obtain ⟨-, rfl⟩ := step_eq.mp stepped
  have spec := turn_spec valid served
  refine ⟨?_, ?_, spec.sound, spec.covered _ inv.covered, ?_⟩
  · rcases spec.moved with ⟨from_, cursor⟩ | ⟨-, cursor⟩
    · rw [from_, cursor]
      exact inv.cursor
    · exact .inr cursor
  · rcases spec.moved with ⟨from_, -⟩ | ⟨later, -⟩
    · rw [from_]
      exact inv.forward
    · exact inv.forward.trans later
  · intro edge is
    exact (spec.ended edge is).imp_right fun whole => whole _ inv.covered

/-- A run has no more turns than there are seconds left. -/
theorem run_length (valid : config.validate http = .ok ()) {s final : Sweep} {turns : List Turn}
    (ran : (syncMode config).run s turns = some final)
    (served : (syncMode config).Meets (Served config games) s turns) :
    turns.length ≤ (DateTime.lastSecond - s.from_.secs).toNat + 1 := by
  refine Machine.run_length_le_of_meets
    (fun s => (DateTime.lastSecond - s.from_.secs).toNat) ?_ served ran
  rintro s turn next here stepped ⟨_, _, again⟩
  obtain ⟨-, rfl⟩ := step_eq.mp stepped
  have later := (turn_spec valid here).onward (step_eq.mp again).1
  have last := (s.turn config turn).from_.secs_le_last
  omega

/-- And no more than the games leave it, where each starts at an instant. -/
theorem run_length_games (valid : config.validate http = .ok ())
    (dated : ∀ game ∈ games, game.Dated) {s final : Sweep} {turns : List Turn}
    (ran : (syncMode config).run s turns = some final)
    (served : (syncMode config).Meets (Served config games) s turns) :
    turns.length ≤ 2 * games.length + 2 := by
  have bounded : turns.length ≤ remaining games s.from_ + 1 := by
    refine Machine.run_length_le_of_meets (M := syncMode config) (fun s => remaining games s.from_)
      ?_ served ran
    intro s turn next here stepped again
    obtain ⟨following, after, again⟩ := again
    obtain ⟨-, taken⟩ := step_eq.mp stepped
    have on := (step_eq.mp again).1
    rw [← taken] at on ⊢
    exact (turn_spec valid here).less on dated
  have most := remaining_le games s.from_
  omega

theorem run_inv (valid : config.validate http = .ok ()) {start s final : Sweep} {turns : List Turn}
    (inv : SweepInv config games start s) (ran : (syncMode config).run s turns = some final)
    (served : (syncMode config).Meets (Served config games) s turns) :
    SweepInv config games start final :=
  Machine.run_preserves_of_meets
    (fun _ _ _ inv here stepped => inv.turn valid here stepped) served ran inv

/-- The cursor is never behind where it was. -/
theorem run_cursor (valid : config.validate http = .ok ()) {s final : Sweep} {turns : List Turn}
    (behind : ∀ cursor, s.cursor = some cursor → cursor ≤ s.from_)
    (ran : (syncMode config).run s turns = some final)
    (served : (syncMode config).Meets (Served config games) s turns) (cursor : DateTime)
    (at_ : s.cursor = some cursor) : ∃ later, final.cursor = some later ∧ cursor ≤ later := by
  cases turns with
  | nil =>
      cases ran
      exact ⟨cursor, at_, le_rfl⟩
  | cons turn rest =>
      obtain ⟨next, stepped, -⟩ := Machine.run_cons_eq_some.mp ran
      have inv := run_inv valid (SweepInv.begin_ (step_eq.mp stepped).1) ran served
      rcases inv.cursor with same | moved
      · exact ⟨cursor, same.trans at_, le_rfl⟩
      · exact ⟨_, moved, (behind cursor at_).trans inv.forward⟩

/-- **A run of a mode**, from where a sweep begins: it ends; the cursor never moves back, nor
past a game of the window that is not recorded; and a run that ends without an error has
recorded every game that starts ten seconds before the edge it asked up to, and those up to
the edge unless the range that was left is one the site refuses. -/
theorem syncMode_sweeps (valid : config.validate http = .ok ()) {start middle final : Sweep}
    {first later : List Turn} (begins : (syncMode config).Start start)
    (ran : (syncMode config).run start first = some middle)
    (onward : (syncMode config).run middle later = some final)
    (served : (syncMode config).Meets (Served config games) start (first ++ later)) :
    (first ++ later).length ≤ (DateTime.lastSecond - start.from_.secs).toNat + 1 ∧
      ((∀ game ∈ games, game.Dated) → (first ++ later).length ≤ 2 * games.length + 2) ∧
      final.status ≠ .panicked ∧
      (∀ cursor, middle.cursor = some cursor →
        ∃ next, final.cursor = some next ∧ cursor ≤ next) ∧
      (final.cursor = start.cursor ∨ ∀ cursor, final.cursor = some cursor →
        Covered config games start.from_ final.recorded cursor.millis) ∧
      ∀ edge, final.status = .ended edge →
        Covered config games start.from_ final.recorded (edge.millis - 10000) ∧
        (DateTime.numSeconds edge final.from_ < 10 ∨
          Covered config games start.from_ final.recorded (edge.millis + 1)) := by
  obtain ⟨from_, running⟩ := begins
  obtain ⟨servedFirst, servedLater⟩ := Machine.meets_append.mp served
  have whole := Machine.run_append.mpr ⟨middle, ran, onward⟩
  have inv := run_inv valid (SweepInv.begin_ running) whole served
  have invMiddle := run_inv valid (SweepInv.begin_ running) ran servedFirst
  have startBehind : ∀ cursor, start.cursor = some cursor → cursor ≤ start.from_ := by
    intro cursor at_
    rw [from_, at_]
    exact le_max_left _ _
  refine ⟨run_length valid whole served, fun dated => run_length_games valid dated whole served,
    inv.sound, ?_, ?_, ?_⟩
  · refine run_cursor valid ?_ onward (servedLater middle ran)
    intro cursor at_
    rcases invMiddle.cursor with same | moved
    · exact (startBehind cursor (same.symm.trans at_)).trans invMiddle.forward
    · exact le_of_eq (Option.some.inj (at_.symm.trans moved))
  · refine inv.cursor.imp_right fun moved cursor at_ => ?_
    obtain rfl := Option.some.inj (at_.symm.trans moved)
    exact inv.covered
  · intro edge is
    refine ⟨?_, inv.ended edge is⟩
    rcases inv.ended edge is with near | all
    · have close := DateTime.millis_of_near near
      exact inv.covered.mono (fun _ member => member) (by omega)
    · exact all.mono (fun _ member => member) (by omega)

end Runs

/-! ## Three games -/

/-- The site that sorts what it has. -/
def sitePage (games : List ApiGame) (from_ to_ : DateTime) (limit : Nat) : List ApiGame :=
  ((games.filter (ApiGame.inside from_ to_)).insertionSort
    (fun a b => a.startTime ≤ b.startTime)).take limit

theorem isPage_sitePage (games : List ApiGame) (from_ to_ : DateTime) (limit : Nat) :
    IsPage games from_ to_ limit (sitePage games from_ to_ limit) := by
  let before : ApiGame → ApiGame → Prop := fun a b => a.startTime ≤ b.startTime
  have total : Std.Total before := ⟨fun a b => Int.le_total _ _⟩
  have trans : IsTrans ApiGame before := ⟨fun _ _ _ => Int.le_trans⟩
  exact ⟨_, List.perm_insertionSort before _, List.pairwise_insertionSort before _, rfl⟩

/-- A page of a turn is the one that site answers with. -/
def Answered (config : PaipuyaConfig) (games : List ApiGame) (s : Sweep) (turn : Turn) : Prop :=
  turn.page = none ∨ turn.page =
    some (sitePage games s.from_ (config.syncUntil.getD turn.now) (min config.pageSize maxPage))

instance (config : PaipuyaConfig) (games : List ApiGame) (s : Sweep) (turn : Turn) :
    Decidable (Answered config games s turn) :=
  inferInstanceAs (Decidable (_ ∨ _))

theorem Answered.served {config : PaipuyaConfig} {games : List ApiGame} {s : Sweep} {turn : Turn}
    (answered : Answered config games s turn) : Served config games s turn := by
  intro page read
  rcases answered with silent | answered
  · rw [silent] at read
    cases read
  · obtain rfl := Option.some.inj (answered.symm.trans read)
    exact isPage_sitePage _ _ _ _

theorem early_inRange {second : Nat} (small : second < 59) : true = DateTime.inRange second 0 := by
  have low := civilOfSeconds_year_mono (show (0 : Int) ≤ second by omega)
  have high := civilOfSeconds_year_mono (show (second : Int) ≤ 59 by omega)
  have first : (civilOfSeconds 0).year = 1970 := by decide
  have last : (civilOfSeconds 59).year = 1970 := by decide
  exact (DateTime.inRange_iff.mpr ⟨⟨by decide, by omega⟩, by omega, by omega⟩).symm

/-- So many seconds into the epoch's first minute. -/
def early (second : Nat) (small : second < 59) : DateTime :=
  .ofParts second 0 (early_inRange small)

/-- One game a page, up to a second of that minute. -/
def oneGamePages (second : Nat) (small : second < 59) : PaipuyaConfig :=
  { revision := 1, enabled := true, pageSize := 1, startFrom := early 0 (by decide)
    syncUntil := some (early second small) }

def halfMinute : PaipuyaConfig := oneGamePages 30 (by decide)

def twelveSeconds : PaipuyaConfig := oneGamePages 12 (by decide)

def gameAt (uuid : String) (startTime : Int) : ApiGame :=
  { uuid, modeId := 12, startTime, players := [{ nickname := "east" }] }

def threeGames : List ApiGame := [gameAt "c" 8, gameAt "a" 0, gameAt "b" 5]

def beginning : Sweep := { from_ := early 0 (by decide), recorded := [], cursor := none }

def turnOf (page : Option (List ApiGame)) : Turn := { now := early 0 (by decide), page }

/-- Pages of one game each, and a short one. -/
def sixPages : List Turn :=
  [turnOf (some [gameAt "a" 0]), turnOf (some [gameAt "b" 5]), turnOf (some [gameAt "b" 5]),
    turnOf (some [gameAt "c" 8]), turnOf (some [gameAt "c" 8]), turnOf (some [])]

/-- The third turn asks for nothing. -/
def twoPages : List Turn :=
  [turnOf (some [gameAt "a" 0]), turnOf (some [gameAt "b" 5]), turnOf none]

theorem syncMode_sweeps_threeGames :
    ∃ final, (syncMode halfMinute).run beginning sixPages = some final ∧
      final.status = .ended (early 30 (by decide)) ∧
      Covered halfMinute threeGames (early 0 (by decide)) final.recorded 20000 := by
  obtain ⟨final, ran, ended⟩ : ∃ final,
      (syncMode halfMinute).run beginning (sixPages.take 3 ++ sixPages.drop 3) = some final ∧
      final.status = .ended (early 30 (by decide)) :=
    Machine.run_exists (by decide +kernel)
  obtain ⟨middle, first, later⟩ := Machine.run_append.mp ran
  have served : (syncMode halfMinute).Meets (Answered halfMinute threeGames) beginning
      (sixPages.take 3 ++ sixPages.drop 3) := by
    decide +kernel
  have valid : halfMinute.validate plainHttp = .ok () := by decide +kernel
  have swept := syncMode_sweeps valid ⟨by decide +kernel, rfl⟩ first later
    (served.imp fun _ _ answered => answered.served)
  exact ⟨final, ran, ended, (swept.2.2.2.2.2 _ ended).1⟩

/-- **A game in the last ten seconds is not asked for**: the page before it was full. -/
theorem shortTail_unrecorded :
    twelveSeconds.validate plainHttp = .ok () ∧ (syncMode twelveSeconds).Start beginning ∧
    ∃ final, (syncMode twelveSeconds).run beginning twoPages = some final ∧
      (syncMode twelveSeconds).Meets (Served twelveSeconds threeGames) beginning twoPages ∧
      final.status = .ended (early 12 (by decide)) ∧
      gameAt "c" 8 ∈ threeGames ∧
      OrdinarySecond twelveSeconds threeGames (gameAt "c" 8).startTime ∧
      ApiGame.inside (early 0 (by decide)) (early 12 (by decide)) (gameAt "c" 8) = true ∧
      ∃ into, (gameAt "c" 8).intoGame = some into ∧ into ∉ final.recorded := by
  refine ⟨by decide +kernel, ⟨by decide +kernel, rfl⟩, ?_⟩
  obtain ⟨final, ran, ended, unseen⟩ : ∃ final,
      (syncMode twelveSeconds).run beginning twoPages = some final ∧
      final.status = .ended (early 12 (by decide)) ∧
      ∀ into ∈ final.recorded, into.uuid ≠ "c" :=
    Machine.run_exists (by decide +kernel)
  have served : (syncMode twelveSeconds).Meets (Answered twelveSeconds threeGames) beginning
      twoPages := by
    decide +kernel
  have ordinary : threeGames.countP (·.startTime = 8) ≤ 1 := by decide
  obtain ⟨into, is, named⟩ : ∃ into, (gameAt "c" 8).intoGame = some into ∧ into.uuid = "c" := by
    decide +kernel
  exact ⟨final, ran, served.imp fun _ _ answered => answered.served, ended, by decide, ordinary,
    by decide, into, is, fun recorded => unseen into recorded named⟩

end MajsoulManager.Paipuya
