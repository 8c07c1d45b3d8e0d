/-
# Watch.Collector — the working set of a live collector

`watch_session` of `managed_watch.rs`, with `run` around it and the state file under it.
A round lists the games of every mode, and only then commits: the games that have left
the lists become pending, the listed ones are tracked, and the state is written.  Then
the pending games are fetched, converted and ingested one by one; a game that keeps
failing is given up after three hours.  Any failure may end the session, and the next
session goes on with the two sets in memory; a collector that is restarted reads them
from the state file.

`collector_accounts`: in every run, a listed game is in the round that lists it, tracked,
pending, completed or given up, unless a step drops what it alone knows of (`mindful`).
`listed_game_lost` is such a step: the list of a second mode fails after the first has
been read.
-/
import MajsoulManager.Majsoul.Convert
import MajsoulManager.Theory.Machine

namespace MajsoulManager.Watch

open MajsoulManager.Theory

set_option autoImplicit false

/-! ## Games -/

structure LiveGame where
  uuid : String
  modeId : Int32
  startTime : UInt32
  queuedAt : Option Nat := none
  deriving DecidableEq

/-- A `HashMap` of games by uuid; every loop over one carries its order. -/
abbrev Games := List LiveGame

def Games.has (games : Games) (uuid : String) : Bool := games.any (·.uuid == uuid)

def Games.remove (games : Games) (uuid : String) : Games := games.filter (·.uuid != uuid)

def Games.insert (games : Games) (game : LiveGame) : Games := games.remove game.uuid ++ [game]

/-- `entry(..).or_insert(..)`. -/
def Games.orInsert (games : Games) (game : LiveGame) : Games :=
  if games.has game.uuid then games else games ++ [game]

def Games.ofList (rows : List LiveGame) : Games := rows.foldl Games.insert []

def settleSecs : Nat := 120

def giveUpSecs : Nat := 3 * 3600

/-- The check of `WatchRegistry::apply`, the only way it fails. -/
def registryAccepts (uuid : String) : Bool :=
  uuid != "" && uuid.utf8ByteSize ≤ 96 &&
    uuid.toList.all fun c => 0x21 ≤ c.toNat && c.toNat ≤ 0x7e && c != '/'

/-- `metadata_for` has an answer. -/
def hasMetadata (game : LiveGame) : Bool :=
  (Majsoul.modeMetadata game.modeId).isSome && (Majsoul.uuidYear game.uuid).isSome

/-! ## The collector -/

/-- Where the collector stands: between sessions, in the lists of a round, or in its batch
of pending games. -/
inductive Phase where
  | disconnected
  | listing (modes : List Int32) (liveNow : Games)
  | working (batch : List LiveGame) (now : Nat)
  deriving DecidableEq

/-- The two sets in memory, the state file, and a record of what happened: the uuids that
any list returned, those in the discovery log, those ingested and those given up. -/
structure CollectorRun where
  modes : List Int32
  tracked : Games := []
  pending : Games := []
  disk : List LiveGame × List LiveGame := ([], [])
  phase : Phase := .disconnected
  discovered : List String := []
  listed : List String := []
  completed : List String := []
  givenUp : List String := []
  deriving DecidableEq

/-- What became of fetching one pending game. -/
inductive Fetched where
  /-- The session is over: no answer, or a stale login. -/
  | broken
  | refused (code : Nat)
  /-- The record came, and was converted and ingested or not. -/
  | record (ingested : Bool)
  deriving DecidableEq

inductive CollectorAction where
  | connect
  /-- The next mode's list; `logged` is whether the discovery log could be written. -/
  | list (answer : Except String (List LiveGame)) (logged : Bool)
  /-- Every mode is listed; `written` is whether the state could be. -/
  | commit (order batch : List LiveGame) (now : Nat) (written : Bool)
  | work (fetched : Fetched) (written : Bool)
  /-- The batch is done, and the rest of the interval goes to the re-fetch requests. -/
  | rest (ok : Bool)
  /-- The collector is stopped where it stands, and started again. -/
  | restart

/-- The games of one list, up to the first that the registry refuses. -/
def takeGames (tracked : Games) (logged : Bool) :
    List LiveGame → Games × List String → Games × List String × Bool
  | [], (liveNow, discovered) => (liveNow, discovered, true)
  | game :: rest, (liveNow, discovered) =>
      if registryAccepts game.uuid then
        takeGames tracked logged rest (liveNow.insert game,
          if !tracked.has game.uuid && logged then discovered ++ [game.uuid] else discovered)
      else (liveNow, discovered, false)

/-- The tracked games that are listed no longer become pending, up to the first that the
registry refuses. -/
def queueEnded (liveNow : Games) (now : Nat) : List LiveGame → Games → Games × Bool
  | [], pending => (pending, true)
  | game :: rest, pending =>
      if liveNow.has game.uuid then queueEnded liveNow now rest pending
      else if registryAccepts game.uuid then
        queueEnded liveNow now rest (pending.orInsert { game with queuedAt := some now })
      else (pending, false)

namespace CollectorRun

/-- `persist_state`: a write that fails leaves the file as it was. -/
def persistState (s : CollectorRun) (written : Bool) : CollectorRun :=
  if written then { s with disk := (s.tracked, s.pending) } else s

def givesUp (game : LiveGame) (now : Nat) : Bool :=
  game.queuedAt.any fun queued => giveUpSecs < now - queued

/-- A listing goes on with the next mode, or its session ends. -/
def list (s : CollectorRun) (modes : List Int32) (liveNow : Games) (logged : Bool) :
    Except String (List LiveGame) → CollectorRun
  | .error _ => { s with phase := .disconnected }
  | .ok games =>
      let (liveNow, discovered, accepted) := takeGames s.tracked logged games (liveNow, s.discovered)
      { s with
        phase := if accepted then .listing modes liveNow else .disconnected
        discovered := discovered
        listed := s.listed ++ games.map fun game => game.uuid }

def commit (s : CollectorRun) (liveNow : Games) (order batch : List LiveGame) (now : Nat)
    (written : Bool) : CollectorRun :=
  match queueEnded liveNow now order s.pending with
  | (pending, false) => { s with pending := pending, phase := .disconnected }
  | (pending, true) =>
      let s := { s with tracked := liveNow, pending := pending }
      { s.persistState written with
        phase := if written then .working batch now else .disconnected }

/-- One game of the batch. -/
def work (s : CollectorRun) (game : LiveGame) (rest : List LiveGame) (now : Nat) (fetched : Fetched)
    (written : Bool) : CollectorRun :=
  let next : Phase := if written then .working rest now else .disconnected
  if game.queuedAt.any fun queued => now - queued < settleSecs then
    { s with phase := .working rest now }
  else if !registryAccepts game.uuid then { s with phase := .disconnected }
  else
    match fetched with
    | .broken => { s with phase := .disconnected }
    | .refused _ =>
        if givesUp game now then
          -- The state is written before the log says so, and a failure returns in between.
          let s := { s with pending := s.pending.remove game.uuid }
          { s.persistState written with
            givenUp := if written then s.givenUp ++ [game.uuid] else s.givenUp
            phase := next }
        else { s with phase := .working rest now }
    | .record ingested =>
        if !hasMetadata game then { s with phase := .disconnected }
        else if ingested then
          let s := { s with
            pending := s.pending.remove game.uuid
            completed := s.completed ++ [game.uuid] }
          { s.persistState written with phase := next }
        else if givesUp game now then
          let s := { s with
            pending := s.pending.remove game.uuid
            givenUp := s.givenUp ++ [game.uuid] }
          { s.persistState written with phase := next }
        else { s.persistState written with phase := next }

/-- `load_state`, at the start of `run`. -/
def restart (s : CollectorRun) : CollectorRun :=
  { s with
    tracked := .ofList s.disk.1
    pending := .ofList s.disk.2
    phase := .disconnected }

def step (s : CollectorRun) : CollectorAction → Option CollectorRun
  | .connect =>
      match s.phase with
      | .disconnected => some { s with phase := .listing s.modes [] }
      | _ => none
  | .list answer logged =>
      match s.phase with
      | .listing (_ :: modes) liveNow => some (s.list modes liveNow logged answer)
      | _ => none
  | .commit order batch now written =>
      match s.phase with
      | .listing [] liveNow =>
          let after := s.commit liveNow order batch now written
          if order.Perm s.tracked ∧ batch.Perm after.pending then some after else none
      | _ => none
  | .work fetched written =>
      match s.phase with
      | .working (game :: rest) now => some (s.work game rest now fetched written)
      | _ => none
  | .rest ok =>
      match s.phase with
      | .working [] _ => some { s with phase := if ok then .listing s.modes [] else .disconnected }
      | _ => none
  | .restart => some s.restart

end CollectorRun

def collectorMachine : Machine CollectorRun CollectorAction where
  Start s := s.listed = [] ∧ s.phase = .disconnected
  step := CollectorRun.step

/-! ## What is promised -/

/-- The games of the round in progress. -/
def Phase.liveNow : Phase → Games
  | .listing _ liveNow => liveNow
  | _ => []

/-- A uuid that has a place outside the round in progress. -/
def CollectorRun.placed (s : CollectorRun) (uuid : String) : Bool :=
  s.tracked.has uuid || s.pending.has uuid || uuid ∈ s.completed || uuid ∈ s.givenUp

/-- Every uuid that any list returned is in the round in progress, tracked, pending,
completed or given up. -/
def CollectorRun.Accounted (s : CollectorRun) : Prop :=
  ∀ uuid ∈ s.listed, s.phase.liveNow.has uuid = true ∨ s.placed uuid = true

/-- Whether everything the round in progress has listed has a place without it. -/
def CollectorRun.roundPlaced (s : CollectorRun) : Bool :=
  s.phase.liveNow.all fun game => s.placed game.uuid

/-- No step drops what it alone knows of.  A list that fails, or that has a game whose
uuid the registry refuses, comes while everything the round has listed is placed; so
does a commit that finds such a uuid.  A game given up for failing to fetch is still
placed if the state cannot be written.  A restart finds in the state file whatever is in
memory. -/
def mindful (s : CollectorRun) : CollectorAction → Bool
  | .list (.error _) _ => s.roundPlaced
  | .list (.ok games) _ =>
      games.all (fun game => registryAccepts game.uuid) ||
        s.roundPlaced && games.all fun game => s.placed game.uuid
  | .commit order _ _ _ =>
      s.roundPlaced || order.all fun game =>
        s.phase.liveNow.has game.uuid || registryAccepts game.uuid
  | .work fetched written =>
      match s.phase, fetched with
      | .working (game :: _) now, .refused _ =>
          written || !CollectorRun.givesUp game now || !registryAccepts game.uuid ||
            s.tracked.has game.uuid || game.uuid ∈ s.completed || game.uuid ∈ s.givenUp
      | _, _ => true
  | .restart =>
      (s.phase.liveNow ++ s.tracked ++ s.pending).all fun game =>
        Games.has (s.disk.1 ++ s.disk.2) game.uuid || game.uuid ∈ s.completed || game.uuid ∈ s.givenUp
  | _ => true

/-! ## Sets of games -/

namespace Games

variable {games : Games} {game : LiveGame} {uuid : String}

theorem has_iff : games.has uuid = true ↔ ∃ game ∈ games, game.uuid = uuid := by
  simp [has]

theorem has_of_mem (member : game ∈ games) : games.has game.uuid = true :=
  has_iff.mpr ⟨game, member, rfl⟩

theorem has_append (games others : Games) (uuid : String) :
    has (games ++ others) uuid = (has games uuid || has others uuid) := List.any_append

theorem has_singleton (game : LiveGame) (uuid : String) :
    has [game] uuid = true ↔ uuid = game.uuid := by
  simp only [has, List.any_cons, List.any_nil, Bool.or_false, beq_iff_eq]
  exact eq_comm

theorem has_remove (differ : uuid ≠ game.uuid) (had : games.has uuid = true) :
    (games.remove game.uuid).has uuid = true := by
  obtain ⟨other, member, rfl⟩ := has_iff.mp had
  exact has_iff.mpr ⟨other, List.mem_filter.mpr ⟨member, by simpa using differ⟩, rfl⟩

theorem has_insert (games : Games) (game : LiveGame) (uuid : String) :
    (games.insert game).has uuid = true ↔ uuid = game.uuid ∨ games.has uuid = true := by
  rw [insert, has_append, Bool.or_eq_true, has_singleton]
  constructor
  · rintro (kept | new)
    · obtain ⟨other, member, rfl⟩ := has_iff.mp kept
      exact .inr (has_of_mem (List.mem_filter.mp member).1)
    · exact .inl new
  · by_cases same : uuid = game.uuid
    · exact fun _ => .inr same
    · rintro (equal | old)
      · exact absurd equal same
      · exact .inl (has_remove same old)

theorem has_orInsert (games : Games) (game : LiveGame) (uuid : String) :
    (games.orInsert game).has uuid = true ↔ uuid = game.uuid ∨ games.has uuid = true := by
  rw [orInsert]
  split
  · rename_i known
    refine ⟨.inr, ?_⟩
    rintro (rfl | old)
    · exact known
    · exact old
  · rw [has_append, Bool.or_eq_true, has_singleton]
    exact or_comm

theorem has_foldl_insert (rows : List LiveGame) (games : Games) (uuid : String) :
    has (rows.foldl insert games) uuid = true ↔ games.has uuid = true ∨ has rows uuid = true := by
  induction rows generalizing games with
  | nil => simp [has]
  | cons row rest ih =>
      rw [List.foldl_cons, ih, has_insert]
      have split : has (row :: rest) uuid = true ↔ uuid = row.uuid ∨ has rest uuid = true := by
        simp only [has, List.any_cons, Bool.or_eq_true, beq_iff_eq]
        exact or_congr_left eq_comm
      rw [split]
      tauto

theorem has_ofList (rows : List LiveGame) (uuid : String) :
    (ofList rows).has uuid = has rows uuid := by
  rw [Bool.eq_iff_iff, ofList, has_foldl_insert]
  simp [has]

end Games

/-! ## The loops of a round -/

/-- What a list adds to the round, if the registry takes all of it. -/
theorem takeGames_has {tracked : Games} {logged : Bool} {games : List LiveGame} {liveNow : Games}
    {discovered : List String}
    (accepted : (takeGames tracked logged games (liveNow, discovered)).2.2 = true) (uuid : String) :
    (takeGames tracked logged games (liveNow, discovered)).1.has uuid = true ↔
      liveNow.has uuid = true ∨ uuid ∈ games.map (·.uuid) := by
  induction games generalizing liveNow discovered with
  | nil => simp [takeGames]
  | cons game rest ih =>
      rw [takeGames] at accepted ⊢
      split at accepted
      · rename_i fine
        rw [if_pos fine, ih accepted, Games.has_insert, List.map_cons, List.mem_cons]
        tauto
      · cases accepted

theorem takeGames_accepted {tracked : Games} {logged : Bool} {games : List LiveGame}
    (fine : games.all (fun game => registryAccepts game.uuid) = true) (taken : Games × List String) :
    (takeGames tracked logged games taken).2.2 = true := by
  induction games generalizing taken with
  | nil => rfl
  | cons game rest ih =>
      obtain ⟨here, later⟩ := Bool.and_eq_true_iff.mp fine
      rw [takeGames, if_pos here]
      exact ih later _

/-- A pending game stays pending while the ended ones are queued. -/
theorem queueEnded_keeps {liveNow : Games} {now : Nat} {order : List LiveGame} {pending : Games}
    {uuid : String} (had : pending.has uuid = true) :
    (queueEnded liveNow now order pending).1.has uuid = true := by
  induction order generalizing pending with
  | nil => exact had
  | cons game rest ih =>
      rw [queueEnded]
      split
      · exact ih had
      · split
        · exact ih ((Games.has_orInsert ..).mpr (.inr had))
        · exact had

/-- Every tracked game is listed still or pending, once all are queued. -/
theorem queueEnded_takes {liveNow : Games} {now : Nat} {order : List LiveGame} {pending : Games}
    (all : (queueEnded liveNow now order pending).2 = true) :
    ∀ game ∈ order, liveNow.has game.uuid = true ∨
      (queueEnded liveNow now order pending).1.has game.uuid = true := by
  induction order generalizing pending with
  | nil => simp
  | cons game rest ih =>
      rw [queueEnded] at all ⊢
      intro other member
      split at all
      · rename_i listed
        rw [if_pos listed]
        rcases List.mem_cons.mp member with rfl | later
        · exact .inl listed
        · exact ih all other later
      · rename_i ended
        rw [if_neg ended]
        split at all
        · rename_i fine
          rw [if_pos fine]
          rcases List.mem_cons.mp member with rfl | later
          · exact .inr (queueEnded_keeps ((Games.has_orInsert ..).mpr (.inl rfl)))
          · exact ih all other later
        · cases all

theorem queueEnded_all {liveNow : Games} {now : Nat} {order : List LiveGame}
    (fine : order.all (fun game => liveNow.has game.uuid || registryAccepts game.uuid) = true)
    (pending : Games) : (queueEnded liveNow now order pending).2 = true := by
  induction order generalizing pending with
  | nil => rfl
  | cons game rest ih =>
      obtain ⟨here, later⟩ := Bool.and_eq_true_iff.mp fine
      rw [queueEnded]
      split
      · exact ih later _
      · rename_i ended
        rw [if_pos ((Bool.or_eq_true_iff.mp here).resolve_left ended)]
        exact ih later _

/-! ## One step -/

namespace CollectorRun

variable {s t : CollectorRun}

theorem placed_iff {uuid : String} : s.placed uuid = true ↔
    s.tracked.has uuid = true ∨ s.pending.has uuid = true ∨ uuid ∈ s.completed ∨
      uuid ∈ s.givenUp := by
  simp only [placed, Bool.or_eq_true, decide_eq_true_eq, or_assoc]

/-- A round that knows of nothing alone may be dropped. -/
theorem placed_of_round (accounted : s.Accounted) (round : s.roundPlaced = true) {uuid : String}
    (listed : uuid ∈ s.listed) : s.placed uuid = true := by
  rcases accounted uuid listed with inRound | placed
  · obtain ⟨game, member, rfl⟩ := Games.has_iff.mp inRound
    exact List.all_eq_true.mp round game member
  · exact placed

theorem list_accounted (accounted : s.Accounted) {modes : List Int32} {mode : Int32}
    {liveNow : Games} (here : s.phase = .listing (mode :: modes) liveNow)
    {answer : Except String (List LiveGame)} {logged : Bool}
    (careful : mindful s (.list answer logged) = true) :
    (s.list modes liveNow logged answer).Accounted := by
  cases answer with
  | error error =>
      intro uuid listed
      exact .inr (placed_of_round accounted careful listed)
  | ok games =>
      intro uuid listed
      have round : s.phase.liveNow = liveNow := by rw [here]; rfl
      show (Phase.liveNow (if (takeGames s.tracked logged games (liveNow, s.discovered)).2.2 then
        .listing modes (takeGames s.tracked logged games (liveNow, s.discovered)).1
        else .disconnected)).has uuid = true ∨ s.placed uuid = true
      rcases Bool.or_eq_true_iff.mp careful with fine | known
      · have accepted : (takeGames s.tracked logged games (liveNow, s.discovered)).2.2 = true :=
          takeGames_accepted fine _
        rw [if_pos accepted]
        rcases List.mem_append.mp listed with old | new
        · rcases accounted uuid old with inRound | placed
          · exact .inl ((takeGames_has accepted uuid).mpr (.inl (round ▸ inRound)))
          · exact .inr placed
        · exact .inl ((takeGames_has accepted uuid).mpr (.inr new))
      · obtain ⟨roundKnown, gamesKnown⟩ := Bool.and_eq_true_iff.mp known
        right
        rcases List.mem_append.mp listed with old | new
        · exact placed_of_round accounted roundKnown old
        · obtain ⟨game, member, rfl⟩ := List.mem_map.mp new
          exact List.all_eq_true.mp gamesKnown game member

theorem commit_accounted (accounted : s.Accounted) {liveNow : Games}
    (here : s.phase = .listing [] liveNow) {order batch : List LiveGame} {now : Nat} {written : Bool}
    (same : order.Perm s.tracked) (careful : mindful s (.commit order batch now written) = true) :
    (s.commit liveNow order batch now written).Accounted := by
  have round : s.phase.liveNow = liveNow := by rw [here]; rfl
  intro uuid listed
  right
  unfold commit at listed ⊢
  split at listed
  · rename_i pending stopped
    have kept : ∀ u, s.pending.has u = true → pending.has u = true := by
      intro u had
      have stays : (queueEnded liveNow now order s.pending).1.has u = true := queueEnded_keeps had
      rwa [stopped] at stays
    have known : s.roundPlaced = true := by
      refine (Bool.or_eq_true_iff.mp careful).resolve_right fun fine => ?_
      have all : (queueEnded liveNow now order s.pending).2 = true := queueEnded_all (round ▸ fine) _
      rw [stopped] at all
      cases all
    have was := placed_iff.mp (placed_of_round accounted known listed)
    exact placed_iff.mpr (was.imp_right (Or.imp_left (kept uuid)))
  · rename_i pending went
    have kept : ∀ u, s.pending.has u = true → pending.has u = true := by
      intro u had
      have stays : (queueEnded liveNow now order s.pending).1.has u = true := queueEnded_keeps had
      rwa [went] at stays
    have moved : ∀ u, s.tracked.has u = true → liveNow.has u = true ∨ pending.has u = true := by
      intro u had
      obtain ⟨game, member, rfl⟩ := Games.has_iff.mp had
      have taken := queueEnded_takes (by rw [went]) game (same.mem_iff.mpr member)
      rwa [went] at taken
    have before : uuid ∈ s.listed := by cases written <;> exact listed
    have shown : liveNow.has uuid = true ∨ pending.has uuid = true ∨ uuid ∈ s.completed ∨
        uuid ∈ s.givenUp := by
      rcases accounted uuid before with inRound | placed
      · exact .inl (round ▸ inRound)
      · rcases placed_iff.mp placed with tracked | pended | done
        · exact (moved uuid tracked).imp_right .inl
        · exact .inr (.inl (kept uuid pended))
        · exact .inr (.inr done)
    rw [placed_iff]
    cases written <;> exact shown

/-- What one game of the batch may change: the game leaves the pending set for the
completed or the given up, or was given up before the state could be written. -/
theorem work_cases (s : CollectorRun) (game : LiveGame) (rest : List LiveGame) (now : Nat)
    (fetched : Fetched) (written : Bool) :
    (s.work game rest now fetched written).listed = s.listed ∧
    (s.work game rest now fetched written).tracked = s.tracked ∧
    (((s.work game rest now fetched written).pending = s.pending ∧
        (s.work game rest now fetched written).completed = s.completed ∧
        (s.work game rest now fetched written).givenUp = s.givenUp) ∨
      (s.work game rest now fetched written).pending = s.pending.remove game.uuid ∧
        (((s.work game rest now fetched written).completed = s.completed ++ [game.uuid] ∧
            (s.work game rest now fetched written).givenUp = s.givenUp) ∨
          ((s.work game rest now fetched written).completed = s.completed ∧
            (s.work game rest now fetched written).givenUp = s.givenUp ++ [game.uuid]) ∨
          ((∃ code, fetched = .refused code) ∧ written = false ∧ givesUp game now = true ∧
            registryAccepts game.uuid = true ∧
            (s.work game rest now fetched written).completed = s.completed ∧
            (s.work game rest now fetched written).givenUp = s.givenUp))) := by
  unfold work
  simp only
  split
  · exact ⟨rfl, rfl, .inl ⟨rfl, rfl, rfl⟩⟩
  split
  · exact ⟨rfl, rfl, .inl ⟨rfl, rfl, rfl⟩⟩
  rename_i fine
  have accepts : registryAccepts game.uuid = true := by simpa using fine
  cases fetched with
  | broken => exact ⟨rfl, rfl, .inl ⟨rfl, rfl, rfl⟩⟩
  | refused code =>
      simp only
      split
      · rename_i gone
        cases written with
        | true => exact ⟨rfl, rfl, .inr ⟨rfl, .inr (.inl ⟨rfl, rfl⟩)⟩⟩
        | false =>
            exact ⟨rfl, rfl, .inr ⟨rfl, .inr (.inr ⟨⟨code, rfl⟩, rfl, gone, accepts, rfl, rfl⟩)⟩⟩
      · exact ⟨rfl, rfl, .inl ⟨rfl, rfl, rfl⟩⟩
  | record ingested =>
      simp only
      split
      · exact ⟨rfl, rfl, .inl ⟨rfl, rfl, rfl⟩⟩
      split
      · cases written <;> exact ⟨rfl, rfl, .inr ⟨rfl, .inl ⟨rfl, rfl⟩⟩⟩
      split
      · cases written <;> exact ⟨rfl, rfl, .inr ⟨rfl, .inr (.inl ⟨rfl, rfl⟩)⟩⟩
      · cases written <;> exact ⟨rfl, rfl, .inl ⟨rfl, rfl, rfl⟩⟩

theorem work_accounted (accounted : s.Accounted) {game : LiveGame} {rest : List LiveGame} {now : Nat}
    (here : s.phase = .working (game :: rest) now) {fetched : Fetched} {written : Bool}
    (careful : mindful s (.work fetched written) = true) :
    (s.work game rest now fetched written).Accounted := by
  obtain ⟨sameListed, sameTracked, changed⟩ := work_cases s game rest now fetched written
  intro uuid listed
  right
  rw [sameListed] at listed
  have was := placed_iff.mp ((accounted uuid listed).resolve_left (by rw [here]; nofun))
  rw [placed_iff, sameTracked]
  rcases changed with ⟨pending, completed, givenUp⟩ | ⟨pending, moved⟩
  · rwa [pending, completed, givenUp]
  · rw [pending]
    by_cases same : uuid = game.uuid
    · subst same
      rcases moved with ⟨completed, -⟩ | ⟨-, givenUp⟩ |
        ⟨⟨code, rfl⟩, rfl, gone, accepts, completed, givenUp⟩
      · rw [completed]
        simp
      · rw [givenUp]
        simp
      · rw [completed, givenUp]
        simp only [mindful, here, gone, accepts, Bool.not_true, Bool.or_false, Bool.false_or,
          Bool.or_eq_true, decide_eq_true_eq] at careful
        tauto
    · have kept : s.pending.has uuid = true → (s.pending.remove game.uuid).has uuid = true :=
        Games.has_remove same
      rcases moved with ⟨completed, givenUp⟩ | ⟨completed, givenUp⟩ | ⟨-, -, -, -, completed, givenUp⟩
      · rw [completed, givenUp, List.mem_append]
        tauto
      · rw [completed, givenUp, List.mem_append]
        tauto
      · rw [completed, givenUp]
        tauto

theorem restart_accounted (accounted : s.Accounted) (careful : mindful s .restart = true) :
    s.restart.Accounted := by
  intro uuid listed
  right
  have onDisk : ∀ game ∈ s.phase.liveNow ++ s.tracked ++ s.pending, game.uuid = uuid →
      s.restart.placed uuid = true := by
    rintro game member rfl
    have found := List.all_eq_true.mp careful game member
    simp only [Bool.or_eq_true, decide_eq_true_eq, Games.has_append] at found
    rw [placed_iff]
    show (Games.ofList s.disk.1).has _ = true ∨ (Games.ofList s.disk.2).has _ = true ∨ _
    rw [Games.has_ofList, Games.has_ofList]
    tauto
  rcases accounted uuid listed with inRound | placed
  · obtain ⟨game, member, same⟩ := Games.has_iff.mp inRound
    exact onDisk game (by simp [member]) same
  · rcases placed_iff.mp placed with tracked | pended | done
    · obtain ⟨game, member, same⟩ := Games.has_iff.mp tracked
      exact onDisk game (by simp [member]) same
    · obtain ⟨game, member, same⟩ := Games.has_iff.mp pended
      exact onDisk game (by simp [member]) same
    · exact placed_iff.mpr (.inr (.inr done))

/-- A phase without a round of its own takes over what is placed. -/
theorem accounted_of_phase (accounted : s.Accounted) (idle : s.phase.liveNow = []) (phase : Phase) :
    ({ s with phase := phase } : CollectorRun).Accounted := by
  intro uuid listed
  refine .inr ((accounted uuid listed).resolve_left ?_)
  rw [idle]
  nofun

theorem step_accounted (accounted : s.Accounted) {action : CollectorAction}
    (careful : mindful s action = true) (stepped : s.step action = some t) : t.Accounted := by
  cases action with
  | connect =>
      simp only [step] at stepped
      split at stepped
      · rename_i here
        cases stepped
        exact accounted_of_phase accounted (by rw [here]; rfl) _
      · cases stepped
  | list answer logged =>
      simp only [step] at stepped
      split at stepped
      · rename_i here
        cases stepped
        exact list_accounted accounted here careful
      · cases stepped
  | commit order batch now written =>
      simp only [step] at stepped
      split at stepped
      · rename_i here
        split at stepped
        · rename_i orders
          cases stepped
          exact commit_accounted accounted here orders.1 careful
        · cases stepped
      · cases stepped
  | work fetched written =>
      simp only [step] at stepped
      split at stepped
      · rename_i here
        cases stepped
        exact work_accounted accounted here careful
      · cases stepped
  | rest ok =>
      simp only [step] at stepped
      split at stepped
      · rename_i here
        cases stepped
        exact accounted_of_phase accounted (by rw [here]; rfl) _
      · cases stepped
  | restart =>
      cases stepped
      exact restart_accounted accounted careful

end CollectorRun

/-! ## Whole runs -/

/-- **No listed game is lost.**  In every run whose steps drop nothing that they alone know
of, every uuid that any list returned is in the round in progress, tracked, pending,
completed or given up. -/
theorem collector_accounts {start final : CollectorRun} {actions : List CollectorAction}
    (fresh : collectorMachine.Start start)
    (careful : collectorMachine.Meets (fun s a => mindful s a = true) start actions)
    (ran : collectorMachine.run start actions = some final) : final.Accounted := by
  refine Machine.run_preserves_of_meets ?_ careful ran ?_
  · intro s action t accounted ok stepped
    exact CollectorRun.step_accounted accounted ok stepped
  · intro uuid listed
    rw [fresh.1] at listed
    cases listed

/-- A collector of two modes. -/
def twoModes : CollectorRun where
  modes := [9, 12]

/-- A game of the first mode. -/
def goldGame : LiveGame where
  uuid := "260716-abc"
  modeId := 9
  startTime := 1784000000

/-- Listed, ended, pending, and ingested after a first refusal. -/
def listedThenStored : List CollectorAction :=
  [.connect, .list (.ok [goldGame]) true, .list (.ok []) true, .commit [] [] 1000 true, .rest true,
    .list (.ok []) true, .list (.ok []) true,
    .commit [goldGame] [{ goldGame with queuedAt := some 1060 }] 1060 true,
    .work .broken true, .rest true,
    .list (.ok []) true, .list (.ok []) true,
    .commit [] [{ goldGame with queuedAt := some 1060 }] 1240 true,
    .work (.refused 1203) true, .rest true,
    .list (.ok []) true, .list (.ok []) true,
    .commit [] [{ goldGame with queuedAt := some 1060 }] 1300 true,
    .work (.record true) true]

theorem collector_accounts_listedThenStored :
    ∃ final, collectorMachine.run twoModes listedThenStored = some final ∧
      (final.listed = ["260716-abc"] ∧ final.completed = ["260716-abc"] ∧ final.pending = []) ∧
      final.Accounted := by
  obtain ⟨final, ran, shown⟩ : ∃ final,
      collectorMachine.run twoModes listedThenStored = some final ∧
      (final.listed = ["260716-abc"] ∧ final.completed = ["260716-abc"] ∧ final.pending = []) :=
    Machine.run_exists (by decide +kernel)
  exact ⟨final, ran, shown, collector_accounts ⟨rfl, rfl⟩ (by decide +kernel) ran⟩

/-- The list of the second mode fails, and when the next session lists, the game of the
first is over. -/
def secondListFails : List CollectorAction :=
  [.connect, .list (.ok [goldGame]) true, .list (.error "connection closed") true,
    .connect, .list (.ok []) true, .list (.ok []) true, .commit [] [] 1000 true]

/-- **A listed game is lost** when the list of a later mode fails. -/
theorem listed_game_lost :
    collectorMachine.Start twoModes ∧
    ∃ final, collectorMachine.run twoModes secondListFails = some final ∧
      (final.listed = ["260716-abc"] ∧ final.tracked = [] ∧ final.pending = [] ∧
        final.completed = [] ∧ final.givenUp = []) ∧ ¬ final.Accounted := by
  refine ⟨⟨rfl, rfl⟩, ?_⟩
  obtain ⟨final, ran, shown, lost⟩ : ∃ final,
      collectorMachine.run twoModes secondListFails = some final ∧
      (final.listed = ["260716-abc"] ∧ final.tracked = [] ∧ final.pending = [] ∧
        final.completed = [] ∧ final.givenUp = []) ∧
      (final.phase.liveNow.has "260716-abc" = false ∧ final.placed "260716-abc" = false) :=
    Machine.run_exists (by decide +kernel)
  refine ⟨final, ran, shown, fun accounted => ?_⟩
  have listed : "260716-abc" ∈ final.listed := by
    rw [shown.1]
    exact List.mem_singleton.mpr rfl
  rcases accounted _ listed with inRound | placed
  · rw [lost.1] at inRound
    cases inRound
  · rw [lost.2] at placed
    cases placed

end MajsoulManager.Watch
