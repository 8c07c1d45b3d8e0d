/-
# Watch.PluginAnswers — whose answer a request returns

A request returns `Ok` for a line that parses and carries its own id.  That the module
wrote such a line follows only where the reader starts lines where the module did; a
request that is cancelled in the middle of a line, and every other way out that leaves the
pipe there unmarked, breaks it.

`answers_own`: where no request leaves the pipe inside a line without marking it, and
fewer than `2 ^ 64` were made, ids are distinct and every `Ok` is the result of a line the
module wrote for that id.  `spliced_answer` is a cancelled request whose answer breaks off.
-/
import MajsoulManager.Watch.Plugin

namespace MajsoulManager.Watch

open MajsoulManager.Theory
open MajsoulManager.Record

set_option autoImplicit false

/-! ## Lines of a process -/

/-- Bytes after which a line starts. -/
def Boundary (seen : List UInt8) : Prop := seen.getLast?.all (· == newline) = true

instance (seen : List UInt8) : Decidable (Boundary seen) := inferInstanceAs (Decidable (_ = _))

theorem boundary_nil : Boundary [] := rfl

theorem boundary_newline (seen : List UInt8) : Boundary (seen ++ [newline]) := by
  simp [Boundary]

/-- A line of the output: from one newline to the next, or to where the output ended. -/
def Process.Wrote (p : Process) (line : List UInt8) : Prop :=
  ∃ before after body, p.output = before ++ line ++ after ∧ Boundary before ∧ newline ∉ body ∧
    (line = body ++ [newline] ∨ line = body ∧ after = [] ∧ p.alive = false)

/-- A reader stands inside a line of which it has `line`, or past the end of the output. -/
def Process.Reading (p : Process) (line : List UInt8) : Prop :=
  (∃ before, p.output.take p.taken = before ++ line ∧ Boundary before ∧ newline ∉ line) ∨
    (line = [] ∧ p.alive = false ∧ p.output.length ≤ p.taken)

/-- The next line the reader starts is a line of the module. -/
def Process.clean (p : Process) : Bool :=
  decide (Boundary (p.output.take p.taken)) || (!p.alive && decide (p.output.length ≤ p.taken))

/-- What the module does to its own output: it adds to it, or ends it. -/
def Process.Grows (p q : Process) : Prop :=
  (p.alive = true → p.output <+: q.output) ∧ (p.alive = false → q.output = p.output ∧ q.alive = false)

namespace Process

variable {p q : Process} {line : List UInt8}

theorem clean_iff : p.clean = true ↔ p.Reading [] := by
  simp [clean, Reading]

theorem Reading.congr (output : q.output = p.output) (taken : q.taken = p.taken)
    (alive : q.alive = p.alive) : q.Reading line ↔ p.Reading line := by
  rw [Reading, Reading, output, taken, alive]

/-- What has arrived stands before what arrives. -/
theorem Reading.emit (reading : p.Reading line) (alive : p.alive = true)
    (bounded : p.taken ≤ p.output.length) (bytes : List UInt8) :
    Reading { p with output := p.output ++ bytes } line := by
  rcases reading with ⟨before, seen, boundary, inside⟩ | ⟨-, dead, -⟩
  · refine .inl ⟨before, ?_, boundary, inside⟩
    show (p.output ++ bytes).take p.taken = _
    rw [List.take_append_of_le_length bounded]
    exact seen
  · rw [alive] at dead
    cases dead

theorem Reading.exit (reading : p.Reading line) : Reading { p with alive := false } line := by
  rcases reading with inside | ⟨empty, -, past⟩
  · exact .inl inside
  · exact .inr ⟨empty, rfl, past⟩

theorem Grows.refl : p.Grows p := ⟨fun _ => List.prefix_rfl, fun dead => ⟨rfl, dead⟩⟩

/-- A line, once written, stays written. -/
theorem Wrote.grows (wrote : p.Wrote line) (grows : p.Grows q) : q.Wrote line := by
  obtain ⟨before, after, body, output, boundary, inside, shape⟩ := wrote
  cases alive : p.alive with
  | false =>
      obtain ⟨same, dead⟩ := grows.2 alive
      refine ⟨before, after, body, same.trans output, boundary, inside, ?_⟩
      rcases shape with closed | ⟨rest, last, -⟩
      · exact .inl closed
      · exact .inr ⟨rest, last, dead⟩
  | true =>
      obtain ⟨more, grown⟩ := grows.1 alive
      rcases shape with closed | ⟨-, -, dead⟩
      · refine ⟨before, after ++ more, body, ?_, boundary, inside, .inl closed⟩
        rw [← grown, output, List.append_assoc]
      · rw [alive] at dead
        cases dead

/-- A process that never ended a line has written one line at most. -/
theorem wrote_of_no_newline (none_ : newline ∉ p.output) (wrote : p.Wrote line) :
    line = p.output := by
  obtain ⟨before, after, body, output, boundary, inside, shape⟩ := wrote
  rcases shape with rfl | ⟨rfl, rfl, -⟩
  · rw [output] at none_
    simp at none_
  · have start : before = [] := by
      cases last : before.getLast? with
      | none => exact List.getLast?_eq_none_iff.mp last
      | some byte =>
          rw [Boundary, last] at boundary
          have member := List.mem_of_getLast? last
          rw [show byte = newline by simpa using boundary] at member
          exact absurd (output ▸ by simp [member]) none_
    rw [output, start]
    simp

/-! ### Reading on -/

theorem unread_append : p.output.take p.taken ++ p.unread = p.output := List.take_append_drop ..

/-- A line that ends in what is unread. -/
theorem available_newline (ends : newline ∈ p.unread) :
    ∃ body rest, newline ∉ body ∧ p.available = body ++ [newline] ∧
      p.unread = body ++ newline :: rest := by
  refine ⟨p.unread.takeWhile (· != newline), (p.unread.dropWhile (· != newline)).tail, ?_, ?_, ?_⟩
  · intro member
    simpa using List.mem_takeWhile_imp member
  · rw [available, if_pos ends]
  · have split := List.takeWhile_append_dropWhile (p := (· != newline)) (l := p.unread)
    cases dropped : p.unread.dropWhile (· != newline) with
    | nil =>
        rw [dropped, List.append_nil] at split
        rw [← split] at ends
        simpa using List.mem_takeWhile_imp ends
    | cons byte rest =>
        have stop := List.head?_dropWhile_not (· != newline) p.unread
        rw [dropped] at stop split
        have last : byte = newline := by simpa using stop
        rw [last] at split
        exact split.symm

theorem available_rest (open_ : newline ∉ p.unread) : p.available = p.unread := by
  rw [available, if_neg open_, List.append_nil, List.takeWhile_eq_self_iff]
  intro byte member
  simpa using fun same : byte = newline => open_ (same ▸ member)

theorem available_prefix (p : Process) : p.available <+: p.unread := by
  by_cases ends : newline ∈ p.unread
  · obtain ⟨body, rest, -, available, unread⟩ := available_newline ends
    exact ⟨rest, by rw [available, unread, List.append_assoc]; rfl⟩
  · rw [available_rest ends]

/-- What has been taken after a read. -/
theorem take_take (p : Process) :
    p.take.output.take p.take.taken = p.output.take p.taken ++ p.available := by
  obtain ⟨rest, split⟩ := p.available_prefix
  show p.output.take (p.taken + p.available.length) = _
  rw [List.take_add, show p.output.drop p.taken = p.unread from rfl, ← split,
    List.take_left]

theorem take_bounded (bounded : p.taken ≤ p.output.length) : p.take.taken ≤ p.take.output.length := by
  have short := p.available_prefix.length_le
  rw [unread, List.length_drop] at short
  show p.taken + p.available.length ≤ p.output.length
  omega

/-- A read that does not finish a line stays inside it. -/
theorem Reading.more (reading : p.Reading line) (waits : p.lineDone = false) :
    p.take.Reading (line ++ p.available) := by
  have both : newline ∉ p.unread ∧ p.alive = true := by simpa [lineDone] using waits
  obtain ⟨open_, alive⟩ := both
  rcases reading with ⟨before, seen, boundary, inside⟩ | ⟨-, dead, -⟩
  · refine .inl ⟨before, ?_, boundary, ?_⟩
    · rw [take_take, seen, List.append_assoc]
    · rw [available_rest open_]
      simp [inside, open_]
  · rw [alive] at dead
    cases dead

/-- A read that finishes a line has read a line of the module, unless there is none. -/
theorem Reading.finish (reading : p.Reading line) (done : p.lineDone = true) :
    p.take.Reading [] ∧ (line ++ p.available = [] ∨ p.take.Wrote (line ++ p.available)) := by
  have whole : p.take.output = p.output.take p.taken ++ p.unread :=
    (unread_append (p := p)).symm
  by_cases ends : newline ∈ p.unread
  · obtain ⟨body, rest, free, available, unread⟩ := available_newline ends
    constructor
    · refine .inl ⟨p.output.take p.taken ++ p.available, ?_, ?_, List.not_mem_nil⟩
      · rw [take_take, List.append_nil]
      · rw [available, ← List.append_assoc]
        exact boundary_newline _
    · rcases reading with ⟨before, seen, boundary, inside⟩ | ⟨-, -, past⟩
      · refine .inr ⟨before, rest, line ++ body, ?_, boundary, by simp [inside, free], .inl ?_⟩
        · rw [whole, seen, available, unread]
          simp
        · rw [available, List.append_assoc]
      · rw [Process.unread, List.drop_eq_nil_of_le past] at ends
        cases ends
  · have dead : p.alive = false := by simpa [lineDone, ends] using done
    have rest := available_rest ends
    constructor
    · refine .inr ⟨rfl, dead, ?_⟩
      show p.output.length ≤ p.taken + p.available.length
      rw [rest, Process.unread, List.length_drop]
      omega
    · rcases reading with ⟨before, seen, boundary, inside⟩ | ⟨rfl, -, past⟩
      · refine .inr ⟨before, [], line ++ p.available, ?_, boundary, ?_, .inr ⟨rfl, rfl, dead⟩⟩
        · rw [whole, seen, rest]
          simp
        · rw [rest]
          simp [inside, ends]
      · left
        rw [rest, Process.unread, List.drop_eq_nil_of_le past, List.append_nil]

end Process

/-! ## Answers -/

section Answers

variable (serde : Serde)

/-- A line that answers a request with this result. -/
def AnswersWith (id : UInt64) (line : List UInt8) (value : Value) : Prop :=
  ∃ text response, Text.fromUtf8 line = some text ∧ serde.fromStr text = .ok response ∧
    (response.get "id").bind Value.asU64 = some id ∧
    value = (response.get "result").getD (.object [])

/-- Every process there ever was, the one in use last. -/
def PluginWorker.processes (s : PluginWorker) : List Process := s.retired ++ [s.process]

/-- A module wrote this answer. -/
def PluginWorker.Given (s : PluginWorker) (id : UInt64) (value : Value) : Prop :=
  ∃ process ∈ s.processes, ∃ line, process.Wrote line ∧ AnswersWith serde id line value

structure PluginWorker.Answered (s : PluginWorker) : Prop where
  distinct : (s.calls.map (·.id)).Nodup
  own : ∀ call ∈ s.calls, ∀ value, call.stage = .returned (.ok value) → s.Given serde call.id value

/-- No way out of a request leaves the pipe inside a line unmarked, and ids do not come
around. -/
def PluginWorker.whole (s : PluginWorker) : PluginAction → Bool
  | .begin _ _ => s.calls.length < 2 ^ 64
  | .acquire _ started => started || !s.desynced || s.process.clean
  | .readFail _ => s.process.clean
  | .cancel call => s.holder != some call || s.process.clean
  | _ => true

variable {serde} {s t : PluginWorker}

/-- What `Ok` was read from. -/
theorem judge_ok {id : UInt64} {method : String} {line : List UInt8} {value : Value}
    (judged : (judge serde id method line).1 = .ok value) :
    line ≠ [] ∧ AnswersWith serde id line value := by
  unfold judge at judged
  split at judged
  · cases judged
  · rename_i some_
    refine ⟨some_, ?_⟩
    split at judged
    · cases judged
    · rename_i text decoded
      split at judged
      · cases judged
      · rename_i response parsed
        split at judged
        · cases judged
        · rename_i own
          split at judged
          · cases judged
          · cases judged
            exact ⟨text, response, decoded, parsed, not_not.mp own, rfl⟩

/-! ### Numbers -/

/-- Requests are numbered from one, around `2 ^ 64`. -/
structure PluginWorker.Numbered (s : PluginWorker) : Prop where
  ids : s.calls.map (·.id) = (List.range s.calls.length).map fun k => UInt64.ofNat (k + 1)
  next : s.sequence = UInt64.ofNat (s.calls.length + 1)
  few : s.calls.length ≤ 2 ^ 64

namespace PluginWorker.Numbered

theorem congr (numbered : s.Numbered) (ids : t.calls.map (·.id) = s.calls.map (·.id))
    (next : t.sequence = s.sequence) : t.Numbered := by
  have size : t.calls.length = s.calls.length := by simpa using congrArg List.length ids
  refine ⟨?_, ?_, ?_⟩
  · rw [ids, size]
    exact numbered.ids
  · rw [next, size]
    exact numbered.next
  · rw [size]
    exact numbered.few

theorem at_ (numbered : s.Numbered) {call : Nat} {stage : RequestStage}
    (rows : t.calls = (s.at_ call stage).calls) (next : t.sequence = s.sequence) : t.Numbered := by
  refine numbered.congr ?_ next
  rw [rows]
  exact map_modify fun _ => rfl

theorem begin (numbered : s.Numbered) (few : s.calls.length < 2 ^ 64) {row : PluginCall}
    (id : row.id = s.sequence) :
    Numbered { s with sequence := s.sequence + 1, calls := s.calls ++ [row] } := by
  refine ⟨?_, ?_, ?_⟩
  · simp [List.range_succ, numbered.ids, id, numbered.next]
  · simp [numbered.next, UInt64.ofNat_add]
  · show (s.calls ++ [row]).length ≤ 2 ^ 64
    rw [List.length_append, List.length_singleton]
    omega

/-- **No two requests share an id.** -/
theorem nodup (numbered : s.Numbered) : (s.calls.map (·.id)).Nodup := by
  have few := numbered.few
  rw [numbered.ids]
  refine List.Nodup.map_on ?_ List.nodup_range
  intro j inside k also same
  rw [List.mem_range] at inside also
  have numbers := congrArg UInt64.toNat same
  simp only [UInt64.toNat_ofNat'] at numbers
  omega

end PluginWorker.Numbered

/-! ### The invariant -/

/-- What a request that has the pipes has read of its line. -/
def RequestStage.line : RequestStage → List UInt8
  | .reading line => line
  | _ => []

variable (serde) in
structure PluginWorker.Aligned (s : PluginWorker) : Prop where
  exclusive : s.Exclusive
  numbered : s.Numbered
  bounded : s.process.taken ≤ s.process.output.length
  /-- Between requests an unmarked pipe is between lines. -/
  idle : s.holder = none → s.desynced = false → s.process.Reading []
  held : ∀ (i : Nat) (stage : RequestStage), s.stage? i = some stage → stage.busy = true →
    s.process.Reading stage.line
  own : ∀ call ∈ s.calls, ∀ value, call.stage = .returned (.ok value) → s.Given serde call.id value

namespace PluginWorker

theorem Given.later {id : UInt64} {value : Value} (given : s.Given serde id value)
    (later : ∀ p ∈ s.processes, ∃ q ∈ t.processes, p.Grows q) : t.Given serde id value := by
  obtain ⟨process, member, line, wrote, answers⟩ := given
  obtain ⟨grown, also, grows⟩ := later process member
  exact ⟨grown, also, line, wrote.grows grows, answers⟩

theorem processes_later (retired : t.retired = s.retired) (grows : s.process.Grows t.process) :
    ∀ p ∈ s.processes, ∃ q ∈ t.processes, p.Grows q := by
  intro p member
  rcases List.mem_append.mp member with old | last
  · exact ⟨p, List.mem_append_left _ (retired ▸ old), Process.Grows.refl⟩
  · rw [List.mem_singleton.mp last]
    exact ⟨t.process, List.mem_append_right _ (List.mem_singleton_self _), grows⟩

namespace Aligned

theorem fresh : Aligned serde {} where
  exclusive := nofun
  numbered := ⟨rfl, rfl, Nat.zero_le _⟩
  bounded := le_refl _
  idle _ _ := .inl ⟨[], rfl, boundary_nil, List.not_mem_nil⟩
  held := nofun
  own := nofun

/-- `Ok` results when one request moves. -/
theorem own_at (inv : Aligned serde s) {call : Nat} {stage : RequestStage}
    (rows : t.calls = (s.at_ call stage).calls)
    (later : ∀ p ∈ s.processes, ∃ q ∈ t.processes, p.Grows q)
    (result : ∀ value, stage = .returned (.ok value) → ∀ row, s.calls[call]? = some row →
      t.Given serde row.id value) :
    ∀ row ∈ t.calls, ∀ value, row.stage = .returned (.ok value) → t.Given serde row.id value := by
  intro row member value returned
  rw [rows] at member
  rcases mem_modify_cases member with ⟨old, here, rfl⟩ | old
  · exact result value returned old here
  · exact (inv.own row old value returned).later later

/-- A move of the request that has the pipes. -/
theorem holder_moves (inv : Aligned serde s) {call : Nat} {old stage : RequestStage}
    (here : s.stage? call = some old) (was : old.busy = true) (exclusive : t.Exclusive)
    (rows : t.calls = (s.at_ call stage).calls) (next : t.sequence = s.sequence)
    (later : ∀ p ∈ s.processes, ∃ q ∈ t.processes, p.Grows q)
    (bounded : t.process.taken ≤ t.process.output.length)
    (mine : stage.busy = true → t.process.Reading stage.line)
    (idle : t.holder = none → t.desynced = false → t.process.Reading [])
    (result : ∀ value, stage = .returned (.ok value) → ∀ row, s.calls[call]? = some row →
      t.Given serde row.id value) : Aligned serde t := by
  refine ⟨exclusive, inv.numbered.at_ rows next, bounded, idle, ?_, inv.own_at rows later result⟩
  intro i shown there busy
  rcases stage?_at rows there with ⟨-, rfl⟩ | ⟨differs, other⟩
  · exact mine busy
  · have held := inv.exclusive call old here was
    rw [inv.exclusive i shown other busy] at held
    exact absurd (Option.some.inj held).symm differs

theorem begin (inv : Aligned serde s) (few : s.calls.length < 2 ^ 64) {row : PluginCall}
    (id : row.id = s.sequence) (waits : row.stage = .waiting) :
    Aligned serde { s with sequence := s.sequence + 1, calls := s.calls ++ [row] } := by
  have old : ∀ (i : Nat) (stage : RequestStage),
      PluginWorker.stage? { s with sequence := s.sequence + 1, calls := s.calls ++ [row] } i =
        some stage → stage.busy = true → s.stage? i = some stage := by
    intro i stage here busy
    obtain ⟨shown, found, rfl⟩ := Option.map_eq_some_iff.mp here
    rw [List.getElem?_append] at found
    split at found
    · exact stage?_eq found
    · rw [List.mem_singleton.mp (List.mem_of_getElem? found), waits] at busy
      cases busy
  refine ⟨?_, inv.numbered.begin few id, inv.bounded, inv.idle, ?_, ?_⟩
  · exact fun i stage here busy => inv.exclusive i stage (old i stage here busy) busy
  · exact fun i stage here busy => inv.held i stage (old i stage here busy) busy
  · intro call member value returned
    rcases List.mem_append.mp member with present | added
    · exact inv.own call present value returned
    · rw [List.mem_singleton.mp added, waits] at returned
      cases returned

/-- A request gets free pipes, of a process that is between lines. -/
theorem acquire (inv : Aligned serde s) (free : s.holder = none) (call : Nat) (text : List UInt8)
    {started : Bool} (ok : started = true ∨ s.desynced = false ∨ s.process.Reading []) :
    Aligned serde (s.acquire call text started) := by
  have exclusive := inv.exclusive.acquire free call text started
  have held : ∀ (next : PluginWorker) (stage : RequestStage),
      next.calls = (s.at_ call stage).calls → (stage.busy = true → stage.line = []) →
      (stage.busy = true → next.process.Reading []) →
      ∀ (i : Nat) (shown : RequestStage), next.stage? i = some shown → shown.busy = true →
        next.process.Reading shown.line := by
    intro next stage rows start clean i shown there busy
    rcases stage?_at rows there with ⟨-, rfl⟩ | ⟨-, other⟩
    · rw [start busy]
      exact clean busy
    · rw [inv.exclusive.idle free other] at busy
      cases busy
  unfold PluginWorker.acquire at exclusive ⊢
  split
  · rename_i flagged
    rw [if_pos flagged] at exclusive
    split
    · rename_i restarts
      rw [if_pos restarts] at exclusive
      have clean : Process.Reading {} [] := .inl ⟨[], rfl, boundary_nil, List.not_mem_nil⟩
      refine ⟨exclusive, inv.numbered.at_ rfl rfl, le_refl _, nofun, ?_, ?_⟩
      · exact held _ _ rfl (fun _ => rfl) fun _ => clean
      · refine inv.own_at rfl ?_ nofun
        intro p member
        exact ⟨p, List.mem_append_left _ member, Process.Grows.refl⟩
    · rename_i fails
      rw [if_neg fails] at exclusive
      have clean : s.process.Reading [] := by
        rcases ok with restarts | unmarked | clean
        · exact absurd restarts fails
        · rw [flagged] at unmarked
          cases unmarked
        · exact clean
      refine ⟨exclusive, inv.numbered.at_ rfl rfl, inv.bounded, fun _ _ => clean, ?_, ?_⟩
      · exact held _ _ rfl nofun nofun
      · exact inv.own_at rfl (processes_later rfl ⟨fun _ => List.prefix_rfl, fun dead => ⟨rfl, dead⟩⟩) nofun
  · rename_i unmarked
    rw [if_neg unmarked] at exclusive
    have clean := inv.idle free (by simpa using unmarked)
    refine ⟨exclusive, inv.numbered.at_ rfl rfl, inv.bounded, nofun, ?_, ?_⟩
    · exact held _ _ rfl (fun _ => rfl) fun _ => clean
    · exact inv.own_at rfl (processes_later rfl Process.Grows.refl) nofun

theorem finish (inv : Aligned serde s) {call : Nat} {row : PluginCall} {line : List UInt8}
    (here : s.calls[call]? = some row) (reads : row.stage = .reading line)
    (done : s.process.lineDone = true) :
    Aligned serde (s.finish serde call row (line ++ s.process.available)) := by
  have busy : row.stage.busy = true := by rw [reads]; rfl
  have reading : s.process.Reading line := by
    have held := inv.held call row.stage (stage?_eq here) busy
    rwa [reads] at held
  obtain ⟨clean, wrote⟩ := reading.finish done
  -- The ghost mark of the process says nothing about its output.
  have same : ∀ answered : Bool,
      (if answered then s.process.take else s.process.take.fail).output = s.process.output ∧
      (if answered then s.process.take else s.process.take.fail).taken = s.process.take.taken ∧
      (if answered then s.process.take else s.process.take.fail).alive = s.process.alive := by
    intro answered
    cases answered <;> exact ⟨rfl, rfl, rfl⟩
  obtain ⟨output, taken, alive⟩ := same (isAnswer serde row.id (line ++ s.process.available))
  refine inv.holder_moves (stage?_eq here) busy
    (inv.exclusive.release rfl (stage?_eq here) busy rfl) rfl rfl (processes_later rfl ?_) ?_ nofun
    ?_ ?_
  · exact ⟨fun _ => output ▸ List.prefix_rfl, fun dead => ⟨output, alive.trans dead⟩⟩
  · show (if _ then s.process.take else _).taken ≤ (if _ then s.process.take else _).output.length
    rw [output, taken]
    exact Process.take_bounded inv.bounded
  · intro _ _
    exact (Process.Reading.congr (p := s.process.take) output taken alive).mpr clean
  · intro value returned found present
    obtain rfl := Option.some.inj (here.symm.trans present)
    obtain ⟨some_, answers⟩ := judge_ok (RequestStage.returned.inj returned)
    have written := wrote.resolve_left some_
    refine ⟨_, List.mem_append_right _ (List.mem_singleton_self _), line ++ s.process.available, ?_,
      answers⟩
    exact written.grows ⟨fun _ => output ▸ List.prefix_rfl, fun dead => ⟨output, alive.trans dead⟩⟩

/-- A process whose output is left alone. -/
theorem later_of_same (retired : t.retired = s.retired) (output : t.process.output = s.process.output)
    (alive : t.process.alive = s.process.alive) : ∀ p ∈ s.processes, ∃ q ∈ t.processes, p.Grows q := by
  refine processes_later retired ⟨fun _ => ?_, fun dead => ⟨output, alive.trans dead⟩⟩
  rw [output]

theorem write (inv : Aligned serde s) {call n : Nat} {left : List UInt8} {stage : RequestStage}
    (here : s.stage? call = some (.writing left))
    (next : stage = .reading [] ∨ stage = .writing (left.drop n)) (exclusive : t.Exclusive)
    (moved : t = { (s.at_ call stage) with
      process := { s.process with input := s.process.input ++ left.take n } }) : Aligned serde t := by
  subst moved
  have clean := inv.held _ _ here rfl
  have held := inv.exclusive _ _ here rfl
  refine inv.holder_moves here rfl exclusive rfl rfl (later_of_same rfl rfl rfl) inv.bounded ?_ ?_ ?_
  · intro _
    rcases next with rfl | rfl
    · exact clean
    · exact clean
  · intro free
    cases held.symm.trans free
  · rcases next with rfl | rfl
    · nofun
    · nofun

theorem more (inv : Aligned serde s) {call : Nat} {row : PluginCall} {line : List UInt8}
    (here : s.calls[call]? = some row) (reads : row.stage = .reading line)
    (waits : s.process.lineDone = false) (exclusive : t.Exclusive)
    (moved : t = { (s.at_ call (.reading (line ++ s.process.available))) with
      process := s.process.take }) : Aligned serde t := by
  subst moved
  have stage : s.stage? call = some (.reading line) := (stage?_eq here).trans (congrArg some reads)
  have reading := inv.held _ _ stage rfl
  have held := inv.exclusive _ _ stage rfl
  refine inv.holder_moves stage rfl exclusive rfl rfl (later_of_same rfl rfl rfl)
    (Process.take_bounded inv.bounded) (fun _ => reading.more waits) ?_ nofun
  intro free
  cases held.symm.trans free

/-- A request that has the pipes gives up, and the pipe is marked or between lines. -/
theorem lost (inv : Aligned serde s) {call : Nat} {old : RequestStage} (stage : RequestStage)
    (here : s.stage? call = some old) (was : old.busy = true) (done : stage.busy = false)
    (failed : ∀ value, stage ≠ .returned (.ok value)) (exclusive : t.Exclusive)
    (rows : t.calls = (s.at_ call stage).calls) (next : t.sequence = s.sequence)
    (retired : t.retired = s.retired) (process : t.process = s.process.fail)
    (clean : t.desynced = false → s.process.Reading []) : Aligned serde t := by
  refine inv.holder_moves here was exclusive rows next
    (later_of_same retired (by rw [process]; rfl) (by rw [process]; rfl)) ?_ ?_ ?_ ?_
  · rw [process]
    exact inv.bounded
  · intro busy
    rw [done] at busy
    cases busy
  · intro _ unmarked
    rw [process]
    exact clean unmarked
  · exact fun value returned => absurd returned (failed value)

/-- A request without the pipes goes away. -/
theorem leave (inv : Aligned serde s) {call : Nat} (exclusive : (s.at_ call .dropped).Exclusive) :
    Aligned serde (s.at_ call .dropped) := by
  refine ⟨exclusive, inv.numbered.at_ rfl rfl, inv.bounded, inv.idle, ?_, ?_⟩
  · intro i shown there busy
    rcases stage?_at rfl there with ⟨-, rfl⟩ | ⟨-, other⟩
    · cases busy
    · exact inv.held i shown other busy
  · exact inv.own_at rfl (later_of_same rfl rfl rfl) nofun

/-- The module writes, or goes away. -/
theorem module (inv : Aligned serde s) {p : Process} (grows : s.process.Grows p)
    (bounded : p.taken ≤ p.output.length)
    (reading : ∀ line, s.process.Reading line → p.Reading line) :
    Aligned serde { s with process := p } where
  exclusive := inv.exclusive
  numbered := inv.numbered.congr rfl rfl
  bounded := bounded
  idle free unmarked := reading [] (inv.idle free unmarked)
  held i stage here busy := reading stage.line (inv.held i stage here busy)
  own call member value returned :=
    (inv.own call member value returned).later (processes_later rfl grows)

theorem moves (inv : Aligned serde s) {action : PluginAction} (ok : s.whole action = true)
    (moved : s.Moves serde action t) : Aligned serde t := by
  have exclusive := inv.exclusive.moves moved
  cases moved with
  | begin method params => exact inv.begin (by simpa [whole] using ok) rfl rfl
  | acquire free here waits =>
      refine inv.acquire free _ _ ?_
      simpa [whole, or_assoc, Process.clean_iff] using ok
  | write here next => exact inv.write here next exclusive rfl
  | more here reads waits => exact inv.more here reads waits exclusive rfl
  | finish here reads done => exact inv.finish here reads done
  | writeFail here =>
      exact inv.lost (.returned (.error .io)) here rfl rfl nofun exclusive rfl rfl rfl rfl
        fun _ => inv.held _ _ here rfl
  | readFail here =>
      exact inv.lost (.returned (.error .io)) here rfl rfl nofun exclusive rfl rfl rfl rfl
        fun _ => Process.clean_iff.mp ok
  | deadline here =>
      exact inv.lost (.returned (.error (.moduleFailed _))) here rfl rfl nofun exclusive rfl rfl rfl
        rfl nofun
  | leave here => exact inv.leave exclusive
  | cancel here busy =>
      have held := inv.exclusive _ _ here busy
      have clean : s.process.clean = true := by simpa [whole, held] using ok
      exact inv.lost .dropped here busy rfl nofun exclusive rfl rfl rfl rfl
        fun _ => Process.clean_iff.mp clean
  | emit alive =>
      refine inv.module ⟨fun _ => List.prefix_append _ _, fun dead => ?_⟩ ?_ ?_
      · rw [alive] at dead
        cases dead
      · show s.process.taken ≤ (s.process.output ++ _).length
        rw [List.length_append]
        have := inv.bounded
        omega
      · exact fun line reading => reading.emit alive inv.bounded _
  | exit =>
      exact inv.module ⟨fun _ => List.prefix_rfl, fun _ => ⟨rfl, rfl⟩⟩ inv.bounded
        fun _ reading => reading.exit

end Aligned

end PluginWorker

/-- **Whose answer a request returns**: in every run in which no request leaves the pipe
inside a line unmarked. -/
theorem answers_own (serde : Serde) {actions : List PluginAction} {final : PluginWorker}
    (met : (pluginMachine serde).Meets (fun s action => s.whole action = true) {} actions)
    (ran : (pluginMachine serde).run {} actions = some final) : final.Answered serde := by
  have inv : final.Aligned serde := by
    refine Machine.run_preserves_of_meets ?_ met ran PluginWorker.Aligned.fresh
    intro s action t inv ok stepped
    exact inv.moves ok (PluginWorker.step_moves stepped)
  exact ⟨inv.numbered.nodup, inv.own⟩

end Answers

/-! ## A late answer, and a spliced one -/

/-- What a request returned, as a number. -/
def PluginWorker.number? (s : PluginWorker) (call : Nat) : Option UInt64 :=
  match s.stage? call with
  | some (.returned (.ok value)) => value.asU64
  | _ => none

/-- The head of an answer to the first request, and a result for it that reads like an
answer to the second. -/
def answerHead : String := "\x7b\"id\":1,\"ok\":true,\"result\":"

def answerResult : String := "\x7b\"id\":2,\"ok\":true,\"result\":7\x7d"

/-- A JSON reader and printer, as far as these texts go. -/
def splicedSerde : Serde where
  fromStr := fun text =>
    if text = answerResult ∨ text = answerResult ++ "\n" then
      .ok (.object [("id", .nat 2), ("ok", .bool true), ("result", .nat 7)])
    else if text = answerHead ++ answerResult ++ "\x7d\n" then
      .ok (.object [("id", .nat 1), ("ok", .bool true), ("result",
        .object [("id", .nat 2), ("ok", .bool true), ("result", .nat 7)])])
    else .error "EOF while parsing an object"
  fromStrVec := fun _ => .error "EOF while parsing a value at line 1 column 0"
  print := fun request =>
    if (request.get "id").bind Value.asU64 = some 1 then
      "\x7b\"id\":1,\"method\":\"rpc\",\"params\":\x7b\x7d,\"protocol_version\":1\x7d"
    else "\x7b\"id\":2,\"method\":\"rpc\",\"params\":\x7b\x7d,\"protocol_version\":1\x7d"

/-- The first request is answered after its deadline, the second by a process of its own. -/
def wholeAnswers : List PluginAction :=
  [.begin "rpc" (.object []), .begin "rpc" (.object []), .acquire 0 true, .write 0 100,
    .emit (Text.utf8 answerHead), .read 0, .deadline 0, .emit (Text.utf8 (answerResult ++ "\x7d\n")),
    .acquire 1 true, .write 1 100, .emit (Text.utf8 (answerResult ++ "\n")), .read 1]

theorem answers_own_wholeAnswers :
    ∃ final, (pluginMachine splicedSerde).run {} wholeAnswers = some final ∧
      (final.retired.length = 1 ∧ final.number? 1 = some 7) ∧ final.Answered splicedSerde := by
  obtain ⟨final, ran, shown⟩ : ∃ final, (pluginMachine splicedSerde).run {} wholeAnswers = some final ∧
      (final.retired.length = 1 ∧ final.number? 1 = some 7) :=
    Machine.run_exists (by decide +kernel)
  exact ⟨final, ran, shown, answers_own splicedSerde (by decide +kernel) ran⟩

/-- The first request is cancelled when the head of its answer was read; the module writes
the result and is killed before it ends the line. -/
def splicedAnswer : List PluginAction :=
  [.begin "rpc" (.object []), .begin "rpc" (.object []), .acquire 0 true, .write 0 100,
    .emit (Text.utf8 answerHead), .read 0, .cancel 0, .acquire 1 true, .write 1 100,
    .emit (Text.utf8 answerResult), .exit, .read 1]

/-- The second request returns a number out of the answer to the first. -/
theorem spliced_answer :
    ∃ final, (pluginMachine splicedSerde).run {} splicedAnswer = some final ∧
      final.number? 1 = some 7 ∧ ¬ final.Answered splicedSerde := by
  obtain ⟨final, ran, returned, retired, output⟩ :
      ∃ final, (pluginMachine splicedSerde).run {} splicedAnswer = some final ∧
        final.number? 1 = some 7 ∧ final.retired = [] ∧
        final.process.output = Text.utf8 (answerHead ++ answerResult) :=
    Machine.run_exists (by decide +kernel)
  refine ⟨final, ran, returned, fun answered => ?_⟩
  obtain ⟨row, here, stage⟩ : ∃ row, final.calls[1]? = some row ∧
      ∃ value, row.stage = .returned (.ok value) := by
    unfold PluginWorker.number? at returned
    split at returned
    · rename_i value shown
      obtain ⟨row, here, stage⟩ := Option.map_eq_some_iff.mp shown
      exact ⟨row, here, value, stage⟩
    · cases returned
  obtain ⟨value, stage⟩ := stage
  obtain ⟨process, member, line, wrote, text, response, decoded, parsed, -⟩ :=
    answered.own row (List.mem_of_getElem? here) value stage
  rw [PluginWorker.processes, retired, List.nil_append, List.mem_singleton] at member
  subst member
  have whole := Process.wrote_of_no_newline (by rw [output]; decide +kernel) wrote
  rw [whole, output, Text.fromUtf8_utf8, Option.some.injEq] at decoded
  subst decoded
  have refused : ∃ message, splicedSerde.fromStr (answerHead ++ answerResult) = .error message :=
    ⟨"EOF while parsing an object", rfl⟩
  obtain ⟨message, refused⟩ := refused
  cases refused.symm.trans parsed

end MajsoulManager.Watch
