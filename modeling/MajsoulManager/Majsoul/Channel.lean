/-
# Majsoul.Channel — calls and answers over one socket

`rpc.rs`: `Channel::call`, which heartbeats use too, and the read task.  A call
takes an index from a 16-bit counter that wraps, reduced modulo 60007; it puts its
sender into the pending map under that index, writes its request and waits.  The
read task hands an answer to whoever stands under the index it carries.

Indices come back: two calls have the same index no sooner than 5529 calls apart
(`indexOf_injective`), which is how far the counter's last value is past 60007.
`channel_sound`: while no call is left unanswered for that long and no answer is that
late, calls that wait have indices of their own, and a call that returns data returns
the data sent for it.
-/
import MajsoulManager.Majsoul.Gateway
import MajsoulManager.Theory.Edits

namespace MajsoulManager.Majsoul.Rpc

open MajsoulManager.Theory
open MajsoulManager.Store

set_option autoImplicit false

/-! ## Frames -/

/-- A response: its type, the index of the request in two bytes, low byte first, and
a wrapped body. -/
def responseFrame (index : UInt16) (name : String) (data : Bytes) : Bytes :=
  3 :: UInt8.ofNat index.toNat :: UInt8.ofNat (index.toNat / 256) :: Gateway.encode name data

/-- What the read task makes of a binary message: an index and the data it decodes. -/
def Received (frame : Bytes) (index : UInt16) (data : Bytes) : Prop :=
  ∃ low high body name, frame = 3 :: low :: high :: body ∧
    index = UInt16.ofNat (low.toNat + 256 * high.toNat) ∧
    Loop.Returns (Gateway.decodeTurn body) Gateway.Walk.start (.ok (name, data))

/-- A server that echoes the index is understood. -/
theorem responseFrame_received {index : UInt16} {name : String} {data : Bytes}
    (fits : (Gateway.encode name data).length < 2 ^ 63) :
    Received (responseFrame index name data) index data := by
  refine ⟨_, _, _, name, rfl, ?_, Gateway.decode_encode fits⟩
  apply UInt16.toNat_inj.mp
  have bound := index.toNat_lt
  simp only [UInt8.toNat_ofNat', UInt16.toNat_ofNat']
  omega

/-! ## The channel -/

inductive CallError where
  | socket
  | timeout
  | closed
  deriving DecidableEq, Repr

/-- How far a call has come: it has its index, its sender is in the map, its request
is written; then it returns, unless its future is dropped at one of its awaits. -/
inductive Progress where
  | taken
  | registered
  | sent
  | returned (result : Except CallError Bytes)
  | dropped

/-- The channel between a call and the read task. -/
inductive Oneshot where
  | empty
  | full (data : Bytes)
  | closed
  deriving DecidableEq

structure Call where
  index : UInt16
  progress : Progress
  oneshot : Oneshot
  requested : Bool

structure Channel where
  counter : UInt16
  calls : List Call
  pending : UInt16 → Option Nat
  connected : Bool
  /-- The answers that have arrived, each with the call it was sent for. -/
  answers : List (Nat × Bytes)

def Channel.opened : Channel := ⟨1, [], fun _ => none, true, []⟩

inductive Action where
  | start
  | register (k : Nat)
  | send (k : Nat) (written : Bool)
  | arrive (k : Nat) (data : Bytes)
  | finish (k : Nat)
  | timeout (k : Nat)
  | drop (k : Nat)
  | disconnect

/-- The call is somewhere between its start and its return. -/
def Call.running (call : Call) : Bool :=
  match call.progress with
  | .taken | .registered | .sent => true
  | .returned _ | .dropped => false

/-- The call's receiver is alive and its sender has been handed over. -/
def Call.listening (call : Call) : Bool :=
  match call.progress with
  | .registered | .sent => true
  | .taken | .returned _ | .dropped => false

/-- The sender is gone; a value that was sent stays. -/
def Call.close (call : Call) : Call :=
  match call.oneshot with
  | .empty => { call with oneshot := .closed }
  | .full _ | .closed => call

/-- `tx.send`, which does nothing once the receiver is gone. -/
def Call.deliver (data : Bytes) (call : Call) : Call :=
  match call.listening, call.oneshot with
  | true, .empty => { call with oneshot := .full data }
  | _, _ => call

def Call.move (progress : Progress) (call : Call) : Call := { call with progress }

/-- Inserting drops the sender that stood there. -/
def replaced (calls : List Call) (old : Option Nat) : List Call :=
  match old with
  | none => calls
  | some j => calls.modify j Call.close

/-- One step of a call, or of the read task. -/
def step (s : Channel) : Action → Option Channel
  | .start =>
      some { s with
        counter := s.counter + 1
        calls := s.calls ++ [⟨s.counter % 60007, .taken, .empty, false⟩] }
  | .register k => do
      let call ← s.calls[k]?
      match call.progress with
      | .taken =>
          some { s with
            calls := (replaced s.calls (s.pending call.index)).modify k (Call.move .registered)
            pending := Function.update s.pending call.index (some k) }
      | _ => none
  | .send k written => do
      let call ← s.calls[k]?
      match call.progress with
      | .registered =>
          let next := if written then .sent else .returned (.error .socket)
          some { s with
            calls := s.calls.modify k fun call => { call with progress := next, requested := true } }
      | _ => none
  | .arrive k data => do
      let call ← s.calls[k]?
      if s.connected && call.requested then
        let answered := { s with answers := s.answers ++ [(k, data)] }
        match s.pending call.index with
        | none => some answered
        | some j =>
            some { answered with
              calls := s.calls.modify j (Call.deliver data)
              pending := Function.update s.pending call.index none }
      else none
  | .finish k => do
      let call ← s.calls[k]?
      match call.progress, call.oneshot with
      | .sent, .full data => some { s with calls := s.calls.modify k (Call.move (.returned (.ok data))) }
      | .sent, .closed =>
          some { s with calls := s.calls.modify k (Call.move (.returned (.error .closed))) }
      | _, _ => none
  | .timeout k => do
      let call ← s.calls[k]?
      match call.progress, call.oneshot with
      | .sent, .empty =>
          some { s with calls := s.calls.modify k (Call.move (.returned (.error .timeout))) }
      | _, _ => none
  | .drop k => do
      let call ← s.calls[k]?
      if call.running then some { s with calls := s.calls.modify k (Call.move .dropped) } else none
  -- the read task ends and drops every sender it holds
  | .disconnect =>
      some { s with
        connected := false
        pending := fun _ => none
        calls := s.calls.mapIdx fun k call =>
          if s.pending call.index = some k then call.close else call }

def channelMachine : Machine Channel Action where
  Start := fun s => s = .opened
  step := step

/-! ## Outstanding calls, and how late an answer may be -/

/-- The call has not returned, and no answer has come for it. -/
def Call.outstanding (call : Call) : Bool :=
  call.running && match call.oneshot with
    | .full _ => false
    | .empty | .closed => true

/-- The calls started after the `k`th. -/
def Channel.further (s : Channel) (k : Nat) : Nat := s.calls.length - (k + 1)

/-- How far apart two calls with one index are at least: what the counter has left
after 60007. -/
def reuseDistance : Nat := 65536 - 60007

/-- Every answer arrives in time. -/
def PromptAnswer (s : Channel) : Action → Prop
  | .arrive k _ => s.further k < reuseDistance
  | _ => True

/-- Every call is answered or over in time: a new call is only started when no call
that far back is outstanding. -/
def PromptCall (s : Channel) : Action → Prop
  | .start => ∀ k call, s.calls[k]? = some call → call.outstanding = true →
      s.further k + 1 < reuseDistance
  | _ => True

def Prompt (s : Channel) (action : Action) : Prop := PromptAnswer s action ∧ PromptCall s action

/-- The index of the `k`th call. -/
def indexOf (k : Nat) : UInt16 := UInt16.ofNat (k + 1) % 60007

theorem indexOf_toNat (k : Nat) : (indexOf k).toNat = (k + 1) % 65536 % 60007 := by
  rw [indexOf, UInt16.toNat_mod, UInt16.toNat_ofNat']
  rfl

/-- **Indices do not come back** within the reuse distance. -/
theorem indexOf_injective {j k : Nat} (near : j < k + reuseDistance) (also : k < j + reuseDistance)
    (same : indexOf j = indexOf k) : j = k := by
  have numbers := congrArg UInt16.toNat same
  rw [indexOf_toNat, indexOf_toNat] at numbers
  unfold reuseDistance at near also
  -- a counter is its own index, or 60007 past it
  have reduced : ∀ n, (n + 1) % 65536 % 60007 = (n + 1) % 65536 ∨
      (n + 1) % 65536 % 60007 + 60007 = (n + 1) % 65536 := by
    intro n
    omega
  rcases reduced j with first | first <;> rcases reduced k with second | second <;> omega

/-- They do come back at that distance. -/
example : indexOf 60006 = indexOf (60006 + reuseDistance) := by decide

/-! ## The invariant -/

structure Inv (s : Channel) : Prop where
  counter : s.counter = UInt16.ofNat (s.calls.length + 1)
  index : ∀ k call, s.calls[k]? = some call → call.index = indexOf k
  window : ∀ k call, s.calls[k]? = some call → call.outstanding = true →
    s.calls.length ≤ k + reuseDistance
  /-- Whoever listens with an empty channel is the one under its index. -/
  held : ∀ k call, s.calls[k]? = some call → call.listening = true → call.oneshot = .empty →
    s.pending call.index = some k
  entry : ∀ i j, s.pending i = some j → ∃ call, s.calls[j]? = some call ∧ call.index = i ∧
    call.progress ≠ .taken
  fresh : ∀ (k : Nat) (call : Call), s.calls[k]? = some call → call.progress = .taken →
    call.oneshot = .empty
  full : ∀ k call data, s.calls[k]? = some call → call.oneshot = .full data →
    (k, data) ∈ s.answers
  result : ∀ k call data, s.calls[k]? = some call → call.progress = .returned (.ok data) →
    (k, data) ∈ s.answers

theorem opened_inv : Inv Channel.opened := by
  constructor <;> simp [Channel.opened]

theorem Call.outstanding_of_listening {call : Call} (listens : call.listening = true)
    (empty : call.oneshot = .empty) : call.outstanding = true := by
  obtain ⟨index, progress, oneshot, requested⟩ := call
  cases progress <;> simp_all [Call.listening, Call.outstanding, Call.running]

/-- Two calls in the window that share an index are one. -/
theorem Inv.same {s : Channel} (inv : Inv s) {j k : Nat} {one other : Call}
    (atJ : s.calls[j]? = some one) (atK : s.calls[k]? = some other)
    (nearJ : s.calls.length ≤ j + reuseDistance) (nearK : s.calls.length ≤ k + reuseDistance)
    (index : one.index = other.index) : j = k := by
  have insideJ := (List.getElem?_eq_some_iff.mp atJ).1
  have insideK := (List.getElem?_eq_some_iff.mp atK).1
  rw [inv.index j one atJ, inv.index k other atK] at index
  exact indexOf_injective (by omega) (by omega) index

/-- Whoever listens under the index of a recent call is that call. -/
theorem Inv.listener {s : Channel} (inv : Inv s) {i k : Nat} {other call : Call}
    (found : s.calls[i]? = some other) (listens : other.listening = true)
    (waits : other.oneshot = .empty) (here : s.calls[k]? = some call)
    (near : s.calls.length ≤ k + reuseDistance) (index : other.index = call.index) : i = k := by
  have recent := inv.window i other found (Call.outstanding_of_listening listens waits)
  exact inv.same found here recent near index

/-- What a step that starts no call may do to the calls. -/
structure Kept (s t : Channel) : Prop where
  counter : t.counter = s.counter
  length : t.calls.length = s.calls.length
  answers : s.answers ⊆ t.answers
  calls : ∀ k after, t.calls[k]? = some after → ∃ before, s.calls[k]? = some before ∧
    after.index = before.index ∧
    (after.outstanding = true → before.outstanding = true) ∧
    (after.listening = true → after.oneshot = .empty → t.pending after.index = some k) ∧
    (after.progress = .taken → before.progress = .taken ∧ after.oneshot = before.oneshot) ∧
    (∀ data, after.oneshot = .full data → before.oneshot = .full data ∨ (k, data) ∈ t.answers) ∧
    (∀ data, after.progress = .returned (.ok data) →
      before.progress = .returned (.ok data) ∨ (k, data) ∈ t.answers)
  entry : ∀ i j, t.pending i = some j → ∃ call, t.calls[j]? = some call ∧ call.index = i ∧
    call.progress ≠ .taken

theorem Kept.inv {s t : Channel} (kept : Kept s t) (inv : Inv s) : Inv t where
  counter := by rw [kept.counter, kept.length, inv.counter]
  index := by
    intro k after here
    obtain ⟨before, found, same, -⟩ := kept.calls k after here
    rw [same, inv.index k before found]
  window := by
    intro k after here out
    obtain ⟨before, found, -, was, -⟩ := kept.calls k after here
    rw [kept.length]
    exact inv.window k before found (was out)
  held := by
    intro k after here listens empty
    obtain ⟨before, -, -, -, held, -⟩ := kept.calls k after here
    exact held listens empty
  entry := kept.entry
  fresh := by
    intro k after here taken
    obtain ⟨before, found, -, -, -, was, -⟩ := kept.calls k after here
    obtain ⟨stillTaken, same⟩ := was taken
    rw [same]
    exact inv.fresh k before found stillTaken
  full := by
    intro k after data here full
    obtain ⟨before, found, -, -, -, -, was, -⟩ := kept.calls k after here
    rcases was data full with old | new
    · exact kept.answers (inv.full k before data found old)
    · exact new
  result := by
    intro k after data here returned
    obtain ⟨before, found, -, -, -, -, -, was⟩ := kept.calls k after here
    rcases was data returned with old | new
    · exact kept.answers (inv.result k before data found old)
    · exact new

/-- A step of one call that leaves the pending map alone. -/
theorem kept_modify {s : Channel} (inv : Inv s) {k : Nat} {call : Call} {edit : Call → Call}
    (here : s.calls[k]? = some call) (index : (edit call).index = call.index)
    (oneshot : (edit call).oneshot = call.oneshot)
    (running : (edit call).running = true → call.running = true)
    (listening : (edit call).listening = true → call.listening = true)
    (taken : (edit call).progress ≠ .taken)
    (result : ∀ data, (edit call).progress = .returned (.ok data) → call.oneshot = .full data) :
    Kept s { s with calls := s.calls.modify k edit } where
  counter := rfl
  length := List.length_modify ..
  answers := List.Subset.refl _
  calls := by
    intro j after found
    rcases getElem?_modify_cases found with ⟨rfl, before, was, rfl⟩ | ⟨-, was⟩
    · cases here.symm.trans was
      refine ⟨call, here, index, ?_, ?_, fun still => absurd still taken, ?_, ?_⟩
      · intro out
        simp only [Call.outstanding, Bool.and_eq_true, oneshot] at out ⊢
        exact ⟨running out.1, out.2⟩
      · intro listens empty
        rw [index]
        exact inv.held k call here (listening listens) (oneshot ▸ empty)
      · intro data full
        exact .inl (oneshot ▸ full)
      · intro data returned
        exact .inr (inv.full k call data here (result data returned))
    · exact ⟨after, was, rfl, id, inv.held j after was, fun still => ⟨still, rfl⟩,
        fun data full => .inl full, fun data returned => .inl returned⟩
  entry := by
    intro i j found
    obtain ⟨old, was, same, past⟩ := inv.entry i j found
    by_cases moved : k = j
    · subst moved
      cases here.symm.trans was
      exact ⟨edit call, by simp [here], index.trans same, taken⟩
    · exact ⟨old, by rw [List.getElem?_modify_ne _ _ moved]; exact was, same, past⟩

/-! ### Closing and delivering -/

/-- A call is over, with the data it was sent or with none. -/
theorem kept_over {s : Channel} (inv : Inv s) {k : Nat} {call : Call} {progress : Progress}
    (here : s.calls[k]? = some call) (over_ : (call.move progress).running = false)
    (result : ∀ data, progress = .returned (.ok data) → call.oneshot = .full data) :
    Kept s { s with calls := s.calls.modify k (Call.move progress) } := by
  refine kept_modify inv here rfl rfl ?_ ?_ ?_ result
  · simp [over_]
  · intro listens
    cases progress <;> simp_all [Call.move, Call.running, Call.listening]
  · rintro same
    rw [show progress = .taken from same] at over_
    cases over_

@[simp] theorem Call.close_index (call : Call) : call.close.index = call.index := by
  unfold Call.close
  split <;> rfl

@[simp] theorem Call.close_progress (call : Call) : call.close.progress = call.progress := by
  unfold Call.close
  split <;> rfl

@[simp] theorem Call.close_listening (call : Call) : call.close.listening = call.listening := by
  simp [Call.listening]

@[simp] theorem Call.close_running (call : Call) : call.close.running = call.running := by
  simp [Call.running]

theorem Call.close_oneshot (call : Call) :
    call.close.oneshot ≠ .empty ∧ ∀ data, call.close.oneshot = .full data ↔ call.oneshot = .full data := by
  unfold Call.close
  split <;> simp_all

theorem Call.close_outstanding (call : Call) : call.close.outstanding = call.outstanding := by
  unfold Call.close
  split <;> simp_all [Call.outstanding, Call.running]

@[simp] theorem Call.deliver_index (data : Bytes) (call : Call) :
    (call.deliver data).index = call.index := by
  unfold Call.deliver
  split <;> rfl

@[simp] theorem Call.deliver_progress (data : Bytes) (call : Call) :
    (call.deliver data).progress = call.progress := by
  unfold Call.deliver
  split <;> rfl

/-- Delivering changes nothing, or fills the channel of a call that listens. -/
theorem Call.deliver_cases (data : Bytes) (call : Call) :
    (call.deliver data = call ∧ ¬ (call.listening = true ∧ call.oneshot = .empty)) ∨
      (call.listening = true ∧ call.oneshot = .empty ∧
        (call.deliver data).oneshot = .full data) := by
  unfold Call.deliver
  split
  · rename_i listens empty
    exact .inr ⟨listens, empty, rfl⟩
  · rename_i other
    exact .inl ⟨rfl, fun both => other both.1 both.2⟩

theorem replaced_getElem? {calls : List Call} {old : Option Nat} {k : Nat} {after : Call}
    (here : (replaced calls old)[k]? = some after) :
    ∃ before, calls[k]? = some before ∧ (after = before ∨ old = some k ∧ after = before.close) := by
  unfold replaced at here
  split at here
  · exact ⟨after, here, .inl rfl⟩
  · rcases getElem?_modify_cases here with ⟨rfl, before, was, rfl⟩ | ⟨-, was⟩
    · exact ⟨before, was, .inr ⟨rfl, rfl⟩⟩
    · exact ⟨after, was, .inl rfl⟩

theorem replaced_length (calls : List Call) (old : Option Nat) :
    (replaced calls old).length = calls.length := by
  unfold replaced
  split
  · rfl
  · exact List.length_modify ..

/-- Every call stands where it stood, with its index and as far as it had come. -/
theorem replaced_at {calls : List Call} {k : Nat} {call : Call} (here : calls[k]? = some call)
    (old : Option Nat) :
    ∃ middle, (replaced calls old)[k]? = some middle ∧ middle.index = call.index ∧
      middle.progress = call.progress := by
  have inside : k < (replaced calls old).length := by
    rw [replaced_length]
    exact (List.getElem?_eq_some_iff.mp here).1
  refine ⟨_, List.getElem?_eq_getElem inside, ?_⟩
  obtain ⟨before, found, same⟩ := replaced_getElem? (List.getElem?_eq_getElem inside)
  cases here.symm.trans found
  rcases same with same | ⟨-, same⟩ <;> simp [same]

/-- A call that registers finds nobody waiting under its index. -/
theorem kept_register {s : Channel} (inv : Inv s) {k : Nat} {call : Call}
    (here : s.calls[k]? = some call) (taken : call.progress = .taken) :
    Kept s { s with
      calls := (replaced s.calls (s.pending call.index)).modify k (Call.move .registered)
      pending := Function.update s.pending call.index (some k) } := by
  have out : call.outstanding = true := by
    simp [Call.outstanding, Call.running, taken, inv.fresh k call here taken]
  have near := inv.window k call here out
  have notHeld : s.pending call.index ≠ some k := by
    intro held
    obtain ⟨other, found, -, past⟩ := inv.entry _ _ held
    cases here.symm.trans found
    exact past taken
  constructor
  · rfl
  · simp only [List.length_modify, replaced_length]
  · exact List.Subset.refl _
  · intro j after found
    rcases getElem?_modify_cases found with ⟨rfl, middle, was, rfl⟩ | ⟨apart, was⟩
    · obtain ⟨before, found, same | ⟨held, -⟩⟩ := replaced_getElem? was
      · subst same
        cases here.symm.trans found
        refine ⟨call, here, rfl, fun _ => out, ?_, ?_, fun data full => .inl full, ?_⟩
        · intro _ _
          exact Function.update_self call.index (some k) s.pending
        · intro still
          cases still
        · intro data returned
          cases returned
      · exact absurd held notHeld
    · obtain ⟨before, stood, same⟩ := replaced_getElem? was
      have index : after.index = before.index := by rcases same with rfl | ⟨-, rfl⟩ <;> simp
      refine ⟨before, stood, index, ?_, ?_, ?_, ?_, ?_⟩
      · intro outstanding
        rcases same with rfl | ⟨-, rfl⟩
        · exact outstanding
        · rwa [Call.close_outstanding] at outstanding
      · intro listens waits
        rcases same with rfl | ⟨-, rfl⟩
        · -- another call that listens cannot stand under this index
          have other : after.index ≠ call.index := fun same =>
            apart (inv.listener stood listens waits here near same).symm
          show Function.update s.pending call.index (some k) after.index = some j
          rw [Function.update_of_ne other]
          exact inv.held j after stood listens waits
        · exact absurd waits before.close_oneshot.1
      · intro still
        rcases same with rfl | ⟨held, rfl⟩
        · exact ⟨still, rfl⟩
        · obtain ⟨other, found', -, past⟩ := inv.entry _ _ held
          cases stood.symm.trans found'
          exact absurd (before.close_progress ▸ still) past
      · intro data full
        rcases same with rfl | ⟨-, rfl⟩
        · exact .inl full
        · exact .inl ((before.close_oneshot.2 data).mp full)
      · intro data returned
        rcases same with rfl | ⟨-, rfl⟩
        · exact .inl returned
        · exact .inl (before.close_progress ▸ returned)
  · intro i j (found : Function.update s.pending call.index (some k) i = some j)
    by_cases mine : i = call.index
    · subst mine
      rw [Function.update_self, Option.some.injEq] at found
      subst found
      obtain ⟨middle, found, index, -⟩ := replaced_at here (s.pending call.index)
      exact ⟨Call.move .registered middle, by simp [found], index, by simp [Call.move]⟩
    · rw [Function.update_of_ne mine] at found
      obtain ⟨old, was, index, past⟩ := inv.entry i j found
      have apart : k ≠ j := by
        rintro rfl
        cases here.symm.trans was
        exact past taken
      obtain ⟨middle, stands, same, progress⟩ := replaced_at was (s.pending call.index)
      refine ⟨middle, ?_, same.trans index, progress ▸ past⟩
      rw [List.getElem?_modify_ne _ _ apart]
      exact stands

/-- An answer in time goes to the call it was sent for, or to nobody. -/
theorem kept_arrive {s : Channel} (inv : Inv s) {j k : Nat} {call : Call} {data : Bytes}
    (here : s.calls[k]? = some call) (prompt : s.further k < reuseDistance)
    (held : s.pending call.index = some j) :
    Kept s { s with
      calls := s.calls.modify j (Call.deliver data)
      pending := Function.update s.pending call.index none
      answers := s.answers ++ [(k, data)] } := by
  have inside := (List.getElem?_eq_some_iff.mp here).1
  have near : s.calls.length ≤ k + reuseDistance := by
    unfold Channel.further at prompt
    omega
  obtain ⟨holder, found, index, past⟩ := inv.entry _ _ held
  constructor
  · rfl
  · exact List.length_modify ..
  · exact List.subset_append_left _ _
  · intro i after shown
    rcases getElem?_modify_cases shown with ⟨rfl, before, was, rfl⟩ | ⟨apart, was⟩
    · cases found.symm.trans was
      have progress := holder.deliver_progress data
      refine ⟨holder, found, holder.deliver_index data, ?_, ?_, ?_, ?_, ?_⟩
      · intro out
        rcases holder.deliver_cases data with ⟨same, -⟩ | ⟨listens, waits, -⟩
        · rwa [same] at out
        · exact Call.outstanding_of_listening listens waits
      · intro listens waits
        rcases holder.deliver_cases data with ⟨same, idle⟩ | ⟨-, -, filled⟩
        · rw [same] at listens waits
          exact absurd ⟨listens, waits⟩ idle
        · rw [filled] at waits
          cases waits
      · intro still
        exact absurd (progress ▸ still) past
      · intro other full
        rcases holder.deliver_cases data with ⟨same, -⟩ | ⟨listens, waits, filled⟩
        · exact .inl (same ▸ full)
        · rw [filled] at full
          cases full
          rw [inv.listener found listens waits here near index]
          exact .inr (List.mem_append_right _ (List.mem_singleton_self _))
      · intro other returned
        exact .inl (progress ▸ returned)
    · refine ⟨after, was, rfl, id, ?_, fun still => ⟨still, rfl⟩, fun _ full => .inl full,
        fun _ returned => .inl returned⟩
      intro listens waits
      show Function.update s.pending call.index none after.index = some i
      by_cases same : after.index = call.index
      · obtain rfl := inv.listener was listens waits here near same
        have mine := inv.held i after was listens waits
        rw [same, held, Option.some.injEq] at mine
        exact absurd mine apart
      · rw [Function.update_of_ne same]
        exact inv.held i after was listens waits
  · intro i l (shown : Function.update s.pending call.index none i = some l)
    have other : i ≠ call.index := by
      rintro rfl
      rw [Function.update_self] at shown
      cases shown
    rw [Function.update_of_ne other] at shown
    obtain ⟨old, was, same, gone⟩ := inv.entry i l shown
    by_cases moved : j = l
    · subst moved
      exact ⟨old.deliver data, by simp [was], (old.deliver_index data).trans same,
        by rwa [old.deliver_progress]⟩
    · exact ⟨old, by rw [List.getElem?_modify_ne _ _ moved]; exact was, same, gone⟩

/-- The read task closes the senders it drops. -/
theorem kept_disconnect {s : Channel} (inv : Inv s) :
    Kept s { s with
      connected := false
      pending := fun _ => none
      calls := s.calls.mapIdx fun k call =>
        if s.pending call.index = some k then call.close else call } := by
  constructor
  · rfl
  · exact List.length_mapIdx
  · exact List.Subset.refl _
  · intro k after shown
    simp only [List.getElem?_mapIdx, Option.map_eq_some_iff] at shown
    obtain ⟨before, was, rfl⟩ := shown
    by_cases held : s.pending before.index = some k
    · simp only [held, if_true]
      obtain ⟨other, found, -, past⟩ := inv.entry _ _ held
      cases was.symm.trans found
      refine ⟨before, was, before.close_index, ?_, ?_, ?_, ?_, ?_⟩
      · intro out
        rwa [Call.close_outstanding] at out
      · intro _ waits
        exact absurd waits before.close_oneshot.1
      · intro still
        exact absurd (before.close_progress ▸ still) past
      · intro data full
        exact .inl ((before.close_oneshot.2 data).mp full)
      · intro data returned
        exact .inl (before.close_progress ▸ returned)
    · simp only [held, if_false]
      refine ⟨before, was, rfl, id, ?_, fun still => ⟨still, rfl⟩, fun _ full => .inl full,
        fun _ returned => .inl returned⟩
      intro listens waits
      exact absurd (inv.held k before was listens waits) held
  · intro i j shown
    cases shown

theorem start_inv {s : Channel} (inv : Inv s) (prompt : PromptCall s .start) :
    Inv { s with
      counter := s.counter + 1
      calls := s.calls ++ [⟨s.counter % 60007, .taken, .empty, false⟩] } := by
  -- a call of the longer list is an old one, or the new one
  have cases_ : ∀ k call, (s.calls ++ [⟨s.counter % 60007, .taken, .empty, false⟩])[k]? = some call →
      s.calls[k]? = some call ∨
        k = s.calls.length ∧ call = ⟨s.counter % 60007, .taken, .empty, false⟩ := by
    intro k call shown
    rcases Nat.lt_trichotomy k s.calls.length with old | rfl | out
    · rw [List.getElem?_append_left old] at shown
      exact .inl shown
    · rw [List.getElem?_concat_length, Option.some.injEq] at shown
      exact .inr ⟨rfl, shown.symm⟩
    · rw [List.getElem?_eq_none (by simp; omega)] at shown
      cases shown
  constructor
  · simp only [inv.counter, List.length_append, List.length_cons, List.length_nil]
    apply UInt16.toNat_inj.mp
    simp
  · intro k call shown
    rcases cases_ k call shown with old | ⟨rfl, rfl⟩
    · exact inv.index k call old
    · simp only [inv.counter, indexOf]
  · intro k call shown out
    simp only [List.length_append, List.length_cons, List.length_nil]
    rcases cases_ k call shown with old | ⟨rfl, rfl⟩
    · have room := prompt k call old out
      have inside := (List.getElem?_eq_some_iff.mp old).1
      unfold Channel.further at room
      omega
    · unfold reuseDistance
      omega
  · intro k call shown listens waits
    rcases cases_ k call shown with old | ⟨rfl, rfl⟩
    · exact inv.held k call old listens waits
    · cases listens
  · intro i j shown
    obtain ⟨old, was, same, past⟩ := inv.entry i j shown
    refine ⟨old, ?_, same, past⟩
    rw [List.getElem?_append_left (List.getElem?_eq_some_iff.mp was).1]
    exact was
  · intro k call shown taken
    rcases cases_ k call shown with old | ⟨rfl, rfl⟩
    · exact inv.fresh k call old taken
    · rfl
  · intro k call data shown full
    rcases cases_ k call shown with old | ⟨rfl, rfl⟩
    · exact inv.full k call data old full
    · cases full
  · intro k call data shown returned
    rcases cases_ k call shown with old | ⟨rfl, rfl⟩
    · exact inv.result k call data old returned
    · cases returned

/-- **One step.** -/
theorem step_inv {s t : Channel} {action : Action} (inv : Inv s) (prompt : Prompt s action)
    (moved : step s action = some t) : Inv t := by
  cases action with
  | start =>
      cases moved
      exact start_inv inv prompt.2
  | register k =>
      obtain ⟨call, here, moved⟩ := Option.bind_eq_some_iff.mp moved
      split at moved
      · rename_i taken
        cases moved
        exact (kept_register inv here taken).inv inv
      · cases moved
  | send k written =>
      obtain ⟨call, here, moved⟩ := Option.bind_eq_some_iff.mp moved
      split at moved
      · rename_i registered
        cases moved
        refine (kept_modify inv here rfl rfl ?_ ?_ ?_ ?_).inv inv
        · simp [Call.running, registered]
        · simp [Call.listening, registered]
        · cases written <;> simp
        · cases written <;> simp
      · cases moved
  | arrive k data =>
      obtain ⟨call, here, moved⟩ := Option.bind_eq_some_iff.mp moved
      split at moved
      · cases held : s.pending call.index with
        | none =>
            simp only [held, Option.some.injEq] at moved
            subst moved
            exact {
              counter := inv.counter, index := inv.index, window := inv.window, held := inv.held
              entry := inv.entry, fresh := inv.fresh
              full := fun k call data here full =>
                List.mem_append_left _ (inv.full k call data here full)
              result := fun k call data here returned =>
                List.mem_append_left _ (inv.result k call data here returned) }
        | some j =>
            simp only [held, Option.some.injEq] at moved
            subst moved
            exact (kept_arrive inv here prompt.1 held).inv inv
      · cases moved
  | finish k =>
      obtain ⟨call, here, moved⟩ := Option.bind_eq_some_iff.mp moved
      split at moved
      · rename_i data sent full
        cases moved
        refine (kept_over inv here rfl ?_).inv inv
        rintro other ⟨⟩
        exact full
      · cases moved
        refine (kept_over inv here rfl ?_).inv inv
        rintro data ⟨⟩
      · cases moved
  | timeout k =>
      obtain ⟨call, here, moved⟩ := Option.bind_eq_some_iff.mp moved
      split at moved
      · cases moved
        refine (kept_over inv here rfl ?_).inv inv
        rintro data ⟨⟩
      · cases moved
  | drop k =>
      obtain ⟨call, here, moved⟩ := Option.bind_eq_some_iff.mp moved
      split at moved
      · cases moved
        refine (kept_over inv here rfl ?_).inv inv
        rintro data ⟨⟩
      · cases moved
  | disconnect =>
      cases moved
      exact (kept_disconnect inv).inv inv

/-- Two calls that are both outstanding have different indices. -/
def IndicesApart (s : Channel) : Prop :=
  ∀ (j k : Nat) (one other : Call), s.calls[j]? = some one → s.calls[k]? = some other →
    one.outstanding = true → other.outstanding = true → one.index = other.index → j = k

/-- A call that returned data returned an answer that was sent for it. -/
def OwnAnswers (s : Channel) : Prop :=
  ∀ (k : Nat) (call : Call) (data : Bytes), s.calls[k]? = some call →
    call.progress = .returned (.ok data) → (k, data) ∈ s.answers

/-- **Calls get their own answers**, in every state of every run in which every
answer arrives, and every call that is not answered is over, before 5529 further
calls have been started. -/
theorem channel_sound {actions : List Action} {s : Channel}
    (ran : channelMachine.run .opened actions = some s)
    (prompt : channelMachine.Meets Prompt .opened actions) : IndicesApart s ∧ OwnAnswers s := by
  have inv : Inv s := by
    refine Machine.run_preserves_of_meets (P := Inv) ?_ prompt ran opened_inv
    intro before action after inv inTime moved
    exact step_inv inv inTime moved
  constructor
  · intro j k one other atJ atK outJ outK same
    exact inv.same atJ atK (inv.window j one atJ outJ) (inv.window k other atK outK) same
  · exact inv.result

theorem step_length {s t : Channel} {action : Action}
    (moved : channelMachine.step s action = some t) :
    t.calls.length ≤ s.calls.length + 1 := by
  change step s action = some t at moved
  cases action with
  | start =>
      cases moved
      simp
  | register k =>
      obtain ⟨call, -, moved⟩ := Option.bind_eq_some_iff.mp moved
      split at moved <;> cases moved
      simp [replaced_length]
  | arrive k data =>
      obtain ⟨call, -, moved⟩ := Option.bind_eq_some_iff.mp moved
      split at moved
      · split at moved <;> cases moved <;> simp
      · cases moved
  | disconnect =>
      cases moved
      simp
  | send k _ | finish k | timeout k | drop k =>
      obtain ⟨call, -, moved⟩ := Option.bind_eq_some_iff.mp moved
      split at moved <;> cases moved <;> simp

/-- A connection too young for an index to come back is prompt, whatever happens. -/
theorem prompt_of_young {s : Channel} {actions : List Action}
    (young : s.calls.length + actions.length < reuseDistance) :
    channelMachine.Meets Prompt s actions := by
  induction actions generalizing s with
  | nil => trivial
  | cons action rest ih =>
      simp only [List.length_cons] at young
      refine ⟨⟨?_, ?_⟩, fun next moved => ih ?_⟩
      · cases action <;> simp only [PromptAnswer, Channel.further]
        omega
      · cases action <;> simp only [PromptCall, Channel.further]
        intro k call here _
        have inside := (List.getElem?_eq_some_iff.mp here).1
        omega
      · have grown := step_length moved
        omega

/-- Two calls answered in the other order. -/
def crossed : List Action :=
  [.start, .start, .register 1, .register 0, .send 0 true, .send 1 true, .arrive 1 [8, 1],
    .arrive 0 [], .finish 0, .finish 1]

theorem channel_sound_crossed :
    ∃ s, channelMachine.run .opened crossed = some s ∧ s.answers = [(1, [8, 1]), (0, [])] ∧
      IndicesApart s ∧ OwnAnswers s := by
  have ran : ((channelMachine.run .opened crossed).any fun s : Channel =>
      decide (s.answers = [(1, [8, 1]), (0, [])])) = true := by decide +kernel
  obtain ⟨s, ran, answers⟩ := Machine.run_exists ran
  exact ⟨s, ran, answers, channel_sound ran (prompt_of_young (by decide))⟩

/-! ## A call that nobody answers -/

/-- Calls that are started and dropped at once. -/
def idle (first : Nat) : Nat → List Action
  | 0 => []
  | n + 1 => idle first n ++ [.start, .drop (first + n)]

/-- What they leave behind. -/
def dropped (counter : UInt16) (n : Nat) : List Call :=
  (List.range n).map fun i => ⟨(counter + UInt16.ofNat i) % 60007, .dropped, .empty, false⟩

theorem run_idle (s : Channel) (n : Nat) :
    channelMachine.run s (idle s.calls.length n) =
      some { s with counter := s.counter + UInt16.ofNat n, calls := s.calls ++ dropped s.counter n } := by
  induction n with
  | zero => simp [idle, dropped, Machine.run]
  | succ n ih =>
      rw [idle]
      refine Machine.run_append.mpr ⟨_, ih, ?_⟩
      have length : (s.calls ++ dropped s.counter n).length = s.calls.length + n := by
        simp [dropped]
      have counter : s.counter + UInt16.ofNat n + 1 = s.counter + UInt16.ofNat (n + 1) := by
        rw [UInt16.ofNat_add, UInt16.add_assoc]
        rfl
      let last : Call := ⟨(s.counter + UInt16.ofNat n) % 60007, .taken, .empty, false⟩
      have here : (s.calls ++ dropped s.counter n ++ [last])[s.calls.length + n]? = some last := by
        rw [← length, List.getElem?_concat_length]
      have edited : (s.calls ++ dropped s.counter n ++ [last]).modify (s.calls.length + n)
          (Call.move .dropped) = s.calls ++ dropped s.counter (n + 1) := by
        rw [← length, modify_concat]
        simp [dropped, List.range_succ, Call.move, last]
      simp only [Machine.run, channelMachine, step, Option.bind_some, counter]
      show (Option.bind ((s.calls ++ dropped s.counter n ++ [last])[s.calls.length + n]? >>= _) _) = _
      rw [here]
      simp only [Option.bind_eq_bind, Option.bind_some, last, Call.running, if_true]
      rw [edited]

/-- Two calls under one index: the one that registers last takes the other's answer. -/
theorem mixup {s : Channel} {p q : Nat} {i : UInt16} (data : Bytes)
    (atP : s.calls[p]? = some ⟨i, .taken, .empty, false⟩)
    (atQ : s.calls[q]? = some ⟨i, .taken, .empty, false⟩) (apart : p ≠ q)
    (free : s.pending i = none) (up : s.connected = true) :
    ∃ t, channelMachine.run s [.register q, .send q true, .register p, .arrive q data,
        .send p true, .finish p] = some t ∧
      (∃ call, t.calls[p]? = some call ∧ call.progress = .returned (.ok data)) ∧
      t.answers = s.answers ++ [(q, data)] := by
  simp [Machine.run, channelMachine, step, atP, atQ, apart, apart.symm, free,
    up, replaced, Call.move, Call.close, Call.deliver, Call.listening]

/-- Calls that are dropped, one that is suspended before it registers, more that are
dropped, and one more call. -/
def wrapped (early late : Nat) : List Action :=
  idle 0 early ++ .start :: (idle (early + 1) late ++ [.start])

/-- The new call is sent; the old one registers over it; the answer comes. -/
def mixedUp (old new : Nat) : List Action :=
  [.register new, .send new true, .register old, .arrive new [7], .send old true, .finish old]

theorem idle_quiet (first n : Nat) {action : Action} (member : action ∈ idle first n) :
    ∀ s, PromptAnswer s action := by
  induction n with
  | zero => cases member
  | succ n ih =>
      rcases List.mem_append.mp member with earlier | last
      · exact ih earlier
      · simp only [List.mem_cons, List.not_mem_nil, or_false] at last
        rcases last with rfl | rfl <;> exact fun _ => trivial

/-- Actions that are no late answer in any state. -/
theorem prompt_of_quiet {actions : List Action}
    (quiet : ∀ action ∈ actions, ∀ s, PromptAnswer s action) (s : Channel) :
    channelMachine.Meets PromptAnswer s actions := by
  induction actions generalizing s with
  | nil => trivial
  | cons action rest ih =>
      obtain ⟨here, later⟩ := List.forall_mem_cons.mp quiet
      exact ⟨here s, fun next _ => ih later next⟩

theorem wrapped_prompt (early late : Nat) (s : Channel) :
    channelMachine.Meets PromptAnswer s (wrapped early late) := by
  apply prompt_of_quiet
  intro action member
  rcases List.mem_append.mp member with first | member
  · exact idle_quiet 0 early first
  rcases List.mem_cons.mp member with rfl | member
  · exact fun _ => trivial
  rcases List.mem_append.mp member with second | last
  · exact idle_quiet (early + 1) late second
  · rw [List.mem_singleton] at last
    subst last
    exact fun _ => trivial

/-- Where the two calls that are not dropped stand, and their indices. -/
theorem run_wrapped (early late : Nat) :
    ∃ s, channelMachine.run .opened (wrapped early late) = some s ∧
      s.calls.length = early + 1 + late + 1 ∧
      s.calls[early]? = some ⟨(1 + UInt16.ofNat early) % 60007, .taken, .empty, false⟩ ∧
      s.calls[early + 1 + late]? =
        some ⟨(1 + UInt16.ofNat early + 1 + UInt16.ofNat late) % 60007, .taken, .empty, false⟩ ∧
      (∀ i, s.pending i = none) ∧ s.connected = true ∧ s.answers = [] := by
  let first : Call := ⟨(1 + UInt16.ofNat early) % 60007, .taken, .empty, false⟩
  let last : Call :=
    ⟨(1 + UInt16.ofNat early + 1 + UInt16.ofNat late) % 60007, .taken, .empty, false⟩
  have before := run_idle .opened early
  have beforeLength : (dropped 1 early).length = early := by simp [dropped]
  let middle : Channel :=
    ⟨1 + UInt16.ofNat early + 1, dropped 1 early ++ [first], fun _ => none, true, []⟩
  have middleLength : middle.calls.length = early + 1 := by simp [middle, beforeLength]
  have after := run_idle middle late
  rw [middleLength] at after
  have whole : (middle.calls ++ dropped middle.counter late).length = early + 1 + late := by
    simp only [List.length_append, middleLength]
    simp [dropped]
  refine ⟨⟨middle.counter + UInt16.ofNat late + 1,
    middle.calls ++ dropped middle.counter late ++ [last], fun _ => none, true, []⟩,
    ?_, ?_, ?_, ?_, fun _ => rfl, rfl, rfl⟩
  · refine Machine.run_append.mpr ⟨_, before, Machine.run_cons_eq_some.mpr ⟨middle, ?_, ?_⟩⟩
    · simp [channelMachine, step, Channel.opened, middle, first]
    · exact Machine.run_append.mpr ⟨_, after, rfl⟩
  · simp only [List.length_append, List.length_cons, List.length_nil] at whole ⊢
    omega
  · show (middle.calls ++ dropped middle.counter late ++ [last])[early]? = some first
    rw [List.append_assoc, List.getElem?_append_left (by omega)]
    show (dropped 1 early ++ [first])[early]? = some first
    rw [List.getElem?_append_right (by omega), beforeLength, Nat.sub_self]
    rfl
  · show (middle.calls ++ dropped middle.counter late ++ [last])[early + 1 + late]? = some last
    rw [← whole, List.getElem?_concat_length]

theorem mixedUp_prompt {s : Channel} {old new : Nat} (last : s.calls.length ≤ new + 1) :
    channelMachine.Meets PromptAnswer s (mixedUp old new) := by
  refine ⟨trivial, fun one first => ⟨trivial, fun two second => ⟨trivial, fun three third =>
    ⟨?_, fun _ _ => ⟨trivial, fun _ _ => ⟨trivial, fun _ _ => trivial⟩⟩⟩⟩⟩⟩
  have grown := step_length first
  have grownAgain := step_length second
  have grownMore := step_length third
  simp only [PromptAnswer, Channel.further, reuseDistance]
  omega

/-- Whenever the two calls share an index, the first can return the data sent for
the second. -/
theorem wrapped_mixes_up {early late : Nat} {i : UInt16}
    (old : (1 + UInt16.ofNat early) % 60007 = i)
    (new : (1 + UInt16.ofNat early + 1 + UInt16.ofNat late) % 60007 = i) :
    ∃ s t, channelMachine.run .opened (wrapped early late) = some s ∧
      channelMachine.run s (mixedUp early (early + 1 + late)) = some t ∧
      channelMachine.Meets PromptAnswer .opened
        (wrapped early late ++ mixedUp early (early + 1 + late)) ∧
      ¬ IndicesApart s ∧ ¬ OwnAnswers t := by
  obtain ⟨s, ran, length, atOld, atNew, free, up, none_⟩ := run_wrapped early late
  rw [old] at atOld
  rw [new] at atNew
  obtain ⟨t, mixed, ⟨call, at_, returned⟩, answers⟩ :=
    mixup [7] atOld atNew (by omega) (free i) up
  refine ⟨s, t, ran, mixed, ?_, ?_, ?_⟩
  · refine Machine.meets_append.mpr ⟨wrapped_prompt early late _, fun middle also => ?_⟩
    obtain rfl := Option.some.inj (ran.symm.trans also)
    exact mixedUp_prompt (by omega)
  · intro apart
    have same := apart early (early + 1 + late) _ _ atOld atNew rfl rfl rfl
    omega
  · intro own
    have mine := own early call [7] at_ returned
    rw [answers, none_] at mine
    simp at mine
    omega

/-- **In time, and yet mixed up.**  Call 60006 is the first to reduce to index 0, and
call 65535 is the next.  The one answer of the run arrives at once; the two calls
share an index while both are outstanding, and the first returns the data sent for
the second. -/
theorem channel_mixes_up :
    ∃ s t, channelMachine.run .opened (wrapped 60006 5528) = some s ∧
      channelMachine.run s (mixedUp 60006 (60006 + 1 + 5528)) = some t ∧
      channelMachine.Meets PromptAnswer .opened
        (wrapped 60006 5528 ++ mixedUp 60006 (60006 + 1 + 5528)) ∧
      ¬ IndicesApart s ∧ ¬ OwnAnswers t := by
  have old : (1 + UInt16.ofNat 60006) % 60007 = 0 := by decide
  have new : (1 + UInt16.ofNat 60006 + 1 + UInt16.ofNat 5528) % 60007 = 0 := by decide
  exact wrapped_mixes_up old new

end MajsoulManager.Majsoul.Rpc
