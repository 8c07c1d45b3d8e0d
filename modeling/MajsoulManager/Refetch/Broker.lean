/-
# Refetch.Broker — the counter between the backfill and the sessions

`RefetchBroker` of `refetch.rs`.  A fetch leaves a request in the queue and waits on its
own channel; a collector claims the oldest request somebody still waits for, and answers
it or drops it; a fetch may time out or be dropped at any moment, and its request stays in
the queue until a claim comes by.

A fetch has the number of its channel, and they are numbered as they arrive.
`broker_sound`: whatever the order of the steps, every request is answered at most once,
a fetch receives only what was answered to a claim of its own uuid, claims go by arrival
and only to requests whose fetch still waits, and `waiting` counts them.
-/
import MajsoulManager.Refetch.Sweep
import MajsoulManager.Theory.Edits

namespace MajsoulManager.Refetch

open MajsoulManager.Theory

set_option autoImplicit false

/-! ## Channels and requests -/

/-- The answer to one fetch: the protobuf, or why not. -/
abbrev FetchResult := Except RefetchError (List UInt8)

/-- A `oneshot` channel: whether its two ends still exist, and the value between them. -/
structure Oneshot where
  sender : Bool := true
  value : Option FetchResult := none
  receiver : Bool := true
  deriving DecidableEq

namespace Oneshot

def isClosed (channel : Oneshot) : Bool := !channel.receiver

/-- A value sent to a receiver that is gone is lost. -/
def send (channel : Oneshot) (result : FetchResult) : Oneshot :=
  { channel with
    sender := false
    value := if channel.receiver then some result else channel.value }

def dropSender (channel : Oneshot) : Oneshot := { channel with sender := false }

def dropReceiver (channel : Oneshot) : Oneshot := { channel with receiver := false }

end Oneshot

structure Request where
  uuid : String
  answer : Nat
  deriving DecidableEq

structure PendingFetch where
  uuid : String
  answer : Nat
  deriving DecidableEq

/-- What became of a claimed request. -/
inductive Hold where
  | held
  | answered (result : FetchResult)
  | dropped
  deriving DecidableEq

structure Claim where
  pending : PendingFetch
  hold : Hold := .held
  deriving DecidableEq

/-- What became of a fetch; `received` is a value that came through its channel. -/
inductive FetchState where
  | waiting
  | received (result : FetchResult)
  | unserved
  | dropped
  deriving DecidableEq

/-- What `fetch` returned, if it did. -/
def FetchState.returned : FetchState → Option FetchResult
  | .received result => some result
  | .unserved => some (.error .unserved)
  | _ => none

structure Fetch where
  uuid : String
  outcome : FetchState := .waiting
  deriving DecidableEq

/-- What a poll of the receiver finds. -/
def Oneshot.poll (channel : Oneshot) : Option FetchState :=
  match channel.value with
  | some result => some (.received result)
  | none => if channel.sender then none else some .unserved

/-! ## The broker -/

/-- The queue, and everything that ever held an end of a channel: the fetches, by the
number of their channel, and the claims in the order they were made.  `answers` has
every answer given. -/
structure Broker where
  queue : List Request := []
  channels : List Oneshot := []
  fetches : List Fetch := []
  claims : List Claim := []
  answers : List (Nat × FetchResult) := []
  deriving DecidableEq

/-- The loop of `claim`: requests whose waiter is gone are dropped on the way. -/
def claimFrom (closed : Nat → Bool) : List Request → Option PendingFetch × List Request
  | [] => (none, [])
  | request :: rest =>
      if closed request.answer then claimFrom closed rest
      else (some ⟨request.uuid, request.answer⟩, rest)

namespace Broker

def closed (s : Broker) (channel : Nat) : Bool := s.channels[channel]?.all (·.isClosed)

def claim (s : Broker) : Option PendingFetch × Broker :=
  let claimed := claimFrom s.closed s.queue
  let skipped := (s.queue.takeWhile fun request => s.closed request.answer).map (·.answer)
  (claimed.1,
    { s with
      queue := claimed.2
      channels := s.channels.mapIdx fun i channel =>
        if i ∈ skipped then channel.dropSender else channel
      claims := s.claims ++ (claimed.1.map fun pending => { pending := pending }).toList })

def waiting (s : Broker) : Nat := (s.queue.filter fun request => !s.closed request.answer).length

/-- A fetch is over, and with it its end of the channel. -/
def finish (s : Broker) (fetch : Nat) (outcome : FetchState) : Broker :=
  { s with
    channels := s.channels.modify fetch Oneshot.dropReceiver
    fetches := s.fetches.modify fetch fun row => { row with outcome := outcome } }

end Broker

inductive BrokerAction where
  | fetch (uuid : String)
  | claim
  | answer (claim : Nat) (result : FetchResult)
  /-- A collector goes away with its claim. -/
  | dropClaim (claim : Nat)
  /-- A fetch is woken. -/
  | receive (fetch : Nat)
  /-- `CLAIM_TIMEOUT` is over; the channel is looked at first. -/
  | timeout (fetch : Nat)
  | dropFetch (fetch : Nat)

def Broker.step (s : Broker) : BrokerAction → Option Broker
  | .fetch uuid =>
      some { s with
        queue := s.queue ++ [⟨uuid, s.channels.length⟩]
        channels := s.channels ++ [{}]
        fetches := s.fetches ++ [{ uuid := uuid }] }
  | .claim => some s.claim.2
  | .answer k result =>
      match s.claims[k]? with
      | some ⟨pending, .held⟩ =>
          some { s with
            channels := s.channels.modify pending.answer (·.send result)
            claims := s.claims.modify k fun row => { row with hold := .answered result }
            answers := (pending.answer, result) :: s.answers }
      | _ => none
  | .dropClaim k =>
      match s.claims[k]? with
      | some ⟨pending, .held⟩ =>
          some { s with
            channels := s.channels.modify pending.answer Oneshot.dropSender
            claims := s.claims.modify k fun row => { row with hold := .dropped } }
      | _ => none
  | .receive i =>
      match s.fetches[i]?, s.channels[i]? with
      | some ⟨_, .waiting⟩, some channel => channel.poll.map (s.finish i)
      | _, _ => none
  | .timeout i =>
      match s.fetches[i]?, s.channels[i]? with
      | some ⟨_, .waiting⟩, some channel => some (s.finish i (channel.poll.getD .unserved))
      | _, _ => none
  | .dropFetch i =>
      match s.fetches[i]? with
      | some ⟨_, .waiting⟩ => some (s.finish i .dropped)
      | _ => none

def brokerMachine : Machine Broker BrokerAction where
  Start s := s = {}
  step := Broker.step

/-! ## What is promised -/

/-- The broker after `n` claims in a row. -/
def Broker.afterClaims (s : Broker) : Nat → Broker
  | 0 => s
  | n + 1 => (s.afterClaims n).claim.2

structure Broker.Sound (s : Broker) : Prop where
  /-- Every request is answered at most once, and only by who claimed it. -/
  answeredOnce : (s.answers.map (·.1)).Nodup
  answeredClaimed : ∀ i result, (i, result) ∈ s.answers →
    ∃ claim ∈ s.claims, claim.pending.answer = i ∧ claim.hold = .answered result
  /-- What a fetch returned was answered to a claim of its own uuid, unless nobody served
  it. -/
  ownResult : ∀ (i : Nat) (fetch : Fetch) result, s.fetches[i]? = some fetch →
    fetch.outcome.returned = some result →
    fetch.outcome = .unserved ∧ result = .error .unserved ∨
      ∃ claim ∈ s.claims, claim.pending = ⟨fetch.uuid, i⟩ ∧ claim.hold = .answered result
  /-- Requests were claimed in the order they arrived. -/
  arrivalOrder : (s.claims.map (·.pending.answer)).Pairwise (· < ·)
  /-- The next claim goes to a fetch that waits, and to the first of them. -/
  handsOutLive : ∀ pending, s.claim.1 = some pending →
    s.fetches[pending.answer]? = some ⟨pending.uuid, .waiting⟩ ∧
    ∀ request ∈ s.queue, (s.fetches[request.answer]?.map (·.outcome)) = some .waiting →
      pending.answer ≤ request.answer
  /-- `waiting` is how many claims in a row would find a request. -/
  counts : ∀ n, (s.afterClaims n).claim.1.isSome ↔ n < s.waiting

/-! ## Claims -/

theorem claimFrom_spec (closed : Nat → Bool) (queue : List Request) :
    (claimFrom closed queue).1 =
        ((queue.filter fun request => !closed request.answer).head?.map
          fun request => ⟨request.uuid, request.answer⟩) ∧
      (claimFrom closed queue).2.filter (fun request => !closed request.answer) =
        (queue.filter fun request => !closed request.answer).tail := by
  induction queue with
  | nil => exact ⟨rfl, rfl⟩
  | cons request rest ih =>
      rw [claimFrom]
      by_cases gone : closed request.answer = true
      · rw [if_pos gone, List.filter_cons_of_neg (by simp [gone])]
        exact ih
      · rw [if_neg gone, List.filter_cons_of_pos (by simp [gone])]
        exact ⟨rfl, rfl⟩

/-- What is left of the queue, and the claimed request before it, are a suffix of it. -/
theorem claimFrom_suffix (closed : Nat → Bool) (queue : List Request) :
    ((claimFrom closed queue).1.map fun pending => ⟨pending.uuid, pending.answer⟩).toList ++
      (claimFrom closed queue).2 <:+ queue := by
  induction queue with
  | nil => exact List.suffix_rfl
  | cons request rest ih =>
      rw [claimFrom]
      split
      · exact ih.trans (List.suffix_cons ..)
      · exact List.suffix_rfl

namespace Broker

variable {s : Broker}

@[simp] theorem receiver_claim (s : Broker) (i : Nat) :
    (s.claim.2.channels[i]?).map (·.receiver) = (s.channels[i]?).map (·.receiver) := by
  simp only [claim, List.getElem?_mapIdx]
  cases s.channels[i]? with
  | none => rfl
  | some channel =>
      simp only [Option.map_some]
      split <;> rfl

theorem closed_eq (s : Broker) (i : Nat) :
    s.closed i = ((s.channels[i]?).map (·.receiver)).all (!·) := by
  rw [closed, Option.all_map]
  rfl

@[simp] theorem closed_claim (s : Broker) : s.claim.2.closed = s.closed := by
  funext i
  rw [closed_eq, closed_eq, receiver_claim]

theorem claim_isSome (s : Broker) : s.claim.1.isSome ↔ 0 < s.waiting := by
  show (claimFrom s.closed s.queue).1.isSome ↔ _
  rw [(claimFrom_spec s.closed s.queue).1, Option.isSome_map, waiting]
  cases s.queue.filter fun request => !s.closed request.answer with
  | nil => simp
  | cons request rest => simp

theorem waiting_claim (s : Broker) : s.claim.2.waiting = s.waiting - 1 := by
  show ((claimFrom s.closed s.queue).2.filter fun request => !s.claim.2.closed request.answer).length = _
  rw [closed_claim, (claimFrom_spec s.closed s.queue).2, List.length_tail]
  rfl

theorem waiting_afterClaims (s : Broker) (n : Nat) : (s.afterClaims n).waiting = s.waiting - n := by
  induction n with
  | zero => rfl
  | succ n ih =>
      rw [afterClaims, waiting_claim, ih]
      omega

/-- **`waiting` counts the claims to come.** -/
theorem claims_to_come (s : Broker) (n : Nat) : (s.afterClaims n).claim.1.isSome ↔ n < s.waiting := by
  rw [claim_isSome, waiting_afterClaims]
  omega

end Broker

/-! ## The invariant -/

/-- The requests that were ever claimed or still wait for it, as they arrived. -/
def Broker.arrivals (s : Broker) : List (String × Nat) :=
  s.claims.map (fun claim => (claim.pending.uuid, claim.pending.answer)) ++
    s.queue.map fun request => (request.uuid, request.answer)

structure BrokerInv (s : Broker) : Prop where
  sized : s.channels.length = s.fetches.length
  ordered : s.arrivals.Pairwise fun earlier later => earlier.2 < later.2
  asked : ∀ uuid i, (uuid, i) ∈ s.arrivals → (s.fetches.map (·.uuid))[i]? = some uuid
  /-- The receiver lives as long as its fetch waits. -/
  receivers : ∀ i : Nat,
    (s.channels[i]?).map (·.receiver) = (s.fetches[i]?).map fun fetch => fetch.outcome == .waiting
  answered : ∀ i result, (i, result) ∈ s.answers →
    ∃ claim ∈ s.claims, claim.pending.answer = i ∧ claim.hold = .answered result
  once : (s.answers.map (·.1)).Nodup
  values : ∀ (i : Nat) (channel : Oneshot) result, s.channels[i]? = some channel →
    channel.value = some result → (i, result) ∈ s.answers
  received : ∀ (i : Nat) (fetch : Fetch) result, s.fetches[i]? = some fetch →
    fetch.outcome = .received result → (i, result) ∈ s.answers

namespace BrokerInv

variable {s t : Broker}

theorem fresh : BrokerInv {} where
  sized := rfl
  ordered := List.Pairwise.nil
  asked := by simp [Broker.arrivals]
  receivers _ := rfl
  answered := by simp
  once := List.nodup_nil
  values := by simp
  received := by simp

/-- Whatever was asked has a fetch. -/
theorem arrival_lt (inv : BrokerInv s) {uuid : String} {i : Nat} (arrived : (uuid, i) ∈ s.arrivals) :
    i < s.fetches.length := by
  have bound := (List.getElem?_eq_some_iff.mp (inv.asked uuid i arrived)).1
  rwa [List.length_map] at bound

theorem claims_distinct (inv : BrokerInv s) {j k : Nat} {a b : Claim} (first : s.claims[j]? = some a)
    (second : s.claims[k]? = some b) (same : a.pending.answer = b.pending.answer) : j = k := by
  have apart := (List.pairwise_append.mp inv.ordered).1
  rw [List.pairwise_map] at apart
  obtain ⟨insideJ, rfl⟩ := List.getElem?_eq_some_iff.mp first
  obtain ⟨insideK, rfl⟩ := List.getElem?_eq_some_iff.mp second
  rcases Nat.lt_trichotomy j k with less | equal | greater
  · have := List.pairwise_iff_getElem.mp apart j k insideJ insideK less
    simp only at this
    omega
  · exact equal
  · have := List.pairwise_iff_getElem.mp apart k j insideK insideJ greater
    simp only at this
    omega

/-- A request that is still held has not been answered. -/
theorem held_unanswered (inv : BrokerInv s) {k : Nat} {pending : PendingFetch}
    (held : s.claims[k]? = some ⟨pending, .held⟩) : pending.answer ∉ s.answers.map (·.1) := by
  intro answered
  obtain ⟨⟨i, result⟩, member, shown⟩ := List.mem_map.mp answered
  obtain ⟨claim, claimed, same, done⟩ := inv.answered i result member
  obtain ⟨j, here⟩ := List.mem_iff_getElem?.mp claimed
  obtain rfl := inv.claims_distinct here held (same.trans shown)
  obtain rfl := Option.some.inj (here.symm.trans held)
  cases done

/-! ### One step -/

theorem fetch (inv : BrokerInv s) (uuid : String) :
    BrokerInv { s with
      queue := s.queue ++ [⟨uuid, s.channels.length⟩]
      channels := s.channels ++ [{}]
      fetches := s.fetches ++ [{ uuid := uuid }] } := by
  have grown : ∀ queue' channels' fetches', queue' = s.queue ++ [⟨uuid, s.channels.length⟩] →
      Broker.arrivals { s with queue := queue', channels := channels', fetches := fetches' } =
        s.arrivals ++ [(uuid, s.channels.length)] := by
    rintro queue' channels' fetches' rfl
    simp [Broker.arrivals]
  refine ⟨?_, ?_, ?_, ?_, inv.answered, inv.once, ?_, ?_⟩
  · simp [inv.sized]
  · rw [grown _ _ _ rfl, List.pairwise_append]
    refine ⟨inv.ordered, List.pairwise_singleton _ _, ?_⟩
    rintro ⟨name, i⟩ arrived later new
    rw [List.mem_singleton.mp new, inv.sized]
    exact inv.arrival_lt arrived
  · intro name i arrived
    rw [grown _ _ _ rfl, List.mem_append] at arrived
    rw [List.map_append]
    rcases arrived with old | new
    · rw [List.getElem?_append_left (by simpa using inv.arrival_lt old)]
      exact inv.asked name i old
    · obtain ⟨rfl, rfl⟩ := Prod.mk.inj (List.mem_singleton.mp new)
      rw [List.getElem?_append_right (by simp [inv.sized])]
      simp [inv.sized]
  · intro i
    rcases Nat.lt_trichotomy i s.fetches.length with old | rfl | beyond
    · rw [List.getElem?_append_left old, List.getElem?_append_left (by rw [inv.sized]; exact old)]
      exact inv.receivers i
    · rw [List.getElem?_append_right (le_refl _), List.getElem?_append_right (le_of_eq inv.sized),
        inv.sized, Nat.sub_self]
      rfl
    · have noChannel : (s.channels ++ [({} : Oneshot)]).length ≤ i := by
        rw [List.length_append, List.length_singleton, inv.sized]
        omega
      have noFetch : (s.fetches ++ [({ uuid := uuid } : Fetch)]).length ≤ i := by
        rw [List.length_append, List.length_singleton]
        omega
      rw [List.getElem?_eq_none noChannel, List.getElem?_eq_none noFetch]
      rfl
  · intro i channel result here value
    rcases List.mem_append.mp (List.mem_of_getElem? here) with old | new
    · rcases Nat.lt_or_ge i s.channels.length with inside | outside
      · rw [List.getElem?_append_left inside] at here
        exact inv.values i channel result here value
      · rw [List.getElem?_append_right outside] at here
        rw [List.mem_singleton.mp (List.mem_of_getElem? here)] at value
        cases value
    · rw [List.mem_singleton.mp new] at value
      cases value
  · intro i row result here done
    rcases Nat.lt_or_ge i s.fetches.length with inside | outside
    · rw [List.getElem?_append_left inside] at here
      exact inv.received i row result here done
    · rw [List.getElem?_append_right outside] at here
      rw [List.mem_singleton.mp (List.mem_of_getElem? here)] at done
      cases done

/-- A claim takes the front of the queue, and changes no receiver and no value. -/
theorem claim (inv : BrokerInv s) : BrokerInv s.claim.2 := by
  have moved : s.claim.2.arrivals.Sublist s.arrivals := by
    have shown : s.claim.2.arrivals =
        s.claims.map (fun claim => (claim.pending.uuid, claim.pending.answer)) ++
          (((claimFrom s.closed s.queue).1.map fun pending =>
            (⟨pending.uuid, pending.answer⟩ : Request)).toList ++
            (claimFrom s.closed s.queue).2).map fun request => (request.uuid, request.answer) := by
      simp only [Broker.arrivals, Broker.claim, List.map_append, List.append_assoc]
      cases (claimFrom s.closed s.queue).1 <;> rfl
    rw [shown]
    exact (List.Sublist.refl _).append ((claimFrom_suffix s.closed s.queue).sublist.map _)
  refine ⟨?_, inv.ordered.sublist moved, ?_, ?_, ?_, inv.once, ?_, inv.received⟩
  · simpa [Broker.claim] using inv.sized
  · intro uuid i arrived
    exact inv.asked uuid i (moved.subset arrived)
  · intro i
    rw [Broker.receiver_claim]
    exact inv.receivers i
  · intro i result answered
    obtain ⟨claim, claimed, rest⟩ := inv.answered i result answered
    exact ⟨claim, List.mem_append_left _ claimed, rest⟩
  · intro i channel result here value
    simp only [Broker.claim, List.getElem?_mapIdx] at here
    obtain ⟨old, found, rfl⟩ := Option.map_eq_some_iff.mp here
    refine inv.values i old result found ?_
    split at value <;> exact value

/-- What editing a held claim and its channel leaves alone. -/
theorem settle (inv : BrokerInv s) {k : Nat} {pending : PendingFetch} {hold : Hold}
    {edit : Oneshot → Oneshot} {answers : List (Nat × FetchResult)}
    (receiver : ∀ channel, (edit channel).receiver = channel.receiver)
    (once : (answers.map (·.1)).Nodup)
    (answered : ∀ i result, (i, result) ∈ answers →
      ∃ claim ∈ s.claims.modify k (fun row => { row with hold := hold }),
        claim.pending.answer = i ∧ claim.hold = .answered result)
    (values : ∀ channel result, s.channels[pending.answer]? = some channel →
      (edit channel).value = some result → (pending.answer, result) ∈ answers)
    (older : ∀ entry ∈ s.answers, entry ∈ answers) :
    BrokerInv { s with
      channels := s.channels.modify pending.answer edit
      claims := s.claims.modify k fun row => { row with hold := hold }
      answers := answers } := by
  have same : Broker.arrivals { s with
      channels := s.channels.modify pending.answer edit
      claims := s.claims.modify k fun row => { row with hold := hold }
      answers := answers } = s.arrivals := by
    have claims : (s.claims.modify k fun row => { row with hold := hold }).map
        (fun claim => (claim.pending.uuid, claim.pending.answer)) =
          s.claims.map fun claim => (claim.pending.uuid, claim.pending.answer) :=
      map_modify fun _ => rfl
    simp only [Broker.arrivals, claims]
  refine ⟨?_, ?_, ?_, ?_, answered, once, ?_, ?_⟩
  · rw [List.length_modify]
    exact inv.sized
  · rw [same]
    exact inv.ordered
  · intro uuid i arrived
    rw [same] at arrived
    exact inv.asked uuid i arrived
  · intro i
    rw [← inv.receivers i, ← List.getElem?_map, ← List.getElem?_map, map_modify receiver]
  · intro i channel result here value
    rcases getElem?_modify_cases here with ⟨rfl, old, found, rfl⟩ | ⟨-, old⟩
    · exact values old result found value
    · exact older _ (inv.values i channel result old value)
  · intro i row result here done
    exact older _ (inv.received i row result here done)

/-- Answers already given stand, whatever becomes of a claim that is held. -/
theorem answered_stands (inv : BrokerInv s) {k : Nat} {pending : PendingFetch} {hold : Hold}
    (held : s.claims[k]? = some ⟨pending, .held⟩) {i : Nat} {result : FetchResult}
    (given : (i, result) ∈ s.answers) :
    ∃ claim ∈ s.claims.modify k (fun row => { row with hold := hold }),
      claim.pending.answer = i ∧ claim.hold = .answered result := by
  obtain ⟨claim, claimed, same, done⟩ := inv.answered i result given
  obtain ⟨j, here⟩ := List.mem_iff_getElem?.mp claimed
  have differ : k ≠ j := by
    rintro rfl
    obtain rfl := Option.some.inj (here.symm.trans held)
    cases done
  refine ⟨claim, List.mem_iff_getElem?.mpr ⟨j, ?_⟩, same, done⟩
  rw [List.getElem?_modify_ne _ _ differ, here]

theorem answer (inv : BrokerInv s) {k : Nat} {pending : PendingFetch}
    (held : s.claims[k]? = some ⟨pending, .held⟩) (result : FetchResult) :
    BrokerInv { s with
      channels := s.channels.modify pending.answer (·.send result)
      claims := s.claims.modify k fun row => { row with hold := .answered result }
      answers := (pending.answer, result) :: s.answers } := by
  refine inv.settle (fun _ => rfl) ?_ ?_ ?_ ?_
  · exact List.nodup_cons.mpr ⟨inv.held_unanswered held, inv.once⟩
  · intro i given member
    rcases List.mem_cons.mp member with new | old
    · obtain ⟨rfl, rfl⟩ := Prod.mk.inj new
      refine ⟨⟨pending, .answered given⟩, List.mem_iff_getElem?.mpr ⟨k, ?_⟩, rfl, rfl⟩
      rw [List.getElem?_modify_eq, held]
      rfl
    · exact inv.answered_stands held old
  · intro channel given found value
    simp only [Oneshot.send] at value
    split at value
    · cases value
      exact List.mem_cons_self ..
    · exact List.mem_cons_of_mem _ (inv.values _ channel given found value)
  · exact fun _ member => List.mem_cons_of_mem _ member

theorem dropClaim (inv : BrokerInv s) {k : Nat} {pending : PendingFetch}
    (held : s.claims[k]? = some ⟨pending, .held⟩) :
    BrokerInv { s with
      channels := s.channels.modify pending.answer Oneshot.dropSender
      claims := s.claims.modify k fun row => { row with hold := .dropped } } :=
  inv.settle (fun _ => rfl) inv.once (fun _ _ given => inv.answered_stands held given)
    (fun channel result found value => inv.values _ channel result found value) fun _ member => member

/-- A fetch that waited is over, with nothing or with what was answered to it. -/
theorem finish (inv : BrokerInv s) {i : Nat} {uuid : String} {outcome : FetchState}
    (here : s.fetches[i]? = some ⟨uuid, .waiting⟩) (over_ : outcome ≠ .waiting)
    (given : ∀ result, outcome = .received result → (i, result) ∈ s.answers) :
    BrokerInv (s.finish i outcome) := by
  refine ⟨?_, inv.ordered, ?_, ?_, inv.answered, inv.once, ?_, ?_⟩
  · simpa [Broker.finish] using inv.sized
  · intro name j arrived
    have uuids : (s.fetches.modify i fun row => { row with outcome := outcome }).map (·.uuid) =
        s.fetches.map (·.uuid) := map_modify fun _ => rfl
    exact uuids ▸ inv.asked name j arrived
  · intro j
    have both := inv.receivers j
    simp only [Broker.finish, List.getElem?_modify]
    by_cases same : i = j
    · subst same
      rw [here] at both ⊢
      obtain ⟨channel, found, -⟩ := Option.map_eq_some_iff.mp both
      rw [found]
      simp [Oneshot.dropReceiver, over_]
    · simpa [same] using both
  · intro j channel result found value
    rcases getElem?_modify_cases found with ⟨rfl, old, was, rfl⟩ | ⟨-, old⟩
    · exact inv.values i old result was value
    · exact inv.values j channel result old value
  · intro j row result found done
    rcases getElem?_modify_cases found with ⟨rfl, old, -, rfl⟩ | ⟨-, old⟩
    · exact given result done
    · exact inv.received j row result old done

/-- What a poll finds was answered. -/
theorem poll_given (inv : BrokerInv s) {i : Nat} {channel : Oneshot} {outcome : FetchState}
    (found : s.channels[i]? = some channel) (polled : channel.poll = some outcome) :
    outcome ≠ .waiting ∧ ∀ result, outcome = .received result → (i, result) ∈ s.answers := by
  unfold Oneshot.poll at polled
  split at polled
  · rename_i result value
    cases polled
    refine ⟨nofun, ?_⟩
    rintro other ⟨⟩
    exact inv.values i channel result found value
  · split at polled
    · cases polled
    · cases polled
      exact ⟨nofun, nofun⟩

end BrokerInv

theorem broker_step {s t : Broker} {action : BrokerAction} (inv : BrokerInv s)
    (stepped : s.step action = some t) : BrokerInv t := by
  cases action with
  | fetch uuid =>
      cases stepped
      exact inv.fetch uuid
  | claim =>
      cases stepped
      exact inv.claim
  | answer k result =>
      simp only [Broker.step] at stepped
      split at stepped
      · rename_i held
        cases stepped
        exact inv.answer held result
      · cases stepped
  | dropClaim k =>
      simp only [Broker.step] at stepped
      split at stepped
      · rename_i held
        cases stepped
        exact inv.dropClaim held
      · cases stepped
  | receive i =>
      simp only [Broker.step] at stepped
      split at stepped
      · rename_i here found
        obtain ⟨outcome, polled, rfl⟩ := Option.map_eq_some_iff.mp stepped
        obtain ⟨done, given⟩ := inv.poll_given found polled
        exact inv.finish here done given
      · cases stepped
  | timeout i =>
      simp only [Broker.step] at stepped
      split at stepped
      · rename_i channel here found
        cases stepped
        cases polled : channel.poll with
        | none => exact inv.finish here nofun nofun
        | some outcome =>
            obtain ⟨done, given⟩ := inv.poll_given found polled
            exact inv.finish here done given
      · cases stepped
  | dropFetch i =>
      simp only [Broker.step] at stepped
      split at stepped
      · rename_i here
        cases stepped
        exact inv.finish here nofun nofun
      · cases stepped

/-- A channel is open exactly while its fetch waits. -/
theorem BrokerInv.open_iff {s : Broker} (inv : BrokerInv s) (i : Nat) :
    s.closed i = false ↔ (s.fetches[i]?).map (·.outcome) = some .waiting := by
  rw [Broker.closed_eq, inv.receivers i]
  cases s.fetches[i]? with
  | none => simp
  | some fetch => simp

theorem BrokerInv.handsOutLive {s : Broker} (inv : BrokerInv s) {pending : PendingFetch}
    (claimed : s.claim.1 = some pending) :
    s.fetches[pending.answer]? = some ⟨pending.uuid, .waiting⟩ ∧
    ∀ request ∈ s.queue, (s.fetches[request.answer]?.map (·.outcome)) = some .waiting →
      pending.answer ≤ request.answer := by
  have first := (claimFrom_spec s.closed s.queue).1.symm.trans claimed
  obtain ⟨request, head, rfl⟩ := Option.map_eq_some_iff.mp first
  obtain ⟨rest, live⟩ := List.head?_eq_some_iff.mp head
  have here : request ∈ s.queue.filter fun request => !s.closed request.answer := by
    rw [live]
    exact List.mem_cons_self ..
  obtain ⟨queued, isOpen⟩ := List.mem_filter.mp here
  constructor
  · have waits := (inv.open_iff request.answer).mp (by simpa using isOpen)
    have asked := inv.asked request.uuid request.answer
      (List.mem_append_right _ (List.mem_map.mpr ⟨request, queued, rfl⟩))
    rw [List.getElem?_map] at asked
    obtain ⟨fetch, found, outcome⟩ := Option.map_eq_some_iff.mp waits
    rw [found] at asked ⊢
    obtain ⟨uuid, state⟩ := fetch
    cases outcome
    cases asked
    rfl
  · intro other member waits
    have also : other ∈ s.queue.filter fun request => !s.closed request.answer :=
      List.mem_filter.mpr ⟨member, by simpa using (inv.open_iff other.answer).mpr waits⟩
    have sorted := (List.pairwise_append.mp inv.ordered).2.1
    rw [List.pairwise_map] at sorted
    have filtered := sorted.sublist (List.filter_sublist (p := fun request => !s.closed request.answer))
    rw [live] at also filtered
    rcases List.mem_cons.mp also with rfl | later
    · exact le_refl _
    · exact le_of_lt (List.rel_of_pairwise_cons filtered later)

theorem BrokerInv.sound {s : Broker} (inv : BrokerInv s) : s.Sound where
  answeredOnce := inv.once
  answeredClaimed := inv.answered
  ownResult := by
    intro i fetch result here returned
    cases outcome : fetch.outcome with
    | waiting =>
        rw [outcome] at returned
        cases returned
    | dropped =>
        rw [outcome] at returned
        cases returned
    | unserved =>
        rw [outcome] at returned
        cases returned
        exact .inl ⟨rfl, rfl⟩
    | received value =>
        rw [outcome] at returned
        cases returned
        right
        have given := inv.received i fetch result here outcome
        obtain ⟨claim, claimed, same, done⟩ := inv.answered i result given
        refine ⟨claim, claimed, ?_, done⟩
        have asked := inv.asked claim.pending.uuid claim.pending.answer
          (List.mem_append_left _ (List.mem_map.mpr ⟨claim, claimed, rfl⟩))
        rw [List.getElem?_map, same, here] at asked
        obtain ⟨⟨uuid, answer⟩, hold⟩ := claim
        cases same
        cases asked
        rfl
  arrivalOrder := by
    have sorted := (List.pairwise_append.mp inv.ordered).1
    rw [List.pairwise_map] at sorted ⊢
    exact sorted
  handsOutLive _ claimed := inv.handsOutLive claimed
  counts := s.claims_to_come

/-- **The broker, in every run**: whatever the order of fetches, claims, answers, timeouts
and drops. -/
theorem broker_sound {final : Broker} (reached : brokerMachine.Reachable final) : final.Sound := by
  have inv : BrokerInv final := by
    refine reached.invariant ?_ ?_
    · rintro start rfl
      exact BrokerInv.fresh
    · intro s action t inv stepped
      exact broker_step inv stepped
  exact inv.sound

/-- A fetch that goes away, one that is claimed past it and answered. -/
def goneThenServed : List BrokerAction :=
  [.fetch "260716-gone", .fetch "260716-live", .dropFetch 0, .claim, .answer 0 (.ok [10]),
    .receive 1]

theorem broker_sound_goneThenServed :
    ∃ final, brokerMachine.run {} goneThenServed = some final ∧
      (final.fetches.map (·.outcome) = [.dropped, .received (.ok [10])] ∧
        final.claims.map (·.pending.uuid) = ["260716-live"]) ∧ final.Sound := by
  obtain ⟨final, ran, shown⟩ : ∃ final, brokerMachine.run {} goneThenServed = some final ∧
      (final.fetches.map (·.outcome) = [.dropped, .received (.ok [10])] ∧
        final.claims.map (·.pending.uuid) = ["260716-live"]) :=
    Machine.run_exists (by decide +kernel)
  exact ⟨final, ran, shown, broker_sound ⟨{}, goneThenServed, rfl, ran⟩⟩

end MajsoulManager.Refetch
