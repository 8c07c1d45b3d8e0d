/-
# Refetch.RateWindow — completions per second over the last half minute

`RateWindow` of `refetch_service.rs`: a counter for each second of the window, indexed by
the second modulo the window and never cleared.  An instant is a count of nanoseconds;
seconds are counted from the first hit, whole.  The counters are `u32` and their sums wrap,
so what a read counts is the number of hits modulo `2 ^ 32`.
-/
import MajsoulManager.Theory.Residues
import Mathlib.Algebra.Field.Rat
import Mathlib.Data.UInt

namespace MajsoulManager.Refetch

open MajsoulManager.Theory

set_option autoImplicit false

def windowSecs : Nat := 30

instance : NeZero windowSecs := ⟨by decide⟩

/-- `elapsed().as_secs()`. -/
def elapsedSecs (origin now : Nat) : Nat := (now - origin) / 1000000000

structure RateWindow where
  /-- Which second a slot counts, and how many landed in it. -/
  buckets : Residues.Slots windowSecs UInt32
  origin : Option Nat

namespace RateWindow

def empty : RateWindow := ⟨Residues.empty, none⟩

def hit (rate : RateWindow) (now : Nat) : RateWindow :=
  let origin := rate.origin.getD now
  ⟨Residues.add rate.buckets (elapsedSecs origin now) 1, some origin⟩

/-- The sum `qps_at` starts from. -/
def live (rate : RateWindow) (second : Nat) : UInt32 := Residues.recent rate.buckets second

/-- A rate from a count; the fraction stands for the float. -/
def perSecond (live : UInt32) : ℚ := if live < 2 then 0 else live.toNat / windowSecs

def qpsAt (rate : RateWindow) (second : Nat) : ℚ := perSecond (rate.live second)

def qps (rate : RateWindow) (now : Nat) : ℚ :=
  match rate.origin with
  | some origin => rate.qpsAt (elapsedSecs origin now)
  | none => 0

/-- What a read at an instant counts. -/
def count (rate : RateWindow) (now : Nat) : UInt32 :=
  match rate.origin with
  | some origin => rate.live (elapsedSecs origin now)
  | none => 0

theorem qps_eq (rate : RateWindow) (now : Nat) : rate.qps now = perSecond (rate.count now) := by
  unfold qps count
  cases rate.origin with
  | none => rfl
  | some origin => rfl

end RateWindow

/-! ## The plain list of hit times -/

/-- The hits in the window of seconds that ends at an instant, the oldest hit first. -/
def hitsInWindow (hits : List Nat) (now : Nat) : Nat :=
  match hits.head? with
  | none => 0
  | some origin =>
      hits.countP fun hit => elapsedSecs origin now - elapsedSecs origin hit < windowSecs

/-- The hits as the ring is told of them. -/
def hitLog (origin : Nat) (hits : List Nat) : List (Nat × UInt32) :=
  hits.map fun hit => (elapsedSecs origin hit, 1)

theorem logged_hitLog (origin : Nat) (hits : List Nat) (now : Nat) :
    Residues.logged windowSecs (hitLog origin hits) now =
      UInt32.ofNat (hits.countP fun hit => now - elapsedSecs origin hit < windowSecs) := by
  induction hits with
  | nil => rfl
  | cons hit hits ih =>
      rw [Residues.logged] at ih ⊢
      rw [hitLog, List.map_cons, List.map_cons, List.sum_cons, ← hitLog, ih, List.countP_cons]
      by_cases inside : now - elapsedSecs origin hit < windowSecs
      · simp only [inside, if_true, decide_true]
        rw [Nat.add_comm, UInt32.ofNat_add]
        rfl
      · simp only [inside, if_false, decide_false, Bool.false_eq_true, Nat.add_zero]
        exact zero_add _

/-- The window after these hits, the last of them at `latest`. -/
structure Counts (rate : RateWindow) (hits : List Nat) (latest : Nat) : Prop where
  first : rate.origin = hits.head?
  started : ∀ origin, rate.origin = some origin → origin ≤ latest
  keeps : ∀ origin, rate.origin = some origin →
    Residues.Keeps rate.buckets (hitLog origin hits) (elapsedSecs origin latest)
  unused : rate.origin = none → rate.buckets = Residues.empty

theorem counts_empty (latest : Nat) : Counts .empty [] latest where
  first := rfl
  started := nofun
  keeps := nofun
  unused _ := rfl

theorem elapsedSecs_mono (origin : Nat) {a b : Nat} (le : a ≤ b) :
    elapsedSecs origin a ≤ elapsedSecs origin b :=
  Nat.div_le_div_right (Nat.sub_le_sub_right le origin)

/-- Time passes between two calls. -/
theorem Counts.later {rate : RateWindow} {hits : List Nat} {latest now : Nat}
    (counts : Counts rate hits latest) (le : latest ≤ now) : Counts rate hits now where
  first := counts.first
  started origin found := (counts.started origin found).trans le
  keeps origin found := by
    have keeps := counts.keeps origin found
    exact ⟨keeps.slot, fun i => (keeps.past i).trans (elapsedSecs_mono origin le), keeps.newest,
      keeps.total⟩
  unused := counts.unused

theorem Counts.hit {rate : RateWindow} {hits : List Nat} {now : Nat}
    (counts : Counts rate hits now) : Counts (rate.hit now) (hits ++ [now]) now := by
  cases started : rate.origin with
  | none =>
      have none : hits = [] := by
        rw [← List.head?_eq_none_iff, ← counts.first, started]
      subst none
      refine ⟨?_, ?_, ?_, ?_⟩
      · rw [RateWindow.hit, started]
        rfl
      · intro origin found
        rw [RateWindow.hit, started] at found
        exact (Option.some.inj found).symm.le
      · intro origin found
        rw [RateWindow.hit, started] at found
        obtain rfl : now = origin := Option.some.inj found
        have keeps := (Residues.keeps_empty (n := windowSecs) (α := UInt32) 0).add
          (Nat.zero_le (elapsedSecs now now)) 1
        rw [← counts.unused started] at keeps
        rw [RateWindow.hit, started]
        exact keeps
      · intro found
        rw [RateWindow.hit] at found
        cases found
  | some origin =>
      have first : hits.head? = some origin := counts.first.symm.trans started
      refine ⟨?_, ?_, ?_, ?_⟩
      · rw [RateWindow.hit, started, List.head?_append, first]
        rfl
      · intro origin' found
        rw [RateWindow.hit, started] at found
        obtain rfl : origin = origin' := Option.some.inj found
        exact counts.started origin started
      · intro origin' found
        rw [RateWindow.hit, started] at found
        obtain rfl : origin = origin' := Option.some.inj found
        have keeps := (counts.keeps origin started).add le_rfl 1
        rw [RateWindow.hit, started, hitLog, List.map_append]
        exact keeps
      · intro found
        rw [RateWindow.hit] at found
        cases found

/-- **A read counts the hits of the plain list**, modulo the word. -/
theorem Counts.count_eq {rate : RateWindow} {hits : List Nat} {now : Nat}
    (counts : Counts rate hits now) : rate.count now = UInt32.ofNat (hitsInWindow hits now) := by
  rw [RateWindow.count, hitsInWindow, ← counts.first]
  cases started : rate.origin with
  | none => rfl
  | some origin =>
      dsimp only
      rw [RateWindow.live, (counts.keeps origin started).recent_eq le_rfl, logged_hitLog]

/-! ## Sequences of calls -/

inductive RateCall where
  | hit (now : Nat)
  | read (now : Nat)

def RateCall.now : RateCall → Nat
  | .hit now | .read now => now

/-- What the reads of a sequence return: the count, and the rate made of it. -/
def RateWindow.reads (rate : RateWindow) : List RateCall → List (UInt32 × ℚ)
  | [] => []
  | .hit now :: calls => (rate.hit now).reads calls
  | .read now :: calls => (rate.count now, rate.qps now) :: rate.reads calls

/-- What they count on a plain list. -/
def plainReads (hits : List Nat) : List RateCall → List Nat
  | [] => []
  | .hit now :: calls => plainReads (hits ++ [now]) calls
  | .read now :: calls => hitsInWindow hits now :: plainReads hits calls

theorem Counts.reads_eq {rate : RateWindow} {hits : List Nat} {latest : Nat} {calls : List RateCall}
    (counts : Counts rate hits latest) (later : ∀ call ∈ calls, latest ≤ call.now)
    (ordered : (calls.map RateCall.now).Pairwise (· ≤ ·)) :
    rate.reads calls = (plainReads hits calls).map fun live =>
      (UInt32.ofNat live, RateWindow.perSecond (UInt32.ofNat live)) := by
  induction calls generalizing rate hits latest with
  | nil => rfl
  | cons call calls ih =>
      obtain ⟨here, rest⟩ := List.pairwise_cons.mp ordered
      have next : ∀ after ∈ calls, call.now ≤ after.now := fun after member =>
        here _ (List.mem_map_of_mem member)
      have counts := counts.later (later call List.mem_cons_self)
      cases call with
      | hit now => exact ih counts.hit next rest
      | read now =>
          have same : rate.count now = UInt32.ofNat (hitsInWindow hits now) := counts.count_eq
          rw [RateWindow.reads, plainReads, List.map_cons, ← ih counts next rest,
            RateWindow.qps_eq, same]

/-- **The ring counts as the plain list does**, modulo the word, at every read of every
sequence of calls in the order of time, whatever gaps lie between them. -/
theorem reads_eq_plainReads {calls : List RateCall}
    (ordered : (calls.map RateCall.now).Pairwise (· ≤ ·)) :
    (RateWindow.empty.reads calls).map (·.1.toNat) = (plainReads [] calls).map (· % 2 ^ 32) ∧
      ∀ read ∈ RateWindow.empty.reads calls, read.2 = RateWindow.perSecond read.1 := by
  have same := (counts_empty 0).reads_eq (fun _ _ => Nat.zero_le _) ordered
  rw [same]
  constructor
  · rw [List.map_map]
    exact List.map_congr_left fun live _ => UInt32.toNat_ofNat'
  · intro read member
    obtain ⟨live, -, rfl⟩ := List.mem_map.mp member
    rfl

/-- A read in the window, one past a gap longer than the ring, and one past all. -/
theorem reads_eq_plainReads_gaps :
    (RateWindow.empty.reads [.hit 0, .hit 29000000000, .read 29000000000, .hit 95000000000,
        .read 95000000000, .read 130000000000]).map (·.1.toNat) =
      (plainReads [] [.hit 0, .hit 29000000000, .read 29000000000, .hit 95000000000,
        .read 95000000000, .read 130000000000]).map (· % 2 ^ 32) :=
  (reads_eq_plainReads (by simp [RateCall.now])).1

/-! ## The width of the counters -/

/-- `n` hits at one instant and a read. -/
def burst (n : Nat) : List RateCall := List.replicate n (.hit 0) ++ [.read 0]

theorem burst_ordered (n : Nat) : ((burst n).map RateCall.now).Pairwise (· ≤ ·) := by
  have zero : ∀ call ∈ burst n, call.now = 0 := by
    intro call member
    rcases List.mem_append.mp member with hit | read
    · rw [List.eq_of_mem_replicate hit]
      rfl
    · rw [List.mem_singleton.mp read]
      rfl
  apply List.pairwise_of_forall_mem_list
  intro a memberA b memberB
  obtain ⟨call, member, rfl⟩ := List.mem_map.mp memberA
  rw [zero call member]
  exact Nat.zero_le b

theorem plainReads_burst (n : Nat) : plainReads [] (burst n) = [n] := by
  have run : ∀ (n : Nat) (hits : List Nat), (∀ hit ∈ hits, hit = 0) →
      plainReads hits (burst n) = [hits.length + n] := by
    intro n
    induction n with
    | zero =>
        intro hits zero
        show [hitsInWindow hits 0] = [hits.length]
        rw [List.singleton_inj, hitsInWindow]
        cases hits with
        | nil => rfl
        | cons hit hits =>
            rw [List.head?_cons]
            dsimp only
            rw [List.countP_eq_length]
            intro hit' member
            rw [zero hit' member, zero hit List.mem_cons_self]
            decide
    | succ n ih =>
        intro hits zero
        have next : plainReads hits (burst (n + 1)) = plainReads (hits ++ [0]) (burst n) := rfl
        rw [next, ih (hits ++ [0])]
        · rw [List.length_append, List.length_singleton, Nat.add_assoc, Nat.add_comm 1 n]
        · intro hit member
          rcases List.mem_append.mp member with old | new
          · exact zero hit old
          · exact List.mem_singleton.mp new
  rw [run n [] nofun, List.length_nil, Nat.zero_add]

/-- `2 ^ 32` hits within a second read as none. -/
theorem burst_wraps : ∃ n, plainReads [] (burst n) = [2 ^ 32] ∧
    (RateWindow.empty.reads (burst n)).map (·.1.toNat) = [0] := by
  refine ⟨2 ^ 32, plainReads_burst _, ?_⟩
  rw [(counts_empty 0).reads_eq (fun _ _ => Nat.zero_le _) (burst_ordered _), plainReads_burst]
  rfl

end MajsoulManager.Refetch
