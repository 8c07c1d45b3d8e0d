/-
# Theory.Redaction — words replaced by a mark, one word after another

`redact words mark` replaces every occurrence of the first word, then of the
second in what that left, and so on.  `masked` is what it is for: every stretch of
the text that overlapping occurrences cover becomes one mark.

Two words that overlap in a text make a third, `Superposed`.  The words are
`Closed` when any such third word is one of them, and stands before the two: then
a stretch is always an occurrence of the word that is replaced first.

* `redact_eq_masked`: closed words that cannot lie over the mark are masked whole in
  every text.
* `closed_of_redact`: words that are masked whole wherever two of them overlap are
  closed.
-/
import Mathlib.Data.List.Infix
import Mathlib.Tactic

namespace MajsoulManager.Theory.Redaction

set_option autoImplicit false

universe u

variable {α : Type u}

/-! ## Two words -/

/-- The second word starts inside the first one, `d` places on, and the two make
up the text. -/
def Superposed (first second text : List α) : Prop :=
  ∃ d < first.length, first <+: text ∧ second <+: text.drop d ∧
    text.length = max first.length (d + second.length)

/-- Two occurrences that overlap in a text make up a part of it. -/
theorem superposed_of_overlap {first second text : List α} {d : Nat} (inside : d < first.length)
    (here : first <+: text) (there : second <+: text.drop d) :
    Superposed first second (text.take (max first.length (d + second.length))) := by
  have long : first.length ≤ text.length := here.length_le
  have alsoLong : second.length ≤ text.length - d := by simpa using there.length_le
  refine ⟨d, inside, ?_, ?_, ?_⟩
  · rw [List.prefix_take_iff]
    exact ⟨here, by omega⟩
  · rw [List.drop_take, List.prefix_take_iff]
    exact ⟨there, by omega⟩
  · rw [List.length_take]
    omega

variable {word mark : List α}

/-- The two cannot overlap, in whatever text. -/
def Apart (word other : List α) : Prop :=
  ∀ text, ¬ Superposed word other text ∧ ¬ Superposed other word text

/-- A word that cannot lie over the mark ends before it. -/
theorem Apart.prefix_before (apart : Apart word mark) {front rest : List α}
    (here : word <+: front ++ (mark ++ rest)) : word <+: front := by
  by_cases short : word.length ≤ front.length
  · exact List.prefix_of_prefix_length_le here (List.prefix_append _ _) short
  · have there : mark <+: (front ++ (mark ++ rest)).drop front.length := by simp
    exact absurd (superposed_of_overlap (by omega) here there) (apart _).1

/-- Nor does it start inside one. -/
theorem Apart.not_prefix_inside (apart : Apart word mark) {rest : List α} {d : Nat}
    (inside : d < mark.length) : ¬ word <+: mark.drop d ++ rest := by
  intro there
  have here : mark <+: mark ++ rest := List.prefix_append _ _
  have same : (mark ++ rest).drop d = mark.drop d ++ rest := List.drop_append_of_le_length inside.le
  exact (apart _).2 (superposed_of_overlap inside here (same ▸ there))

/-! ## One word -/

variable [DecidableEq α]

/-- Walk the text from the left, and past every occurrence. -/
def replaceFrom (word mark : List α) : Nat → List α → List α
  | _, [] => []
  | skip + 1, _ :: rest => replaceFrom word mark skip rest
  | 0, c :: rest =>
      if word <+: c :: rest then mark ++ replaceFrom word mark (word.length - 1) rest
      else c :: replaceFrom word mark 0 rest

def replace (word mark text : List α) : List α := replaceFrom word mark 0 text

theorem replaceFrom_eq_drop (skip : Nat) (text : List α) :
    replaceFrom word mark skip text = replace word mark (text.drop skip) := by
  induction text generalizing skip with
  | nil => cases skip <;> simp [replaceFrom, replace]
  | cons c rest ih =>
      cases skip with
      | zero => rfl
      | succ skip => simpa [replaceFrom] using ih skip

@[simp] theorem replace_nil : replace word mark [] = [] := rfl

theorem replace_cons {c : α} {rest : List α} (fresh : ¬ word <+: c :: rest) :
    replace word mark (c :: rest) = c :: replace word mark rest := by
  simp [replace, replaceFrom, fresh]

/-- An occurrence at the front is replaced, and the walk goes on behind it. -/
theorem replace_word (some_ : word ≠ []) (rest : List α) :
    replace word mark (word ++ rest) = mark ++ replace word mark rest := by
  obtain ⟨c, tail, rfl⟩ := List.exists_cons_of_ne_nil some_
  have here : c :: tail <+: c :: (tail ++ rest) := ⟨rest, rfl⟩
  rw [List.cons_append, replace, replaceFrom, if_pos here, replaceFrom_eq_drop]
  simp

/-- Text in which no occurrence starts is kept. -/
theorem replace_append {front rest : List α}
    (fresh : ∀ d < front.length, ¬ word <+: front.drop d ++ rest) :
    replace word mark (front ++ rest) = front ++ replace word mark rest := by
  induction front with
  | nil => rfl
  | cons c front ih =>
      rw [List.cons_append, replace_cons (by simpa using fresh 0 (by simp)), ih]
      · rfl
      · intro d inside
        simpa using fresh (d + 1) (by simpa using inside)

theorem replace_of_not_infix {text : List α} (absent : ¬ word <:+: text) :
    replace word mark text = text := by
  have kept : replace word mark (text ++ []) = text ++ replace word mark [] := by
    refine replace_append fun d _ here => ?_
    rw [List.append_nil] at here
    exact absent (here.isInfix.trans (List.drop_suffix d text).isInfix)
  simpa using kept

theorem replace_ne_nil (marked : mark ≠ []) {text : List α} (some_ : text ≠ []) :
    replace word mark text ≠ [] := by
  obtain ⟨c, rest, rfl⟩ := List.exists_cons_of_ne_nil some_
  rw [replace, replaceFrom]
  split
  · simp [marked]
  · simp

/-- The first occurrence, with what is in front of it and what comes after. -/
theorem replace_first (some_ : word ≠ []) {text : List α} (found : word <:+: text) :
    ∃ front rest, text = front ++ word ++ rest ∧
      replace word mark text = front ++ mark ++ replace word mark rest := by
  induction text with
  | nil => exact absurd (List.infix_nil.mp found) some_
  | cons c text ih =>
      by_cases here : word <+: c :: text
      · obtain ⟨rest, same⟩ := here
        refine ⟨[], rest, by simpa using same.symm, ?_⟩
        rw [← same, replace_word some_]
        rfl
      · obtain later := (List.infix_cons_iff.mp found).resolve_left here
        obtain ⟨front, rest, rfl, replaced⟩ := ih later
        refine ⟨c :: front, rest, rfl, ?_⟩
        rw [replace_cons here, replaced]
        rfl

/-- A mark in the text stays, and parts it. -/
theorem replace_mark (some_ : word ≠ []) (apart : Apart word mark) (front rest : List α) :
    replace word mark (front ++ (mark ++ rest)) =
      replace word mark front ++ (mark ++ replace word mark rest) := by
  induction sized : front.length using Nat.strong_induction_on generalizing front with
  | _ n ih =>
      cases front with
      | nil =>
          rw [List.nil_append, replace_nil, List.nil_append]
          exact replace_append fun d inside => apart.not_prefix_inside inside
      | cons c front =>
          subst sized
          by_cases here : word <+: c :: front
          · obtain ⟨later, same⟩ := here
            have shorter : later.length < (c :: front).length := by
              have := List.length_pos_iff.mpr some_
              rw [← same, List.length_append]
              omega
            rw [← same, List.append_assoc, replace_word some_, replace_word some_,
              ih _ shorter later rfl, List.append_assoc]
          · have fresh : ¬ word <+: (c :: front) ++ (mark ++ rest) :=
              fun there => here (apart.prefix_before there)
            rw [List.cons_append] at fresh ⊢
            rw [replace_cons fresh, replace_cons here, ih _ (by simp) front rfl, List.cons_append]

/-! ## Many words -/

section Words

variable (words : List (List α)) (mark : List α)

def redact (text : List α) : List α := words.foldl (fun text word => replace word mark text) text

/-- An occurrence of one of the words starts before `start` and reaches past `p`. -/
def reaches (text : List α) (start p : Nat) : Bool :=
  (List.range start).any fun a => words.any fun word => p < a + word.length && word <+: text.drop a

/-- The text with every stretch that overlapping occurrences cover as one mark: a
character that none covers is shown, and one that an occurrence covers together with
the character before it adds nothing. -/
def masked (text : List α) : List α :=
  (List.range text.length).flatMap fun p =>
    if reaches words text p p then []
    else if reaches words text (p + 1) p then mark
    else text[p]?.toList

/-- How far the longest of the words reaches that the text starts with. -/
def longest (text : List α) : Nat :=
  (words.filter (· <+: text)).foldr (fun word n => max word.length n) 0

/-- Walk the text with the number of characters that are still covered. -/
def sweep : Nat → List α → List α
  | _, [] => []
  | 0, c :: rest =>
      match longest words (c :: rest) with
      | 0 => c :: sweep 0 rest
      | reach + 1 => mark ++ sweep reach rest
  | covered + 1, c :: rest => sweep (max (covered + 1) (longest words (c :: rest)) - 1) rest

def swept (text : List α) : List α := sweep words mark 0 text

/-- What any two of the words make together is one of them, and comes before both. -/
def Closed : Prop :=
  ∀ (i j : Nat) (first second text : List α), words[i]? = some first → words[j]? = some second →
    Superposed first second text → ∃ k : Nat, k ≤ i ∧ k ≤ j ∧ words[k]? = some text

variable {words mark}

theorem length_le_longest {text : List α} (member : word ∈ words) (here : word <+: text) :
    word.length ≤ longest words text := by
  have kept : word ∈ words.filter (· <+: text) := List.mem_filter.mpr ⟨member, by simpa using here⟩
  unfold longest
  generalize words.filter (· <+: text) = found at kept
  induction found with
  | nil => cases kept
  | cons first rest ih =>
      rcases List.mem_cons.mp kept with rfl | later
      · exact Nat.le_max_left _ _
      · exact (ih later).trans (Nat.le_max_right _ _)

theorem exists_longest {text : List α} (reaches : longest words text ≠ 0) :
    ∃ word ∈ words, word <+: text ∧ word.length = longest words text := by
  have found : ∃ word ∈ words.filter (· <+: text), word.length = longest words text := by
    unfold longest at reaches ⊢
    generalize words.filter (· <+: text) = found at reaches
    induction found with
    | nil => exact absurd rfl reaches
    | cons first rest ih =>
        rw [List.foldr_cons] at reaches ⊢
        by_cases short : first.length ≤ rest.foldr (fun word n => max word.length n) 0
        · rw [Nat.max_eq_right short] at reaches ⊢
          obtain ⟨word, member, same⟩ := ih reaches
          exact ⟨word, List.mem_cons_of_mem _ member, same⟩
        · exact ⟨first, List.mem_cons_self, by omega⟩
  obtain ⟨word, member, same⟩ := found
  obtain ⟨member, here⟩ := List.mem_filter.mp member
  exact ⟨word, member, by simpa using here, same⟩

/-! ## The sweep -/

theorem reaches_iff {text : List α} {start p : Nat} :
    reaches words text start p = true ↔
      ∃ a < start, ∃ word ∈ words, p < a + word.length ∧ word <+: text.drop a := by
  simp [reaches]

theorem lt_longest_iff {text : List α} {n : Nat} :
    n < longest words text ↔ ∃ word ∈ words, n < word.length ∧ word <+: text := by
  constructor
  · intro less
    obtain ⟨word, member, here, same⟩ :=
      exists_longest (show longest words text ≠ 0 by omega)
    exact ⟨word, member, by omega, here⟩
  · rintro ⟨word, member, long, here⟩
    exact long.trans_le (length_le_longest member here)

/-- The sweep carries how far the occurrences reach that have started. -/
theorem sweep_eq (front rest : List α) (carried : Nat)
    (carries : ∀ n, n < carried ↔
      reaches words (front ++ rest) front.length (front.length + n) = true) :
    sweep words mark carried rest =
      (List.range' front.length rest.length).flatMap fun p =>
        if reaches words (front ++ rest) p p then []
        else if reaches words (front ++ rest) (p + 1) p then mark
        else (front ++ rest)[p]?.toList := by
  induction rest generalizing front carried with
  | nil => cases carried <;> rfl
  | cons c rest ih =>
      have split : front ++ c :: rest = (front ++ [c]) ++ rest := by simp
      have here : (front ++ c :: rest).drop front.length = c :: rest := by simp
      -- one place on, the occurrences that start here count as well
      have reach : ∀ n, reaches words (front ++ c :: rest) (front.length + 1) (front.length + n) =
          true ↔ n < carried ∨ n < longest words (c :: rest) := by
        intro n
        rw [carries, reaches_iff, reaches_iff, lt_longest_iff]
        constructor
        · rintro ⟨a, before, word, member, long, there⟩
          by_cases earlier : a < front.length
          · exact .inl ⟨a, earlier, word, member, long, there⟩
          · obtain rfl : a = front.length := by omega
            rw [here] at there
            exact .inr ⟨word, member, by omega, there⟩
        · rintro (⟨a, before, word, member, long, there⟩ | ⟨word, member, long, there⟩)
          · exact ⟨a, by omega, word, member, long, there⟩
          · exact ⟨front.length, by omega, word, member, by omega, here.symm ▸ there⟩
      have next : sweep words mark (max carried (longest words (c :: rest)) - 1) rest = _ :=
        ih (front ++ [c]) (max carried (longest words (c :: rest)) - 1) fun n => by
          have := reach (n + 1)
          rw [← split, List.length_append, List.length_singleton, Nat.add_assoc, Nat.add_comm 1 n,
            this]
          omega
      have joined : 0 < carried ↔ reaches words (front ++ c :: rest) front.length front.length = true :=
        carries 0
      have covered : reaches words (front ++ c :: rest) (front.length + 1) front.length = true ↔
          0 < carried ∨ 0 < longest words (c :: rest) := reach 0
      rw [List.length_cons, List.range'_succ, List.flatMap_cons]
      rw [List.length_append, List.length_singleton, ← split] at next
      rw [← next]
      cases carried with
      | succ more =>
          rw [if_pos (joined.mp (by omega)), List.nil_append, sweep]
      | zero =>
          rw [if_neg (fun covers => by simpa using joined.mpr covers), sweep]
          cases reached : longest words (c :: rest) with
          | zero =>
              rw [if_neg (fun covers => by simpa [reached] using covered.mp covers)]
              simp
          | succ more =>
              rw [if_pos (covered.mpr (.inr (by omega)))]
              simp

theorem masked_eq_swept (text : List α) : masked words mark text = swept words mark text := by
  rw [swept, sweep_eq [] text 0 (by simp [reaches]), masked, List.range_eq_range']
  rfl

/-! ## A text in pieces -/

/-- A character that no word starts at, or the longest word that starts there. -/
inductive Piece (α : Type u) where
  | plain (c : α)
  | word (i : Nat) (text : List α)

def Piece.source : Piece α → List α
  | .plain c => [c]
  | .word _ text => text

/-- The piece after the first `k` words are replaced. -/
def Piece.shown (mark : List α) (k : Nat) : Piece α → List α
  | .plain c => [c]
  | .word i text => if i < k then mark else text

def source (pieces : List (Piece α)) : List α := pieces.flatMap Piece.source

def shown (mark : List α) (k : Nat) (pieces : List (Piece α)) : List α :=
  pieces.flatMap (Piece.shown mark k)

inductive Parsed (words : List (List α)) : List (Piece α) → Prop where
  | nil : Parsed words []
  | plain {c : α} {pieces : List (Piece α)} (rest : Parsed words pieces)
      (free : ∀ word ∈ words, ¬ word <+: c :: source pieces) : Parsed words (.plain c :: pieces)
  | word {i : Nat} {text : List α} {pieces : List (Piece α)} (rest : Parsed words pieces)
      (here : words[i]? = some text)
      (most : ∀ word ∈ words, word <+: text ++ source pieces → word.length ≤ text.length) :
      Parsed words (.word i text :: pieces)

theorem exists_parsed (nonempty : ∀ word ∈ words, word ≠ []) (text : List α) :
    ∃ pieces, Parsed words pieces ∧ source pieces = text := by
  induction sized : text.length using Nat.strong_induction_on generalizing text with
  | _ n ih =>
      cases text with
      | nil => exact ⟨[], .nil, rfl⟩
      | cons c rest =>
          subst sized
          by_cases none : longest words (c :: rest) = 0
          · obtain ⟨pieces, parsed, rfl⟩ := ih _ (by simp) rest rfl
            refine ⟨.plain c :: pieces, .plain parsed fun word member here => ?_, rfl⟩
            have short := length_le_longest member here
            exact nonempty word member (List.length_eq_zero_iff.mp (by omega))
          · obtain ⟨word, member, ⟨later, same⟩, most⟩ := exists_longest none
            obtain ⟨i, here⟩ := List.mem_iff_getElem?.mp member
            have positive := List.length_pos_iff.mpr (nonempty word member)
            obtain ⟨pieces, parsed, rfl⟩ := ih later.length (by rw [← same]; simp; omega) later rfl
            refine ⟨.word i word :: pieces, .word parsed here fun other member here => ?_, same⟩
            rw [same] at here
            exact most ▸ length_le_longest member here

section ClosedWords

variable {i j d : Nat} {text : List α} {pieces : List (Piece α)}

omit [DecidableEq α] in
/-- A word that starts inside a piece ends inside it, and comes no earlier. -/
theorem Parsed.inside (closed : Closed words) (distinct : words.Nodup)
    (parsed : Parsed words (.word i text :: pieces)) (known : words[j]? = some word)
    (within : d < text.length) (there : word <+: text.drop d ++ source pieces) :
    d + word.length ≤ text.length ∧ i ≤ j := by
  cases parsed with
  | word rest here most =>
      have front : text <+: text ++ source pieces := List.prefix_append _ _
      have behind : word <+: (text ++ source pieces).drop d := by
        rwa [List.drop_append_of_le_length within.le]
      obtain ⟨k, below, alsoBelow, made⟩ :=
        closed i j text word _ here known (superposed_of_overlap within front behind)
      have short := most _ (List.mem_of_getElem? made) (List.take_prefix _ _)
      have long := behind.length_le
      simp only [List.length_take, List.length_append, List.length_drop] at short long
      have ends : d + word.length ≤ text.length := by omega
      rw [Nat.max_eq_left ends, List.take_left] at made
      have same : k = i := (List.getElem?_inj (List.getElem?_eq_some_iff.mp made).1 distinct).mp
        (made.trans here.symm)
      exact ⟨ends, same ▸ alsoBelow⟩

/-- The sweep runs through a piece that nothing reaches out of. -/
theorem sweep_inside {front rest : List α}
    (covers : ∀ d < front.length, longest words (front.drop d ++ rest) ≤ front.length - d) :
    sweep words mark front.length (front ++ rest) = swept words mark rest := by
  induction front with
  | nil => rfl
  | cons c front ih =>
      have here := covers 0 (by simp)
      rw [List.drop_zero, List.length_cons] at here
      rw [List.cons_append, List.length_cons, sweep, Nat.max_eq_left (by simpa using here),
        Nat.add_sub_cancel]
      refine ih fun d within => ?_
      have next := covers (d + 1) (by simpa using within)
      rw [List.drop_succ_cons, List.length_cons] at next
      omega

theorem swept_source (closed : Closed words) (distinct : words.Nodup)
    (nonempty : ∀ word ∈ words, word ≠ []) (parsed : Parsed words pieces) :
    swept words mark (source pieces) = shown mark words.length pieces := by
  induction parsed with
  | nil => rfl
  | @plain c pieces rest free ih =>
      have none : longest words (c :: source pieces) = 0 := by
        by_contra reaches
        obtain ⟨word, member, here, -⟩ := exists_longest reaches
        exact free word member here
      show swept words mark (c :: source pieces) = c :: shown mark words.length pieces
      rw [← ih, swept, sweep, none]
      rfl
  | @word i text pieces rest here most ih =>
      have known : text ∈ words := List.mem_of_getElem? here
      have bounded : ∀ d < text.length,
          longest words (text.drop d ++ source pieces) ≤ text.length - d := by
        intro d within
        by_cases reaches : longest words (text.drop d ++ source pieces) = 0
        · omega
        · obtain ⟨word, member, there, same⟩ := exists_longest reaches
          obtain ⟨j, at_⟩ := List.mem_iff_getElem?.mp member
          have := ((Parsed.word rest here most).inside closed distinct at_ within there).1
          omega
      have whole : longest words (text ++ source pieces) = text.length := by
        have reach := length_le_longest known (List.prefix_append text (source pieces))
        have := bounded 0 (List.length_pos_iff.mpr (nonempty text known))
        simp only [List.drop_zero] at this
        omega
      obtain ⟨c, tail, rfl⟩ := List.exists_cons_of_ne_nil (nonempty text known)
      have marked : i < words.length := (List.getElem?_eq_some_iff.mp here).1
      show swept words mark (c :: (tail ++ source pieces)) =
        (if i < words.length then mark else c :: tail) ++ shown mark words.length pieces
      rw [if_pos marked, ← ih, swept, sweep]
      simp only [List.cons_append, List.length_cons] at whole
      rw [whole]
      show mark ++ sweep words mark tail.length (tail ++ source pieces) = _
      rw [sweep_inside]
      intro d within
      have := bounded (d + 1) (by simpa using within)
      simp only [List.drop_succ_cons, List.length_cons] at this
      omega

omit [DecidableEq α] in
theorem Piece.shown_cases (piece : Piece α) (mark : List α) (k : Nat) :
    (k ≠ 0 ∧ piece.shown mark k = mark) ∨ piece.shown mark k = piece.source := by
  cases piece with
  | plain c => exact .inr rfl
  | word i text =>
      by_cases replaced : i < k
      · exact .inl ⟨by omega, if_pos replaced⟩
      · exact .inr (if_neg replaced)

omit [DecidableEq α] in
/-- What starts a shown text, in front of anything, starts the source of it. -/
theorem prefix_source {k : Nat} (apart : k ≠ 0 → Apart word mark) {front : List α}
    (here : word <+: front ++ shown mark k pieces) : word <+: front ++ source pieces := by
  induction pieces generalizing front with
  | nil => exact here
  | cons piece pieces ih =>
      have split : shown mark k (piece :: pieces) = piece.shown mark k ++ shown mark k pieces := rfl
      have whole : source (piece :: pieces) = piece.source ++ source pieces := rfl
      rw [split] at here
      rw [whole, ← List.append_assoc]
      rcases piece.shown_cases mark k with ⟨later, replaced⟩ | same
      · rw [replaced] at here
        exact ((apart later).prefix_before here).trans
          ((List.prefix_append _ _).trans (List.prefix_append _ _))
      · rw [same, ← List.append_assoc] at here
        exact ih here

/-- **One word.**  Replacing it in what the earlier ones left shows one mark more. -/
theorem replace_shown (closed : Closed words) (distinct : words.Nodup)
    (nonempty : ∀ word ∈ words, word ≠ []) {k : Nat} (known : words[k]? = some word)
    (apart : k ≠ 0 → Apart word mark) (parsed : Parsed words pieces) :
    replace word mark (shown mark k pieces) = shown mark (k + 1) pieces := by
  have member : word ∈ words := List.mem_of_getElem? known
  induction parsed with
  | nil => rfl
  | @plain c pieces rest free ih =>
      show replace word mark (c :: shown mark k pieces) = c :: shown mark (k + 1) pieces
      rw [replace_cons, ih]
      intro here
      have start : word <+: [c] ++ source pieces := prefix_source apart here
      exact free word member start
  | @word i text pieces rest here most ih =>
      have split : ∀ n, shown mark n (.word i text :: pieces) =
          (if i < n then mark else text) ++ shown mark n pieces := fun _ => rfl
      rw [split, split]
      by_cases earlier : i < k
      · -- the piece is a mark already, and the word does not start in it
        rw [if_pos earlier, if_pos (by omega), replace_append, ih]
        exact fun d within => (apart (by omega)).not_prefix_inside within
      · rw [if_neg earlier]
        by_cases now : i = k
        · subst now
          rw [here] at known
          cases known
          rw [if_pos (by omega), replace_word (nonempty word member), ih]
        · rw [if_neg (by omega), replace_append, ih]
          intro d within there
          have := (Parsed.word rest here most).inside closed distinct known within
            (prefix_source apart there)
          omega

/-- **Masked whole.**  Closed words are replaced, one after another, just as if every
stretch of them were replaced at once.  Only the first may lie over the mark: there
is none when its turn comes. -/
theorem redact_eq_masked (closed : Closed words) (distinct : words.Nodup)
    (nonempty : ∀ word ∈ words, word ≠ []) (apart : ∀ word ∈ words.tail, Apart word mark)
    (text : List α) : redact words mark text = masked words mark text := by
  rw [masked_eq_swept]
  obtain ⟨pieces, parsed, rfl⟩ := exists_parsed nonempty text
  have each : ∀ k ≤ words.length,
      (words.take k).foldl (fun text word => replace word mark text) (source pieces) =
        shown mark k pieces := by
    intro k
    induction k with
    | zero =>
        intro _
        have unmarked : Piece.shown mark 0 = (Piece.source : Piece α → List α) := by
          funext piece
          cases piece <;> simp [Piece.shown, Piece.source]
        rw [List.take_zero, List.foldl_nil, shown, unmarked]
        rfl
    | succ k ih =>
        intro within
        have known : words[k]? = some words[k] := List.getElem?_eq_getElem (by omega)
        rw [List.take_add_one, known, List.foldl_append, ih (by omega)]
        refine replace_shown closed distinct nonempty known (fun later => apart _ ?_) parsed
        obtain ⟨before, rfl⟩ := Nat.exists_eq_succ_of_ne_zero later
        exact List.mem_of_getElem? (List.getElem?_tail.trans known)
  rw [swept_source closed distinct nonempty parsed, ← each words.length le_rfl, List.take_length]
  rfl

end ClosedWords

/-! ## Only closed words -/

theorem sweep_swallow {covered : Nat} {text : List α} (short : text.length ≤ covered) :
    sweep words mark covered text = [] := by
  induction text generalizing covered with
  | nil => cases covered <;> rfl
  | cons c rest ih =>
      obtain ⟨more, rfl⟩ : ∃ more, covered = more + 1 := ⟨covered - 1, by simp at short; omega⟩
      rw [sweep]
      apply ih
      simp at short
      omega

/-- A word that starts here covers as far as it reaches. -/
theorem sweep_raise {covered : Nat} {text : List α} (member : word ∈ words) (here : word <+: text) :
    sweep words mark (covered + 1) text = sweep words mark (max (covered + 1) word.length) text := by
  cases text with
  | nil => rw [sweep_swallow (by simp), sweep_swallow (by simp)]
  | cons c rest =>
      have reach := length_le_longest member here
      obtain ⟨more, same⟩ : ∃ more, max (covered + 1) word.length = more + 1 :=
        ⟨max (covered + 1) word.length - 1, by omega⟩
      rw [same, sweep, sweep]
      congr 1
      omega

theorem sweep_through {covered : Nat} {front : List α} (long : front.length < covered)
    (rest : List α) :
    ∃ left, covered ≤ left + front.length ∧
      sweep words mark covered (front ++ rest) = sweep words mark left rest := by
  induction front generalizing covered with
  | nil => exact ⟨covered, by simp, rfl⟩
  | cons c front ih =>
      obtain ⟨more, rfl⟩ : ∃ more, covered = more + 1 := ⟨covered - 1, by omega⟩
      simp only [List.length_cons] at long
      obtain ⟨left, enough, same⟩ := @ih
        (max (more + 1) (longest words (c :: (front ++ rest))) - 1) (by omega)
      refine ⟨left, by simp only [List.length_cons]; omega, ?_⟩
      rw [List.cons_append, sweep, same]

/-- Two words that make up a text are one stretch of it. -/
theorem swept_superposed (nonempty : ∀ word ∈ words, word ≠ []) {first second text : List α}
    (member : first ∈ words) (alsoMember : second ∈ words) (made : Superposed first second text) :
    swept words mark text = mark := by
  obtain ⟨d, inside, here, there, sized⟩ := made
  have positive := List.length_pos_iff.mpr (nonempty first member)
  have reach := length_le_longest member here
  obtain ⟨c, rest, rfl⟩ : ∃ c rest, text = c :: rest :=
    List.exists_cons_of_ne_nil (List.ne_nil_of_length_pos (positive.trans_le here.length_le))
  have started : swept words mark (c :: rest) = mark ++ sweep words mark 1 (c :: rest) := by
    obtain ⟨more, same⟩ : ∃ more, longest words (c :: rest) = more + 1 :=
      ⟨longest words (c :: rest) - 1, by omega⟩
    rw [swept, sweep, sweep, same, Nat.max_eq_right (by omega)]
    rfl
  have covered : (List.take d (c :: rest)).length < max (0 + 1) first.length := by
    rw [List.length_take]
    omega
  obtain ⟨left, enough, through⟩ : ∃ left, max (0 + 1) first.length ≤
        left + (List.take d (c :: rest)).length ∧
      sweep words mark (max (0 + 1) first.length)
          (List.take d (c :: rest) ++ List.drop d (c :: rest)) =
        sweep words mark left (List.drop d (c :: rest)) := sweep_through covered _
  rw [List.take_append_drop] at through
  have further : left = left - 1 + 1 := by
    rw [List.length_take] at enough
    omega
  rw [started, sweep_raise member here, through, further, sweep_raise alsoMember there,
    sweep_swallow, List.append_nil]
  rw [List.length_take] at enough
  rw [List.length_drop, sized]
  omega

theorem redact_of_not_infix {text : List α} (absent : ∀ word ∈ words, ¬ word <:+: text) :
    redact words mark text = text := by
  unfold redact
  induction words with
  | nil => rfl
  | cons word rest ih =>
      rw [List.foldl_cons, replace_of_not_infix (absent word List.mem_cons_self)]
      exact ih fun word member => absent word (List.mem_cons_of_mem _ member)

/-- A mark that does not stand alone never does. -/
theorem redact_mark (marked : mark ≠ []) (nonempty : ∀ word ∈ words, word ≠ [])
    (apart : ∀ word ∈ words, Apart word mark) {front rest : List α} (more : front ++ rest ≠ []) :
    redact words mark (front ++ (mark ++ rest)) ≠ mark := by
  unfold redact
  induction words generalizing front rest with
  | nil =>
      intro alone
      have sized := congrArg List.length alone
      have positive := List.length_pos_iff.mpr more
      simp only [List.foldl_nil, List.length_append] at sized positive
      omega
  | cons word later ih =>
      rw [List.foldl_cons, replace_mark (nonempty word List.mem_cons_self)
        (apart word List.mem_cons_self)]
      refine ih (fun word member => nonempty word (List.mem_cons_of_mem _ member))
        (fun word member => apart word (List.mem_cons_of_mem _ member)) ?_
      intro nothing
      obtain ⟨noFront, noRest⟩ := List.append_eq_nil_iff.mp nothing
      have kept : ∀ text, replace word mark text = [] → text = [] := by
        intro text gone
        by_contra some_
        exact replace_ne_nil marked some_ gone
      exact more (by rw [kept front noFront, kept rest noRest, List.append_nil])

/-- **Only closed words.**  If every text that two of the words make together comes
out as one mark, that text is one of the words and comes before both. -/
theorem closed_of_redact (marked : mark ≠ []) (nonempty : ∀ word ∈ words, word ≠ [])
    (apart : ∀ word ∈ words.tail, Apart word mark)
    (whole : ∀ first ∈ words, ∀ second ∈ words, ∀ text, Superposed first second text →
      redact words mark text = mark) : Closed words := by
  intro i j first second text here there made
  have alone := whole first (List.mem_of_getElem? here) second (List.mem_of_getElem? there) text made
  obtain ⟨d, inside, front, behind, -⟩ := made
  -- the word that is replaced first in this text
  have some_ : ∃ k : Nat, ∃ word, words[k]? = some word ∧ word <:+: text := ⟨i, first, here, front.isInfix⟩
  classical
  obtain ⟨word, known, occurs⟩ := Nat.find_spec some_
  have below : Nat.find some_ ≤ i := Nat.find_min' some_ ⟨first, here, front.isInfix⟩
  have alsoBelow : Nat.find some_ ≤ j :=
    Nat.find_min' some_ ⟨second, there, behind.isInfix.trans (List.drop_suffix d text).isInfix⟩
  have least : ∀ k < Nat.find some_, ∀ word, words[k]? = some word → ¬ word <:+: text :=
    fun k earlier word at_ occurs => Nat.find_min some_ earlier ⟨word, at_, occurs⟩
  generalize Nat.find some_ = k at known below alsoBelow least
  refine ⟨k, below, alsoBelow, ?_⟩
  obtain ⟨within, same⟩ := List.getElem?_eq_some_iff.mp known
  have parted : words = words.take k ++ word :: words.drop (k + 1) := by
    rw [← same, ← List.drop_eq_getElem_cons within, List.take_append_drop]
  have member : word ∈ words := List.mem_of_getElem? known
  have untouched : redact (words.take k) mark text = text := by
    refine redact_of_not_infix fun earlier member => ?_
    obtain ⟨l, at_⟩ := List.mem_iff_getElem?.mp member
    rw [List.getElem?_take] at at_
    split at at_
    · rename_i short
      exact least l short earlier at_
    · cases at_
  by_contra other
  have different : text ≠ word := fun same => other (same ▸ known)
  obtain ⟨before, after, rfl, replaced⟩ : ∃ before after, text = before ++ word ++ after ∧
      replace word mark text = before ++ mark ++ replace word mark after :=
    replace_first (nonempty word member) occurs
  have more : before ++ replace word mark after ≠ [] := by
    intro nothing
    obtain ⟨rfl, gone⟩ := List.append_eq_nil_iff.mp nothing
    have nothing : after = [] := by
      by_contra more
      exact replace_ne_nil marked more gone
    exact different (by simp [nothing])
  have inTail : ∀ {word}, word ∈ words.drop (k + 1) → word ∈ words.tail := by
    intro word later
    rw [Nat.add_comm, ← List.drop_drop, List.drop_one] at later
    exact List.mem_of_mem_drop later
  have stays : redact (words.drop (k + 1)) mark (before ++ (mark ++ replace word mark after)) ≠ mark :=
    redact_mark marked (fun word later => nonempty word (List.mem_of_mem_drop later))
      (fun word later => apart word (inTail later)) more
  apply stays
  calc redact (words.drop (k + 1)) mark (before ++ (mark ++ replace word mark after))
      = redact (words.drop (k + 1)) mark (replace word mark (before ++ word ++ after)) := by
        rw [replaced, List.append_assoc]
    _ = redact words mark (before ++ word ++ after) := by
        conv_rhs => rw [parted]
        rw [redact, redact, List.foldl_append, List.foldl_cons]
        congr 2
        exact untouched.symm
    _ = mark := alone

end Words

end MajsoulManager.Theory.Redaction
