/-
# Theory.Trim — what trimming and splitting leave of a text

`trim` takes the blanks at the two ends, `splitOnce` cuts at the first separator, `lines` at
the line feeds and `splitWhitespace` at all blanks.  `trim_solid` and `dropEnd_behind` say
what stays where a character is no blank, `splitOnce_eq_some` and `lines_written` what a cut
loses: the separator, and the carriage return before a line feed.  `joinWith_inj` and
`Words.splitWhitespace` read back what was joined.
-/
import MajsoulManager.Theory.Text

namespace MajsoulManager.Theory.Text

set_option autoImplicit false

/-! ## Trimming -/

/-- The blanks are taken from behind the last character that is none. -/
theorem dropEnd_behind {p : Char → Bool} {c : Char} (solid : p c = false) (before after : List Char) :
    dropEnd p (before ++ c :: after) = before ++ c :: dropEnd p after := by
  unfold dropEnd
  rw [List.reverse_append, List.reverse_cons, List.append_assoc, List.dropWhile_append]
  cases rest : after.reverse.dropWhile p with
  | nil => simp [solid]
  | cons last more => simp

theorem dropEnd_sublist (p : Char → Bool) (text : List Char) : (dropEnd p text).Sublist text := by
  unfold dropEnd
  have shorter := (List.dropWhile_sublist p (l := text.reverse)).reverse
  rwa [List.reverse_reverse] at shorter

theorem mem_trim {c : Char} {text : String} (member : c ∈ (trim text).toList) : c ∈ text.toList := by
  rw [trim, String.toList_ofList] at member
  exact (List.dropWhile_sublist _).subset ((dropEnd_sublist _ _).subset member)

/-- A text that starts with a character that is no blank loses blanks at its end only. -/
theorem trim_cons {c : Char} (solid : isWhitespace c = false) (rest : List Char) :
    trim (String.ofList (c :: rest)) = String.ofList (c :: dropEnd isWhitespace rest) := by
  rw [trim, String.toList_ofList, List.dropWhile_cons_of_neg (by simp [solid])]
  exact congrArg String.ofList (dropEnd_behind solid [] rest)

theorem dropEnd_solid {text : List Char} (solid : ∀ c ∈ text, isWhitespace c = false) :
    dropEnd isWhitespace text = text := by
  rcases List.eq_nil_or_concat text with rfl | ⟨before, last, rfl⟩
  · rfl
  · have here := dropEnd_behind (solid last (by simp)) before []
    simpa [dropEnd] using here

/-- A text without blanks is trimmed. -/
theorem trim_solid {text : String} (solid : ∀ c ∈ text.toList, isWhitespace c = false) :
    trim text = text := by
  have kept : text.toList.dropWhile isWhitespace = text.toList := by
    cases chars : text.toList with
    | nil => rfl
    | cons c rest =>
        rw [chars] at solid
        exact List.dropWhile_cons_of_neg (by simp [solid c (by simp)])
  rw [trim, kept, dropEnd_solid solid, String.ofList_toList]

/-- The two ends are trimmed in either order. -/
theorem dropWhile_dropEnd (text : List Char) :
    (dropEnd isWhitespace text).dropWhile isWhitespace =
      dropEnd isWhitespace (text.dropWhile isWhitespace) := by
  have whole := List.takeWhile_append_dropWhile (p := isWhitespace) (l := text)
  have blanks : ∀ c ∈ text.takeWhile isWhitespace, isWhitespace c = true :=
    fun c member => List.mem_takeWhile_imp member
  cases rest : text.dropWhile isWhitespace with
  | nil =>
      rw [rest, List.append_nil] at whole
      rw [whole] at blanks
      have gone : dropEnd isWhitespace text = [] := by
        unfold dropEnd
        rw [List.dropWhile_eq_nil_iff.mpr fun c member => blanks c (List.mem_reverse.mp member),
          List.reverse_nil]
      rw [gone]
      rfl
  | cons c after =>
      have solid : isWhitespace c = false := by
        have first := List.head_dropWhile_not isWhitespace (w := by rw [rest]; simp)
        simpa [rest] using first
      rw [rest] at whole
      rw [← whole, dropEnd_behind solid, List.dropWhile_append_of_pos blanks,
        List.dropWhile_cons_of_neg (by simp [solid])]
      exact (dropEnd_behind solid [] after).symm

theorem trim_dropEnd (text : List Char) :
    trim (String.ofList (dropEnd isWhitespace text)) = trim (String.ofList text) := by
  have ends : ∀ chars, dropEnd isWhitespace chars = chars.rdropWhile isWhitespace := fun _ => rfl
  rw [trim, trim, String.toList_ofList, String.toList_ofList, dropWhile_dropEnd, ends, ends,
    List.rdropWhile_idempotent]

/-- A text that is trimmed has lost nothing at its end. -/
theorem dropEnd_of_trim {text : String} (trimmed : trim text = text) :
    dropEnd isWhitespace text.toList = text.toList := by
  have same : dropEnd isWhitespace (text.toList.dropWhile isWhitespace) = text.toList := by
    have chars := congrArg String.toList trimmed
    rwa [trim, String.toList_ofList] at chars
  have front : text.toList.dropWhile isWhitespace = text.toList := by
    refine (List.dropWhile_sublist _).eq_of_length_le ?_
    have shorter := (dropEnd_sublist isWhitespace (text.toList.dropWhile isWhitespace)).length_le
    rwa [same] at shorter
  rwa [front] at same

/-! ## Splitting -/

theorem splitOnce_eq_some {text before after : String} {separator : Char} :
    splitOnce text separator = some (before, after) ↔
      text.toList = before.toList ++ separator :: after.toList ∧ separator ∉ before.toList := by
  constructor
  · intro split
    unfold splitOnce at split
    split at split
    · cases split
    · rename_i c rest found
      obtain ⟨rfl, rfl⟩ := Prod.mk.inj (Option.some.inj split)
      have whole := List.takeWhile_append_dropWhile (p := (· != separator)) (l := text.toList)
      have hit : c = separator := by
        have first := List.head_dropWhile_not (· != separator) (w := by rw [found]; simp)
        simpa [found] using first
      rw [found, hit] at whole
      simp only [String.toList_ofList]
      refine ⟨whole.symm, fun member => ?_⟩
      simpa using List.mem_takeWhile_imp member
  · rintro ⟨chars, clean⟩
    have split := splitOnce_append clean after.toList
    rwa [← chars, String.ofList_toList, String.ofList_toList, String.ofList_toList] at split

/-! ## Lines -/

theorem newline_not_mem_linesFrom {current text : List Char} (clean : '\n' ∉ current) :
    ∀ line ∈ linesFrom current text, '\n' ∉ line := by
  induction text generalizing current with
  | nil =>
      intro line member
      rw [linesFrom] at member
      split at member
      · simp at member
      · rw [List.mem_singleton.mp member]
        simpa using clean
  | cons c rest ih =>
      intro line member
      rw [linesFrom] at member
      split at member
      · rcases List.mem_cons.mp member with rfl | later
        · intro inside
          have kept : (dropCarriageReturn current.reverse).Sublist current.reverse := by
            unfold dropCarriageReturn
            split
            · exact List.dropLast_sublist _
            · exact List.Sublist.refl _
          exact clean (List.mem_reverse.mp (kept.subset inside))
        · exact ih (by simp) line later
      · rename_i other
        refine ih ?_ line member
        simp [clean, Ne.symm other]

/-- A line holds no line feed. -/
theorem newline_not_mem_lines {text line : String} (member : line ∈ lines text) :
    '\n' ∉ line.toList := by
  obtain ⟨chars, listed, rfl⟩ := List.mem_map.mp member
  rw [String.toList_ofList]
  exact newline_not_mem_linesFrom (by simp) chars listed

/-- **The lines of a text written line by line**, each without the carriage return it may
end with. -/
theorem lines_written {texts : List String} (clean : ∀ text ∈ texts, '\n' ∉ text.toList) :
    lines (String.join (texts.map fun text => text ++ "\n")) =
      texts.map fun text => String.ofList (dropCarriageReturn text.toList) := by
  unfold lines
  induction texts with
  | nil => rfl
  | cons text rest ih =>
      obtain ⟨newline, later⟩ := List.forall_mem_cons.mp clean
      have split : (String.join ((text :: rest).map fun text => text ++ "\n")).toList =
          text.toList ++ '\n' :: (String.join (rest.map fun text => text ++ "\n")).toList := by
        simp [String.toList_join]
      rw [split, linesFrom_line newline, List.reverse_nil, List.nil_append, List.map_cons, ih later,
        List.map_cons]

/-- The carriage return is a blank, so a line is trimmed to the same with it. -/
theorem trim_dropCarriageReturn (line : List Char) :
    trim (String.ofList (dropCarriageReturn line)) = trim (String.ofList line) := by
  unfold dropCarriageReturn
  split
  · rename_i last
    obtain ⟨before, rfl⟩ := List.getLast?_eq_some_iff.mp last
    rw [List.dropLast_concat, ← trim_dropEnd before, ← trim_dropEnd (before ++ ['\r'])]
    have blank : isWhitespace '\r' = true := by decide
    simp [dropEnd, blank]
  · rfl

/-! ## Joining -/

/-- A separator cuts, whatever stands before it. -/
theorem splitChars_cut (separator : Char) (before after : List Char) :
    splitChars separator (before ++ separator :: after) =
      splitChars separator before ++ splitChars separator after := by
  induction before with
  | nil => simp [splitChars]
  | cons c rest ih =>
      rw [List.cons_append, splitChars, splitChars]
      by_cases same : c = separator
      · rw [if_pos same, if_pos same, ih, List.cons_append]
      · rw [if_neg same, if_neg same, ih]
        cases pieces : splitChars separator rest with
        | nil => exact absurd pieces (splitChars_ne_nil separator rest)
        | cons piece more => rfl

theorem joinWith_cons (separator : Char) (piece next : List Char) (rest : List (List Char)) :
    joinWith separator (piece :: next :: rest) =
      piece ++ separator :: joinWith separator (next :: rest) := rfl

theorem mem_joinWith {separator : Char} {pieces : List (List Char)} {c : Char}
    (member : c ∈ joinWith separator pieces) : c = separator ∨ ∃ piece ∈ pieces, c ∈ piece := by
  induction pieces with
  | nil => simp [joinWith] at member
  | cons piece rest ih =>
      cases rest with
      | nil => exact .inr ⟨piece, List.mem_cons_self, member⟩
      | cons next more =>
          rw [joinWith_cons, List.mem_append, List.mem_cons] at member
          rcases member with here | same | later
          · exact .inr ⟨piece, List.mem_cons_self, here⟩
          · exact .inl same
          · rcases ih later with same | ⟨other, inside, here⟩
            · exact .inl same
            · exact .inr ⟨other, List.mem_cons_of_mem _ inside, here⟩

/-- Each line with its end behind it, and then the rest. -/
theorem flatMap_append_joinWith {separator : Char} (lines : List (List Char)) (piece : List Char)
    (rest : List (List Char)) :
    lines.flatMap (fun line => line ++ [separator]) ++ joinWith separator (piece :: rest) =
      joinWith separator (lines ++ piece :: rest) := by
  induction lines with
  | nil => rfl
  | cons line more ih =>
      rw [List.flatMap_cons, List.append_assoc, ih, List.append_assoc]
      cases more <;> rfl

theorem joinWith_ne_nil {separator : Char} {pieces : List (List Char)} (some : pieces ≠ [])
    (full : ∀ piece ∈ pieces, piece ≠ []) : joinWith separator pieces ≠ [] := by
  cases pieces with
  | nil => exact absurd rfl some
  | cons piece rest =>
      have filled := full piece List.mem_cons_self
      cases rest with
      | nil => exact filled
      | cons next rest => simp [joinWith]

/-- **What was joined is told apart**, when no piece is empty or holds the separator. -/
theorem joinWith_inj {separator : Char} {pieces others : List (List Char)}
    (full : ∀ piece ∈ pieces, piece ≠ []) (fullOthers : ∀ piece ∈ others, piece ≠ [])
    (clean : ∀ piece ∈ pieces, separator ∉ piece) (cleanOthers : ∀ piece ∈ others, separator ∉ piece) :
    joinWith separator pieces = joinWith separator others ↔ pieces = others := by
  constructor
  · intro same
    by_cases none : pieces = []
    · by_contra differ
      have filled : joinWith separator others ≠ [] :=
        joinWith_ne_nil (fun empty => differ (none.trans empty.symm)) fullOthers
      rw [none] at same
      exact filled same.symm
    · by_cases noneOther : others = []
      · rw [noneOther] at same
        exact absurd same (joinWith_ne_nil none full)
      · rw [← splitChars_joinWith none clean, same, splitChars_joinWith noneOther cleanOthers]
  · rintro rfl
    rfl

/-! ## Words -/

def splitWhitespace (text : String) : List (List Char) :=
  (text.toList.splitOnP isWhitespace).filter (· ≠ [])

theorem not_of_mem_splitOnP {p : Char → Bool} {text piece : List Char} (member : piece ∈ text.splitOnP p) :
    ∀ c ∈ piece, p c = false := by
  induction text generalizing piece with
  | nil =>
      rw [List.splitOnP_nil, List.mem_singleton] at member
      simp [member]
  | cons c rest ih =>
      rw [List.splitOnP_cons_eq_if_modifyHead] at member
      split at member
      · rcases List.mem_cons.mp member with rfl | later
        · simp
        · exact ih later
      · rename_i other
        cases pieces : rest.splitOnP p with
        | nil => simp [pieces] at member
        | cons first more =>
            rw [pieces, List.modifyHead_cons] at member
            rcases List.mem_cons.mp member with rfl | later
            · intro d inside
              rcases List.mem_cons.mp inside with rfl | old
              · simpa using other
              · exact ih (pieces ▸ List.mem_cons_self) d old
            · exact ih (pieces ▸ List.mem_cons_of_mem _ later)

/-- Words: blanks are between them only. -/
structure Words (words : List (List Char)) : Prop where
  full : ∀ word ∈ words, word ≠ []
  solid : ∀ word ∈ words, ∀ c ∈ word, isWhitespace c = false

theorem words_splitWhitespace (text : String) : Words (splitWhitespace text) where
  full word member := by simpa using (List.mem_filter.mp member).2
  solid word member := not_of_mem_splitOnP (List.mem_of_mem_filter member)

theorem Words.splitWhitespace {words : List (List Char)} (all : Words words) :
    splitWhitespace (String.ofList (joinWith ' ' words)) = words := by
  rw [Text.splitWhitespace, String.toList_ofList]
  induction words with
  | nil => rfl
  | cons word rest ih =>
      have filled : word ≠ [] := all.full word List.mem_cons_self
      have solid := all.solid word List.mem_cons_self
      have later : Words rest :=
        ⟨fun w member => all.full w (List.mem_cons_of_mem _ member),
          fun w member => all.solid w (List.mem_cons_of_mem _ member)⟩
      cases rest with
      | nil =>
          rw [joinWith, List.splitOnP_eq_singleton solid]
          simp [filled]
      | cons next more =>
          rw [joinWith_cons, List.splitOnP_append_cons_of_forall_mem solid ' ' (by decide),
            List.filter_cons_of_pos (by simpa using filled), ih later]

/-! ## Written numbers -/

theorem isDigit_of_mem_toString {n : Nat} {c : Char} (member : c ∈ (toString n).toList) :
    c.isDigit = true := by
  rw [Nat.toString_eq_repr, Nat.toList_repr] at member
  exact isDigit_of_mem_toDigits member

theorem toString_nat_inj {n m : Nat} : toString n = toString m ↔ n = m := by
  constructor
  · intro same
    rw [← String.toList_inj, Nat.toString_eq_repr, Nat.toString_eq_repr, Nat.toList_repr,
      Nat.toList_repr] at same
    have value := digitsValue_toDigits n
    rw [same, digitsValue_toDigits m] at value
    exact (Option.some.inj value).symm
  · rintro rfl
    rfl

theorem toNat_of_isDigit {c : Char} (digit : c.isDigit = true) : 48 ≤ c.toNat ∧ c.toNat ≤ 57 := by
  simpa [Char.isDigit, Char.le_def, UInt32.le_iff_toNat_le] using digit

/-- What is none of the ten digits does not stand in a number. -/
theorem digit_not {p : Char → Bool} (none : ∀ n : Fin 10, p (Char.ofNat (48 + n)) = false) {c : Char}
    (digit : c.isDigit = true) : p c = false := by
  obtain ⟨low, high⟩ := toNat_of_isDigit digit
  have same : c = Char.ofNat (48 + (⟨c.toNat - 48, by omega⟩ : Fin 10)) := by
    rw [show 48 + (⟨c.toNat - 48, by omega⟩ : Fin 10).val = c.toNat by simp; omega, Char.ofNat_toNat]
  rw [same]
  exact none _

end MajsoulManager.Theory.Text
