/-
# Accounts.Export — what comes out goes back in

`export_refetch` of `accounts.rs` writes the re-fetch accounts one a line, as a `file:` or
an `env:` secret holds them, and `load_accounts` reads such a text.  Nothing is escaped, so
a line reads back as its account where `Exportable` says so: no comma and no `#` in the
wrong place of the username, no tab, line feed or outer blank in the password.

`exportRefetch_loads` is the round trip, which holds exactly there;
`exportedTab_misread` is a password the pool takes and the reader cuts in two.
-/
import MajsoulManager.Accounts.RoundTrip
import MajsoulManager.Accounts.Secrets
import MajsoulManager.Theory.Trim

namespace MajsoulManager.Accounts

open MajsoulManager.Theory

set_option autoImplicit false

/-! ## The text -/

/-- The accounts of the export, those switched off among them and those banned not. -/
def exported (document : AccountDocument) : List StoredAccount :=
  document.accounts.filter fun account =>
    !(account.purpose != .refetch || account.bannedAt.isSome)

/-- A line of the export, without the line feed. -/
def exportLine (account : StoredAccount) : String :=
  Text.trim account.username ++ "," ++ account.password

def exportRefetch (document : AccountDocument) : String :=
  String.join ((exported document).map fun account => exportLine account ++ "\n")

/-- The username and the password a line of the export stands for. -/
def exportedPair (account : StoredAccount) : String × String :=
  (Text.trim account.username, account.password)

/-- A text that a reference reads, from a file or from the environment. -/
def Secrets.Reads (secrets : Secrets) (secretRef text : String) : Prop :=
  (∃ target, secretRef = "file:" ++ target ∧ secrets.file target = some text) ∨
    ∃ target, secretRef = "env:" ++ target ∧ secrets.env target = some text

/-- Nothing in the username or the password is taken for part of the format. -/
structure Exportable (account : StoredAccount) : Prop where
  comma : ',' ∉ (Text.trim account.username).toList
  comment : (Text.trim account.username).toList.head? ≠ some '#'
  trimmed : Text.trim account.password = account.password
  tab : '\t' ∉ account.password.toList
  newline : '\n' ∉ account.password.toList

/-! ## A line -/

section Line

variable {account : StoredAccount}

/-- What the pool checks of a row: the username has a character and no blank, and the
password is not blank. -/
structure Acceptable (account : StoredAccount) : Prop where
  named : Text.trim account.username ≠ ""
  solid : ∀ c ∈ (Text.trim account.username).toList, Text.isWhitespace c = false
  typed : Text.trim account.password ≠ ""

theorem validateRows_acceptable {lower : String → String} {seen : List String}
    {rows : List StoredAccount} (valid : validateRows lower seen rows = .ok ()) :
    ∀ row ∈ rows, Acceptable row := by
  induction rows generalizing seen with
  | nil => simp
  | cons account rest ih =>
      rw [validateRows] at valid
      split at valid
      · cases valid
      rename_i named
      split at valid
      · cases valid
      rename_i solid
      split at valid
      · cases valid
      rename_i typed
      split at valid
      · cases valid
      · refine List.forall_mem_cons.mpr ⟨⟨named, ?_, typed⟩, ih valid⟩
        intro c member
        by_contra blank
        refine solid (Bool.or_eq_true _ _ |>.mpr (.inl ?_))
        exact List.any_eq_true.mpr ⟨c, member, by simpa using blank⟩

theorem toList_exportLine (account : StoredAccount) :
    (exportLine account).toList =
      (Text.trim account.username).toList ++ ',' :: account.password.toList := by
  simp [exportLine]

/-- The line trimmed loses the blanks behind the password. -/
theorem trim_exportLine (accepted : Acceptable account) :
    Text.trim (exportLine account) = String.ofList ((Text.trim account.username).toList ++
      ',' :: Text.dropEnd Text.isWhitespace account.password.toList) := by
  obtain ⟨first, rest, chars⟩ : ∃ first rest, (Text.trim account.username).toList = first :: rest :=
    List.exists_cons_of_ne_nil fun none => accepted.named (String.toList_eq_nil_iff.mp none)
  have solid : Text.isWhitespace first = false := accepted.solid first (by simp [chars])
  have comma : Text.isWhitespace ',' = false := by decide
  have line : exportLine account = String.ofList (first :: (rest ++ ',' :: account.password.toList)) := by
    rw [← String.ofList_toList (s := exportLine account), toList_exportLine, chars, List.cons_append]
  rw [line, Text.trim_cons solid, Text.dropEnd_behind comma, chars, List.cons_append]

/-- A comment, or the two sides of its delimiter. -/
theorem accountOfLine_eq_some {line : String} {username password : String} :
    accountOfLine line = some (username, password) ↔
      Text.trim line ≠ "" ∧ (Text.trim line).toList.head? ≠ some '#' ∧
        ∃ before after, Text.splitOnce (Text.trim line)
            (if (Text.trim line).toList.contains '\t' then '\t' else ',') = some (before, after) ∧
          Text.trim before = username ∧ Text.trim after = password ∧ username ≠ "" ∧ password ≠ "" := by
  unfold accountOfLine
  dsimp only
  by_cases skipped : Text.trim line = "" ∨ (Text.trim line).toList.head? = some '#'
  · rw [if_pos skipped]
    constructor
    · intro none
      cases none
    · rintro ⟨some_, plain, -⟩
      exact absurd skipped (not_or.mpr ⟨some_, plain⟩)
  · rw [if_neg skipped]
    obtain ⟨some_, plain⟩ := not_or.mp skipped
    cases cut : Text.splitOnce (Text.trim line)
        (if (Text.trim line).toList.contains '\t' then '\t' else ',') with
    | none => simp
    | some sides =>
        obtain ⟨before, after⟩ := sides
        dsimp only
        constructor
        · intro read
          split at read
          · rename_i both
            obtain ⟨rfl, rfl⟩ := Prod.mk.inj (Option.some.inj read)
            exact ⟨some_, plain, before, after, rfl, rfl, rfl, both⟩
          · cases read
        · rintro ⟨-, -, before, after, same, rfl, rfl, both⟩
          obtain ⟨rfl, rfl⟩ := Prod.mk.inj (Option.some.inj same)
          exact if_pos both

/-- **A line reads back as its account** exactly if nothing in it is taken for part of the
format. -/
theorem accountOfLine_exportLine (accepted : Acceptable account)
    (newline : '\n' ∉ account.password.toList) :
    accountOfLine (exportLine account) = some (exportedPair account) ↔ Exportable account := by
  obtain ⟨first, rest, chars⟩ : ∃ first rest, (Text.trim account.username).toList = first :: rest :=
    List.exists_cons_of_ne_nil fun none => accepted.named (String.toList_eq_nil_iff.mp none)
  have tabless : '\t' ∉ (Text.trim account.username).toList := by
    intro member
    have blank := accepted.solid _ member
    revert blank
    decide
  have solid : ∀ before : String, (∀ c ∈ before.toList, c ∈ (Text.trim account.username).toList) →
      Text.trim before = before := fun before inside =>
    Text.trim_solid fun c member => accepted.solid c (inside c member)
  have line := trim_exportLine accepted
  have lineChars : (Text.trim (exportLine account)).toList = (Text.trim account.username).toList ++
      ',' :: Text.dropEnd Text.isWhitespace account.password.toList := by
    rw [line, String.toList_ofList]
  unfold exportedPair
  rw [accountOfLine_eq_some]
  constructor
  · rintro ⟨-, plain, before, after, cut, named, typed, -, -⟩
    have trimmed : Text.trim account.password = account.password := by
      rw [← typed, Text.trim_trim]
    rw [Text.dropEnd_of_trim trimmed] at lineChars
    rw [lineChars] at plain
    have comment : (Text.trim account.username).toList.head? ≠ some '#' := by
      rw [chars] at plain ⊢
      exact plain
    -- a tab would be the delimiter, and leave the comma and more in the username
    have tab : '\t' ∉ account.password.toList := by
      intro inside
      have delimiter : (Text.trim (exportLine account)).toList.contains '\t' = true := by
        rw [lineChars]
        simp [inside]
      rw [delimiter, if_pos rfl] at cut
      obtain ⟨whole, -⟩ := Text.splitOnce_eq_some.mp cut
      rw [lineChars] at whole
      rcases List.append_eq_append_iff.mp whole with ⟨more, long, rest_⟩ | ⟨more, short, rest_⟩
      · cases more with
        | nil => simp at rest_
        | cons c more =>
            obtain ⟨rfl, -⟩ := List.cons.inj rest_
            have comma : Text.isWhitespace ',' = false := by decide
            have head : Text.isWhitespace first = false := accepted.solid first (by simp [chars])
            have left : before = String.ofList (first :: (rest ++ ',' :: more)) := by
              rw [← String.ofList_toList (s := before), long, chars, List.cons_append]
            rw [left, Text.trim_cons head, Text.dropEnd_behind comma] at named
            have equal := congrArg String.toList named
            rw [String.toList_ofList, chars] at equal
            simp at equal
      · cases more with
        | nil => simp at rest_
        | cons c more =>
            obtain ⟨rfl, -⟩ := List.cons.inj rest_
            exact tabless (by simp [short])
    refine ⟨?_, comment, trimmed, tab, newline⟩
    intro inside
    have delimiter : (Text.trim (exportLine account)).toList.contains '\t' = false := by
      rw [lineChars]
      simp [tabless, tab]
    rw [delimiter, if_neg (by decide)] at cut
    obtain ⟨whole, clean⟩ := Text.splitOnce_eq_some.mp cut
    rw [lineChars] at whole
    rcases List.append_eq_append_iff.mp whole with ⟨more, long, -⟩ | ⟨more, short, -⟩
    · exact clean (by rw [long]; simp [inside])
    · have same : before = Text.trim account.username := by
        rw [← named]
        exact (solid before fun c member => by simp [short, member]).symm
      exact clean (by rw [same]; exact inside)
  · rintro ⟨comma, comment, trimmed, tab, -⟩
    rw [Text.dropEnd_of_trim trimmed] at lineChars
    have noTab : (Text.trim (exportLine account)).toList.contains '\t' = false := by
      rw [lineChars]
      simp [tabless, tab]
    rw [noTab]
    refine ⟨?_, ?_, Text.trim account.username, account.password, ?_, Text.trim_trim _, trimmed,
      accepted.named, ?_⟩
    · intro empty
      rw [empty] at lineChars
      simp at lineChars
    · rw [lineChars, chars]
      rw [chars] at comment
      exact comment
    · exact Text.splitOnce_eq_some.mpr ⟨lineChars, comma⟩
    · rw [← trimmed]
      exact accepted.typed

end Line

/-! ## The whole text -/

theorem loadAccounts_reads {secrets : Secrets} {secretRef text : String}
    (reads : secrets.Reads secretRef text) : loadAccounts secrets secretRef = accountsOfText text := by
  rcases reads with ⟨target, rfl, read⟩ | ⟨target, rfl, read⟩
  · have scheme : Text.splitOnce ("file:" ++ target) ':' = some ("file", target) :=
      Text.splitOnce_eq_some.mpr ⟨by simp, by decide⟩
    simp [loadAccounts, scheme, read]
  · have scheme : Text.splitOnce ("env:" ++ target) ':' = some ("env", target) :=
      Text.splitOnce_eq_some.mpr ⟨by simp, by decide⟩
    simp [loadAccounts, scheme, read]

theorem accountsOfText_eq_ok {content : String} {accounts : List (String × String)} :
    accountsOfText content = .ok accounts ↔
      accounts ≠ [] ∧ (Text.lines content).filterMap accountOfLine = accounts := by
  unfold accountsOfText
  split
  · rename_i none
    rw [none]
    constructor
    · intro read
      cases read
    · rintro ⟨some_, same⟩
      exact absurd same.symm some_
  · rename_i some_
    constructor
    · rintro ⟨⟩
      exact ⟨some_, rfl⟩
    · rintro ⟨-, same⟩
      exact congrArg Except.ok same

theorem accountOfLine_congr {line other : String} (same : Text.trim line = Text.trim other) :
    accountOfLine line = accountOfLine other := by
  unfold accountOfLine
  rw [same]

/-- No password that was read holds a line feed. -/
theorem newline_not_mem_password {content : String} {pair : String × String}
    (member : pair ∈ (Text.lines content).filterMap accountOfLine) : '\n' ∉ pair.2.toList := by
  obtain ⟨line, listed, read⟩ := List.mem_filterMap.mp member
  obtain ⟨-, -, before, after, cut, -, typed, -, -⟩ := accountOfLine_eq_some.mp read
  obtain ⟨whole, -⟩ := Text.splitOnce_eq_some.mp cut
  intro inside
  rw [← typed] at inside
  have behind : '\n' ∈ (Text.trim line).toList := by
    rw [whole]
    simp [Text.mem_trim inside]
  exact Text.newline_not_mem_lines listed (Text.mem_trim behind)

/-- Where no password holds a line feed, an account is read from its own line. -/
theorem lines_exportRefetch {document : AccountDocument}
    (accepted : ∀ account ∈ exported document, Acceptable account)
    (clean : ∀ account ∈ exported document, '\n' ∉ account.password.toList) :
    (Text.lines (exportRefetch document)).filterMap accountOfLine =
      (exported document).filterMap fun account => accountOfLine (exportLine account) := by
  have solo : ∀ text ∈ (exported document).map exportLine, '\n' ∉ text.toList := by
    intro text member
    obtain ⟨account, listed, rfl⟩ := List.mem_map.mp member
    rw [toList_exportLine, List.mem_append, List.mem_cons]
    rintro (inside | same | inside)
    · have blank := (accepted account listed).solid _ inside
      exact absurd blank (by decide)
    · exact absurd same (by decide)
    · exact clean account listed inside
  have text : exportRefetch document =
      String.join (((exported document).map exportLine).map fun text => text ++ "\n") := by
    rw [exportRefetch, List.map_map]
    rfl
  have each : ∀ line, accountOfLine (String.ofList (Text.dropCarriageReturn line.toList)) =
      accountOfLine line := by
    intro line
    apply accountOfLine_congr
    rw [Text.trim_dropCarriageReturn, String.ofList_toList]
  rw [text, Text.lines_written solo, List.map_map, List.filterMap_map]
  simp only [Function.comp_def, each]

/-- **The export reads back as the exported accounts, in their order, exactly if there is
one and each is exportable**, for every document the pool accepts. -/
theorem exportRefetch_loads {lower : String → String} {document : AccountDocument}
    (valid : document.validate lower = .ok ()) {secrets : Secrets} {secretRef : String}
    (reads : secrets.Reads secretRef (exportRefetch document)) :
    loadAccounts secrets secretRef = .ok ((exported document).map exportedPair) ↔
      exported document ≠ [] ∧ ∀ account ∈ exported document, Exportable account := by
  have accepted : ∀ account ∈ exported document, Acceptable account := fun account member =>
    validateRows_acceptable valid account (List.mem_of_mem_filter member)
  rw [loadAccounts_reads reads, accountsOfText_eq_ok, ne_eq, List.map_eq_nil_iff]
  refine and_congr_right fun _ => ?_
  constructor
  · intro read
    have clean : ∀ account ∈ exported document, '\n' ∉ account.password.toList := by
      intro account member
      have pair : exportedPair account ∈
          (Text.lines (exportRefetch document)).filterMap accountOfLine := by
        rw [read]
        exact List.mem_map_of_mem member
      exact newline_not_mem_password pair
    rw [lines_exportRefetch accepted clean, List.filterMap_eq_map_iff_forall_eq_some] at read
    intro account member
    exact (accountOfLine_exportLine (accepted account member) (clean account member)).mp
      (read account member)
  · intro exportable
    have clean : ∀ account ∈ exported document, '\n' ∉ account.password.toList :=
      fun account member => (exportable account member).newline
    rw [lines_exportRefetch accepted clean, List.filterMap_eq_map_iff_forall_eq_some]
    intro account member
    exact (accountOfLine_exportLine (accepted account member) (clean account member)).mpr
      (exportable account member)

/-- A pool of one re-fetch account. -/
def poolWithPassword (password : String) : AccountDocument where
  accounts := [{ sampleAccount "1" "ann@x" with purpose := .refetch, password := password }]

/-- An environment that holds what was exported. -/
def exportedSecrets (document : AccountDocument) : Secrets where
  env := fun _ => some (exportRefetch document)

theorem exportRefetch_loads_comma :
    (poolWithPassword "pa,ss").validate asciiLowerCase = .ok () ∧
      (loadAccounts (exportedSecrets (poolWithPassword "pa,ss")) "env:POOL" =
          .ok ((exported (poolWithPassword "pa,ss")).map exportedPair) ↔
        exported (poolWithPassword "pa,ss") ≠ [] ∧
          ∀ account ∈ exported (poolWithPassword "pa,ss"), Exportable account) :=
  ⟨by decide +kernel, @exportRefetch_loads asciiLowerCase _ (by decide +kernel) _ _
    (.inr ⟨"POOL", by decide +kernel, rfl⟩)⟩

/-- **A password with a tab is cut in two**: the username that is read has its first half. -/
theorem exportedTab_misread :
    (poolWithPassword "pa\tss").validate asciiLowerCase = .ok () ∧
      (exported (poolWithPassword "pa\tss")).map exportedPair = [("ann@x", "pa\tss")] ∧
      loadAccounts (exportedSecrets (poolWithPassword "pa\tss")) "env:POOL" =
        .ok [("ann@x,pa", "ss")] ∧
      loadAccounts (exportedSecrets (poolWithPassword "pa\tss")) "env:POOL" ≠
        .ok ((exported (poolWithPassword "pa\tss")).map exportedPair) := by
  decide +kernel

end MajsoulManager.Accounts
