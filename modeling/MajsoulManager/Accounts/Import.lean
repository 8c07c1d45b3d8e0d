/-
# Accounts.Import — rows from the registrar's file

`parseAccountsJsonl` of `accounts-jsonl.mjs`: one JSON object a line, and the lines that
are of use appended to the document on the screen.  It is to refuse what the backend
refuses, since one row that `validate` refuses is a refusal of the whole document.

The two read white space differently: U+0085 is blank to the backend alone.  The backend
also takes three asterisks for a password that did not change, and holds no text with a
surrogate that stands alone.  `import_saves_iff` is exactly when the document is taken;
`asterisks_refused` is one line that stands in the way of another.
-/
import MajsoulManager.Accounts.Export
import MajsoulManager.Theory.JavaScript

namespace MajsoulManager.Accounts

open MajsoulManager.Theory
open MajsoulManager.Theory.JavaScript (JsString JsValue jsonParse nullish isSpace toUnicode ofString)
open AccountPool

set_option autoImplicit false

/-! ## The file -/

structure ImportedAccount where
  username : JsString
  password : JsString
  note : JsString
  deriving DecidableEq

structure ImportReport where
  accounts : List ImportedAccount := []
  duplicates : Nat := 0
  unusable : Nat := 0
  deriving DecidableEq

def lineFeed : UInt16 := 10

def slash : UInt16 := 47

/-- A record with an address and a password that the backend's separators do not rule out. -/
def readRecord (record : JsValue) : Option ImportedAccount :=
  match nullish (record.get "email") (record.get "username"), record.get "password" with
  | some (.string login), some (.string password) =>
      let username := JavaScript.trim login
      if JavaScript.trim password = [] ∨ username = [] ∨
          username.any (fun unit => isSpace unit || unit == slash) then none
      else
        let note :=
          match record.get "nickname" with
          | some (.string nickname) => nickname
          | _ => []
        some { username, password, note }
  | _, _ => none

/-- A trimmed line. -/
def readLine (line : JsString) : Option ImportedAccount :=
  match jsonParse line with
  | some (.object fields) => readRecord (.object fields)
  | some (.array items) => readRecord (.array items)
  | _ => none

section Import

variable (toLowerCase : JsString → JsString)

/-- A turn of the loop, with the names that were seen. -/
def importLine (state : List JsString × ImportReport) (line : JsString) :
    List JsString × ImportReport :=
  let (seen, report) := state
  let trimmed := JavaScript.trim line
  if trimmed = [] then state
  else
    match readLine trimmed with
    | none => (seen, { report with unusable := report.unusable + 1 })
    | some account =>
        if toLowerCase account.username ∈ seen then
          (seen, { report with duplicates := report.duplicates + 1 })
        else
          (toLowerCase account.username :: seen,
            { report with accounts := report.accounts ++ [account] })

def seenAtFirst (taken : List JsString) : List JsString :=
  taken.map fun username => toLowerCase (JavaScript.trim username)

def parseAccountsJsonl (text : JsString) (taken : List JsString) : ImportReport :=
  ((text.splitOn lineFeed).foldl (importLine toLowerCase) (seenAtFirst toLowerCase taken, {})).2

end Import

/-- A new row, as the page appends it and the backend reads it. -/
def importedRow (account : ImportedAccount) : Option StoredAccount :=
  (toUnicode account.username).bind fun username =>
    (toUnicode account.password).bind fun password =>
      (toUnicode account.note).map fun note =>
        { username, password, purpose := .refetch, note, enabled := true }

/-- The document as published, with new rows behind its own. -/
def appended (pool : AccountPool) (rows : List StoredAccount) : AccountDocument :=
  { pool.document.published with accounts := pool.document.published.accounts ++ rows }

/-- What the page saves; `none` is a body the backend cannot read. -/
def importDocument (pool : AccountPool) (report : ImportReport) : Option AccountDocument :=
  (report.accounts.mapM importedRow).map (appended pool)

def poolNames (pool : AccountPool) : List JsString :=
  pool.document.accounts.map fun account => ofString account.username

/-! ## What is asked of it -/

/-- Every line that is not blank is counted once. -/
def Counted (text : JsString) (report : ImportReport) : Prop :=
  report.accounts.length + report.duplicates + report.unusable =
    (text.splitOn lineFeed).countP fun line => decide (JavaScript.trim line ≠ [])

/-- The pool takes the document, where the disk does. -/
def Saves (lower : String → String) (pool : AccountPool) (document : Option AccountDocument)
    (newId : Nat → String) (now : DateTime) : Prop :=
  ∃ next answer, document = some next ∧ (pool.update lower next newId now none).1 = .ok answer

/-- The rows of a file, before any is left out for its name. -/
def rowsOf (text : JsString) : List ImportedAccount :=
  (text.splitOn lineFeed).filterMap fun line => readLine (JavaScript.trim line)

/-- The first row of its name, which the pool does not have either. -/
def FirstOfName (toLowerCase : JsString → JsString) (seen : List JsString)
    (rows : List ImportedAccount) (account : ImportedAccount) : Prop :=
  ∃ before after, rows = before ++ account :: after ∧ toLowerCase account.username ∉ seen ∧
    ∀ earlier ∈ before, toLowerCase earlier.username ≠ toLowerCase account.username

def nextLine : Char := '\u0085'

/-- No surrogate alone, no U+0085 within the name, and a password that the backend takes
for one. -/
def Storable (account : ImportedAccount) : Prop :=
  ∃ row, importedRow account = some row ∧
    Text.trim row.username ≠ "" ∧ nextLine ∉ (Text.trim row.username).toList ∧
    row.password ≠ "***" ∧ Text.trim row.password ≠ ""

/-- The name as the backend compares it. -/
def importedIdentity (lower : String → String) (account : ImportedAccount) : String :=
  identity lower ((toUnicode account.username).getD "")

/-- **The condition of an import.**  Every row of the pool can be written back; the file's
rows are ones the backend takes, and no two are one account to it, nor one and the pool's. -/
structure ImportFits (lower : String → String) (toLowerCase : JsString → JsString)
    (pool : AccountPool) (text : JsString) : Prop where
  stored : ∀ row ∈ pool.document.accounts, ∃ first,
    storedUnder pool.document.accounts row.id = some first ∧ first.password ≠ "***"
  storable : ∀ account,
    FirstOfName toLowerCase (seenAtFirst toLowerCase (poolNames pool)) (rowsOf text) account →
      Storable account
  apart : ∀ a b,
    FirstOfName toLowerCase (seenAtFirst toLowerCase (poolNames pool)) (rowsOf text) a →
    FirstOfName toLowerCase (seenAtFirst toLowerCase (poolNames pool)) (rowsOf text) b →
      importedIdentity lower a = importedIdentity lower b → a = b
  fresh : ∀ account,
    FirstOfName toLowerCase (seenAtFirst toLowerCase (poolNames pool)) (rowsOf text) account →
      ∀ row ∈ pool.document.accounts,
        importedIdentity lower account ≠ identity lower row.username

/-! ## The loop -/

section Loop

variable {toLowerCase : JsString → JsString}

variable (toLowerCase) in
/-- The rows that are the first of their name. -/
def firstNamed : List JsString → List ImportedAccount → List ImportedAccount
  | _, [] => []
  | seen, account :: rest =>
      if toLowerCase account.username ∈ seen then firstNamed seen rest
      else account :: firstNamed (toLowerCase account.username :: seen) rest

theorem mem_firstNamed {seen : List JsString} {rows : List ImportedAccount}
    {account : ImportedAccount} :
    account ∈ firstNamed toLowerCase seen rows ↔ FirstOfName toLowerCase seen rows account := by
  induction rows generalizing seen with
  | nil => simp [firstNamed, FirstOfName]
  | cons first rest ih =>
      rw [firstNamed]
      constructor
      · intro member
        split at member
        · rename_i known
          obtain ⟨before, after, rfl, new, others⟩ := ih.mp member
          refine ⟨first :: before, after, rfl, new, ?_⟩
          refine List.forall_mem_cons.mpr ⟨fun same => new (same ▸ known), others⟩
        · rename_i unknown
          rcases List.mem_cons.mp member with rfl | later
          · exact ⟨[], rest, rfl, unknown, by simp⟩
          · obtain ⟨before, after, rfl, new, others⟩ := ih.mp later
            obtain ⟨differs, new⟩ := not_or.mp (List.mem_cons.not.mp new)
            refine ⟨first :: before, after, rfl, new, ?_⟩
            exact List.forall_mem_cons.mpr ⟨fun same => differs same.symm, others⟩
      · rintro ⟨before, after, is, new, others⟩
        cases before with
        | nil =>
            obtain ⟨rfl, rfl⟩ := List.cons.inj is
            rw [if_neg new]
            exact List.mem_cons_self
        | cons head before =>
            obtain ⟨rfl, rfl⟩ := List.cons.inj is
            obtain ⟨differs, others⟩ := List.forall_mem_cons.mp others
            split
            · exact ih.mpr ⟨before, after, rfl, new, others⟩
            · refine List.mem_cons_of_mem _ (ih.mpr ⟨before, after, rfl, ?_, others⟩)
              rw [List.mem_cons, not_or]
              exact ⟨fun same => differs same.symm, new⟩

theorem firstNamed_nodup (seen : List JsString) (rows : List ImportedAccount) :
    (firstNamed toLowerCase seen rows).Nodup := by
  induction rows generalizing seen with
  | nil => exact List.nodup_nil
  | cons first rest ih =>
      rw [firstNamed]
      split
      · exact ih seen
      · refine List.nodup_cons.mpr ⟨fun again => ?_, ih _⟩
        obtain ⟨-, -, -, new, -⟩ := mem_firstNamed.mp again
        exact new List.mem_cons_self

/-- What the loop adds to a report. -/
theorem importLine_foldl (lines : List JsString) (seen : List JsString) (report : ImportReport) :
    (lines.foldl (importLine toLowerCase) (seen, report)).2.accounts =
        report.accounts ++ firstNamed toLowerCase seen
          (lines.filterMap fun line => readLine (JavaScript.trim line)) ∧
      (lines.foldl (importLine toLowerCase) (seen, report)).2.accounts.length +
          (lines.foldl (importLine toLowerCase) (seen, report)).2.duplicates +
          (lines.foldl (importLine toLowerCase) (seen, report)).2.unusable =
        report.accounts.length + report.duplicates + report.unusable +
          lines.countP fun line => decide (JavaScript.trim line ≠ []) := by
  induction lines generalizing seen report with
  | nil => simp [firstNamed]
  | cons line rest ih =>
      rw [List.foldl_cons, List.filterMap_cons, List.countP_cons]
      by_cases blank : JavaScript.trim line = []
      · have none_ : readLine (JavaScript.trim line) = none := by
          rw [blank]
          rfl
        have same : importLine toLowerCase (seen, report) line = (seen, report) := by
          simp [importLine, blank]
        rw [same, none_]
        simpa [blank] using ih seen report
      · cases read : readLine (JavaScript.trim line) with
        | none =>
            have next : importLine toLowerCase (seen, report) line =
                (seen, { report with unusable := report.unusable + 1 }) := by
              simp [importLine, blank, read]
            rw [next]
            obtain ⟨accounts, count⟩ := ih seen { report with unusable := report.unusable + 1 }
            refine ⟨accounts, count.trans ?_⟩
            simp only [blank, ne_eq, not_false_eq_true, decide_true, if_true]
            omega
        | some account =>
            by_cases known : toLowerCase account.username ∈ seen
            · have next : importLine toLowerCase (seen, report) line =
                  (seen, { report with duplicates := report.duplicates + 1 }) := by
                simp [importLine, blank, read, known]
              rw [next]
              obtain ⟨accounts, count⟩ := ih seen { report with duplicates := report.duplicates + 1 }
              refine ⟨?_, count.trans ?_⟩
              · simpa [firstNamed, known] using accounts
              · simp only [blank, ne_eq, not_false_eq_true, decide_true, if_true]
                omega
            · have next : importLine toLowerCase (seen, report) line =
                  (toLowerCase account.username :: seen,
                    { report with accounts := report.accounts ++ [account] }) := by
                simp [importLine, blank, read, known]
              rw [next]
              obtain ⟨accounts, count⟩ := ih (toLowerCase account.username :: seen)
                { report with accounts := report.accounts ++ [account] }
              refine ⟨?_, count.trans ?_⟩
              · simpa [firstNamed, known] using accounts
              · simp only [blank, ne_eq, not_false_eq_true, decide_true, if_true, List.length_append,
                  List.length_singleton]
                omega

theorem parseAccountsJsonl_accounts (text : JsString) (taken : List JsString) :
    (parseAccountsJsonl toLowerCase text taken).accounts =
      firstNamed toLowerCase (seenAtFirst toLowerCase taken) (rowsOf text) :=
  (importLine_foldl _ _ {}).1.trans (List.nil_append _)

theorem parseAccountsJsonl_counted (text : JsString) (taken : List JsString) :
    Counted text (parseAccountsJsonl toLowerCase text taken) :=
  (importLine_foldl _ _ {}).2.trans (Nat.zero_add _)

end Loop

/-! ## A row -/

section Row

theorem importedRow_id {account : ImportedAccount} {row : StoredAccount}
    (is : importedRow account = some row) : row.id = "" := by
  obtain ⟨username, -, is⟩ := Option.bind_eq_some_iff.mp is
  obtain ⟨password, -, is⟩ := Option.bind_eq_some_iff.mp is
  obtain ⟨note, -, rfl⟩ := Option.map_eq_some_iff.mp is
  rfl

/-- A blank of the backend's is one of the language's, but for U+0085. -/
theorem isSpace_of_isWhitespace {c : Char} (white : Text.isWhitespace c = true)
    (differs : c ≠ nextLine) : c.toNat < 0x10000 ∧ isSpace (UInt16.ofNat c.toNat) = true := by
  have other : c.toNat ≠ 0x85 := fun same => differs (Char.toNat_inj.mp same)
  have small : c.toNat < 0x10000 := by
    simp only [Text.isWhitespace, Bool.or_eq_true, Bool.and_eq_true, decide_eq_true_eq,
      beq_iff_eq] at white
    omega
  refine ⟨small, ?_⟩
  have value : (UInt16.ofNat c.toNat).toNat = c.toNat := by
    rw [UInt16.toNat_ofNat']
    exact Nat.mod_eq_of_lt small
  simp only [Text.isWhitespace, Bool.or_eq_true, Bool.and_eq_true, decide_eq_true_eq,
    beq_iff_eq] at white
  simp only [isSpace, Bool.or_eq_true, Bool.and_eq_true, decide_eq_true_eq, beq_iff_eq,
    UInt16.le_iff_toNat_le, ← UInt16.toNat_inj, value]
  have numbers : (9 : UInt16).toNat = 9 ∧ (13 : UInt16).toNat = 13 ∧ (0x20 : UInt16).toNat = 0x20 ∧
      (0xa0 : UInt16).toNat = 0xa0 ∧ (0x1680 : UInt16).toNat = 0x1680 ∧
      (0x2000 : UInt16).toNat = 0x2000 ∧ (0x200a : UInt16).toNat = 0x200a ∧
      (0x2028 : UInt16).toNat = 0x2028 ∧ (0x2029 : UInt16).toNat = 0x2029 ∧
      (0x202f : UInt16).toNat = 0x202f ∧ (0x205f : UInt16).toNat = 0x205f ∧
      (0x3000 : UInt16).toNat = 0x3000 := by decide
  omega

/-- A name of the file has no blank of the language in it, and no slash. -/
theorem readLine_username {line : JsString} {account : ImportedAccount}
    (read : readLine line = some account) :
    ∀ unit ∈ account.username, isSpace unit = false ∧ unit ≠ slash := by
  have record : ∀ value, readRecord value = some account →
      ∀ unit ∈ account.username, isSpace unit = false ∧ unit ≠ slash := by
    intro value is unit member
    unfold readRecord at is
    split at is
    · rename_i login password _ _
      dsimp only at is
      split at is
      · cases is
      · rename_i usable
        obtain rfl := Option.some.inj is
        simp only [not_or, Bool.not_eq_true, List.any_eq_false, Bool.or_eq_false_iff,
          beq_eq_false_iff_ne] at usable
        exact usable.2.2 unit member
    · cases is
  unfold readLine at read
  split at read
  · exact record _ read
  · exact record _ read
  · cases read

/-- What the backend checks of one row. -/
structure Admitted (account : StoredAccount) : Prop extends Acceptable account where
  slash : '/' ∉ (Text.trim account.username).toList

/-- To the backend, U+0085 is the only blank there can be in a name of the file. -/
theorem admitted_of_readLine {line : JsString} {account : ImportedAccount} {row : StoredAccount}
    (read : readLine line = some account) (is : importedRow account = some row) :
    Admitted row ↔ Text.trim row.username ≠ "" ∧ nextLine ∉ (Text.trim row.username).toList ∧
      Text.trim row.password ≠ "" := by
  have units : ∀ c ∈ (Text.trim row.username).toList, c.toNat < 0x10000 →
      isSpace (UInt16.ofNat c.toNat) = false ∧ UInt16.ofNat c.toNat ≠ slash := by
    intro c member small
    obtain ⟨username, unicode, is⟩ := Option.bind_eq_some_iff.mp is
    obtain ⟨password, -, is⟩ := Option.bind_eq_some_iff.mp is
    obtain ⟨note, -, rfl⟩ := Option.map_eq_some_iff.mp is
    obtain ⟨chars, decoded, rfl⟩ := Option.map_eq_some_iff.mp unicode
    refine readLine_username read _ (JavaScript.mem_of_decode decoded ?_ small)
    simpa using Text.mem_trim member
  constructor
  · intro admitted
    refine ⟨admitted.named, fun member => ?_, admitted.typed⟩
    have solid := admitted.solid nextLine member
    exact absurd solid (by decide)
  · rintro ⟨named, unbroken, typed⟩
    refine ⟨⟨named, fun c member => ?_, typed⟩, fun member => ?_⟩
    · by_contra blank
      have white : Text.isWhitespace c = true := by simpa using blank
      have differs : c ≠ nextLine := fun same => unbroken (same ▸ member)
      obtain ⟨small, space⟩ := isSpace_of_isWhitespace white differs
      exact absurd (units c member small).1 (by simp [space])
    · exact (units '/' member (by decide)).2 (by decide)

end Row

/-! ## The save -/

section Save

variable {lower : String → String} {pool : AccountPool}

theorem validateRows_cons {seen : List String} {account : StoredAccount} {rest : List StoredAccount} :
    validateRows lower seen (account :: rest) = .ok () ↔
      Admitted account ∧ identity lower account.username ∉ seen ∧
        validateRows lower (identity lower account.username :: seen) rest = .ok () := by
  rw [validateRows]
  constructor
  · intro valid
    split at valid
    · cases valid
    rename_i named
    split at valid
    · cases valid
    rename_i apart
    split at valid
    · cases valid
    rename_i typed
    split at valid
    · cases valid
    rename_i fresh
    simp only [Bool.or_eq_true, not_or, List.any_eq_true, not_exists, not_and,
      Bool.not_eq_true, List.contains_eq_mem, decide_eq_true_eq] at apart
    exact ⟨⟨⟨named, apart.1, typed⟩, apart.2⟩, fresh, valid⟩
  · rintro ⟨⟨⟨named, solid, typed⟩, slash⟩, fresh, later⟩
    have apart : ¬ ((Text.trim account.username).toList.any Text.isWhitespace ||
        (Text.trim account.username).toList.contains '/') = true := by
      simp only [Bool.or_eq_true, not_or, List.any_eq_true, not_exists, not_and,
        Bool.not_eq_true, List.contains_eq_mem, decide_eq_true_eq]
      exact ⟨solid, slash⟩
    have fresh : lower (Text.trim account.username) ∉ seen := fresh
    rw [if_neg named, if_neg apart, if_neg typed, if_neg fresh]
    exact later

theorem validateRows_iff {seen : List String} {rows : List StoredAccount} :
    validateRows lower seen rows = .ok () ↔ (∀ row ∈ rows, Admitted row) ∧
      (identities lower rows).Nodup ∧ ∀ name ∈ identities lower rows, name ∉ seen := by
  induction rows generalizing seen with
  | nil => simp [validateRows, identities]
  | cons account rest ih =>
      rw [validateRows_cons, ih]
      simp only [identities, List.map_cons, List.nodup_cons, List.forall_mem_cons]
      constructor
      · rintro ⟨admitted, fresh, all, nodup, apart⟩
        refine ⟨⟨admitted, all⟩, ⟨fun again => ?_, nodup⟩, fresh, fun name member => ?_⟩
        · exact apart _ again List.mem_cons_self
        · exact fun known => apart name member (List.mem_cons_of_mem _ known)
      · rintro ⟨⟨admitted, all⟩, ⟨once, nodup⟩, fresh, apart⟩
        refine ⟨admitted, fresh, all, nodup, fun name member known => ?_⟩
        rcases List.mem_cons.mp known with rfl | before
        · exact once member
        · exact apart name member before

/-- A document of this revision is taken when its rows are, as they are restored. -/
theorem update_accepts_iff {next : AccountDocument} (current : next.revision = pool.document.revision)
    (newId : Nat → String) (now : DateTime) :
    (∃ answer, (pool.update lower next newId now none).1 = .ok answer) ↔
      (∀ row ∈ next.accounts.map (restoredRow pool.document.accounts ""),
        row.password ≠ "***" ∧ Admitted row) ∧
      (identities lower (next.accounts.map (restoredRow pool.document.accounts ""))).Nodup := by
  have same : (updatedRows pool next.accounts newId).map checkedPart =
      (next.accounts.map (restoredRow pool.document.accounts "")).map checkedPart := by
    apply List.ext_getElem?
    intro j
    simp only [updatedRows, List.getElem?_map, List.getElem?_mapIdx]
    cases next.accounts[j]? <;> rfl
  have passwords : (∀ row ∈ updatedRows pool next.accounts newId, row.password ≠ "***") ↔
      ∀ row ∈ next.accounts.map (restoredRow pool.document.accounts ""), row.password ≠ "***" := by
    have parts := List.forall_mem_map (f := checkedPart) (P := fun part => part.2 ≠ "***")
      (l := updatedRows pool next.accounts newId)
    rw [same, List.forall_mem_map] at parts
    exact parts.symm
  constructor
  · rintro ⟨answer, accepted⟩
    obtain ⟨typed, valid, -⟩ := update_ok accepted
    rw [validateRows_congr same, validateRows_iff] at valid
    exact ⟨fun row member => ⟨passwords.mp typed row member, valid.1 row member⟩, valid.2.1⟩
  · rintro ⟨rows, nodup⟩
    refine update_accepts now current (passwords.mpr fun row member => (rows row member).1) ?_
    rw [validateRows_congr same, validateRows_iff]
    exact ⟨fun row member => (rows row member).2, nodup, by simp⟩

/-- A row of the pool comes back when its id finds a password that is not three asterisks. -/
theorem admitted_published (checked : Checked lower pool) {row : StoredAccount}
    (member : row ∈ pool.document.accounts) :
    (restoredRow pool.document.accounts "" (publishedRow row)).password ≠ "***" ∧
        Admitted (restoredRow pool.document.accounts "" (publishedRow row)) ↔
      ∃ first, storedUnder pool.document.accounts row.id = some first ∧ first.password ≠ "***" := by
  have all := (validateRows_iff.mp checked).1
  have password : (restoredRow pool.document.accounts "" (publishedRow row)).password =
      ((storedUnder pool.document.accounts row.id).map (·.password)).getD "" := by
    simp only [restoredRow, publishedRow_password (password_ne_empty checked member),
      restoredSecret, if_true]
    rfl
  have name : Text.trim (restoredRow pool.document.accounts "" (publishedRow row)).username =
      Text.trim row.username := Text.trim_trim row.username
  cases found : storedUnder pool.document.accounts row.id with
  | none =>
      rw [found] at password
      constructor
      · rintro ⟨-, admitted⟩
        refine absurd ?_ admitted.typed
        rw [password]
        rfl
      · rintro ⟨first, is, -⟩
        cases is
  | some first =>
      rw [found] at password
      have typed := (all first (storedUnder_mem found).1).typed
      have solid := all row member
      constructor
      · rintro ⟨given, -⟩
        exact ⟨first, rfl, fun asterisks => given (password.trans asterisks)⟩
      · rintro ⟨_, ⟨⟩, given⟩
        refine ⟨fun asterisks => given (password.symm.trans asterisks), ⟨⟨?_, ?_, ?_⟩, ?_⟩⟩
        · rw [name]
          exact solid.named
        · rw [name]
          exact solid.solid
        · rw [password]
          exact typed
        · rw [name]
          exact solid.slash

/-- A new row is taken as it is; three asterisks are no password of its own. -/
theorem admitted_new {stored : List StoredAccount} {row : StoredAccount} (new : row.id = "") :
    (restoredRow stored "" row).password ≠ "***" ∧ Admitted (restoredRow stored "" row) ↔
      row.password ≠ "***" ∧ Admitted row := by
  have none_ : stored.find? (fun old => old.id != "" && old.id == row.id) = none := by
    rw [List.find?_eq_none]
    intro old _
    simp [new]
  have name : Text.trim (restoredRow stored "" row).username = Text.trim row.username :=
    Text.trim_trim row.username
  have password : (restoredRow stored "" row).password =
      if row.password = "***" then "" else row.password := by
    simp only [restoredRow, none_, restoredSecret]
    split <;> simp_all
  constructor
  · rintro ⟨-, admitted⟩
    have given : row.password ≠ "***" := by
      intro asterisks
      refine absurd ?_ admitted.typed
      rw [password, if_pos asterisks]
      rfl
    rw [if_neg given] at password
    exact ⟨given, ⟨⟨name ▸ admitted.named, name ▸ admitted.solid, password ▸ admitted.typed⟩,
      name ▸ admitted.slash⟩⟩
  · rintro ⟨given, admitted⟩
    rw [if_neg given] at password
    refine ⟨password ▸ given, ⟨⟨?_, ?_, ?_⟩, ?_⟩⟩
    · rw [name]
      exact admitted.named
    · rw [name]
      exact admitted.solid
    · rw [password]
      exact admitted.typed
    · rw [name]
      exact admitted.slash

theorem identity_trim (username : String) :
    identity lower (Text.trim username) = identity lower username :=
  congrArg lower (Text.trim_trim username)

theorem restoredRow_username (stored : List StoredAccount) (newId : String) (row : StoredAccount) :
    (restoredRow stored newId row).username = Text.trim row.username := rfl

theorem identities_published (stored rows : List StoredAccount) :
    identities lower ((rows.map publishedRow).map (restoredRow stored "")) = identities lower rows := by
  rw [identities, identities, List.map_map, List.map_map]
  refine List.map_congr_left fun row _ => ?_
  show identity lower (restoredRow stored "" (publishedRow row)).username = _
  rw [restoredRow_username]
  exact identity_trim row.username

theorem identities_imported {stored : List StoredAccount} {accounts : List ImportedAccount}
    {rows : List StoredAccount} (read : accounts.mapM importedRow = some rows) :
    identities lower (rows.map (restoredRow stored "")) = accounts.map (importedIdentity lower) := by
  rw [identities, List.map_map]
  refine (map_mapM read fun account row is => ?_).symm
  obtain ⟨username, unicode, is⟩ := Option.bind_eq_some_iff.mp is
  obtain ⟨password, -, is⟩ := Option.bind_eq_some_iff.mp is
  obtain ⟨note, -, rfl⟩ := Option.map_eq_some_iff.mp is
  rw [importedIdentity, unicode]
  show identity lower username = identity lower (restoredRow stored "" _).username
  rw [restoredRow_username]
  exact (identity_trim username).symm

/-- A row of the file is taken when it is storable. -/
theorem admitted_imported {stored : List StoredAccount} {accounts : List ImportedAccount}
    {rows : List StoredAccount} (read : accounts.mapM importedRow = some rows)
    (lines : ∀ account ∈ accounts, ∃ line, readLine line = some account) :
    (∀ row ∈ rows.map (restoredRow stored ""), row.password ≠ "***" ∧ Admitted row) ↔
      ∀ account ∈ accounts, Storable account := by
  have each : ∀ account row, (∃ line, readLine line = some account) →
      importedRow account = some row →
      ((restoredRow stored "" row).password ≠ "***" ∧ Admitted (restoredRow stored "" row) ↔
        Storable account) := by
    rintro account row ⟨line, used⟩ is
    rw [admitted_new (importedRow_id is), admitted_of_readLine used is]
    constructor
    · rintro ⟨given, named, unbroken, typed⟩
      exact ⟨row, is, named, unbroken, given, typed⟩
    · rintro ⟨other, also, named, unbroken, given, typed⟩
      obtain rfl := Option.some.inj (is.symm.trans also)
      exact ⟨given, named, unbroken, typed⟩
  rw [List.forall_mem_map]
  constructor
  · intro all account member
    obtain ⟨row, inside, is⟩ := mem_of_mapM read member
    exact (each account row (lines account member) is).mp (all row inside)
  · intro all row member
    obtain ⟨account, inside, is⟩ := (mem_mapM read).mp member
    exact (each account row (lines account inside) is).mpr (all account inside)

/-- The published rows and the new ones, each taken as it is restored. -/
theorem import_accepts_iff (checked : Checked lower pool) {accounts : List ImportedAccount}
    {rows : List StoredAccount} (read : accounts.mapM importedRow = some rows)
    (lines : ∀ account ∈ accounts, ∃ line, readLine line = some account) (nodup : accounts.Nodup)
    (newId : Nat → String) (now : DateTime) :
    (∃ answer, (pool.update lower (appended pool rows) newId now none).1 = .ok answer) ↔
      (∀ row ∈ pool.document.accounts, ∃ first,
        storedUnder pool.document.accounts row.id = some first ∧ first.password ≠ "***") ∧
      (∀ account ∈ accounts, Storable account) ∧
      (∀ a ∈ accounts, ∀ b ∈ accounts,
        importedIdentity lower a = importedIdentity lower b → a = b) ∧
      ∀ account ∈ accounts, ∀ row ∈ pool.document.accounts,
        importedIdentity lower account ≠ identity lower row.username := by
  have shown : (appended pool rows).accounts.map (restoredRow pool.document.accounts "") =
      (pool.document.accounts.map publishedRow).map (restoredRow pool.document.accounts "") ++
        rows.map (restoredRow pool.document.accounts "") := List.map_append
  have names : identities lower
      ((appended pool rows).accounts.map (restoredRow pool.document.accounts "")) =
      identities lower pool.document.accounts ++ accounts.map (importedIdentity lower) := by
    rw [shown, identities, List.map_append, ← identities, ← identities, identities_published,
      identities_imported read]
  have unique : (identities lower pool.document.accounts).Nodup := (validateRows_iff.mp checked).2.1
  have current : (appended pool rows).revision = pool.document.revision := rfl
  rw [update_accepts_iff current, names, shown, List.forall_mem_append, admitted_imported read lines,
    List.nodup_append, List.nodup_map_iff_inj_on nodup, List.map_map, List.forall_mem_map]
  constructor
  · rintro ⟨⟨stored, storable⟩, -, apart, fresh⟩
    refine ⟨fun row member => (admitted_published checked member).mp (stored row member), storable,
      apart, fun account member row inside same => ?_⟩
    exact fresh _ (List.mem_map_of_mem inside) _ (List.mem_map_of_mem member) same.symm
  · rintro ⟨stored, storable, apart, fresh⟩
    refine ⟨⟨fun row member => (admitted_published checked member).mpr (stored row member),
      storable⟩, unique, apart, ?_⟩
    rintro _ there _ here rfl
    obtain ⟨row, inside, same⟩ := List.mem_map.mp there
    obtain ⟨account, member, also⟩ := List.mem_map.mp here
    exact fresh account member row inside (also.trans same.symm)

/-- **An import is saved exactly when it fits**, and counts every line either way. -/
theorem import_saves_iff {toLowerCase : JsString → JsString} (checked : Checked lower pool)
    (text : JsString) (newId : Nat → String) (now : DateTime) :
    (Counted text (parseAccountsJsonl toLowerCase text (poolNames pool)) ∧
      Saves lower pool
        (importDocument pool (parseAccountsJsonl toLowerCase text (poolNames pool))) newId now) ↔
      ImportFits lower toLowerCase pool text := by
  generalize is : parseAccountsJsonl toLowerCase text (poolNames pool) = report
  have counted : Counted text report := is ▸ parseAccountsJsonl_counted text _
  have accounts := is ▸ @parseAccountsJsonl_accounts toLowerCase text (poolNames pool)
  have listed : ∀ account, account ∈ report.accounts ↔
      FirstOfName toLowerCase (seenAtFirst toLowerCase (poolNames pool)) (rowsOf text) account := by
    intro account
    rw [accounts, mem_firstNamed]
  have lines : ∀ account ∈ report.accounts, ∃ line, readLine line = some account := by
    intro account member
    obtain ⟨before, after, whole, -, -⟩ := (listed account).mp member
    have inside : account ∈ rowsOf text := by rw [whole]; simp
    obtain ⟨line, -, read⟩ := List.mem_filterMap.mp inside
    exact ⟨_, read⟩
  have nodup : report.accounts.Nodup := accounts ▸ firstNamed_nodup _ _
  constructor
  · rintro ⟨-, next, answer, some_, accepted⟩
    obtain ⟨rows, read, rfl⟩ := Option.map_eq_some_iff.mp some_
    obtain ⟨stored, storable, apart, fresh⟩ :=
      (import_accepts_iff checked read lines nodup newId now).mp ⟨answer, accepted⟩
    exact ⟨stored, fun account first => storable account ((listed account).mpr first),
      fun a b firstA firstB => apart a ((listed a).mpr firstA) b ((listed b).mpr firstB),
      fun account first => fresh account ((listed account).mpr first)⟩
  · intro fits
    obtain ⟨rows, read⟩ : ∃ rows, report.accounts.mapM importedRow = some rows := by
      refine exists_mapM fun account member => ?_
      obtain ⟨row, is, -⟩ := fits.storable account ((listed account).mp member)
      exact ⟨row, is⟩
    obtain ⟨answer, accepted⟩ := (import_accepts_iff checked read lines nodup newId now).mpr
      ⟨fits.stored, fun account member => fits.storable account ((listed account).mp member),
        fun a memberA b memberB => fits.apart a b ((listed a).mp memberA) ((listed b).mp memberB),
        fun account member => fits.fresh account ((listed account).mp member)⟩
    exact ⟨counted, _, answer, Option.map_eq_some_iff.mpr ⟨rows, read, rfl⟩, accepted⟩

end Save

/-! ## A registrar's file -/

def registrarLine (line : String × String) : String :=
  "\x7b\"email\":\"" ++ line.1 ++ "\",\"password\":\"" ++ line.2 ++ "\",\"nickname\":null\x7d\n"

def registrarFile (lines : List (String × String)) : JsString :=
  ofString (String.join (lines.map registrarLine))

/-- The lower case of a text without letters beyond ASCII. -/
def asciiUnitsLower (text : JsString) : JsString :=
  text.map fun unit => if 65 ≤ unit && unit ≤ 90 then unit + 32 else unit

theorem saves_iff_isOk {lower : String → String} {pool : AccountPool}
    {document : Option AccountDocument} {newId : Nat → String} {now : DateTime} :
    Saves lower pool document newId now ↔
      document.any (fun next => (pool.update lower next newId now none).1.isOk) = true := by
  rw [Option.any_eq_true]
  constructor
  · rintro ⟨next, answer, is, accepted⟩
    exact ⟨next, is, by rw [accepted]; rfl⟩
  · rintro ⟨next, is, ok⟩
    cases accepted : (pool.update lower next newId now none).1 with
    | error error =>
        rw [accepted] at ok
        cases ok
    | ok answer => exact ⟨next, answer, is, accepted⟩

instance (lower : String → String) (pool : AccountPool) (document : Option AccountDocument)
    (newId : Nat → String) (now : DateTime) : Decidable (Saves lower pool document newId now) :=
  decidable_of_iff _ saves_iff_isOk.symm

instance (text : JsString) (report : ImportReport) : Decidable (Counted text report) :=
  inferInstanceAs (Decidable (_ = _))

/-- One line is new; the pool has the other. -/
theorem import_saves_iff_new :
    (parseAccountsJsonl asciiUnitsLower (registrarFile [("c@x", "gamma"), ("A@X", "delta")])
      (poolNames (poolOfTwo "1" "2"))).duplicates = 1 ∧
    ImportFits asciiLowerCase asciiUnitsLower (poolOfTwo "1" "2")
      (registrarFile [("c@x", "gamma"), ("A@X", "delta")]) := by
  have checked : Checked asciiLowerCase (poolOfTwo "1" "2") := by
    show validateRows asciiLowerCase [] (poolOfTwo "1" "2").document.accounts = .ok ()
    decide +kernel
  refine ⟨by decide +kernel, (import_saves_iff checked _ (fun _ => "minted") epoch).mp ?_⟩
  decide +kernel

/-- **One line keeps the others out**: three asterisks are a password to the import, and no
new row's password to the backend. -/
theorem asterisks_refused :
    Checked asciiLowerCase (poolOfTwo "1" "2") ∧
    (parseAccountsJsonl asciiUnitsLower (registrarFile [("c@x", "gamma"), ("d@x", "***")])
      (poolNames (poolOfTwo "1" "2"))).accounts.length = 2 ∧
    ¬ Saves asciiLowerCase (poolOfTwo "1" "2")
      (importDocument (poolOfTwo "1" "2")
        (parseAccountsJsonl asciiUnitsLower (registrarFile [("c@x", "gamma"), ("d@x", "***")])
          (poolNames (poolOfTwo "1" "2")))) (fun _ => "minted") epoch := by
  refine ⟨?_, by decide +kernel, by decide +kernel⟩
  show validateRows asciiLowerCase [] (poolOfTwo "1" "2").document.accounts = .ok ()
  decide +kernel

end MajsoulManager.Accounts
