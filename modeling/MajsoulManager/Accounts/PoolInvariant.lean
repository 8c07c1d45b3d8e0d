/-
# Accounts.PoolInvariant — five writers, one document

Any sequence of calls, each of which may fail at the disk.  `Written` says once what a
writer does to the pool: nothing, or the document it names, a revision later, on disk
and in memory.  Everything but the ban marks follows from it.

The marks do not: `update` puts a mark back by looking its row up by id, so a mark on a
row without an id is lost at the next write of the whole document, and one on a row that
shares its id goes by the mark of the earlier row.  `accountPool_sound` is for the runs
in which no such row is marked when the document is written (`MarksAnchored`), and
`unnamedRow_losesMark` is the other case.
-/
import MajsoulManager.Accounts.Pool
import MajsoulManager.Theory.Edits
import MajsoulManager.Theory.Machine

namespace MajsoulManager.Accounts

open MajsoulManager.Theory
open AccountPool

set_option autoImplicit false

/-! ## Names in another case -/

theorem isWhitespace_toLower (c : Char) : Text.isWhitespace c.toLower = Text.isWhitespace c := by
  by_cases upper : c.isUpper = true
  · have range : 65 ≤ c.toNat ∧ c.toNat ≤ 90 := by
      rw [Char.isUpper, decide_eq_true_eq] at upper
      exact ⟨UInt32.le_iff_toNat_le.mp upper.1, UInt32.le_iff_toNat_le.mp upper.2⟩
    have valid : (c.toNat + 32).isValidChar := Or.inl (by omega)
    rw [Char.toLower_eq_of_isUpper upper]
    have value : (Char.ofNat (c.toNat + 32)).toNat = c.toNat + 32 := by
      simp [Char.toNat_ofNat, valid]
    have blank : ∀ d : Char, 65 ≤ d.toNat → d.toNat ≤ 122 → Text.isWhitespace d = false := by
      intro d low high
      simp only [Text.isWhitespace, Bool.or_eq_false_iff, Bool.and_eq_false_iff,
        decide_eq_false_iff_not, beq_eq_false_iff_ne]
      omega
    rw [blank c (by omega) (by omega), blank _ (by omega) (by omega)]
  · rw [Char.toLower_eq_of_not_isUpper upper]

/-- Names that differ in letter case only still do when they are trimmed. -/
theorem asciiLower_trim (text : String) :
    asciiLower (Text.trim text) =
      Text.dropEnd Text.isWhitespace ((asciiLower text).dropWhile Text.isWhitespace) := by
  have blind : Text.isWhitespace ∘ Char.toLower = Text.isWhitespace := funext isWhitespace_toLower
  simp only [asciiLower, Text.trim, Text.dropEnd, String.toList_ofList, List.dropWhile_map, blind,
    ← List.map_reverse]

theorem eqIgnoreAsciiCase_trim {a b : String} (same : eqIgnoreAsciiCase a b = true) :
    eqIgnoreAsciiCase (Text.trim a) (Text.trim b) = true := by
  simp only [eqIgnoreAsciiCase, beq_iff_eq] at same ⊢
  rw [asciiLower_trim, asciiLower_trim, same]

/-! ## Calls -/

inductive Call where
  | update (next : AccountDocument) (newId : Nat → String) (now : DateTime)
      (fault : Option PersistFault)
  | append (accounts : List StoredAccount) (newId : Nat → String) (now : DateTime)
      (fault : Option PersistFault)
  | retireBanned (username : String) (bannedAt now : DateTime) (fault : Option PersistFault)
  | rebindNodes (moves : List (String × String)) (newId : Nat → String) (now : DateTime)
      (fault : Option PersistFault)
  | spreadOver (nodes : List String) (newId : Nat → String) (now : DateTime)
      (fault : Option PersistFault)

inductive Answer where
  | saved (document : AccountDocument)
  | count (n : Nat)
  | retired (changed : Bool)
  deriving DecidableEq, Repr

section Pool

variable (lower : String → String)

def AccountPool.call (pool : AccountPool) : Call → Except WatchServiceError Answer × AccountPool
  | .update next newId now fault => (pool.update lower next newId now fault).map (·.map .saved) id
  | .append accounts newId now fault =>
      (pool.append lower accounts newId now fault).map (·.map .count) id
  | .retireBanned username bannedAt now fault =>
      (pool.retireBanned username bannedAt now fault).map (·.map .retired) id
  | .rebindNodes moves newId now fault =>
      (pool.rebindNodes lower moves newId now fault).map (·.map .count) id
  | .spreadOver nodes newId now fault =>
      (pool.spreadOver lower nodes newId now fault).map (·.map .count) id

/-- The identities of the rows. -/
def identities (rows : List StoredAccount) : List String :=
  rows.map fun account => identity lower account.username

/-- Usernames unique up to letter case, and the disk in step with the memory. -/
structure PoolInv (pool : AccountPool) : Prop where
  unique : (identities lower pool.document.accounts).Nodup
  inStep : pool.disk.getD {} = pool.document

def poolMachine : Machine AccountPool Call where
  Start := PoolInv lower
  step pool call := some (pool.call lower call).2

/-- Row `j` after the call is row `i` before it: for a submitted document by id, for a
row without one by its account, and everywhere else by its place. -/
def SameRow (call : Call) (before : List StoredAccount) (i j : Nat) : Prop :=
  match call with
  | .update next _ _ _ => ∃ row submitted, before[i]? = some row ∧
      next.accounts[j]? = some submitted ∧ submitted.id = row.id ∧
      (row.id = "" → identity lower submitted.username = identity lower row.username)
  | _ => i = j

/-- A marked row that stays is switched on by the call, or still marked, and with the
same mark unless it was on. -/
def RowsKept (call : Call) (before after : List StoredAccount) : Prop :=
  ∀ i j row since next, before[i]? = some row → row.bannedAt = some since →
    SameRow lower call before i j → after[j]? = some next →
    (row.enabled = false ∧ next.enabled = true) ∨
      ∃ mark, next.bannedAt = some mark ∧ (row.enabled = false → mark = since)

/-- What a call may do to a pool. -/
structure Sound (pool : AccountPool) (call : Call) : Prop where
  keepsInv : PoolInv lower (pool.call lower call).2
  increases : (pool.call lower call).2 ≠ pool → pool.document.revision.toNat < 2 ^ 64 - 1 →
    pool.document.revision < (pool.call lower call).2.document.revision
  keepsMarks : ∀ answer, (pool.call lower call).1 = .ok answer →
    RowsKept lower call pool.document.accounts (pool.call lower call).2.document.accounts
  refusesStale : ∀ next newId now fault, call = .update next newId now fault →
    next.revision < pool.document.revision →
    (pool.call lower call).1 =
      .error (.revisionConflict next.revision pool.document.revision)
  failsWhole : ∀ error, (pool.call lower call).1 = .error error → (pool.call lower call).2 = pool

/-- Every marked row is off, and has an id that no earlier row has. -/
def MarksAnchored (rows : List StoredAccount) : Prop :=
  (∀ row ∈ rows, row.bannedAt.isSome → row.enabled = false ∧ row.id ≠ "") ∧
    rows.Pairwise fun earlier later => later.bannedAt.isSome → earlier.id ≠ later.id

instance (rows : List StoredAccount) : Decidable (MarksAnchored rows) :=
  inferInstanceAs (Decidable (_ ∧ _))

/-- The calls that write the whole document find every mark anchored. -/
def Anchored (pool : AccountPool) : Call → Prop
  | .append .. => True
  | .retireBanned .. => True
  | _ => MarksAnchored pool.document.accounts

instance (pool : AccountPool) (call : Call) : Decidable (Anchored pool call) :=
  match call with
  | .append .. => .isTrue trivial
  | .retireBanned .. => .isTrue trivial
  | .update .. => inferInstanceAs (Decidable (MarksAnchored pool.document.accounts))
  | .rebindNodes .. => inferInstanceAs (Decidable (MarksAnchored pool.document.accounts))
  | .spreadOver .. => inferInstanceAs (Decidable (MarksAnchored pool.document.accounts))

/-! ## What a writer does -/

/-- The call answered that there was nothing to do. -/
def Idle {α : Type} (pool : AccountPool) (result : Except WatchServiceError α × AccountPool) : Prop :=
  (∃ answer, result.1 = .ok answer) ∧ result.2 = pool

/-- An error that changes nothing, or these rows a revision later, on disk and in
memory, answered with ok. -/
def Written {α : Type} (pool : AccountPool) (rows : List StoredAccount)
    (result : Except WatchServiceError α × AccountPool) : Prop :=
  ((∃ error, result.1 = .error error) ∧ result.2 = pool) ∨
    (∃ answer, result.1 = .ok answer) ∧ (identities lower rows).Nodup ∧ ∃ now,
      result.2 = ⟨⟨saturatingSucc pool.document.revision, rows, now⟩,
        some ⟨saturatingSucc pool.document.revision, rows, now⟩⟩

variable {lower}

theorem validateRows_ok {seen : List String} {rows : List StoredAccount}
    (valid : validateRows lower seen rows = .ok ()) :
    (identities lower rows).Nodup ∧ ∀ name ∈ identities lower rows, name ∉ seen := by
  induction rows generalizing seen with
  | nil => simp [identities]
  | cons account rest ih =>
      rw [validateRows] at valid
      split at valid
      · cases valid
      split at valid
      · cases valid
      split at valid
      · cases valid
      split at valid
      · cases valid
      · rename_i fresh
        obtain ⟨nodup, apart⟩ := ih valid
        have notHere : identity lower account.username ∉ identities lower rest := by
          intro again
          exact apart _ again (List.mem_cons_self ..)
        refine ⟨List.nodup_cons.mpr ⟨notHere, nodup⟩, ?_⟩
        intro name member
        rcases List.mem_cons.mp member with rfl | later
        · exact fresh
        · intro seenBefore
          exact apart _ later (List.mem_cons_of_mem _ seenBefore)

/-- A pool that was opened keeps its invariant from the start. -/
theorem openFrom_inv {disk : Option AccountDocument} {pool : AccountPool}
    (opened : AccountPool.openFrom lower disk = .ok pool) : PoolInv lower pool := by
  cases disk with
  | none =>
      cases opened
      exact ⟨List.nodup_nil, rfl⟩
  | some document =>
      rw [openFrom] at opened
      cases valid : document.validate lower with
      | error error =>
          rw [valid] at opened
          cases opened
      | ok found =>
          rw [valid] at opened
          cases opened
          exact ⟨(validateRows_ok valid).1, rfl⟩

theorem save_written {α : Type} (pool : AccountPool) {rows : List StoredAccount}
    (unique : (identities lower rows).Nodup) (now : Option DateTime) (fault : Option PersistFault)
    (answer : α) :
    Written lower pool rows
      (pool.save ⟨saturatingSucc pool.document.revision, rows, now⟩ fault answer) := by
  cases fault with
  | some fault => exact .inl ⟨⟨_, rfl⟩, rfl⟩
  | none => exact .inr ⟨⟨answer, rfl⟩, unique, now, rfl⟩

theorem Idle.map {α β : Type} {pool : AccountPool}
    {result : Except WatchServiceError α × AccountPool} (idle : Idle pool result) (f : α → β) :
    Idle pool (result.map (·.map f) id) := by
  obtain ⟨⟨answer, ok⟩, same⟩ := idle
  refine ⟨⟨f answer, ?_⟩, same⟩
  show result.1.map f = .ok (f answer)
  rw [ok]
  rfl

theorem Written.map {α β : Type} {pool : AccountPool} {rows : List StoredAccount}
    {result : Except WatchServiceError α × AccountPool} (written : Written lower pool rows result)
    (f : α → β) : Written lower pool rows (result.map (·.map f) id) := by
  rcases written with ⟨⟨error, failed⟩, same⟩ | ⟨⟨answer, ok⟩, rest⟩
  · refine .inl ⟨⟨error, ?_⟩, same⟩
    show result.1.map f = .error error
    rw [failed]
    rfl
  · refine .inr ⟨⟨f answer, ?_⟩, rest⟩
    show result.1.map f = .ok (f answer)
    rw [ok]
    rfl

/-- The rows after a ban. -/
def retiredRows (rows : List StoredAccount) (username : String) (bannedAt : DateTime) :
    List StoredAccount :=
  rows.modify (rows.findIdx fun account => eqIgnoreAsciiCase account.username (Text.trim username))
    fun account => { account with enabled := false, bannedAt := some bannedAt }

theorem retireBanned_written {pool : AccountPool} (inv : PoolInv lower pool) (username : String)
    (bannedAt now : DateTime) (fault : Option PersistFault) :
    Idle pool (pool.retireBanned username bannedAt now fault) ∨
      (∃ account, pool.document.accounts.find? (fun account =>
          eqIgnoreAsciiCase account.username (Text.trim username)) = some account ∧
        account.enabled = true) ∧
      Written lower pool (retiredRows pool.document.accounts username bannedAt)
        (pool.retireBanned username bannedAt now fault) := by
  have unique : (identities lower (retiredRows pool.document.accounts username bannedAt)).Nodup := by
    have same : identities lower (retiredRows pool.document.accounts username bannedAt) =
        identities lower pool.document.accounts := map_modify fun _ => rfl
    rw [same]
    exact inv.unique
  unfold retireBanned
  simp only
  split
  · exact .inl ⟨⟨false, rfl⟩, rfl⟩
  · rename_i account found
    split
    · exact .inl ⟨⟨false, rfl⟩, rfl⟩
    · rename_i both
      rw [not_or, Bool.not_eq_false] at both
      refine .inr ⟨⟨account, ?_, both.2⟩, save_written pool unique _ _ _⟩
      rw [← found, List.find?_eq_getElem?_findIdx]

theorem append_written (pool : AccountPool) (accounts : List StoredAccount) (newId : Nat → String)
    (now : DateTime) (fault : Option PersistFault) :
    Idle pool (pool.append lower accounts newId now fault) ∨
      Written lower pool
        (appendRows lower newId (identities lower pool.document.accounts) pool.document.accounts
          accounts)
        (pool.append lower accounts newId now fault) := by
  unfold AccountPool.append
  simp only
  split
  · exact .inl ⟨⟨0, rfl⟩, rfl⟩
  · split
    · exact .inr (.inl ⟨⟨_, rfl⟩, rfl⟩)
    · rename_i valid
      exact .inr (save_written pool (validateRows_ok valid).1 _ _ _)

/-- The rows an update writes. -/
def updatedRows (pool : AccountPool) (submitted : List StoredAccount) (newId : Nat → String) :
    List StoredAccount :=
  submitted.mapIdx fun index account => restoredRow pool.document.accounts (newId index) account

theorem update_written (pool : AccountPool) (next : AccountDocument) (newId : Nat → String)
    (now : DateTime) (fault : Option PersistFault) :
    Written lower pool (updatedRows pool next.accounts newId)
      (pool.update lower next newId now fault) := by
  unfold AccountPool.update
  split
  · exact .inl ⟨⟨_, rfl⟩, rfl⟩
  · simp only
    split
    · exact .inl ⟨⟨_, rfl⟩, rfl⟩
    · split
      · exact .inl ⟨⟨_, rfl⟩, rfl⟩
      · rename_i valid
        exact save_written pool (validateRows_ok valid).1 _ _ _

theorem rebindNodes_written (pool : AccountPool) (moves : List (String × String))
    (newId : Nat → String) (now : DateTime) (fault : Option PersistFault) :
    Idle pool (pool.rebindNodes lower moves newId now fault) ∨
      Written lower pool
        (updatedRows pool (moves.foldl rebindRow (pool.document.accounts, 0)).1 newId)
        (pool.rebindNodes lower moves newId now fault) := by
  unfold AccountPool.rebindNodes
  split
  · exact .inl ⟨⟨0, rfl⟩, rfl⟩
  · exact .inr ((update_written pool _ newId now fault).map _)

theorem spreadOver_written (pool : AccountPool) (nodes : List String)
    (newId : Nat → String) (now : DateTime) (fault : Option PersistFault) :
    Written lower pool (updatedRows pool (spreadRows nodes 0 pool.document.accounts) newId)
      (pool.spreadOver lower nodes newId now fault) :=
  (update_written pool _ newId now fault).map _

/-! ## Marks -/

/-- An anchored mark is found again by the id of its row. -/
theorem find_marked {rows : List StoredAccount} (anchored : MarksAnchored rows) {i : Nat}
    {row : StoredAccount} (here : rows[i]? = some row) (marked : row.bannedAt.isSome) :
    rows.find? (fun other => other.id != "" && other.id == row.id) = some row := by
  obtain ⟨inside, rfl⟩ := List.getElem?_eq_some_iff.mp here
  have named := (anchored.1 rows[i] (List.getElem_mem inside) marked).2
  rw [List.find?_eq_some_iff_getElem]
  refine ⟨by simp [named], i, inside, rfl, ?_⟩
  intro j before
  have differ := List.pairwise_iff_getElem.mp anchored.2 j i (by omega) inside before marked
  simp [differ]

theorem restoredRow_marked {rows : List StoredAccount} (anchored : MarksAnchored rows) {i : Nat}
    {row submitted : StoredAccount} {since : DateTime} (here : rows[i]? = some row)
    (marked : row.bannedAt = some since) (same : submitted.id = row.id) (newId : String) :
    (row.enabled = false ∧ (restoredRow rows newId submitted).enabled = true) ∨
      ∃ mark, (restoredRow rows newId submitted).bannedAt = some mark ∧
        (row.enabled = false → mark = since) := by
  have known : row.bannedAt.isSome = true := by rw [marked]; rfl
  have off := (anchored.1 row (List.mem_of_getElem? here) known).1
  by_cases on : submitted.enabled = true
  · exact .inl ⟨off, on⟩
  · refine .inr ⟨since, ?_, fun _ => rfl⟩
    simp only [restoredRow, same, find_marked anchored here known, on, Bool.false_eq_true,
      if_false, Option.bind_some, marked]

theorem updatedRows_marked {pool : AccountPool} (anchored : MarksAnchored pool.document.accounts)
    {submitted : List StoredAccount} {newId : Nat → String} {i j : Nat}
    {row given next : StoredAccount} {since : DateTime}
    (here : pool.document.accounts[i]? = some row) (marked : row.bannedAt = some since)
    (there : submitted[j]? = some given) (same : given.id = row.id)
    (after : (updatedRows pool submitted newId)[j]? = some next) :
    (row.enabled = false ∧ next.enabled = true) ∨
      ∃ mark, next.bannedAt = some mark ∧ (row.enabled = false → mark = since) := by
  rw [updatedRows, List.getElem?_mapIdx, there] at after
  cases after
  exact restoredRow_marked anchored here marked same (newId j)

theorem rebindRow_ids (state : List StoredAccount × Nat) (move : String × String) :
    (rebindRow state move).1.map (·.id) = state.1.map (·.id) := by
  unfold rebindRow
  simp only
  split
  · rfl
  · split
    · rfl
    · exact map_modify fun _ => rfl

theorem rebound_ids (moves : List (String × String)) (state : List StoredAccount × Nat) :
    (moves.foldl rebindRow state).1.map (·.id) = state.1.map (·.id) := by
  induction moves generalizing state with
  | nil => rfl
  | cons move rest ih => rw [List.foldl_cons, ih, rebindRow_ids]

theorem spreadRows_ids (nodes : List String) (index : Nat) (rows : List StoredAccount) :
    (spreadRows nodes index rows).map (·.id) = rows.map (·.id) := by
  induction rows generalizing index with
  | nil => rfl
  | cons account rest ih =>
      rw [spreadRows]
      split
      · rw [List.map_cons, List.map_cons, ih]
      · rw [List.map_cons, List.map_cons, ih]

theorem id_at {before after : List StoredAccount} (same : after.map (·.id) = before.map (·.id))
    {i : Nat} {row : StoredAccount} (here : before[i]? = some row) :
    ∃ given, after[i]? = some given ∧ given.id = row.id := by
  have ids := congrArg (·[i]?) same
  simp only [List.getElem?_map, here, Option.map_some] at ids
  exact Option.map_eq_some_iff.mp ids

/-- New rows stand behind the old ones. -/
theorem appendRows_getElem? {newId : Nat → String} {accounts : List StoredAccount}
    {seen : List String} {rows : List StoredAccount} {i : Nat} {row : StoredAccount}
    (here : rows[i]? = some row) :
    (appendRows lower newId seen rows accounts)[i]? = some row := by
  induction accounts generalizing seen rows with
  | nil => exact here
  | cons account rest ih =>
      rw [appendRows]
      split
      · exact ih here
      · have inside : i < rows.length := (List.getElem?_eq_some_iff.mp here).1
        exact ih (by rw [List.getElem?_append_left inside, here])

/-- A ban moves a mark only on an account that was on. -/
theorem retiredRows_marked {rows : List StoredAccount} {username : String} {bannedAt : DateTime}
    {account : StoredAccount}
    (found : rows.find? (fun account => eqIgnoreAsciiCase account.username (Text.trim username)) =
      some account) (on : account.enabled = true) {i : Nat} {row next : StoredAccount}
    {since : DateTime} (here : rows[i]? = some row) (marked : row.bannedAt = some since)
    (after : (retiredRows rows username bannedAt)[i]? = some next) :
    ∃ mark, next.bannedAt = some mark ∧ (row.enabled = false → mark = since) := by
  rw [retiredRows, List.getElem?_modify, here] at after
  cases after
  rw [List.find?_eq_getElem?_findIdx] at found
  show ∃ mark, (if _ = i then _ else row).bannedAt = some mark ∧ _
  split
  · rename_i same
    rw [same, here] at found
    cases found
    exact ⟨bannedAt, rfl, fun off => by rw [on] at off; cases off⟩
  · exact ⟨since, marked, fun _ => rfl⟩

/-! ## One call -/

theorem lt_saturatingSucc {revision : UInt64} (below : revision.toNat < 2 ^ 64 - 1) :
    revision < saturatingSucc revision := by
  rw [UInt64.lt_iff_toNat_lt, saturatingSucc, UInt64.toNat_ofNat']
  omega

/-- **What a call does**: nothing, or rows that keep the marks, written. -/
theorem call_written {pool : AccountPool} (inv : PoolInv lower pool) (call : Call) :
    (Idle pool (pool.call lower call) ∧
      ∀ i j, SameRow lower call pool.document.accounts i j → i = j) ∨
    ∃ rows, Written lower pool rows (pool.call lower call) ∧
      (Anchored pool call → RowsKept lower call pool.document.accounts rows) := by
  cases call with
  | update next newId now fault =>
      refine .inr ⟨_, (update_written pool next newId now fault).map _, ?_⟩
      rintro anchored i j row since made here marked ⟨known, given, found, there, sameId, -⟩ after
      obtain rfl := Option.some.inj (here.symm.trans found)
      exact updatedRows_marked anchored here marked there sameId after
  | append accounts newId now fault =>
      rcases append_written pool accounts newId now fault with idle | written
      · exact .inl ⟨idle.map _, fun _ _ same => same⟩
      · refine .inr ⟨_, written.map _, ?_⟩
        rintro - i j row since made here marked rfl after
        rw [appendRows_getElem? here] at after
        cases after
        exact .inr ⟨since, marked, fun _ => rfl⟩
  | retireBanned username bannedAt now fault =>
      rcases retireBanned_written inv username bannedAt now fault with
        idle | ⟨⟨account, found, on⟩, written⟩
      · exact .inl ⟨idle.map _, fun _ _ same => same⟩
      · refine .inr ⟨_, written.map _, ?_⟩
        rintro - i j row since made here marked rfl after
        exact .inr (retiredRows_marked found on here marked after)
  | rebindNodes moves newId now fault =>
      rcases rebindNodes_written pool moves newId now fault with idle | written
      · exact .inl ⟨idle.map _, fun _ _ same => same⟩
      · refine .inr ⟨_, written.map _, ?_⟩
        rintro anchored i j row since made here marked rfl after
        obtain ⟨given, there, sameId⟩ := id_at (rebound_ids moves (pool.document.accounts, 0)) here
        exact updatedRows_marked anchored here marked there sameId after
  | spreadOver nodes newId now fault =>
      refine .inr ⟨_, (spreadOver_written pool nodes newId now fault).map _, ?_⟩
      rintro anchored i j row since made here marked rfl after
      obtain ⟨given, there, sameId⟩ := id_at (spreadRows_ids nodes 0 pool.document.accounts) here
      exact updatedRows_marked anchored here marked there sameId after

theorem update_stale {pool : AccountPool} {next : AccountDocument}
    (stale : next.revision < pool.document.revision) (newId : Nat → String) (now : DateTime)
    (fault : Option PersistFault) :
    (pool.call lower (.update next newId now fault)).1 =
      .error (.revisionConflict next.revision pool.document.revision) := by
  have differ : next.revision ≠ pool.document.revision := by
    intro same
    rw [same] at stale
    exact absurd stale (UInt64.lt_irrefl _)
  show (pool.update lower next newId now fault).1.map _ = _
  rw [AccountPool.update, if_pos differ]
  rfl

/-- **A call on a pool in order**, whose marks are anchored when it writes them. -/
theorem call_sound {pool : AccountPool} (inv : PoolInv lower pool) {call : Call}
    (anchored : Anchored pool call) : Sound lower pool call := by
  have stale : ∀ next newId now fault, call = .update next newId now fault →
      next.revision < pool.document.revision →
      (pool.call lower call).1 =
        .error (.revisionConflict next.revision pool.document.revision) := by
    rintro next newId now fault rfl older
    exact update_stale older newId now fault
  rcases call_written inv call with ⟨⟨-, same⟩, placed⟩ |
    ⟨rows, ⟨⟨error, failed⟩, same⟩ | ⟨⟨answer, ok⟩, unique, now, wrote⟩, kept⟩
  · refine ⟨by rw [same]; exact inv, fun changed => absurd same changed, ?_, stale, fun _ _ => same⟩
    rintro answer - i j row since next here marked sameRow after
    obtain rfl := placed i j sameRow
    rw [same, here] at after
    cases after
    exact .inr ⟨since, marked, fun _ => rfl⟩
  · refine ⟨by rw [same]; exact inv, fun changed => absurd same changed, ?_, stale, fun _ _ => same⟩
    intro answer ok
    rw [failed] at ok
    cases ok
  · refine ⟨?_, ?_, ?_, stale, ?_⟩
    · rw [wrote]
      exact ⟨unique, rfl⟩
    · intro _ below
      rw [wrote]
      exact lt_saturatingSucc below
    · intro _ _
      rw [wrote]
      exact kept anchored
    · intro error failed
      rw [ok] at failed
      cases failed

/-! ## Every run -/

/-- **The account pool in every run** whose marks are anchored whenever the whole
document is written: from any pool in order, in every state reached, the invariant
holds and the next such call is sound. -/
theorem accountPool_sound {start final : AccountPool} {calls : List Call}
    (inOrder : PoolInv lower start) (anchored : (poolMachine lower).Meets Anchored start calls)
    (ran : (poolMachine lower).run start calls = some final) :
    PoolInv lower final ∧ ∀ call, Anchored final call → Sound lower final call := by
  have kept : PoolInv lower final := by
    refine Machine.run_preserves_of_meets ?_ anchored ran inOrder
    intro pool call next inv ok stepped
    cases stepped
    exact (call_sound inv ok).keepsInv
  exact ⟨kept, fun call ok => call_sound kept ok⟩

end Pool

/-! ## A row without an id -/

/-- What a test account looks like. -/
def sampleAccount (id username : String) : StoredAccount where
  id := id
  username := username
  password := "secret"
  purpose := .refetch
  enabled := true

def epoch : DateTime := .ofParts 0 0 rfl

/-- Banned, then moved to another node. -/
def banThenSpread : List Call :=
  [.retireBanned "a@x" epoch epoch none, .spreadOver ["n1"] (fun _ => "minted") epoch none]

/-- A pool of one account, with or without an id, in memory and on disk. -/
def poolOfOne (id : String) : AccountPool :=
  ⟨⟨4, [sampleAccount id "a@x"], none⟩, some ⟨4, [sampleAccount id "a@x"], none⟩⟩

theorem accountPool_sound_banThenSpread :
    ∃ final, (poolMachine asciiLowerCase).run (poolOfOne "row-1") banThenSpread = some final ∧
      (final.document.accounts.map (·.bannedAt) = [some epoch] ∧
        final.document.accounts.map (·.node) = ["n1"]) ∧
      PoolInv asciiLowerCase final ∧
      ∀ call, Anchored final call → Sound asciiLowerCase final call := by
  have inOrder : PoolInv asciiLowerCase (poolOfOne "row-1") := ⟨by decide, by decide⟩
  obtain ⟨final, ran, shown⟩ : ∃ final,
      (poolMachine asciiLowerCase).run (poolOfOne "row-1") banThenSpread = some final ∧
      (final.document.accounts.map (·.bannedAt) = [some epoch] ∧
        final.document.accounts.map (·.node) = ["n1"]) :=
    Machine.run_exists (by decide +kernel)
  exact ⟨final, ran, shown, accountPool_sound inOrder (by decide +kernel) ran⟩

/-- **A mark on a row without an id is lost** at the next write of the whole document,
though nobody switched the account on or deleted it. -/
theorem unnamedRow_losesMark :
    PoolInv asciiLowerCase (poolOfOne "") ∧
    ∃ banned, (poolMachine asciiLowerCase).run (poolOfOne "") (banThenSpread.take 1) = some banned ∧
      ¬ Sound asciiLowerCase banned (.spreadOver ["n1"] (fun _ => "minted") epoch none) := by
  refine ⟨⟨by decide, by decide⟩, ?_⟩
  obtain ⟨banned, ran, before, answered, after⟩ : ∃ banned,
      (poolMachine asciiLowerCase).run (poolOfOne "") (banThenSpread.take 1) = some banned ∧
      (banned.document.accounts[0]?.map fun row => (row.enabled, row.bannedAt)) =
        some (false, some epoch) ∧
      (banned.call asciiLowerCase (.spreadOver ["n1"] (fun _ => "minted") epoch none)).1 =
        .ok (.count 1) ∧
      ((banned.call asciiLowerCase (.spreadOver ["n1"] (fun _ => "minted") epoch
        none)).2.document.accounts[0]?.map fun row => (row.enabled, row.bannedAt)) =
        some (false, none) := Machine.run_exists (by decide +kernel)
  refine ⟨banned, ran, fun sound => ?_⟩
  obtain ⟨row, here, marked⟩ := Option.map_eq_some_iff.mp before
  obtain ⟨next, there, unmarked⟩ := Option.map_eq_some_iff.mp after
  obtain ⟨off, since⟩ := Prod.mk.inj marked
  obtain ⟨stillOff, lost⟩ := Prod.mk.inj unmarked
  rcases sound.keepsMarks _ answered 0 0 row epoch next here since rfl there with
    ⟨-, on⟩ | ⟨mark, kept, -⟩
  · rw [stillOff] at on
    cases on
  · rw [lost] at kept
    cases kept

end MajsoulManager.Accounts
