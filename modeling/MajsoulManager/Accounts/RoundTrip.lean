/-
# Accounts.RoundTrip — read, edit nothing, write back

A console reads the document with every password as three asterisks and hands the whole
of it back.  `update` puts a password back by the id of its row, and takes the first
stored row with that id.

`published_restores`: in every pool that was opened and written to, the published
document can be written back unchanged exactly when that look-up finds every row's own
password and mark (`Recoverable`); and an accepted save gives each row its own account's
password exactly when every row that hands asterisks back names its account
(`NamesOwn`).  No accepted save stores the asterisks.  A row without an id and two rows
with one id are the cases where this goes wrong (`publishedPool_refused`).
-/
import MajsoulManager.Accounts.PoolInvariant
import MajsoulManager.Theory.Edits

namespace MajsoulManager.Accounts

open MajsoulManager.Theory
open AccountPool

set_option autoImplicit false

/-! ## Pools that were opened -/

section Pool

variable (lower : String → String)

/-- The rows of the pool pass the check of every writer. -/
def Checked (pool : AccountPool) : Prop := validateRows lower [] pool.document.accounts = .ok ()

variable {lower}

theorem openFrom_checked {disk : Option AccountDocument} {pool : AccountPool}
    (opened : AccountPool.openFrom lower disk = .ok pool) : Checked lower pool := by
  cases disk with
  | none =>
      cases opened
      rfl
  | some document =>
      rw [openFrom] at opened
      cases valid : document.validate lower with
      | error error =>
          rw [valid] at opened
          cases opened
      | ok found =>
          rw [valid] at opened
          cases opened
          exact valid

/-- The check reads the trimmed usernames and the passwords, and nothing else. -/
def checkedPart (account : StoredAccount) : String × String :=
  (Text.trim account.username, account.password)

theorem validateRows_congr {seen : List String} {rows others : List StoredAccount}
    (same : rows.map checkedPart = others.map checkedPart) :
    validateRows lower seen rows = validateRows lower seen others := by
  induction rows generalizing seen others with
  | nil =>
      obtain rfl : others = [] := List.map_eq_nil_iff.mp same.symm
      rfl
  | cons row rest ih =>
      obtain ⟨other, later, rfl, sameRow, sameRest⟩ := List.map_eq_cons_iff.mp same.symm
      obtain ⟨name, password⟩ := Prod.mk.inj sameRow
      rw [validateRows, validateRows, name, password, ih sameRest.symm]

theorem save_checked {α : Type} {pool : AccountPool} (checked : Checked lower pool)
    {next : AccountDocument} (valid : validateRows lower [] next.accounts = .ok ())
    (fault : Option PersistFault) (answer : α) : Checked lower (pool.save next fault answer).2 := by
  cases fault with
  | none => exact valid
  | some fault => exact checked

theorem retireBanned_checked {pool : AccountPool} (checked : Checked lower pool) (username : String)
    (bannedAt now : DateTime) (fault : Option PersistFault) :
    Checked lower (pool.retireBanned username bannedAt now fault).2 := by
  unfold retireBanned
  simp only
  split
  · exact checked
  · split
    · exact checked
    · refine save_checked checked ?_ fault true
      rw [← checked]
      exact validateRows_congr (map_modify fun _ => rfl)

theorem append_checked {pool : AccountPool} (checked : Checked lower pool)
    (accounts : List StoredAccount) (newId : Nat → String) (now : DateTime)
    (fault : Option PersistFault) : Checked lower (pool.append lower accounts newId now fault).2 := by
  unfold AccountPool.append
  simp only
  split
  · exact checked
  · split
    · exact checked
    · rename_i valid
      exact save_checked checked valid fault _

theorem update_checked {pool : AccountPool} (checked : Checked lower pool) (next : AccountDocument)
    (newId : Nat → String) (now : DateTime) (fault : Option PersistFault) :
    Checked lower (pool.update lower next newId now fault).2 := by
  unfold AccountPool.update
  split
  · exact checked
  · simp only
    split
    · exact checked
    · split
      · exact checked
      · rename_i valid
        exact save_checked checked valid fault _

theorem call_checked {pool : AccountPool} (checked : Checked lower pool) (call : Call) :
    Checked lower (pool.call lower call).2 := by
  cases call with
  | update next newId now fault => exact update_checked checked next newId now fault
  | append accounts newId now fault => exact append_checked checked accounts newId now fault
  | retireBanned username bannedAt now fault =>
      exact retireBanned_checked checked username bannedAt now fault
  | rebindNodes moves newId now fault =>
      show Checked lower (pool.rebindNodes lower moves newId now fault).2
      unfold AccountPool.rebindNodes
      split
      · exact checked
      · exact update_checked checked _ newId now fault
  | spreadOver nodes newId now fault => exact update_checked checked _ newId now fault

theorem run_checked {start final : AccountPool} {calls : List Call} (checked : Checked lower start)
    (ran : (poolMachine lower).run start calls = some final) : Checked lower final := by
  refine Machine.run_preserves_of_meets ?_ (Machine.meets_trivial start calls) ran checked
  intro pool call next checked _ stepped
  cases stepped
  exact call_checked checked call

/-- A checked row has a password. -/
theorem validateRows_password {seen : List String} {rows : List StoredAccount}
    (valid : validateRows lower seen rows = .ok ()) :
    ∀ row ∈ rows, Text.trim row.password ≠ "" := by
  induction rows generalizing seen with
  | nil => simp
  | cons account rest ih =>
      rw [validateRows] at valid
      split at valid
      · cases valid
      split at valid
      · cases valid
      split at valid
      · cases valid
      rename_i typed
      split at valid
      · cases valid
      · exact List.forall_mem_cons.mpr ⟨typed, ih valid⟩

theorem password_ne_empty {pool : AccountPool} (checked : Checked lower pool)
    {row : StoredAccount} (member : row ∈ pool.document.accounts) : row.password ≠ "" := by
  intro empty
  refine validateRows_password checked row member ?_
  rw [empty]
  decide

/-! ## What an accepted save writes -/

theorem update_ok {pool : AccountPool} {next : AccountDocument} {newId : Nat → String}
    {now : DateTime} {fault : Option PersistFault} {answer : AccountDocument}
    (accepted : (pool.update lower next newId now fault).1 = .ok answer) :
    (∀ row ∈ updatedRows pool next.accounts newId, row.password ≠ "***") ∧
      validateRows lower [] (updatedRows pool next.accounts newId) = .ok () ∧
      (pool.update lower next newId now fault).2.document.accounts =
        updatedRows pool next.accounts newId := by
  unfold AccountPool.update at accepted ⊢
  split at accepted
  · cases accepted
  · rename_i current
    rw [if_neg current]
    simp only at accepted ⊢
    split at accepted
    · cases accepted
    · rename_i typed
      split at accepted
      · cases accepted
      · rename_i valid
        refine ⟨?_, valid, ?_⟩
        · intro row member asterisks
          have none_ := List.find?_eq_none.mp typed row member
          exact none_ (by simp [asterisks])
        · cases fault with
          | none => rfl
          | some fault => cases accepted

theorem update_accepts {pool : AccountPool} {next : AccountDocument} {newId : Nat → String}
    (now : DateTime) (current : next.revision = pool.document.revision)
    (typed : ∀ row ∈ updatedRows pool next.accounts newId, row.password ≠ "***")
    (valid : validateRows lower [] (updatedRows pool next.accounts newId) = .ok ()) :
    ∃ answer, (pool.update lower next newId now none).1 = .ok answer := by
  have none_ : (updatedRows pool next.accounts newId).find? (fun account => account.password == "***")
      = none := by
    rw [List.find?_eq_none]
    intro row member
    simpa using typed row member
  unfold AccountPool.update
  rw [if_neg (by simp [current])]
  simp only [updatedRows] at none_ valid ⊢
  rw [none_]
  simp only
  rw [valid]
  exact ⟨_, rfl⟩

theorem update_failed {pool : AccountPool} {next : AccountDocument} {newId : Nat → String}
    {now : DateTime} {fault : Option PersistFault} {error : WatchServiceError}
    (failed : (pool.update lower next newId now fault).1 = .error error) :
    (pool.update lower next newId now fault).2 = pool := by
  rcases update_written pool next newId now fault with ⟨-, same⟩ | ⟨⟨answer, ok⟩, -⟩
  · exact same
  · rw [ok] at failed
    cases failed

/-! ## Reading and writing back -/

/-- The row an id stands for when a password or a mark is put back: the first. -/
def storedUnder (rows : List StoredAccount) (id : String) : Option StoredAccount :=
  rows.find? fun row => row.id != "" && row.id == id

theorem storedUnder_some {rows : List StoredAccount} {row : StoredAccount} (member : row ∈ rows)
    (named : row.id ≠ "") : ∃ first, storedUnder rows row.id = some first := by
  rw [← Option.isSome_iff_exists, storedUnder, List.find?_isSome]
  exact ⟨row, member, by simp [named]⟩

theorem storedUnder_mem {rows : List StoredAccount} {id : String} {first : StoredAccount}
    (found : storedUnder rows id = some first) : first ∈ rows ∧ first.id = id ∧ id ≠ "" := by
  have matched := List.find?_some found
  simp only [Bool.and_eq_true, bne_iff_ne, ne_eq, beq_iff_eq] at matched
  exact ⟨List.mem_of_find?_eq_some found, matched.2, matched.2 ▸ matched.1⟩

/-- What writing back must not change. -/
def keptPart (account : StoredAccount) :
    String × Bool × AccountPurpose × String × Option DateTime :=
  (account.password, account.enabled, account.purpose, account.node, account.bannedAt)

variable (lower) in
/-- The published document is accepted, and changes none of it. -/
def RoundTrips (pool : AccountPool) : Prop :=
  ∀ newId now,
    (∃ answer, (pool.update lower pool.document.published newId now none).1 = .ok answer) ∧
    (pool.update lower pool.document.published newId now none).2.document.accounts.map keptPart =
      pool.document.accounts.map keptPart

/-- Every row has an id, under which its own password is found and, if it is off, its
own mark; no password is three asterisks, and no account that is on is marked. -/
def Recoverable (rows : List StoredAccount) : Prop :=
  ∀ row ∈ rows, row.id ≠ "" ∧ row.password ≠ "***" ∧
    (row.enabled = true → row.bannedAt = none) ∧
    ∀ first, storedUnder rows row.id = some first →
      first.password = row.password ∧ (row.enabled = false → first.bannedAt = row.bannedAt)

/-- A row as it comes back from a console that edited nothing. -/
def publishedRow (row : StoredAccount) : StoredAccount :=
  { row with password := (redactedSecret (some row.password)).getD "" }

theorem publishedRow_password {row : StoredAccount} (typed : row.password ≠ "") :
    (publishedRow row).password = "***" := by
  simp [publishedRow, redactedSecret, Option.filter, typed]

/-- A published row is restored when its id finds its password and its mark. -/
theorem keptPart_restored {rows : List StoredAccount} {row : StoredAccount} (typed : row.password ≠ "")
    (newId : String) :
    keptPart (restoredRow rows newId (publishedRow row)) = keptPart row ↔
      ((storedUnder rows row.id).map (·.password)).getD "" = row.password ∧
        (if row.enabled then none else (storedUnder rows row.id).bind (·.bannedAt)) =
          row.bannedAt := by
  have shown : (restoredRow rows newId (publishedRow row)).password =
      ((storedUnder rows row.id).map (·.password)).getD "" := by
    simp only [restoredRow, publishedRow_password typed, restoredSecret, if_true]
    rfl
  have marked : (restoredRow rows newId (publishedRow row)).bannedAt =
      if row.enabled then none else (storedUnder rows row.id).bind (·.bannedAt) := rfl
  simp only [keptPart, Prod.mk.injEq, shown, marked]
  constructor
  · rintro ⟨password, -, -, -, mark⟩
    exact ⟨password, mark⟩
  · rintro ⟨password, mark⟩
    exact ⟨password, rfl, rfl, rfl, mark⟩

theorem updatedRows_published (pool : AccountPool) (newId : Nat → String) :
    updatedRows pool pool.document.published.accounts newId =
      pool.document.accounts.mapIdx fun index row =>
        restoredRow pool.document.accounts (newId index) (publishedRow row) := by
  apply List.ext_getElem?
  intro j
  simp only [updatedRows, AccountDocument.published, List.getElem?_mapIdx, List.getElem?_map,
    Option.map_map]
  rfl

theorem roundTrips_recoverable {pool : AccountPool} (checked : Checked lower pool)
    (round : RoundTrips lower pool) : Recoverable pool.document.accounts := by
  obtain ⟨⟨answer, accepted⟩, same⟩ := round (fun _ => "") epoch
  obtain ⟨typed, -, wrote⟩ := update_ok accepted
  rw [wrote, updatedRows_published, map_mapIdx_iff] at same
  intro row member
  obtain ⟨j, here⟩ := List.mem_iff_getElem?.mp member
  have given := password_ne_empty checked member
  obtain ⟨password, mark⟩ := (keptPart_restored given "").mp (same j row here)
  have named : row.id ≠ "" := by
    intro unnamed
    have missing : storedUnder pool.document.accounts row.id = none := by
      by_contra some_
      obtain ⟨first, found⟩ := Option.ne_none_iff_exists'.mp some_
      exact (storedUnder_mem found).2.2 unnamed
    rw [missing] at password
    exact given password.symm
  refine ⟨named, ?_, ?_, ?_⟩
  · intro asterisks
    have kept := same j row here
    refine typed _ ?_ ((congrArg Prod.fst kept).trans asterisks)
    rw [updatedRows_published]
    refine List.mem_iff_getElem?.mpr ⟨j, ?_⟩
    rw [List.getElem?_mapIdx, here]
    rfl
  · intro on
    rw [if_pos on] at mark
    exact mark.symm
  · intro first found
    rw [found] at password mark
    refine ⟨password, fun off => ?_⟩
    rwa [if_neg (by simp [off])] at mark

theorem recoverable_roundTrips {pool : AccountPool} (checked : Checked lower pool)
    (recoverable : Recoverable pool.document.accounts) : RoundTrips lower pool := by
  intro newId now
  have each : ∀ (j : Nat) (row : StoredAccount), pool.document.accounts[j]? = some row →
      keptPart (restoredRow pool.document.accounts (newId j) (publishedRow row)) = keptPart row := by
    intro j row here
    have member := List.mem_of_getElem? here
    obtain ⟨named, -, onUnmarked, found⟩ := recoverable row member
    obtain ⟨first, under⟩ := storedUnder_some member named
    obtain ⟨password, mark⟩ := found first under
    refine (keptPart_restored (password_ne_empty checked member) _).mpr ?_
    rw [under]
    refine ⟨password, ?_⟩
    by_cases on : row.enabled = true
    · rw [if_pos on, onUnmarked on]
    · rw [if_neg on]
      exact mark (by simpa using on)
  have rows := updatedRows_published pool newId
  have kept : (updatedRows pool pool.document.published.accounts newId).map keptPart =
      pool.document.accounts.map keptPart := by
    rw [rows]
    exact map_mapIdx_iff.mpr each
  have typed : ∀ row ∈ updatedRows pool pool.document.published.accounts newId,
      row.password ≠ "***" := by
    intro row member asterisks
    obtain ⟨old, stored, same⟩ := List.mem_map.mp (kept ▸ List.mem_map_of_mem member)
    exact (recoverable old stored).2.1 ((congrArg Prod.fst same).trans asterisks)
  have valid : validateRows lower [] (updatedRows pool pool.document.published.accounts newId) =
      .ok () := by
    rw [← checked, rows]
    refine validateRows_congr (map_mapIdx_iff.mpr fun j row here => ?_)
    refine Prod.ext ?_ (congrArg Prod.fst (each j row here))
    exact Text.trim_trim row.username
  obtain ⟨answer, accepted⟩ :
      ∃ answer, (pool.update lower pool.document.published newId now none).1 = .ok answer :=
    update_accepts now rfl typed valid
  refine ⟨⟨answer, accepted⟩, ?_⟩
  rw [(update_ok accepted).2.2, kept]

/-! ## Whose password a row gets -/

/-- An id that stands for one row of the pool and one row of what is submitted. -/
def Single (stored submitted : List StoredAccount) (id : String) : Prop :=
  stored.countP (·.id == id) = 1 ∧ submitted.countP (·.id == id) = 1

variable (lower) in
/-- A stored row and a submitted one are the same account: they have one id, and where
that stands for several rows they have one username as well. -/
def SameAccount (stored submitted : List StoredAccount) (old row : StoredAccount) : Prop :=
  old.id = row.id ∧
    (identity lower old.username = identity lower row.username ∨ Single stored submitted row.id)

variable (lower) in
/-- Asterisks handed back become the password of the row's own account. -/
def GivesOwn (stored submitted written : List StoredAccount) : Prop :=
  ∀ (j : Nat) (row next : StoredAccount), submitted[j]? = some row → row.password = "***" →
    written[j]? = some next →
    ∃ old ∈ stored, SameAccount lower stored submitted old row ∧ next.password = old.password

variable (lower) in
/-- A row with asterisks whose id stands for several rows has the username of a stored
one, and the first stored row with that id has the password of that one. -/
def NamesOwn (stored submitted : List StoredAccount) : Prop :=
  ∀ row ∈ submitted, row.password = "***" → ¬ Single stored submitted row.id →
    ∃ old ∈ stored, old.id = row.id ∧
      identity lower old.username = identity lower row.username ∧
      (storedUnder stored row.id).map (·.password) = some old.password

theorem restoredRow_asterisks {rows : List StoredAccount} {row : StoredAccount}
    (asterisks : row.password = "***") (newId : String) :
    (restoredRow rows newId row).password = ((storedUnder rows row.id).map (·.password)).getD "" := by
  simp only [restoredRow, asterisks, restoredSecret, if_true]
  rfl

theorem givesOwn_iff {pool : AccountPool} {submitted : List StoredAccount} {newId : Nat → String}
    (valid : validateRows lower [] (updatedRows pool submitted newId) = .ok ()) :
    GivesOwn lower pool.document.accounts submitted (updatedRows pool submitted newId) ↔
      NamesOwn lower pool.document.accounts submitted := by
  -- An accepted row that handed asterisks back was found under its id.
  have found : ∀ (j : Nat) (row : StoredAccount), submitted[j]? = some row → row.password = "***" →
      ∃ first, storedUnder pool.document.accounts row.id = some first ∧
        (updatedRows pool submitted newId)[j]? =
          some (restoredRow pool.document.accounts (newId j) row) ∧
        (restoredRow pool.document.accounts (newId j) row).password = first.password := by
    intro j row here asterisks
    have there : (updatedRows pool submitted newId)[j]? =
        some (restoredRow pool.document.accounts (newId j) row) := by
      rw [updatedRows, List.getElem?_mapIdx, here]
      rfl
    have given : (restoredRow pool.document.accounts (newId j) row).password =
        ((storedUnder pool.document.accounts row.id).map (·.password)).getD "" :=
      restoredRow_asterisks asterisks (newId j)
    have typed := validateRows_password valid _ (List.mem_of_getElem? there)
    cases under : storedUnder pool.document.accounts row.id with
    | none =>
        rw [under] at given
        rw [given] at typed
        exact absurd (by decide) typed
    | some first =>
        rw [under] at given
        exact ⟨first, rfl, there, given⟩
  constructor
  · intro gives row member asterisks several
    obtain ⟨j, here⟩ := List.mem_iff_getElem?.mp member
    obtain ⟨first, under, there, given⟩ := found j row here asterisks
    obtain ⟨old, stored, ⟨sameId, sameName⟩, password⟩ := gives j row _ here asterisks there
    refine ⟨old, stored, sameId, sameName.resolve_right several, ?_⟩
    rw [under, Option.map_some, ← given, password]
  · intro names j row next here asterisks wrote
    obtain ⟨first, under, there, given⟩ := found j row here asterisks
    obtain rfl := Option.some.inj (there.symm.trans wrote)
    obtain ⟨stored, sameId, -⟩ := storedUnder_mem under
    by_cases single : Single pool.document.accounts submitted row.id
    · exact ⟨first, stored, ⟨sameId, .inr single⟩, given⟩
    · obtain ⟨old, member, oldId, oldName, password⟩ :=
        names row (List.mem_of_getElem? here) asterisks single
      rw [under] at password
      exact ⟨old, member, ⟨oldId, .inl oldName⟩, given.trans (Option.some.inj password)⟩

/-- **Read, edit nothing, write back.**  In every pool that was opened and then written to
in any way, the published document can be written back unchanged exactly when every row
is recoverable.  A save that fails changes nothing; one that is accepted stores no
asterisks, and gives every row the password of its own account exactly when the rows
that hand asterisks back name it. -/
theorem published_restores {disk : Option AccountDocument} {start final : AccountPool}
    {calls : List Call} (opened : AccountPool.openFrom lower disk = .ok start)
    (ran : (poolMachine lower).run start calls = some final) :
    (RoundTrips lower final ↔ Recoverable final.document.accounts) ∧
    ∀ next newId now fault,
      (∀ error, (final.update lower next newId now fault).1 = .error error →
        (final.update lower next newId now fault).2 = final) ∧
      ∀ answer, (final.update lower next newId now fault).1 = .ok answer →
        (∀ row ∈ (final.update lower next newId now fault).2.document.accounts,
          row.password ≠ "***") ∧
        (GivesOwn lower final.document.accounts next.accounts
            (final.update lower next newId now fault).2.document.accounts ↔
          NamesOwn lower final.document.accounts next.accounts) := by
  have checked := run_checked (openFrom_checked opened) ran
  refine ⟨⟨roundTrips_recoverable checked, recoverable_roundTrips checked⟩, ?_⟩
  intro next newId now fault
  refine ⟨fun error failed => update_failed failed, ?_⟩
  intro answer accepted
  obtain ⟨typed, valid, wrote⟩ := update_ok accepted
  rw [wrote]
  exact ⟨typed, givesOwn_iff valid⟩

end Pool

/-! ## Rows without an id, and with one id -/

/-- A document of two accounts under the given ids, with a password each. -/
def twoAccounts (first second : String) : AccountDocument where
  revision := 4
  accounts := [{ sampleAccount first "a@x" with password := "alpha" },
    { sampleAccount second "b@x" with password := "beta" }]

/-- The pool such a document is read into. -/
def poolOfTwo (first second : String) : AccountPool :=
  ⟨twoAccounts first second, some (twoAccounts first second)⟩

theorem published_restores_banned :
    AccountPool.openFrom asciiLowerCase (some (twoAccounts "1" "2")) = .ok (poolOfTwo "1" "2") ∧
    ∃ final, (poolMachine asciiLowerCase).run (poolOfTwo "1" "2")
        [.retireBanned "a@x" epoch epoch none] = some final ∧
      final.document.accounts.map (·.bannedAt) = [some epoch, none] ∧
      (RoundTrips asciiLowerCase final ↔ Recoverable final.document.accounts) := by
  have opened : AccountPool.openFrom asciiLowerCase (some (twoAccounts "1" "2")) =
      .ok (poolOfTwo "1" "2") := by decide +kernel
  obtain ⟨final, ran, marks⟩ : ∃ final, (poolMachine asciiLowerCase).run (poolOfTwo "1" "2")
      [.retireBanned "a@x" epoch epoch none] = some final ∧
      final.document.accounts.map (·.bannedAt) = [some epoch, none] :=
    Machine.run_exists (by decide +kernel)
  exact ⟨opened, final, ran, marks, (published_restores opened ran).1⟩

/-- **Writing back what was read is refused** for a row without an id, and gives the second
of two rows with one id the password of the first. -/
theorem publishedPool_refused :
    (AccountPool.openFrom asciiLowerCase (some (twoAccounts "1" "")) = .ok (poolOfTwo "1" "") ∧
      ((poolOfTwo "1" "").update asciiLowerCase (twoAccounts "1" "").published (fun _ => "minted")
        epoch none).1 = .error (.invalidConfig "账号 b@x 没有密码")) ∧
    AccountPool.openFrom asciiLowerCase (some (twoAccounts "1" "1")) = .ok (poolOfTwo "1" "1") ∧
      ((poolOfTwo "1" "1").update asciiLowerCase (twoAccounts "1" "1").published (fun _ => "minted")
        epoch none).2.document.accounts.map (fun row => (row.username, row.password)) =
          [("a@x", "alpha"), ("b@x", "alpha")] ∧
      ¬ RoundTrips asciiLowerCase (poolOfTwo "1" "") ∧
      ¬ RoundTrips asciiLowerCase (poolOfTwo "1" "1") := by
  have refused : ((poolOfTwo "1" "").update asciiLowerCase (twoAccounts "1" "").published
      (fun _ => "minted") epoch none).1 = .error (.invalidConfig "账号 b@x 没有密码") := by
    decide +kernel
  have swapped : ((poolOfTwo "1" "1").update asciiLowerCase (twoAccounts "1" "1").published
      (fun _ => "minted") epoch none).2.document.accounts.map
        (fun row => (row.username, row.password)) = [("a@x", "alpha"), ("b@x", "alpha")] := by
    decide +kernel
  refine ⟨⟨by decide +kernel, refused⟩, by decide +kernel, swapped, ?_, ?_⟩
  · intro round
    obtain ⟨⟨answer, accepted⟩, -⟩ := round (fun _ => "minted") epoch
    rw [show (poolOfTwo "1" "").document = twoAccounts "1" "" from rfl, refused] at accepted
    cases accepted
  · intro round
    have kept := congrArg (List.map (·.1)) (round (fun _ => "minted") epoch).2
    have now := congrArg (List.map (·.2)) swapped
    simp only [List.map_map] at kept now
    have same : ["alpha", "beta"] = ["alpha", "alpha"] := kept.symm.trans now
    exact absurd same (by decide)

end MajsoulManager.Accounts
