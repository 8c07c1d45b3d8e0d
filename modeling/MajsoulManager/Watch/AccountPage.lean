/-
# Watch.AccountPage — what the account page may not take away

`put_accounts` of `api.rs`: a collector reads its account once and keeps the session for
as long as it runs, so the page refuses a document that switches off, moves or leaves out
an account a configured instance resolves to, before the pool's own `update` sees it.

The two guards look at the usernames as they are submitted: one in the lower case of
Unicode, the other in that of ASCII, and neither trims.  `update` does, so a row that is
only found once it is trimmed does not stand in for the account (`putAccounts_keeps`); nor
does the account keep the blanks it was itself stored with (`paddedName_trimmed`).
-/
import MajsoulManager.Accounts.RoundTrip
import MajsoulManager.Watch.Config

namespace MajsoulManager.Watch

open MajsoulManager.Theory
open MajsoulManager.Accounts

set_option autoImplicit false

section Page

variable (lower : String → String)

/-! ## The page -/

/-- The accounts the configured collectors would log in with, in lower case.  A reference
that does not resolve names none. -/
def referencedAccounts (secrets : Secrets) (instances : List WatchInstance) : List String :=
  instances.filterMap fun instance_ =>
    match loadFirstAccount secrets instance_.accountSecretRef with
    | .ok (username, _) => some (lower username)
    | .error _ => none

/-- The first stored account in use that a document leaves out. -/
def takenFromACollector (stored next : AccountDocument) (inUse : List String) : Option String :=
  (stored.accounts.find? fun account =>
    inUse.contains (lower account.username) &&
      !next.accounts.any fun kept => eqIgnoreAsciiCase kept.username account.username).map
    (·.username)

/-- `put_accounts`, with the files and the environment the references are read from. -/
def putAccounts (pool : AccountPool) (file env : String → Option String)
    (instances : List WatchInstance) (document : AccountDocument) (newId : Nat → String)
    (now : DateTime) (fault : Option PersistFault) :
    Except WatchServiceError AccountDocument × AccountPool :=
  let inUse := referencedAccounts lower ⟨pool.document, file, env⟩ instances
  match document.accounts.find? fun account =>
    inUse.contains (lower account.username) && (!account.enabled || account.purpose != .watch) with
  | some account =>
      let username := account.username
      (.error (.invalidConfig
        s!"账号 {username} 正被采集实例使用，不能在这里停用或改用途；先去 Watch 设置把那个实例指向别的账号或停掉它"),
        pool)
  | none =>
      match takenFromACollector lower pool.document document inUse with
      | some username =>
          (.error (.invalidConfig
            s!"有采集实例正指向账号 {username}，不能删除；先改那个实例的账号引用"), pool)
      | none => pool.update lower document newId now fault

/-! ## What it keeps -/

/-- An instance resolves to an account of this name, whatever the reference is. -/
def ResolvesTo (secrets : Secrets) (instance_ : WatchInstance) (account : StoredAccount) : Prop :=
  ∃ collected, loadFirstAccount secrets instance_.accountSecretRef = .ok collected ∧
    lower collected.1 = lower account.username

variable {lower}

theorem ResolvesTo.referenced {secrets : Secrets} {instances : List WatchInstance}
    {instance_ : WatchInstance} {account : StoredAccount}
    (resolves : ResolvesTo lower secrets instance_ account) (configured : instance_ ∈ instances) :
    lower account.username ∈ referencedAccounts lower secrets instances := by
  obtain ⟨collected, loaded, same⟩ := resolves
  refine List.mem_filterMap.mpr ⟨instance_, configured, ?_⟩
  rw [loaded, ← same]

/-- A document that leaves no account out has a row for each one in use. -/
theorem takenFromACollector_none {stored next : AccountDocument} {inUse : List String}
    (kept : takenFromACollector lower stored next inUse = none) {account : StoredAccount}
    (member : account ∈ stored.accounts) (used : lower account.username ∈ inUse) :
    ∃ row ∈ next.accounts, eqIgnoreAsciiCase row.username account.username = true := by
  have passed := List.find?_eq_none.mp (Option.map_eq_none_iff.mp kept) account member
  simpa [used] using passed

/-- The row of an account, as `update` writes it. -/
theorem mem_updatedRows {pool : AccountPool} {rows : List StoredAccount} {newId : Nat → String}
    {row : StoredAccount} (member : row ∈ rows) :
    ∃ kept ∈ updatedRows pool rows newId, kept.username = Text.trim row.username ∧
      kept.enabled = row.enabled ∧ kept.purpose = row.purpose := by
  obtain ⟨index, at_⟩ := List.mem_iff_getElem?.mp member
  refine ⟨AccountPool.restoredRow pool.document.accounts (newId index) row, ?_, rfl, rfl, rfl⟩
  refine List.mem_iff_getElem?.mpr ⟨index, ?_⟩
  rw [updatedRows, List.getElem?_mapIdx, at_]
  rfl

variable {pool : AccountPool} {file env : String → Option String} {instances : List WatchInstance}
  {document answer : AccountDocument} {newId : Nat → String} {now : DateTime}
  {fault : Option PersistFault}

/-- An accepted document passed both guards, and was then written by `update`. -/
theorem putAccounts_ok
    (accepted : (putAccounts lower pool file env instances document newId now fault).1 = .ok answer) :
    (∀ row ∈ document.accounts,
      lower row.username ∈ referencedAccounts lower ⟨pool.document, file, env⟩ instances →
        row.enabled = true ∧ row.purpose = .watch) ∧
      takenFromACollector lower pool.document document
        (referencedAccounts lower ⟨pool.document, file, env⟩ instances) = none ∧
      (pool.update lower document newId now fault).1 = .ok answer ∧
      (putAccounts lower pool file env instances document newId now fault).2 =
        (pool.update lower document newId now fault).2 := by
  unfold putAccounts at accepted ⊢
  dsimp only at accepted ⊢
  split at accepted
  · cases accepted
  · rename_i switched
    split at accepted
    · cases accepted
    · rename_i kept
      refine ⟨?_, kept, accepted, rfl⟩
      intro row member used
      have passed := List.find?_eq_none.mp switched row member
      simpa [used] using passed

/-- **The account page cannot take a collector's account.**  After an accepted save, every
account that an instance resolves to is stored under the name it had, trimmed and up to
letter case, switched on and filed under live collection. -/
theorem putAccounts_keeps (ascii : ∀ a b, eqIgnoreAsciiCase a b = true → lower a = lower b)
    (accepted : (putAccounts lower pool file env instances document newId now fault).1 = .ok answer)
    {account : StoredAccount} (stored : account ∈ pool.document.accounts)
    {instance_ : WatchInstance} (configured : instance_ ∈ instances)
    (resolves : ResolvesTo lower ⟨pool.document, file, env⟩ instance_ account) :
    ∃ kept ∈ (putAccounts lower pool file env instances document newId now fault).2.document.accounts,
      eqIgnoreAsciiCase kept.username (Text.trim account.username) = true ∧
        kept.enabled = true ∧ kept.purpose = .watch := by
  obtain ⟨guarded, untaken, updated, same⟩ := putAccounts_ok accepted
  have used := resolves.referenced configured
  obtain ⟨row, submitted, spelled⟩ := takenFromACollector_none untaken stored used
  obtain ⟨enabled, purpose⟩ := guarded row submitted (by rw [ascii _ _ spelled]; exact used)
  obtain ⟨kept, written, name, switch, half⟩ :=
    @mem_updatedRows pool _ newId _ submitted
  obtain ⟨-, -, rows⟩ := update_ok updated
  refine ⟨kept, ?_, ?_, switch.trans enabled, half.trans purpose⟩
  · rw [same, rows]
    exact written
  · rw [name]
    exact eqIgnoreAsciiCase_trim spelled

end Page

/-! ## One collector -/

def liveAccount (username : String) : StoredAccount :=
  { id := "1", username, password := "secret", purpose := .watch, enabled := true }

/-- A pool of one account under live collection. -/
def onePool (username : String) : AccountPool :=
  ⟨{ accounts := [liveAccount username] }, some { accounts := [liveAccount username] }⟩

def poolSecrets (pool : AccountPool) : Secrets := { document := pool.document }

def collectorOn (accountSecretRef : String) : WatchInstance :=
  { id := "default", key := "default", accountSecretRef }

/-- A save of the page with one collector, which goes through to the disk. -/
def pageSave (pool : AccountPool) (accountSecretRef : String) (document : AccountDocument) :
    Except WatchServiceError AccountDocument × AccountPool :=
  putAccounts asciiLowerCase pool (fun _ => none) (fun _ => none) [collectorOn accountSecretRef]
    document (fun _ => "2") Accounts.epoch none

/-- The account's row in another case, behind a new one. -/
def retyped : AccountDocument where
  accounts :=
    [{ username := " other@x.com ", password := "typed", purpose := .refetch, enabled := true },
      { liveAccount "Live@x.com" with password := "***" }]

theorem putAccounts_keeps_retyped :
    ∃ kept ∈ (pageSave (onePool "live@x.com") "pool:watch/LIVE@x.com" retyped).2.document.accounts,
      eqIgnoreAsciiCase kept.username (Text.trim (liveAccount "live@x.com").username) = true ∧
        kept.enabled = true ∧ kept.purpose = .watch := by
  have accepted : (pageSave (onePool "live@x.com") "pool:watch/LIVE@x.com" retyped).1 =
      .ok (pageSave (onePool "live@x.com") "pool:watch/LIVE@x.com" retyped).2.document.published := by
    decide +kernel
  have resolves : ResolvesTo asciiLowerCase (poolSecrets (onePool "live@x.com"))
      (collectorOn "pool:watch/LIVE@x.com") (liveAccount "live@x.com") :=
    ⟨("live@x.com", "secret"), by decide +kernel, rfl⟩
  have stored : liveAccount "live@x.com" ∈ (onePool "live@x.com").document.accounts :=
    List.mem_singleton.mpr rfl
  have configured : collectorOn "pool:watch/LIVE@x.com" ∈ [collectorOn "pool:watch/LIVE@x.com"] :=
    List.mem_singleton.mpr rfl
  have ascii : ∀ a b, eqIgnoreAsciiCase a b = true → asciiLowerCase a = asciiLowerCase b := by
    intro a b same
    rw [asciiLowerCase, asciiLowerCase, eq_of_beq same]
  exact putAccounts_keeps ascii accepted stored configured resolves

/-- **A name that was stored with a blank before it loses the blank**, and the reference that
spells it so resolves no more. -/
theorem paddedName_trimmed :
    AccountPool.openFrom asciiLowerCase (onePool " live@x.com").disk = .ok (onePool " live@x.com") ∧
    ResolvesTo asciiLowerCase (poolSecrets (onePool " live@x.com"))
      (collectorOn "pool:watch/ live@x.com") (liveAccount " live@x.com") ∧
    ∃ answer final,
      pageSave (onePool " live@x.com") "pool:watch/ live@x.com"
        (onePool " live@x.com").document.published = (.ok answer, final) ∧
      (∀ kept ∈ final.document.accounts, eqIgnoreAsciiCase kept.username " live@x.com" = false) ∧
      (loadFirstAccount (poolSecrets final) "pool:watch/ live@x.com").isOk = false := by
  refine ⟨by decide +kernel, ⟨(" live@x.com", "secret"), by decide +kernel, rfl⟩, ?_⟩
  refine ⟨(pageSave (onePool " live@x.com") "pool:watch/ live@x.com"
      (onePool " live@x.com").document.published).2.document.published, _,
    Prod.ext ?_ rfl, ?_, ?_⟩
  · decide +kernel
  · decide +kernel
  · decide +kernel

end MajsoulManager.Watch
