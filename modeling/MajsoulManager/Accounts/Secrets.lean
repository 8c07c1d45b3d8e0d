/-
# Accounts.Secrets — the accounts a reference names

`load_accounts` of `managed_watch.rs`.  A reference is `file:`, `env:` or `pool:`; the
first two name a text with one account a line, the last the console's own document.  A
collector takes the first account of its reference, the re-fetch pool all of its own.
-/
import MajsoulManager.Accounts.Pool

namespace MajsoulManager.Accounts

open MajsoulManager.Theory
open AccountPool

set_option autoImplicit false

/-- What the references of a deployment are read from: the pool's document, the files
that can be read as text, and the environment. -/
structure Secrets where
  document : AccountDocument := {}
  file : String → Option String := fun _ => none
  env : String → Option String := fun _ => none

/-- One line of a secret: `username,password`, or with a tab between them. -/
def accountOfLine (line : String) : Option (String × String) :=
  let line := Text.trim line
  if line = "" ∨ line.toList.head? = some '#' then none
  else
    let delimiter := if line.toList.contains '\t' then '\t' else ','
    match Text.splitOnce line delimiter with
    | none => none
    | some (username, password) =>
        let username := Text.trim username
        let password := Text.trim password
        if username ≠ "" ∧ password ≠ "" then some (username, password) else none

/-- The accounts of a text, in its order; a line that is none is skipped. -/
def accountsOfText (content : String) : Except String (List (String × String)) :=
  match (Text.lines content).filterMap accountOfLine with
  | [] => .error "account secret contains no usable account"
  | accounts => .ok accounts

def loadAccounts (secrets : Secrets) (secretRef : String) : Except String (List (String × String)) :=
  match Text.splitOnce secretRef ':' with
  | none => .error "account secret reference has no scheme"
  | some (scheme, target) =>
      if scheme = "file" then
        match secrets.file target with
        | none => .error
            s!"读不到账号文件 {target}（容器里没挂这个路径？账号在控制台「账号池」页里的话，把引用改成 pool:refetch 或 pool:watch/账号）"
        | some content => accountsOfText content
      else if scheme = "env" then
        match secrets.env target with
        | none => .error s!"account secret environment variable {target} is missing"
        | some content => accountsOfText content
      else if scheme = "pool" then
        match PoolRef.parse target with
        | none => .error s!"账号池引用 pool:{target} 写法不对"
        | some reference =>
            match resolve secrets.document reference with
            | [] => .error s!"账号池里没有 pool:{target} 指向的可用账号（可能被停用或已删除）"
            | accounts => .ok accounts
      else .error "unsupported account secret scheme"

/-- The account a collector logs in with. -/
def loadFirstAccount (secrets : Secrets) (secretRef : String) : Except String (String × String) :=
  match loadAccounts secrets secretRef with
  | .error error => .error error
  | .ok [] => .error "account secret contains no usable account"
  | .ok (first :: _) => .ok first

theorem accountsOfText_ne_nil {content : String} {accounts : List (String × String)}
    (read : accountsOfText content = .ok accounts) : accounts ≠ [] := by
  unfold accountsOfText at read
  split at read
  · cases read
  · rename_i found
    cases read
    exact found

/-- A reference that resolves names an account: taking the first cannot fail. -/
theorem loadAccounts_ne_nil {secrets : Secrets} {secretRef : String}
    {accounts : List (String × String)} (loaded : loadAccounts secrets secretRef = .ok accounts) :
    accounts ≠ [] := by
  unfold loadAccounts at loaded
  split at loaded
  · cases loaded
  split at loaded
  · split at loaded
    · cases loaded
    · exact accountsOfText_ne_nil loaded
  split at loaded
  · split at loaded
    · cases loaded
    · exact accountsOfText_ne_nil loaded
  split at loaded
  · split at loaded
    · cases loaded
    · split at loaded
      · cases loaded
      · rename_i found
        cases loaded
        exact found
  · cases loaded

theorem loadFirstAccount_ok {secrets : Secrets} {secretRef : String} {account : String × String} :
    loadFirstAccount secrets secretRef = .ok account ↔
      ∃ rest, loadAccounts secrets secretRef = .ok (account :: rest) := by
  unfold loadFirstAccount
  split
  · rename_i failed
    simp [failed]
  · rename_i loaded
    simp [loaded]
  · rename_i first rest loaded
    simp [loaded]

end MajsoulManager.Accounts
