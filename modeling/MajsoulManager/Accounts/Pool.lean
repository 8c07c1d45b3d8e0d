/-
# Accounts.Pool — the accounts the console edits

`accounts.rs`.  One document, in memory and on disk, and its writers: the console's
whole-document `update`, the registrar's `append`, `retireBanned` for an account that
answered 503, and the two that move accounts between nodes, `rebindNodes` and
`spreadOver`, which go through `update`.

Every writer builds a candidate document, writes it to a temporary file that is renamed
over the real one, and only then replaces the document in memory.  `lower` is the
Unicode lower case of the standard library; a call carries the clock it reads, the ids
it is given and the fault its write meets.
-/
import MajsoulManager.Theory.Text
import MajsoulManager.Theory.Time

namespace MajsoulManager.Accounts

open MajsoulManager.Theory

set_option autoImplicit false

/-! ## The document -/

inductive AccountPurpose where
  | watch
  | refetch
  deriving DecidableEq, Repr

structure StoredAccount where
  id : String := ""
  username : String
  password : String
  purpose : AccountPurpose
  note : String := ""
  enabled : Bool
  node : String := ""
  bannedAt : Option DateTime := none
  deriving DecidableEq, Repr

structure AccountDocument where
  revision : UInt64 := 0
  accounts : List StoredAccount := []
  updatedAt : Option DateTime := none
  deriving DecidableEq, Repr

/-- Where a write of the document can fail; the real path is renamed onto last. -/
inductive PersistFault where
  | serialise
  | write
  | permissions
  | rename
  deriving DecidableEq, Repr

inductive WatchServiceError where
  | invalidConfig (message : String)
  | revisionConflict (submitted current : UInt64)
  | io (fault : PersistFault)
  deriving DecidableEq, Repr

/-- `saturating_add(1)`. -/
def saturatingSucc (revision : UInt64) : UInt64 :=
  UInt64.ofNat (min (revision.toNat + 1) (2 ^ 64 - 1))

def asciiLower (text : String) : List Char := text.toList.map Char.toLower

/-- The lower case of a text without letters beyond ASCII. -/
def asciiLowerCase (text : String) : String := String.ofList (asciiLower text)

def eqIgnoreAsciiCase (a b : String) : Bool := asciiLower a == asciiLower b

def redactedSecret (value : Option String) : Option String :=
  (value.filter fun value => value != "").map fun _ => "***"

def restoredSecret (submitted stored : Option String) : Option String :=
  if submitted = some "***" then stored else submitted

/-- The only form that leaves the process. -/
def AccountDocument.published (document : AccountDocument) : AccountDocument :=
  { document with
    accounts := document.accounts.map fun account =>
      { account with password := (redactedSecret (some account.password)).getD "" } }

section Document

variable (lower : String → String)

/-- Who an account is: its username, trimmed, in lower case. -/
def identity (username : String) : String := lower (Text.trim username)

/-- The rows one by one, with the identities already seen. -/
def validateRows : List String → List StoredAccount → Except WatchServiceError Unit
  | _, [] => .ok ()
  | seen, account :: rest =>
      let username := Text.trim account.username
      if username = "" then .error (.invalidConfig "账号不能为空")
      else if username.toList.any Text.isWhitespace || username.toList.contains '/' then
        .error (.invalidConfig s!"账号 {username} 含有空白或 /，这两个都是引用里的分隔符")
      else if Text.trim account.password = "" then
        .error (.invalidConfig s!"账号 {username} 没有密码")
      else if lower username ∈ seen then
        .error (.invalidConfig
          s!"账号 {username} 出现了两次；雀魂一个账号只能开一个会话，两处同时用会互相把对方踢下线")
      else validateRows (lower username :: seen) rest

def AccountDocument.validate (document : AccountDocument) : Except WatchServiceError Unit :=
  validateRows lower [] document.accounts

end Document

/-! ## The pool -/

/-- The document in memory, and `pool.json`, if it is there. -/
structure AccountPool where
  document : AccountDocument
  disk : Option AccountDocument
  deriving DecidableEq, Repr

/-- `AccountPool::open`: a file that is not there is an empty document. -/
def AccountPool.openFrom (lower : String → String) (disk : Option AccountDocument) :
    Except WatchServiceError AccountPool :=
  match disk with
  | none => .ok ⟨{}, none⟩
  | some document => (document.validate lower).map fun _ => ⟨document, some document⟩

/-- `persist_secret_json`: a write that fails leaves the real path alone. -/
def persistSecretJson (value : AccountDocument) (fault : Option PersistFault) :
    Except WatchServiceError (Option AccountDocument) :=
  match fault with
  | none => .ok (some value)
  | some fault => .error (.io fault)

namespace AccountPool

/-- The end every writer shares: the disk first, then the memory. -/
def save {α : Type} (pool : AccountPool) (next : AccountDocument) (fault : Option PersistFault)
    (answer : α) : Except WatchServiceError α × AccountPool :=
  match persistSecretJson next fault with
  | .error error => (.error error, pool)
  | .ok disk => (.ok answer, ⟨next, disk⟩)

/-! ## Retiring and appending -/

/-- Only the pool's own accounts, and only while they are on. -/
def retireBanned (pool : AccountPool) (username : String) (bannedAt now : DateTime)
    (fault : Option PersistFault) : Except WatchServiceError Bool × AccountPool :=
  let accounts := pool.document.accounts
  let found := accounts.findIdx fun account =>
    eqIgnoreAsciiCase account.username (Text.trim username)
  match accounts[found]? with
  | none => (.ok false, pool)
  | some account =>
      if account.purpose ≠ .refetch ∨ account.enabled = false then (.ok false, pool)
      else
        pool.save
          { revision := saturatingSucc pool.document.revision
            accounts := accounts.modify found fun account =>
              { account with enabled := false, bannedAt := some bannedAt }
            updatedAt := some now }
          fault true

/-- The rows after the new ones: a username that is there already is skipped. -/
def appendRows (lower : String → String) (newId : Nat → String) :
    List String → List StoredAccount → List StoredAccount → List StoredAccount
  | _, rows, [] => rows
  | seen, rows, account :: rest =>
      let username := Text.trim account.username
      if username = "" ∨ lower username ∈ seen then appendRows lower newId seen rows rest
      else
        appendRows lower newId (lower username :: seen)
          (rows ++ [{ account with
            username := username
            id := if account.id = "" then newId rows.length else account.id }])
          rest

def append (lower : String → String) (pool : AccountPool) (accounts : List StoredAccount)
    (newId : Nat → String) (now : DateTime) (fault : Option PersistFault) :
    Except WatchServiceError Nat × AccountPool :=
  let current := pool.document.accounts
  let seen := current.map fun account => identity lower account.username
  let rows := appendRows lower newId seen current accounts
  let added := rows.length - current.length
  if added = 0 then (.ok 0, pool)
  else
    match validateRows lower [] rows with
    | .error error => (.error error, pool)
    | .ok () =>
        pool.save
          { revision := saturatingSucc pool.document.revision, accounts := rows
            updatedAt := some now }
          fault added

/-! ## The whole document -/

/-- A submitted row with what is not the console's to say put back: the password behind
the asterisks and the ban mark, from the stored row with its id. -/
def restoredRow (stored : List StoredAccount) (newId : String) (account : StoredAccount) :
    StoredAccount :=
  let previous := stored.find? fun row => row.id != "" && row.id == account.id
  { account with
    username := Text.trim account.username
    password := (restoredSecret (some account.password) (previous.map (·.password))).getD ""
    bannedAt := if account.enabled then none else previous.bind (·.bannedAt)
    id := if account.id = "" then newId else account.id }

def update (lower : String → String) (pool : AccountPool) (next : AccountDocument)
    (newId : Nat → String) (now : DateTime) (fault : Option PersistFault) :
    Except WatchServiceError AccountDocument × AccountPool :=
  if next.revision ≠ pool.document.revision then
    (.error (.revisionConflict next.revision pool.document.revision), pool)
  else
    let rows := next.accounts.mapIdx fun index account =>
      restoredRow pool.document.accounts (newId index) account
    match rows.find? fun account => account.password == "***" with
    | some account =>
        let username := account.username
        (.error (.invalidConfig
          s!"账号 {username} 是新加的，密码栏里的 *** 不是密码，请输入真正的密码"), pool)
    | none =>
        match validateRows lower [] rows with
        | .error error => (.error error, pool)
        | .ok () =>
            let document : AccountDocument :=
              { revision := saturatingSucc pool.document.revision, accounts := rows
                updatedAt := some now }
            pool.save document fault document.published

/-! ## The nodes -/

/-- One move: the first account of that name in the pool's half, if its node changes. -/
def rebindRow (state : List StoredAccount × Nat) (move : String × String) :
    List StoredAccount × Nat :=
  let found := state.1.findIdx fun account =>
    eqIgnoreAsciiCase account.username move.1 && account.purpose == .refetch
  match state.1[found]? with
  | none => state
  | some account =>
      if account.node = move.2 then state
      else (state.1.modify found fun account => { account with node := move.2 }, state.2 + 1)

def rebindNodes (lower : String → String) (pool : AccountPool) (moves : List (String × String))
    (newId : Nat → String) (now : DateTime) (fault : Option PersistFault) :
    Except WatchServiceError Nat × AccountPool :=
  if moves.isEmpty then (.ok 0, pool)
  else
    let rebound := moves.foldl rebindRow (pool.document.accounts, 0)
    let answered := pool.update lower { pool.document with accounts := rebound.1 } newId now fault
    (answered.1.map fun _ => rebound.2, answered.2)

/-- The accounts of the pool's half over the nodes in turn, from the `index`th on. -/
def spreadRows (nodes : List String) : Nat → List StoredAccount → List StoredAccount
  | _, [] => []
  | index, account :: rest =>
      if account.purpose = .refetch then
        { account with node := (nodes[index % nodes.length]?).getD "" } ::
          spreadRows nodes (index + 1) rest
      else account :: spreadRows nodes index rest

def spreadOver (lower : String → String) (pool : AccountPool) (nodes : List String)
    (newId : Nat → String) (now : DateTime) (fault : Option PersistFault) :
    Except WatchServiceError Nat × AccountPool :=
  let accounts := pool.document.accounts
  let spread := (accounts.filter fun account => account.purpose == .refetch).length
  let answered := pool.update lower { pool.document with accounts := spreadRows nodes 0 accounts }
    newId now fault
  (answered.1.map fun _ => spread, answered.2)

/-! ## Reading -/

/-- The part of a reference after `pool:`. -/
inductive PoolRef where
  | all (purpose : AccountPurpose)
  | one (purpose : AccountPurpose) (username : String)
  deriving DecidableEq, Repr

def parsePurpose (value : String) : Option AccountPurpose :=
  if value = "watch" then some .watch
  else if value = "refetch" then some .refetch
  else none

def PoolRef.parse (target : String) : Option PoolRef :=
  match Text.splitOnce target '/' with
  | some (purpose, username) =>
      if username = "" then none else (parsePurpose purpose).map fun purpose => .one purpose username
  | none => (parsePurpose target).map .all

/-- Whether a reference names an account of the document. -/
def PoolRef.names (reference : PoolRef) (account : StoredAccount) : Bool :=
  match reference with
  | .all purpose => account.purpose == purpose
  | .one purpose username => account.purpose == purpose && eqIgnoreAsciiCase account.username username

/-- The accounts a reference resolves to, those switched off dropped. -/
def resolve (document : AccountDocument) (reference : PoolRef) : List (String × String) :=
  ((document.accounts.filter (·.enabled)).filter reference.names).map fun account =>
    (account.username, account.password)

/-- Every username of a purpose, switched on or not. -/
def reserved (document : AccountDocument) (purpose : AccountPurpose) : List String :=
  (document.accounts.filter fun account => account.purpose == purpose).map (·.username)

end AccountPool

end MajsoulManager.Accounts
