/-
# Auth.Store — the console's users and their sessions

`auth.rs`.  One document of users, settings and verification links, in memory and in
`auth.json`, and a table of sessions that is only in memory.  Every operation that changes
the document does so in place under the write lock and persists it before it lets go; a
write that fails leaves the change in memory.

Operations are built from the sections they run under one lock: `signIn`, `enroll`,
`withdraw`, `verifyEmail`, `create`, `update`, `configure`.  A section takes the clock, the
ids and tokens it draws and whether its write succeeds.  SHA-256 is a parameter.
-/
import MajsoulManager.Store.Catalog
import MajsoulManager.Theory.Edits
import MajsoulManager.Theory.Utf8

namespace MajsoulManager.Auth

open MajsoulManager.Theory
open MajsoulManager.Store (Bytes Uuid beBytes hexDigit hexEncode)

set_option autoImplicit false

/-! ## The document -/

/-- Nanoseconds since the epoch. -/
abbrev Instant := Int

def seconds (n : Int) : Instant := n * 1000000000

inductive UserRole where
  | admin
  | member
  deriving DecidableEq, Repr

inductive UserStatus where
  | pendingVerification
  | active
  | disabled
  deriving DecidableEq, Repr

structure UserView where
  id : Uuid
  email : String
  name : String
  role : UserRole
  status : UserStatus
  emailVerifiedAt : Option Instant
  lastLoginAt : Option Instant
  createdAt : Instant
  deriving DecidableEq, Repr

structure StoredUser where
  id : Uuid
  email : String
  name : String
  role : UserRole
  status : UserStatus
  passwordHash : String
  emailVerifiedAt : Option Instant
  lastLoginAt : Option Instant
  createdAt : Instant
  deriving DecidableEq, Repr

def StoredUser.view (user : StoredUser) : UserView :=
  ⟨user.id, user.email, user.name, user.role, user.status, user.emailVerifiedAt, user.lastLoginAt,
    user.createdAt⟩

structure AuthSettings where
  registrationEnabled : Bool
  deriving DecidableEq, Repr

structure Verification where
  userId : Uuid
  tokenHash : String
  expiresAt : Instant
  deriving DecidableEq, Repr

structure StoredAuth where
  settings : AuthSettings
  users : List StoredUser
  verifications : List Verification
  deriving DecidableEq, Repr

structure Session where
  userId : Uuid
  expiresAt : Instant
  deriving DecidableEq, Repr

structure LoginRequest where
  email : String
  password : String

structure RegisterRequest where
  name : String
  email : String
  password : String

structure VerifyEmailRequest where
  token : String

structure CreateUserRequest where
  name : String
  email : String
  password : String
  role : UserRole

structure UpdateUserRequest where
  name : Option String
  role : Option UserRole
  status : Option UserStatus

structure LoginResponse where
  sessionToken : String
  expiresAt : Instant
  user : UserView

structure RegistrationStatus where
  registrationEnabled : Bool
  emailDeliveryConfigured : Bool
  deriving DecidableEq, Repr

inductive AuthError where
  | invalidCredentials
  | emailNotVerified
  | disabled
  | registrationDisabled
  | emailUnavailable
  | emailExists
  | invalidVerification
  | notFound
  | forbidden
  | invalidInput (message : String)
  | io
  | json
  | email (message : String)
  deriving DecidableEq, Repr

/-! ## Checks -/

def normalizeEmail (value : String) : Except AuthError String :=
  let value := String.ofList ((Text.trim value).toList.map Char.toLower)
  if value.utf8ByteSize > 254 || !value.toList.contains '@' || value.toList.head? == some '@' then
    .error (.invalidInput "email address is invalid")
  else .ok value

def validateName (value : String) : Except AuthError String :=
  let value := Text.trim value
  if value = "" ∨ value.toList.length > 80 then
    .error (.invalidInput "name must be between 1 and 80 characters")
  else .ok value

def validatePassword (value : String) : Except AuthError Unit :=
  if value.utf8ByteSize < 10 ∨ value.utf8ByteSize > 128 then
    .error (.invalidInput "password must be between 10 and 128 characters")
  else .ok ()

def nonEmpty (value : Option String) : Option String :=
  (value.map Text.trim).filter (· != "")

/-! ## Passwords and tokens -/

section Secrets

variable (sha256 : Bytes → Vector UInt8 32)

def blockKey (key : Bytes) : Bytes :=
  let key := if key.length ≤ 64 then key else (sha256 key).toList
  key ++ List.replicate (64 - key.length) 0

def hmacSha256 (key message : Bytes) : Bytes :=
  let inner := sha256 ((blockKey sha256 key).map (· ^^^ 0x36) ++ message)
  (sha256 ((blockKey sha256 key).map (· ^^^ 0x5c) ++ inner.toList)).toList

@[irreducible] def pbkdf2Sha256 (password salt : Bytes) (iterations : Nat) : Bytes :=
  let first := hmacSha256 sha256 password (salt ++ beBytes 1)
  ((List.range (iterations - 1)).foldl
    (fun (rounds : Bytes × Bytes) _ =>
      let previous := hmacSha256 sha256 password rounds.1
      (previous, List.zipWith (· ^^^ ·) rounds.2 previous))
    (first, first)).2

def hashScheme : List Char := "pbkdf2-sha256".toList

def hashIterations : Nat := 120000

def hashPassword (salt : Uuid) (value : String) : Except AuthError String :=
  match validatePassword value with
  | .error error => .error error
  | .ok () =>
      .ok (String.ofList (Text.joinWith '$' [hashScheme, Nat.toDigits 10 hashIterations,
        (hexEncode salt.bytes).toList,
        (hexEncode (pbkdf2Sha256 sha256 (Text.utf8 value) salt.bytes hashIterations)).toList]))

def hexNibble (c : Char) : Option Nat :=
  if '0' ≤ c ∧ c ≤ '9' then some (c.toNat - 48)
  else if 'a' ≤ c ∧ c ≤ 'f' then some (c.toNat - 87)
  else if 'A' ≤ c ∧ c ≤ 'F' then some (c.toNat - 55)
  else none

/-- `hex::decode`: pairs of digits of either case. -/
def hexDecode : List Char → Option Bytes
  | [] => some []
  | [_] => none
  | high :: low :: rest =>
      match hexNibble high, hexNibble low, hexDecode rest with
      | some high, some low, some bytes => some (UInt8.ofNat (16 * high + low) :: bytes)
      | _, _, _ => none

/-- `parse::<u32>`. -/
def parseU32 (digits : List Char) : Option Nat := Text.parseUnsigned 32 digits

def verifyPassword (hash value : String) : Except AuthError Unit :=
  if value.utf8ByteSize > 128 then .error .invalidCredentials
  else
    match Text.splitChars '$' hash.toList with
    | [scheme, iterations, salt, expected] =>
        if scheme ≠ hashScheme then .error .invalidCredentials
        else
          match parseU32 iterations with
          | none => .error .invalidCredentials
          | some iterations =>
              if iterations < 10000 ∨ 1000000 < iterations then .error .invalidCredentials
              else
                match hexDecode salt, hexDecode expected with
                | some salt, some expected =>
                    if expected = pbkdf2Sha256 sha256 (Text.utf8 value) salt iterations then .ok ()
                    else .error .invalidCredentials
                | _, _ => .error .invalidCredentials
    | _ => .error .invalidCredentials

def hashToken (value : String) : String := hexEncode (sha256 (Text.utf8 value)).toList

end Secrets

/-! ## The store -/

/-- The document in memory, the one `auth.json` holds, and the sessions by the hash of
their token. -/
structure AuthStore where
  state : StoredAuth
  disk : StoredAuth
  sessions : String → Option Session
  emailApiUrl : Option String

/-- What a request that is let through makes of a user. -/
def UpdateUserRequest.apply (request : UpdateUserRequest) (name : Option String)
    (user : StoredUser) : StoredUser :=
  { user with
    name := name.getD user.name
    role := request.role.getD user.role
    status := request.status.getD user.status }

namespace AuthStore

section

variable (sha256 : Bytes → Vector UInt8 32)

/-- `AuthStore::new`: `found` is what became of reading `auth.json`. -/
def new (found : Except AuthError (Option StoredAuth)) (adminEmail adminPassword : String)
    (emailApiUrl : Option String) (id salt : Uuid) (now : Instant) (writes : Bool) :
    Except AuthError AuthStore :=
  match found with
  | .error error => .error error
  | .ok (some state) => .ok ⟨state, state, fun _ => none, nonEmpty emailApiUrl⟩
  | .ok none =>
      match normalizeEmail adminEmail, hashPassword sha256 salt adminPassword with
      | .error error, _ => .error error
      | _, .error error => .error error
      | .ok email, .ok hash =>
          let admin : StoredUser :=
            ⟨id, email, "Administrator", .admin, .active, hash, some now, none, now⟩
          let state : StoredAuth := ⟨⟨false⟩, [admin], []⟩
          if writes then .ok ⟨state, state, fun _ => none, nonEmpty emailApiUrl⟩ else .error .io

/-- The end every section shares: `auth.json` is renamed into place, or is as it was. -/
def persist {α : Type} (s : AuthStore) (writes : Bool) (answer : α) : Except AuthError α × AuthStore :=
  if writes then (.ok answer, { s with disk := s.state }) else (.error .io, s)

def registrationStatus (s : AuthStore) : RegistrationStatus :=
  ⟨s.state.settings.registrationEnabled, s.emailApiUrl.isSome⟩

/-- The first user a search finds is edited in place. -/
def editUser (s : AuthStore) (p : StoredUser → Bool) (edit : StoredUser → StoredUser) : AuthStore :=
  { s with state := { s.state with users := s.state.users.modify (s.state.users.findIdx p) edit } }

/-! ### Login and sessions -/

def stamp (now : Instant) (user : StoredUser) : StoredUser := { user with lastLoginAt := some now }

/-- What `login` does under the write lock. -/
def signIn (s : AuthStore) (request : LoginRequest) (now : Instant) (writes : Bool) :
    Except AuthError UserView × AuthStore :=
  match normalizeEmail request.email with
  | .error error => (.error error, s)
  | .ok email =>
      match s.state.users.find? (·.email == email) with
      | none => (.error .invalidCredentials, s)
      | some user =>
          match verifyPassword sha256 user.passwordHash request.password with
          | .error error => (.error error, s)
          | .ok () =>
              match user.status with
              | .pendingVerification => (.error .emailNotVerified, s)
              | .disabled => (.error .disabled, s)
              | .active =>
                  (s.editUser (·.email == email) (stamp now)).persist writes (stamp now user).view

def openSession (s : AuthStore) (token : String) (userId : Uuid) (now : Instant) : AuthStore :=
  { s with
    sessions := Function.update s.sessions (hashToken sha256 token)
      (some ⟨userId, now + seconds (7 * 86400)⟩) }

def login (s : AuthStore) (request : LoginRequest) (token : String) (now : Instant) (writes : Bool) :
    Except AuthError LoginResponse × AuthStore :=
  match s.signIn sha256 request now writes with
  | (.error error, t) => (.error error, t)
  | (.ok view, t) =>
      (.ok ⟨token, now + seconds (7 * 86400), view⟩, t.openSession sha256 token view.id now)

def userForSession (s : AuthStore) (token : String) (now : Instant) : Except AuthError UserView :=
  match s.sessions (hashToken sha256 token) with
  | none => .error .invalidCredentials
  | some session =>
      if session.expiresAt ≤ now then .error .invalidCredentials
      else
        match s.state.users.find? (·.id == session.userId) with
        | none => .error .invalidCredentials
        | some user => if user.status ≠ .active then .error .disabled else .ok user.view

def logout (s : AuthStore) (token : String) : AuthStore :=
  { s with sessions := Function.update s.sessions (hashToken sha256 token) none }

/-! ### Registration -/

/-- What is left of a registration that passed the checks. -/
structure Enrolment where
  email : String
  name : String
  password : String

def registerCheck (s : AuthStore) (request : RegisterRequest) : Except AuthError Enrolment :=
  if !s.state.settings.registrationEnabled then .error .registrationDisabled
  else if s.emailApiUrl.isNone then .error .emailUnavailable
  else do
    validatePassword request.password
    let email ← normalizeEmail request.email
    let name ← validateName request.name
    .ok ⟨email, name, request.password⟩

def enroll (s : AuthStore) (enrolment : Enrolment) (id salt : Uuid) (token : String) (now : Instant)
    (writes : Bool) : Except AuthError Unit × AuthStore :=
  if s.state.users.any (·.email == enrolment.email) then (.error .emailExists, s)
  else
    match hashPassword sha256 salt enrolment.password with
    | .error error => (.error error, s)
    | .ok hash =>
        let user : StoredUser := ⟨id, enrolment.email, enrolment.name, .member, .pendingVerification,
          hash, none, none, now⟩
        let verification : Verification := ⟨id, hashToken sha256 token, now + seconds (24 * 3600)⟩
        persist
          { s with
            state := { s.state with
              users := s.state.users ++ [user]
              verifications := s.state.verifications ++ [verification] } }
          writes ()

/-- The undo of a registration whose mail could not be sent. -/
def withdraw (s : AuthStore) (id : Uuid) (writes : Bool) : Except AuthError Unit × AuthStore :=
  persist
    { s with
      state := { s.state with
        users := s.state.users.filter (·.id != id)
        verifications := s.state.verifications.filter (·.userId != id) } }
    writes ()

/-- `failure` is the error of a delivery that failed. -/
def register (s : AuthStore) (request : RegisterRequest) (id salt : Uuid) (token : String)
    (now : Instant) (writes : Bool) (failure : Option String) (undoes : Bool) :
    Except AuthError Unit × AuthStore :=
  match s.registerCheck request with
  | .error error => (.error error, s)
  | .ok enrolment =>
      match s.enroll sha256 enrolment id salt token now writes, failure with
      | (.error error, t), _ => (.error error, t)
      | (.ok (), t), none => (.ok (), t)
      | (.ok (), t), some message =>
          match t.withdraw id undoes with
          | (.error error, u) => (.error error, u)
          | (.ok (), u) => (.error (.email message), u)

def confirm (now : Instant) (user : StoredUser) : StoredUser :=
  { user with status := .active, emailVerifiedAt := some now }

/-- The link a token is for, while it is good. -/
def findVerification (s : AuthStore) (request : VerifyEmailRequest) (now : Instant) :
    Option Verification :=
  s.state.verifications.find? fun item =>
    item.tokenHash == hashToken sha256 request.token && decide (now < item.expiresAt)

def verifyEmail (s : AuthStore) (request : VerifyEmailRequest) (now : Instant) (writes : Bool) :
    Except AuthError Unit × AuthStore :=
  match s.findVerification sha256 request now with
  | none => (.error .invalidVerification, s)
  | some verification =>
      match s.state.users.find? (·.id == verification.userId) with
      | none => (.error .invalidVerification, s)
      | some _ =>
          let t := s.editUser (·.id == verification.userId) (confirm now)
          persist
            { t with
              state := { t.state with
                verifications := t.state.verifications.filter (·.userId != verification.userId) } }
            writes ()

/-! ### Administration -/

def requireAdmin (s : AuthStore) (token : String) (now : Instant) : Except AuthError UserView :=
  match s.userForSession sha256 token now with
  | .error error => .error error
  | .ok user => if user.role ≠ .admin then .error .forbidden else .ok user

def users (s : AuthStore) (token : String) (now : Instant) : Except AuthError (List UserView) :=
  (s.requireAdmin sha256 token now).map fun _ => s.state.users.map (·.view)

def settings (s : AuthStore) (token : String) (now : Instant) : Except AuthError RegistrationStatus :=
  (s.requireAdmin sha256 token now).map fun _ => s.registrationStatus

/-- `create_user`, past the permission. -/
def create (s : AuthStore) (request : CreateUserRequest) (id salt : Uuid) (now : Instant)
    (writes : Bool) : Except AuthError UserView × AuthStore :=
  match validatePassword request.password, normalizeEmail request.email with
  | .error error, _ => (.error error, s)
  | _, .error error => (.error error, s)
  | .ok (), .ok email =>
      if s.state.users.any (·.email == email) then (.error .emailExists, s)
      else
        match validateName request.name, hashPassword sha256 salt request.password with
        | .error error, _ => (.error error, s)
        | _, .error error => (.error error, s)
        | .ok name, .ok hash =>
            let user : StoredUser :=
              ⟨id, email, name, request.role, .active, hash, some now, none, now⟩
            persist { s with state := { s.state with users := s.state.users ++ [user] } } writes
              user.view

def createUser (s : AuthStore) (token : String) (request : CreateUserRequest) (id salt : Uuid)
    (now : Instant) (writes : Bool) : Except AuthError UserView × AuthStore :=
  match s.requireAdmin sha256 token now with
  | .error error => (.error error, s)
  | .ok _ => s.create sha256 request id salt now writes

/-- `update_user`, past the permission: `admin` is who it was given to. -/
def update (s : AuthStore) (admin : UserView) (id : Uuid) (request : UpdateUserRequest)
    (writes : Bool) : Except AuthError UserView × AuthStore :=
  match s.state.users.find? (·.id == id) with
  | none => (.error .notFound, s)
  | some user =>
      if user.id = admin.id ∧ request.status = some .disabled then
        (.error (.invalidInput "you cannot disable your own account"), s)
      else if user.id = admin.id ∧ request.role = some .member then
        (.error (.invalidInput "you cannot remove your own administrator role"), s)
      else
        match request.name.mapM validateName with
        | .error error => (.error error, s)
        | .ok name =>
            (s.editUser (·.id == id) (request.apply name)).persist writes (request.apply name user).view

def updateUser (s : AuthStore) (token : String) (id : Uuid) (request : UpdateUserRequest)
    (now : Instant) (writes : Bool) : Except AuthError UserView × AuthStore :=
  match s.requireAdmin sha256 token now with
  | .error error => (.error error, s)
  | .ok admin => s.update admin id request writes

/-- `update_settings`, past the permission. -/
def configure (s : AuthStore) (settings : AuthSettings) (writes : Bool) :
    Except AuthError RegistrationStatus × AuthStore :=
  if settings.registrationEnabled && s.emailApiUrl.isNone then (.error .emailUnavailable, s)
  else
    persist { s with state := { s.state with settings := settings } } writes
      ⟨settings.registrationEnabled, s.emailApiUrl.isSome⟩

def updateSettings (s : AuthStore) (token : String) (settings : AuthSettings) (now : Instant)
    (writes : Bool) : Except AuthError RegistrationStatus × AuthStore :=
  match s.requireAdmin sha256 token now with
  | .error error => (.error error, s)
  | .ok _ => s.configure settings writes

end

/-! ## What a section can do -/

section

variable (sha256 : Bytes → Vector UInt8 32) (s : AuthStore)

@[simp] theorem persist_state {α : Type} (writes : Bool) (answer : α) :
    (s.persist writes answer).2.state = s.state := by
  unfold persist
  split <;> rfl

@[simp] theorem persist_sessions {α : Type} (writes : Bool) (answer : α) :
    (s.persist writes answer).2.sessions = s.sessions := by
  unfold persist
  split <;> rfl

theorem signIn_cases (request : LoginRequest) (now : Instant) (writes : Bool) :
    (∃ error, s.signIn sha256 request now writes = (.error error, s)) ∨
      ∃ email user, s.state.users.find? (·.email == email) = some user ∧ user.status = .active ∧
        s.signIn sha256 request now writes =
          (s.editUser (·.email == email) (stamp now)).persist writes (stamp now user).view := by
  unfold signIn
  split
  · exact .inl ⟨_, rfl⟩
  · rename_i email _
    split
    · exact .inl ⟨_, rfl⟩
    · rename_i user found
      split
      · exact .inl ⟨_, rfl⟩
      · split
        · exact .inl ⟨_, rfl⟩
        · exact .inl ⟨_, rfl⟩
        · rename_i active
          exact .inr ⟨email, user, found, active, rfl⟩

theorem enroll_cases (enrolment : Enrolment) (id salt : Uuid) (token : String) (now : Instant)
    (writes : Bool) :
    (∃ error, s.enroll sha256 enrolment id salt token now writes = (.error error, s)) ∨
      ∃ user verification, user.id = id ∧ user.role = .member ∧ user.status = .pendingVerification ∧
        verification.userId = id ∧ (∀ other ∈ s.state.users, other.email ≠ user.email) ∧
        s.enroll sha256 enrolment id salt token now writes =
          persist
            { s with
              state := { s.state with
                users := s.state.users ++ [user]
                verifications := s.state.verifications ++ [verification] } }
            writes () := by
  unfold enroll
  split
  · exact .inl ⟨_, rfl⟩
  · rename_i unknown
    split
    · exact .inl ⟨_, rfl⟩
    · refine .inr ⟨_, _, rfl, rfl, rfl, rfl, ?_, rfl⟩
      simpa using unknown

theorem verifyEmail_cases (request : VerifyEmailRequest) (now : Instant) (writes : Bool) :
    (∃ error, s.verifyEmail sha256 request now writes = (.error error, s)) ∨
      ∃ verification, s.findVerification sha256 request now = some verification ∧
        s.verifyEmail sha256 request now writes =
          persist
            { (s.editUser (·.id == verification.userId) (confirm now)) with
              state := { (s.editUser (·.id == verification.userId) (confirm now)).state with
                verifications := s.state.verifications.filter (·.userId != verification.userId) } }
            writes () := by
  unfold verifyEmail
  split
  · exact .inl ⟨_, rfl⟩
  · rename_i verification found
    split
    · exact .inl ⟨_, rfl⟩
    · exact .inr ⟨verification, found, rfl⟩

theorem create_cases (request : CreateUserRequest) (id salt : Uuid) (now : Instant) (writes : Bool) :
    (∃ error, s.create sha256 request id salt now writes = (.error error, s)) ∨
      ∃ user, user.id = id ∧ (∀ other ∈ s.state.users, other.email ≠ user.email) ∧
        s.create sha256 request id salt now writes =
          persist { s with state := { s.state with users := s.state.users ++ [user] } } writes
            user.view := by
  unfold create
  split
  · exact .inl ⟨_, rfl⟩
  · exact .inl ⟨_, rfl⟩
  · split
    · exact .inl ⟨_, rfl⟩
    · rename_i unknown
      split
      · exact .inl ⟨_, rfl⟩
      · exact .inl ⟨_, rfl⟩
      · refine .inr ⟨_, rfl, ?_, rfl⟩
        simpa using unknown

theorem update_cases (admin : UserView) (id : Uuid) (request : UpdateUserRequest) :
    (∀ writes, ∃ error, s.update admin id request writes = (.error error, s)) ∨
      ∃ user name, s.state.users.find? (·.id == id) = some user ∧
        (id = admin.id → request.status ≠ some .disabled ∧ request.role ≠ some .member) ∧
        ∀ writes, s.update admin id request writes =
          (s.editUser (·.id == id) (request.apply name)).persist writes
            (request.apply name user).view := by
  unfold update
  split
  · exact .inl fun _ => ⟨_, rfl⟩
  · rename_i user found
    have same : user.id = id := by simpa using List.find?_some found
    rw [same]
    by_cases own : id = admin.id ∧ request.status = some .disabled
    · exact .inl fun _ => ⟨_, if_pos own⟩
    · by_cases demoted : id = admin.id ∧ request.role = some .member
      · refine .inl fun _ => ⟨.invalidInput "you cannot remove your own administrator role", ?_⟩
        rw [if_neg own, if_pos demoted]
      · cases named : request.name.mapM validateName with
        | error error =>
            refine .inl fun _ => ⟨error, ?_⟩
            rw [if_neg own, if_neg demoted]
        | ok name =>
            refine .inr ⟨user, name, found, ?_, fun _ => ?_⟩
            · intro mine
              exact ⟨fun off => own ⟨mine, off⟩, fun down => demoted ⟨mine, down⟩⟩
            · rw [if_neg own, if_neg demoted]

theorem configure_cases (settings : AuthSettings) (writes : Bool) :
    (∃ error, s.configure settings writes = (.error error, s)) ∨
      ∃ answer, s.configure settings writes =
        persist { s with state := { s.state with settings := settings } } writes answer := by
  unfold configure
  split
  · exact .inl ⟨_, rfl⟩
  · exact .inr ⟨_, rfl⟩

variable {sha256 s}

theorem signIn_ok (request : LoginRequest) (email : String) (user : StoredUser) (now : Instant)
    (writes : Bool) (normal : normalizeEmail request.email = .ok email)
    (found : s.state.users.find? (·.email == email) = some user)
    (verified : verifyPassword sha256 user.passwordHash request.password = .ok ())
    (active : user.status = .active) :
    s.signIn sha256 request now writes =
      (s.editUser (·.email == email) (stamp now)).persist writes (stamp now user).view := by
  unfold signIn
  simp only [normal, found, verified, active]

theorem login_ok {request : LoginRequest} {now : Instant} {writes : Bool} {view : UserView}
    {t : AuthStore} (signed : s.signIn sha256 request now writes = (.ok view, t)) (token : String) :
    s.login sha256 request token now writes =
      (.ok ⟨token, now + seconds (7 * 86400), view⟩, t.openSession sha256 token view.id now) := by
  unfold login
  rw [signed]

theorem login_error {request : LoginRequest} {now : Instant} {writes : Bool} {error : AuthError}
    {t : AuthStore} (signed : s.signIn sha256 request now writes = (.error error, t))
    (token : String) : s.login sha256 request token now writes = (.error error, t) := by
  unfold login
  rw [signed]

/-- The document of a first start. -/
theorem new_first {email password : String} {url : Option String} {id salt : Uuid} {now : Instant}
    {writes : Bool} {store : AuthStore}
    (made : new sha256 (.ok none) email password url id salt now writes = .ok store) :
    ∃ admin, store.state = ⟨⟨false⟩, [admin], []⟩ ∧ store.disk = store.state ∧ admin.id = id ∧
      admin.role = .admin ∧ admin.status = .active := by
  unfold new at made
  simp only at made
  split at made
  · cases made
  · cases made
  · split at made
    · rw [Except.ok.injEq] at made
      subst made
      exact ⟨_, rfl, rfl, rfl, rfl, rfl⟩
    · cases made

/-- A row of the edited table was in it, or is the edited one. -/
theorem mem_editUser {p : StoredUser → Bool} {edit : StoredUser → StoredUser} {user : StoredUser}
    (member : user ∈ (s.editUser p edit).state.users) :
    (∃ old ∈ s.state.users, p old = true ∧ user = edit old) ∨ user ∈ s.state.users := by
  rcases mem_modify_cases member with ⟨old, here, rfl⟩ | old
  · left
    obtain ⟨inside, rfl⟩ := List.getElem?_eq_some_iff.mp here
    exact ⟨_, List.getElem_mem inside, List.findIdx_getElem, rfl⟩
  · exact .inr old

theorem editUser_column {β : Type} {p : StoredUser → Bool} {edit : StoredUser → StoredUser}
    {column : StoredUser → β} (same : ∀ user, column (edit user) = column user) :
    (s.editUser p edit).state.users.map column = s.state.users.map column :=
  map_modify same

end

end AuthStore

/-! ## Passwords read back -/

theorem hexNibble_hexDigit {n : Nat} (small : n < 16) : hexNibble (hexDigit n) = some n := by
  have all : ∀ n : Fin 16, hexNibble (hexDigit n) = some n.val := by decide
  exact all ⟨n, small⟩

theorem hexDigit_ne_dollar {n : Nat} (small : n < 16) : hexDigit n ≠ '$' := by
  have all : ∀ n : Fin 16, hexDigit n ≠ '$' := by decide
  exact all ⟨n, small⟩

theorem hexDecode_hexEncode (bytes : Bytes) : hexDecode (hexEncode bytes).toList = some bytes := by
  rw [hexEncode, String.toList_ofList]
  induction bytes with
  | nil => rfl
  | cons byte rest ih =>
      have small := byte.toNat_lt
      have whole : 16 * (byte.toNat / 16) + byte.toNat % 16 = byte.toNat := Nat.div_add_mod ..
      simp only [List.flatMap_cons, List.cons_append, List.nil_append, hexDecode, ih,
        hexNibble_hexDigit (show byte.toNat / 16 < 16 by omega),
        hexNibble_hexDigit (show byte.toNat % 16 < 16 by omega), whole, UInt8.ofNat_toNat]

theorem dollar_not_mem_hexEncode (bytes : Bytes) : '$' ∉ (hexEncode bytes).toList := by
  rw [hexEncode, String.toList_ofList, List.mem_flatMap]
  rintro ⟨byte, -, member⟩
  have small := byte.toNat_lt
  rcases List.mem_pair.mp member with high | low
  · exact hexDigit_ne_dollar (show byte.toNat / 16 < 16 by omega) high.symm
  · exact hexDigit_ne_dollar (show byte.toNat % 16 < 16 by omega) low.symm

/-- The four parts of a stored hash, read back. -/
theorem verifyPassword_parts {sha256 : Bytes → Vector UInt8 32} {value : String} {digits : List Char}
    {iterations : Nat} (salt : Bytes) (short : value.utf8ByteSize ≤ 128)
    (parsed : parseU32 digits = some iterations) (plain : '$' ∉ digits)
    (low : 10000 ≤ iterations) (high : iterations ≤ 1000000) :
    verifyPassword sha256 (String.ofList (Text.joinWith '$' [hashScheme, digits, (hexEncode salt).toList,
      (hexEncode (pbkdf2Sha256 sha256 (Text.utf8 value) salt iterations)).toList])) value = .ok () := by
  unfold verifyPassword
  rw [if_neg (by omega), String.toList_ofList, Text.splitChars_joinWith (by simp)]
  · have inside : ¬ (iterations < 10000 ∨ 1000000 < iterations) := by omega
    simp [parsed, hexDecode_hexEncode, inside]
  · simp only [List.forall_mem_cons]
    refine ⟨by decide, plain, ?_, ?_, nofun⟩
    · exact dollar_not_mem_hexEncode _
    · exact dollar_not_mem_hexEncode _

/-- **A password is accepted for the hash that was stored for it.** -/
theorem verifyPassword_hashPassword {sha256 : Bytes → Vector UInt8 32} {salt : Uuid}
    {value hash : String} (hashed : hashPassword sha256 salt value = .ok hash) :
    verifyPassword sha256 hash value = .ok () := by
  unfold hashPassword at hashed
  split at hashed
  · cases hashed
  · rename_i valid
    rw [Except.ok.injEq] at hashed
    subst hashed
    have short : value.utf8ByteSize ≤ 128 := by
      unfold validatePassword at valid
      split at valid
      · cases valid
      · omega
    exact verifyPassword_parts salt.bytes short (by decide +kernel) (by decide +kernel)
      (by decide +kernel) (by decide +kernel)

end MajsoulManager.Auth
