/-
# Auth.Atomic — memory, disk and errors, call by call

Whole calls, one after the other.  Every operation changes the document in memory before
it writes it, and nothing takes the change back when the write fails.

`calls_atomic`: emails stay distinct whatever fails, and as long as no write fails memory
and disk agree after every call and a call that returns an error has changed neither; the
undo of a registration whose mail is not sent is exact.  `failed_write_kept` is a login
whose write fails.
-/
import MajsoulManager.Auth.Calls

namespace MajsoulManager.Auth

open MajsoulManager.Theory
open MajsoulManager.Store (Bytes Uuid)

set_option autoImplicit false

/-! ## Calls -/

/-- A call, with the clock, the ids and the tokens it draws and what becomes of its writes
and its mail. -/
inductive AuthOp where
  | login (request : LoginRequest) (token : String) (now : Instant) (writes : Bool)
  | logout (token : String)
  | register (request : RegisterRequest) (id salt : Uuid) (token : String) (now : Instant)
      (writes : Bool) (failure : Option String) (undoes : Bool)
  | verifyEmail (request : VerifyEmailRequest) (now : Instant) (writes : Bool)
  | createUser (token : String) (request : CreateUserRequest) (id salt : Uuid) (now : Instant)
      (writes : Bool)
  | updateUser (token : String) (id : Uuid) (request : UpdateUserRequest) (now : Instant)
      (writes : Bool)
  | updateSettings (token : String) (settings : AuthSettings) (now : Instant) (writes : Bool)

/-- The id a call draws for a user. -/
def AuthOp.draws : AuthOp → Option Uuid
  | .register _ id _ _ _ _ _ _ => some id
  | .createUser _ _ id _ _ _ => some id
  | _ => none

/-- No write of the call fails. -/
def AuthOp.written : AuthOp → Bool
  | .login _ _ _ writes => writes
  | .logout _ => true
  | .register _ _ _ _ _ writes failure undoes => writes && (failure.isNone || undoes)
  | .verifyEmail _ _ writes => writes
  | .createUser _ _ _ _ _ writes => writes
  | .updateUser _ _ _ _ writes => writes
  | .updateSettings _ _ _ writes => writes

/-- The error of a call, if it returned one. -/
def failure? {α : Type} (out : Except AuthError α × AuthStore) : Option AuthError × AuthStore :=
  match out with
  | (.error error, t) => (some error, t)
  | (.ok _, t) => (none, t)

/-- The store, and the ids drawn for users so far. -/
structure Served where
  store : AuthStore
  drawn : List Uuid

section

variable (sha256 : Bytes → Vector UInt8 32)

def AuthStore.call (s : AuthStore) : AuthOp → Option AuthError × AuthStore
  | .login request token now writes => failure? (s.login sha256 request token now writes)
  | .logout token => (none, s.logout sha256 token)
  | .register request id salt token now writes failure undoes =>
      failure? (s.register sha256 request id salt token now writes failure undoes)
  | .verifyEmail request now writes => failure? (s.verifyEmail sha256 request now writes)
  | .createUser token request id salt now writes =>
      failure? (s.createUser sha256 token request id salt now writes)
  | .updateUser token id request now writes =>
      failure? (s.updateUser sha256 token id request now writes)
  | .updateSettings token settings now writes =>
      failure? (s.updateSettings sha256 token settings now writes)

def Served.step (s : Served) (op : AuthOp) : Option Served :=
  match op.draws with
  | none => some ⟨(s.store.call sha256 op).2, s.drawn⟩
  | some id =>
      if id ∈ s.drawn then none else some ⟨(s.store.call sha256 op).2, id :: s.drawn⟩

def servedMachine : Machine Served AuthOp where
  Start s := ∃ email password emailApiUrl id salt now store,
    AuthStore.new sha256 (.ok none) email password emailApiUrl id salt now true = .ok store ∧
      s = ⟨store, [id]⟩
  step := Served.step sha256

variable {sha256} {s : AuthStore}

/-! ## Memory and disk -/

/-- A section or call that ends with memory and disk in agreement, and has changed neither
if it returns an error. -/
structure AuthStore.Settles {α : Type} (s : AuthStore) (out : Except AuthError α × AuthStore) :
    Prop where
  agree : out.2.state = out.2.disk
  untouched : ∀ error, out.1 = .error error → out.2.state = s.state ∧ out.2.disk = s.disk

namespace AuthStore

variable {α : Type}

theorem settles_refused (agree : s.state = s.disk) (error : AuthError) :
    s.Settles ((.error error, s) : Except AuthError α × AuthStore) :=
  ⟨agree, fun _ _ => ⟨rfl, rfl⟩⟩

/-- Sections refuse, or write the document they made. -/
theorem settles_of_cases {out : Except AuthError α × AuthStore} (agree : s.state = s.disk)
    (either : (∃ error, out = (.error error, s)) ∨
      ∃ (next : AuthStore) (answer : α), out = next.persist true answer) : s.Settles out := by
  rcases either with ⟨error, rfl⟩ | ⟨next, answer, rfl⟩
  · exact settles_refused agree error
  · exact ⟨rfl, nofun⟩

theorem signIn_settles (agree : s.state = s.disk) (request : LoginRequest) (now : Instant) :
    s.Settles (s.signIn sha256 request now true) := by
  refine settles_of_cases agree ((s.signIn_cases sha256 request now true).imp_right ?_)
  rintro ⟨email, user, -, -, signed⟩
  exact ⟨_, _, signed⟩

theorem login_settles (agree : s.state = s.disk) (request : LoginRequest) (token : String)
    (now : Instant) : s.Settles (s.login sha256 request token now true) := by
  have signed : s.Settles (s.signIn sha256 request now true) := signIn_settles agree request now
  unfold login
  cases out : s.signIn sha256 request now true with
  | mk result t =>
      rw [out] at signed
      cases result with
      | error error => exact ⟨signed.agree, fun _ _ => signed.untouched error rfl⟩
      | ok view => exact ⟨signed.agree, nofun⟩

theorem verifyEmail_settles (agree : s.state = s.disk) (request : VerifyEmailRequest)
    (now : Instant) : s.Settles (s.verifyEmail sha256 request now true) := by
  refine settles_of_cases agree ((s.verifyEmail_cases sha256 request now true).imp_right ?_)
  rintro ⟨verification, -, confirmed⟩
  exact ⟨_, _, confirmed⟩

/-- An operation behind the permission check. -/
theorem permitted_settles (agree : s.state = s.disk) {token : String} {now : Instant}
    {act : UserView → Except AuthError α × AuthStore} (settles : ∀ admin, s.Settles (act admin)) :
    s.Settles (match s.requireAdmin sha256 token now with
      | .error error => (.error error, s)
      | .ok admin => act admin) := by
  split
  · exact settles_refused agree _
  · exact settles _

theorem createUser_settles (agree : s.state = s.disk) (token : String) (request : CreateUserRequest)
    (id salt : Uuid) (now : Instant) :
    s.Settles (s.createUser sha256 token request id salt now true) := by
  refine permitted_settles agree fun _ => ?_
  refine settles_of_cases agree ((s.create_cases sha256 request id salt now true).imp_right ?_)
  rintro ⟨user, -, -, created⟩
  exact ⟨_, _, created⟩

theorem updateUser_settles (agree : s.state = s.disk) (token : String) (id : Uuid)
    (request : UpdateUserRequest) (now : Instant) :
    s.Settles (s.updateUser sha256 token id request now true) := by
  refine permitted_settles agree fun admin => settles_of_cases agree ?_
  rcases s.update_cases admin id request with refused | ⟨user, name, -, -, changed⟩
  · exact .inl (refused true)
  · exact .inr ⟨_, _, changed true⟩

theorem updateSettings_settles (agree : s.state = s.disk) (token : String) (settings : AuthSettings)
    (now : Instant) : s.Settles (s.updateSettings sha256 token settings now true) := by
  refine permitted_settles agree fun _ => ?_
  refine settles_of_cases agree ((s.configure_cases settings true).imp_right ?_)
  rintro ⟨answer, configured⟩
  exact ⟨_, _, configured⟩

/-- What a registration put in the document is what its undo takes out of it. -/
theorem withdraw_enrolled {user : StoredUser} {verification : Verification} {t : AuthStore}
    (unused : ∀ other ∈ s.state.users, other.id ≠ user.id)
    (unlinked : ∀ item ∈ s.state.verifications, item.userId ≠ user.id)
    (own : verification.userId = user.id)
    (enrolled : t.state = { s.state with
      users := s.state.users ++ [user], verifications := s.state.verifications ++ [verification] })
    (writes : Bool) : (t.withdraw user.id writes).2.state = s.state := by
  have users : s.state.users.filter (·.id != user.id) = s.state.users :=
    List.filter_eq_self.mpr fun other member => bne_iff_ne.mpr (unused other member)
  have links : s.state.verifications.filter (·.userId != user.id) = s.state.verifications :=
    List.filter_eq_self.mpr fun item member => bne_iff_ne.mpr (unlinked item member)
  simp [withdraw, enrolled, List.filter_append, users, links, own]

theorem register_settles (agree : s.state = s.disk) (request : RegisterRequest) {id : Uuid}
    (salt : Uuid) (token : String) (now : Instant) (failure : Option String) {undoes : Bool}
    (unused : ∀ user ∈ s.state.users, user.id ≠ id)
    (unlinked : ∀ item ∈ s.state.verifications, item.userId ≠ id)
    (written : failure.isNone = true ∨ undoes = true) :
    s.Settles (s.register sha256 request id salt token now true failure undoes) := by
  unfold register
  cases s.registerCheck request with
  | error error => exact settles_refused agree error
  | ok enrolment =>
      rcases s.enroll_cases sha256 enrolment id salt token now true with
        ⟨error, refused⟩ | ⟨user, verification, rfl, -, -, own, -, enrolled⟩
      · simp only [refused]
        exact settles_refused agree error
      · simp only [enrolled]
        cases failure with
        | none => exact ⟨rfl, nofun⟩
        | some message =>
            obtain rfl : undoes = true := by simpa using written
            let next : StoredAuth := { s.state with
              users := s.state.users ++ [user]
              verifications := s.state.verifications ++ [verification] }
            have undone := withdraw_enrolled (t := { s with state := next, disk := next })
              unused unlinked own rfl true
            exact ⟨rfl, fun _ _ => ⟨undone, undone.trans agree⟩⟩

end AuthStore

/-! ## Emails and ids -/

/-- Emails are distinct, and every id in the document was drawn. -/
structure AuthStore.Formed (s : AuthStore) (drawn : List Uuid) : Prop where
  emails : (s.state.users.map (·.email)).Nodup
  users : ∀ user ∈ s.state.users, user.id ∈ drawn
  links : ∀ item ∈ s.state.verifications, item.userId ∈ drawn

namespace AuthStore.Formed

variable {t : AuthStore} {drawn : List Uuid}

theorem congr (formed : s.Formed drawn) (state : t.state = s.state) : t.Formed drawn :=
  ⟨state ▸ formed.emails, state ▸ formed.users, state ▸ formed.links⟩

theorem more (formed : s.Formed drawn) (id : Uuid) : s.Formed (id :: drawn) where
  emails := formed.emails
  users user member := List.mem_cons_of_mem _ (formed.users user member)
  links item member := List.mem_cons_of_mem _ (formed.links item member)

/-- A user is edited, and neither its email nor its id is. -/
theorem editUser (formed : s.Formed drawn) {p : StoredUser → Bool} {edit : StoredUser → StoredUser}
    (email : ∀ user, (edit user).email = user.email) (id : ∀ user, (edit user).id = user.id) :
    (s.editUser p edit).Formed drawn := by
  refine ⟨?_, ?_, formed.links⟩
  · rw [editUser_column email]
    exact formed.emails
  · intro user member
    rcases mem_editUser member with ⟨old, present, -, rfl⟩ | present
    · rw [id]
      exact formed.users old present
    · exact formed.users user present

/-- Rows are taken out. -/
theorem filter (formed : s.Formed drawn) {p : StoredUser → Bool} {q : Verification → Bool}
    (users : t.state.users = s.state.users.filter p)
    (links : t.state.verifications = s.state.verifications.filter q) : t.Formed drawn := by
  refine ⟨?_, ?_, ?_⟩
  · rw [users]
    exact formed.emails.sublist (List.filter_sublist.map _)
  · rw [users]
    exact fun user member => formed.users user (List.mem_of_mem_filter member)
  · rw [links]
    exact fun item member => formed.links item (List.mem_of_mem_filter member)

/-- A user with an email of its own comes in. -/
theorem add (formed : s.Formed drawn) {user : StoredUser} (links : List Verification)
    (unknown : ∀ other ∈ s.state.users, other.email ≠ user.email)
    (own : ∀ item ∈ links, item.userId = user.id)
    (users : t.state.users = s.state.users ++ [user])
    (verifications : t.state.verifications = s.state.verifications ++ links) :
    t.Formed (user.id :: drawn) := by
  refine ⟨?_, ?_, ?_⟩
  · rw [users, List.map_append, List.map_singleton, List.nodup_append]
    refine ⟨formed.emails, List.nodup_singleton _, ?_⟩
    rintro email listed other last rfl
    obtain ⟨old, member, rfl⟩ := List.mem_map.mp listed
    exact unknown old member (List.mem_singleton.mp last)
  · intro other member
    rw [users] at member
    rcases List.mem_append.mp member with old | last
    · exact List.mem_cons_of_mem _ (formed.users other old)
    · rw [List.mem_singleton.mp last]
      exact List.mem_cons_self ..
  · intro item member
    rw [verifications] at member
    rcases List.mem_append.mp member with old | new
    · exact List.mem_cons_of_mem _ (formed.links item old)
    · rw [own item new]
      exact List.mem_cons_self ..

/-! ### Calls -/

theorem login (formed : s.Formed drawn) (request : LoginRequest) (token : String) (now : Instant)
    (writes : Bool) : (s.login sha256 request token now writes).2.Formed drawn := by
  have signed : (s.signIn sha256 request now writes).2.Formed drawn := by
    rcases s.signIn_cases sha256 request now writes with ⟨error, refused⟩ | ⟨email, user, -, -, signed⟩
    · rw [refused]
      exact formed
    · rw [signed]
      have edited : (s.editUser (·.email == email) (stamp now)).Formed drawn :=
        formed.editUser (fun _ => rfl) fun _ => rfl
      exact edited.congr (persist_state ..)
  unfold AuthStore.login
  cases out : s.signIn sha256 request now writes with
  | mk result t =>
      rw [out] at signed
      cases result with
      | error error => exact signed
      | ok view => exact signed.congr rfl

theorem verifyEmail (formed : s.Formed drawn) (request : VerifyEmailRequest) (now : Instant)
    (writes : Bool) : (s.verifyEmail sha256 request now writes).2.Formed drawn := by
  rcases s.verifyEmail_cases sha256 request now writes with
    ⟨error, refused⟩ | ⟨verification, -, confirmed⟩
  · rw [refused]
    exact formed
  · rw [confirmed]
    have edited : (s.editUser (·.id == verification.userId) (confirm now)).Formed drawn :=
      formed.editUser (fun _ => rfl) fun _ => rfl
    refine edited.filter (p := fun _ => true) (q := (·.userId != verification.userId)) ?_ ?_
    · rw [persist_state, List.filter_true]
    · rw [persist_state]
      rfl

theorem register (formed : s.Formed drawn) (request : RegisterRequest) (id salt : Uuid)
    (token : String) (now : Instant) (writes : Bool) (failure : Option String) (undoes : Bool) :
    (s.register sha256 request id salt token now writes failure undoes).2.Formed (id :: drawn) := by
  have enrolled : ∀ enrolment,
      (s.enroll sha256 enrolment id salt token now writes).2.Formed (id :: drawn) := by
    intro enrolment
    rcases s.enroll_cases sha256 enrolment id salt token now writes with
      ⟨error, refused⟩ | ⟨user, verification, rfl, -, -, own, unknown, enrolled⟩
    · rw [refused]
      exact formed.more id
    · rw [enrolled]
      refine formed.add [verification] unknown ?_ ?_ ?_
      · simpa using own
      · rw [persist_state]
      · rw [persist_state]
  unfold AuthStore.register
  cases s.registerCheck request with
  | error error => exact formed.more id
  | ok enrolment =>
      have before := enrolled enrolment
      simp only
      split
      · rename_i out
        rw [out] at before
        exact before
      · rename_i t out
        rw [out] at before
        exact before
      · rename_i t message out
        rw [out] at before
        have undone : (t.withdraw id undoes).2.Formed (id :: drawn) :=
          before.filter (by rw [withdraw, persist_state]) (by rw [withdraw, persist_state])
        split
        · rename_i undo
          rw [undo] at undone
          exact undone
        · rename_i undo
          rw [undo] at undone
          exact undone

/-- An operation behind the permission check. -/
theorem permitted {α : Type} (formed : s.Formed drawn) {token : String} {now : Instant}
    {act : UserView → Except AuthError α × AuthStore} (acts : ∀ admin, (act admin).2.Formed drawn) :
    (match s.requireAdmin sha256 token now with
      | .error error => (.error error, s)
      | .ok admin => act admin : Except AuthError α × AuthStore).2.Formed drawn := by
  split
  · exact formed
  · exact acts _

theorem createUser (formed : s.Formed drawn) (token : String) (request : CreateUserRequest)
    (id salt : Uuid) (now : Instant) (writes : Bool) :
    (s.createUser sha256 token request id salt now writes).2.Formed (id :: drawn) := by
  refine (formed.more id).permitted fun _ => ?_
  rcases s.create_cases sha256 request id salt now writes with
    ⟨error, refused⟩ | ⟨user, rfl, unknown, created⟩
  · rw [refused]
    exact formed.more id
  · rw [created]
    refine formed.add [] unknown nofun ?_ ?_
    · rw [persist_state]
    · rw [persist_state, List.append_nil]

theorem updateUser (formed : s.Formed drawn) (token : String) (id : Uuid)
    (request : UpdateUserRequest) (now : Instant) (writes : Bool) :
    (s.updateUser sha256 token id request now writes).2.Formed drawn := by
  refine formed.permitted fun admin => ?_
  rcases s.update_cases admin id request with refused | ⟨user, name, -, -, changed⟩
  · obtain ⟨error, refused⟩ := refused writes
    rw [refused]
    exact formed
  · rw [changed writes]
    have edited : (s.editUser (·.id == id) (request.apply name)).Formed drawn :=
      formed.editUser (fun _ => rfl) fun _ => rfl
    exact edited.congr (persist_state ..)

theorem updateSettings (formed : s.Formed drawn) (token : String) (settings : AuthSettings)
    (now : Instant) (writes : Bool) :
    (s.updateSettings sha256 token settings now writes).2.Formed drawn := by
  refine formed.permitted fun _ => ?_
  rcases s.configure_cases settings writes with ⟨error, refused⟩ | ⟨answer, configured⟩
  · rw [refused]
    exact formed
  · rw [configured]
    refine formed.filter (p := fun _ => true) (q := fun _ => true) ?_ ?_
    · rw [persist_state, List.filter_true]
    · rw [persist_state, List.filter_true]

end AuthStore.Formed

/-! ## Runs of calls -/

@[simp] theorem failure?_snd {α : Type} (out : Except AuthError α × AuthStore) :
    (failure? out).2 = out.2 := by
  rcases out with ⟨error | answer, t⟩ <;> rfl

theorem failure?_isSome {α : Type} {out : Except AuthError α × AuthStore}
    (failed : (failure? out).1.isSome = true) : ∃ error, out.1 = .error error := by
  rcases out with ⟨error | answer, t⟩
  · exact ⟨error, rfl⟩
  · cases failed

namespace Served

variable {s t : Served} {op : AuthOp}

theorem step_cases (stepped : s.step sha256 op = some t) :
    t.store = (s.store.call sha256 op).2 ∧
      ((op.draws = none ∧ t.drawn = s.drawn) ∨
        ∃ id, op.draws = some id ∧ id ∉ s.drawn ∧ t.drawn = id :: s.drawn) := by
  unfold step at stepped
  split at stepped
  · rename_i none_
    rw [Option.some.injEq] at stepped
    subst stepped
    exact ⟨rfl, .inl ⟨none_, rfl⟩⟩
  · rename_i id drawn
    split at stepped
    · cases stepped
    · rename_i fresh
      rw [Option.some.injEq] at stepped
      subst stepped
      exact ⟨rfl, .inr ⟨id, drawn, fresh, rfl⟩⟩

theorem formed_step (formed : s.store.Formed s.drawn) (stepped : s.step sha256 op = some t) :
    t.store.Formed t.drawn := by
  obtain ⟨store, drawn⟩ := step_cases stepped
  rw [store]
  cases op with
  | login request token now writes =>
      obtain ⟨-, drawn⟩ | ⟨id, ⟨⟩, -⟩ := drawn
      rw [drawn, AuthStore.call, failure?_snd]
      exact formed.login request token now writes
  | logout token =>
      obtain ⟨-, drawn⟩ | ⟨id, ⟨⟩, -⟩ := drawn
      rw [drawn]
      exact formed.congr rfl
  | register request id salt token now writes failure undoes =>
      obtain ⟨⟨⟩, -⟩ | ⟨id, ⟨⟩, -, drawn⟩ := drawn
      rw [drawn, AuthStore.call, failure?_snd]
      exact formed.register request id salt token now writes failure undoes
  | verifyEmail request now writes =>
      obtain ⟨-, drawn⟩ | ⟨id, ⟨⟩, -⟩ := drawn
      rw [drawn, AuthStore.call, failure?_snd]
      exact formed.verifyEmail request now writes
  | createUser token request id salt now writes =>
      obtain ⟨⟨⟩, -⟩ | ⟨id, ⟨⟩, -, drawn⟩ := drawn
      rw [drawn, AuthStore.call, failure?_snd]
      exact formed.createUser token request id salt now writes
  | updateUser token id request now writes =>
      obtain ⟨-, drawn⟩ | ⟨id, ⟨⟩, -⟩ := drawn
      rw [drawn, AuthStore.call, failure?_snd]
      exact formed.updateUser token id request now writes
  | updateSettings token settings now writes =>
      obtain ⟨-, drawn⟩ | ⟨id, ⟨⟩, -⟩ := drawn
      rw [drawn, AuthStore.call, failure?_snd]
      exact formed.updateSettings token settings now writes

/-- A call that settles, with its error set apart. -/
theorem settles_step {α : Type} {out : Except AuthError α × AuthStore} (settles : s.store.Settles out)
    (called : s.store.call sha256 op = failure? out) (stepped : s.step sha256 op = some t) :
    t.store.state = t.store.disk ∧ ((s.store.call sha256 op).1.isSome = true →
      t.store.state = s.store.state ∧ t.store.disk = s.store.disk) := by
  have store := (step_cases stepped).1
  rw [called, failure?_snd] at store
  rw [called, store]
  refine ⟨settles.agree, fun failed => ?_⟩
  obtain ⟨error, returned⟩ := failure?_isSome failed
  exact settles.untouched error returned

/-- Memory and disk agree after a call whose writes do not fail, and an error has changed
neither. -/
theorem agree_step (formed : s.store.Formed s.drawn) (agree : s.store.state = s.store.disk)
    (written : op.written = true) (stepped : s.step sha256 op = some t) :
    t.store.state = t.store.disk ∧ ((s.store.call sha256 op).1.isSome = true →
      t.store.state = s.store.state ∧ t.store.disk = s.store.disk) := by
  cases op with
  | login request token now writes =>
      obtain rfl : writes = true := written
      exact settles_step (AuthStore.login_settles agree request token now) (by rw [AuthStore.call]) stepped
  | logout token =>
      rw [(step_cases stepped).1]
      exact ⟨agree, nofun⟩
  | register request id salt token now writes failure undoes =>
      obtain ⟨rfl, undone⟩ : writes = true ∧ (failure.isNone = true ∨ undoes = true) := by
        simpa [AuthOp.written] using written
      obtain ⟨⟨⟩, -⟩ | ⟨id, ⟨⟩, fresh, -⟩ := (step_cases stepped).2
      have unused : ∀ user ∈ s.store.state.users, user.id ≠ id := by
        rintro user member rfl
        exact fresh (formed.users user member)
      have unlinked : ∀ item ∈ s.store.state.verifications, item.userId ≠ id := by
        rintro item member rfl
        exact fresh (formed.links item member)
      exact settles_step
        (AuthStore.register_settles agree request salt token now failure unused unlinked undone)
        (by rw [AuthStore.call]) stepped
  | verifyEmail request now writes =>
      obtain rfl : writes = true := written
      exact settles_step (AuthStore.verifyEmail_settles agree request now) (by rw [AuthStore.call]) stepped
  | createUser token request id salt now writes =>
      obtain rfl : writes = true := written
      exact settles_step (AuthStore.createUser_settles agree token request id salt now) (by rw [AuthStore.call]) stepped
  | updateUser token id request now writes =>
      obtain rfl : writes = true := written
      exact settles_step (AuthStore.updateUser_settles agree token id request now) (by rw [AuthStore.call]) stepped
  | updateSettings token settings now writes =>
      obtain rfl : writes = true := written
      exact settles_step (AuthStore.updateSettings_settles agree token settings now) (by rw [AuthStore.call]) stepped

end Served

theorem formed_start {start : Served} (started : (servedMachine sha256).Start start) :
    start.store.Formed start.drawn ∧ start.store.state = start.store.disk := by
  obtain ⟨email, password, url, id, salt, now, store, made, rfl⟩ := started
  obtain ⟨admin, state, disk, same, -, -⟩ := AuthStore.new_first made
  refine ⟨⟨?_, ?_, ?_⟩, disk.symm⟩
  · simp [state]
  · simp [state, same]
  · simp [state]

/-- **Calls are atomic as long as no write fails**: after each call of every sequence emails
are distinct, and where no write failed up to it memory and disk agree and an error has
changed neither. -/
theorem calls_atomic {start s t : Served} {ops : List AuthOp} {op : AuthOp}
    (started : (servedMachine sha256).Start start)
    (ran : (servedMachine sha256).run start ops = some s)
    (stepped : (servedMachine sha256).step s op = some t) :
    (t.store.state.users.map (·.email)).Nodup ∧
      ((∀ earlier ∈ ops, earlier.written = true) → op.written = true →
        t.store.state = t.store.disk ∧ ((s.store.call sha256 op).1.isSome = true →
          t.store.state = s.store.state ∧ t.store.disk = s.store.disk)) := by
  obtain ⟨formed, agree⟩ := formed_start started
  have before : s.store.Formed s.drawn := by
    refine Machine.run_preserves (P := fun s => s.store.Formed s.drawn) ?_ ran formed
    intro s op t formed stepped
    exact Served.formed_step formed stepped
  refine ⟨(Served.formed_step before stepped).emails, fun earlier now_ => ?_⟩
  have agrees : s.store.Formed s.drawn ∧ s.store.state = s.store.disk := by
    refine Machine.run_preserves_of_meets
      (P := fun s => s.store.Formed s.drawn ∧ s.store.state = s.store.disk) ?_
      (Machine.meets_of_forall earlier start) ran ⟨formed, agree⟩
    intro s op t both written stepped
    exact ⟨Served.formed_step both.1 stepped, (Served.agree_step both.1 both.2 written stepped).1⟩
  exact Served.agree_step before agrees.2 now_ stepped

end

/-! ## A login -/

def firstServed : Served := ⟨firstStore none, [1]⟩

theorem firstServed_started : (servedMachine Store.Sha256.digest).Start firstServed := by
  obtain ⟨email, password, url, id, salt, now, store, made, same⟩ := firstRun_started
  cases same
  exact ⟨email, password, url, 1, salt, now, firstStore none, made, rfl⟩

def adminCall (writes : Bool) : AuthOp := .login ⟨adminEmail, adminPassword⟩ "token" 5 writes

def loggedIn : Served :=
  ⟨(firstStore (some 5)).openSession Store.Sha256.digest "token" 1 5, [1]⟩

theorem firstServed_step (writes : Bool) {e : Option AuthError} {t : AuthStore}
    (called : failure? ((firstStore none).login Store.Sha256.digest ⟨adminEmail, adminPassword⟩
      "token" 5 writes) = (e, t)) :
    firstServed.store.call Store.Sha256.digest (adminCall writes) = (e, t) ∧
      (servedMachine Store.Sha256.digest).step firstServed (adminCall writes) = some ⟨t, [1]⟩ := by
  have call : firstServed.store.call Store.Sha256.digest (adminCall writes) = (e, t) := called
  refine ⟨call, ?_⟩
  show firstServed.step Store.Sha256.digest (adminCall writes) = some ⟨t, [1]⟩
  simp only [Served.step, call, show (adminCall writes).draws = none from rfl]
  rfl

theorem firstServed_login :
    (servedMachine Store.Sha256.digest).run firstServed [adminCall true] = some loggedIn := by
  have edited : (firstStore none).editUser (·.email == adminEmail) (AuthStore.stamp 5) =
      { firstStore none with state := ⟨⟨false⟩, [firstAdmin .active (some 5)], []⟩ } := by
    simp [AuthStore.editUser, firstStore, firstAdmin, AuthStore.stamp]
  have signed : (firstStore none).signIn Store.Sha256.digest ⟨adminEmail, adminPassword⟩ 5 true =
      (.ok (firstAdmin .active (some 5)).view, firstStore (some 5)) := by
    rw [firstStore_signIn, edited]
    rfl
  have opened := AuthStore.login_ok signed "token"
  have stepped := firstServed_step true (congrArg failure? opened)
  exact Machine.run_cons_eq_some.mpr ⟨loggedIn, stepped.2, rfl⟩

/-- Registration is opened after it. -/
theorem calls_atomic_openRegistration :
    ∃ t, (servedMachine Store.Sha256.digest).step loggedIn (.updateSettings "token" ⟨true⟩ 6 true) =
        some t ∧
      t.store.state.settings = ⟨true⟩ ∧ t.store.state = t.store.disk := by
  obtain ⟨t, ran, shown⟩ : ∃ t, (servedMachine Store.Sha256.digest).run loggedIn
      [.updateSettings "token" ⟨true⟩ 6 true] = some t ∧ t.store.state.settings = ⟨true⟩ :=
    Machine.run_exists (by decide +kernel)
  obtain ⟨next, stepped, rest⟩ := Machine.run_cons_eq_some.mp ran
  obtain rfl := Option.some.inj rest
  have atomic := calls_atomic firstServed_started firstServed_login stepped
  exact ⟨next, stepped, shown, (atomic.2 (by simp [adminCall, AuthOp.written]) rfl).1⟩

/-- A login whose write fails returns an error, and has changed the user in memory. -/
theorem failed_write_kept :
    (servedMachine Store.Sha256.digest).Start firstServed ∧
      (firstServed.store.call Store.Sha256.digest (adminCall false)).1 = some .io ∧
      ∃ t, (servedMachine Store.Sha256.digest).step firstServed (adminCall false) = some t ∧
        t.store.state ≠ t.store.disk ∧ t.store.state ≠ firstServed.store.state := by
  have signed : (firstStore none).signIn Store.Sha256.digest ⟨adminEmail, adminPassword⟩ 5 false =
      (.error .io, (firstStore none).editUser (·.email == adminEmail) (AuthStore.stamp 5)) := by
    rw [firstStore_signIn]
    rfl
  have refused := AuthStore.login_error signed "token"
  obtain ⟨called, stepped⟩ := firstServed_step false (congrArg failure? refused)
  refine ⟨firstServed_started, by rw [called], _, stepped, ?_, ?_⟩
  · simp [AuthStore.editUser, firstStore, firstAdmin, AuthStore.stamp]
  · simp [firstServed, AuthStore.editUser, firstStore, firstAdmin, AuthStore.stamp]

end MajsoulManager.Auth
