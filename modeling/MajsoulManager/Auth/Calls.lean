/-
# Auth.Calls — callers at once, and the last administrator

The operations of `AuthStore` run side by side: each is one or more sections under the
lock, and between two sections of a call any other may run.  `permit` is the permission
check of the administrators' operations; `administer` is what they do afterwards, with the
view of the caller the check returned.

`administrator_remains`: as long as no section takes the role or the status of the only
active administrator, there is one.  The code's own guard looks at the caller's row alone
and does not know `pending_verification`: `admin_locked_out`.
-/
import MajsoulManager.Auth.Store
import MajsoulManager.Store.Reference
import MajsoulManager.Theory.Machine

namespace MajsoulManager.Auth

open MajsoulManager.Theory
open MajsoulManager.Store (Bytes Uuid)

set_option autoImplicit false

/-! ## Calls under way -/

inductive AdminOp where
  | createUser (request : CreateUserRequest)
  | updateUser (id : Uuid) (request : UpdateUserRequest)
  | updateSettings (settings : AuthSettings)

/-- Where a call stands between two of its sections. -/
inductive AuthCall where
  | signedIn (view : UserView)
  | enrolling (enrolment : AuthStore.Enrolment)
  | delivering (id : Uuid)
  | permitted (admin : UserView) (op : AdminOp)
  | over

/-- The store and the calls under way.  `drawn` has the ids given to users so far; an
entry of `ordered` is a status an administrator gave to a user it had disabled, until one
makes the user active again. -/
structure AuthRun where
  store : AuthStore
  calls : List AuthCall := []
  drawn : List Uuid
  ordered : Uuid → Option UserStatus := fun _ => none

inductive AuthAction where
  | login (request : LoginRequest) (now : Instant) (writes : Bool)
  | openSession (call : Nat) (token : String) (now : Instant)
  | logout (token : String)
  | register (request : RegisterRequest)
  | enroll (call : Nat) (id salt : Uuid) (token : String) (now : Instant) (writes : Bool)
  /-- The mail is sent, or the caller goes away meanwhile. -/
  | delivered (call : Nat)
  | undeliverable (call : Nat) (writes : Bool)
  | verifyEmail (request : VerifyEmailRequest) (now : Instant) (writes : Bool)
  | permit (token : String) (now : Instant) (op : AdminOp)
  | administer (call : Nat) (id salt : Uuid) (now : Instant) (writes : Bool)

/-- What becomes of the standing orders when a status is set. -/
def order (ordered : Uuid → Option UserStatus) (id : Uuid) :
    Option UserStatus → Uuid → Option UserStatus
  | none => ordered
  | some .active => Function.update ordered id none
  | some .disabled => Function.update ordered id (some .disabled)
  | some .pendingVerification =>
      Function.update ordered id ((ordered id).map fun _ => .pendingVerification)

section Machine

variable (sha256 : Bytes → Vector UInt8 32)

namespace AuthRun

def step (s : AuthRun) : AuthAction → Option AuthRun
  | .login request now writes =>
      let out := s.store.signIn sha256 request now writes
      some { s with
        store := out.2
        calls := s.calls ++ [match out.1 with
          | .ok view => .signedIn view
          | .error _ => .over] }
  | .openSession call token now =>
      match s.calls[call]? with
      | some (.signedIn view) =>
          some { s with
            store := s.store.openSession sha256 token view.id now
            calls := s.calls.set call .over }
      | _ => none
  | .logout token => some { s with store := s.store.logout sha256 token }
  | .register request =>
      some { s with
        calls := s.calls ++ [match s.store.registerCheck request with
          | .ok enrolment => .enrolling enrolment
          | .error _ => .over] }
  | .enroll call id salt token now writes =>
      match s.calls[call]? with
      | some (.enrolling enrolment) =>
          if id ∈ s.drawn then none
          else
            let out := s.store.enroll sha256 enrolment id salt token now writes
            some { s with
              store := out.2
              drawn := id :: s.drawn
              calls := s.calls.set call (match out.1 with
                | .ok () => .delivering id
                | .error _ => .over) }
      | _ => none
  | .delivered call =>
      match s.calls[call]? with
      | some (.delivering _) => some { s with calls := s.calls.set call .over }
      | _ => none
  | .undeliverable call writes =>
      match s.calls[call]? with
      | some (.delivering id) =>
          some { s with store := (s.store.withdraw id writes).2, calls := s.calls.set call .over }
      | _ => none
  | .verifyEmail request now writes =>
      some { s with store := (s.store.verifyEmail sha256 request now writes).2 }
  | .permit token now op =>
      some { s with
        calls := s.calls ++ [match s.store.requireAdmin sha256 token now with
          | .ok admin => .permitted admin op
          | .error _ => .over] }
  | .administer call id salt now writes =>
      match s.calls[call]? with
      | some (.permitted _ (.createUser request)) =>
          if id ∈ s.drawn then none
          else
            some { s with
              store := (s.store.create sha256 request id salt now writes).2
              drawn := id :: s.drawn
              calls := s.calls.set call .over }
      | some (.permitted admin (.updateUser target request)) =>
          some { s with
            store := (s.store.update admin target request writes).2
            calls := s.calls.set call .over
            -- Not refused: the change is in memory, whatever becomes of the write.
            ordered :=
              if (s.store.update admin target request true).1.isOk then
                order s.ordered target request.status
              else s.ordered }
      | some (.permitted _ (.updateSettings settings)) =>
          some { s with
            store := (s.store.configure settings writes).2
            calls := s.calls.set call .over }
      | _ => none

def users (s : AuthRun) : List StoredUser := s.store.state.users

end AuthRun

/-- The first start: there is no `auth.json` yet. -/
def authMachine : Machine AuthRun AuthAction where
  Start s := ∃ email password emailApiUrl id salt now store,
    AuthStore.new sha256 (.ok none) email password emailApiUrl id salt now true = .ok store ∧
      s = { store := store, drawn := [id] }
  step := AuthRun.step sha256

/-! ## What a step does to the users -/

/-- The users, the ids drawn for them and the standing orders after a step. -/
inductive AuthRun.Changes (s : AuthRun) : AuthAction → AuthRun → Prop
  | quiet {action : AuthAction} {t : AuthRun} (users : t.users = s.users)
      (drawn : ∀ id ∈ s.drawn, id ∈ t.drawn) (ordered : t.ordered = s.ordered) : s.Changes action t
  | stamped {action : AuthAction} {t : AuthRun} (p : StoredUser → Bool) (now : Instant)
      (users : t.users = s.users.modify (s.users.findIdx p) (AuthStore.stamp now))
      (drawn : t.drawn = s.drawn) (ordered : t.ordered = s.ordered) : s.Changes action t
  | added {action : AuthAction} {t : AuthRun} {user : StoredUser} (fresh : user.id ∉ s.drawn)
      (users : t.users = s.users ++ [user]) (drawn : t.drawn = user.id :: s.drawn)
      (ordered : t.ordered = s.ordered) : s.Changes action t
  | withdrawn {t : AuthRun} {call : Nat} {writes : Bool} {id : Uuid}
      (here : s.calls[call]? = some (.delivering id)) (users : t.users = s.users.filter (·.id != id))
      (drawn : t.drawn = s.drawn) (ordered : t.ordered = s.ordered) :
      s.Changes (.undeliverable call writes) t
  | verified {t : AuthRun} {request : VerifyEmailRequest} {now : Instant} {writes : Bool}
      {verification : Verification}
      (found : s.store.findVerification sha256 request now = some verification)
      (users : t.users =
        s.users.modify (s.users.findIdx (·.id == verification.userId)) (AuthStore.confirm now))
      (drawn : t.drawn = s.drawn) (ordered : t.ordered = s.ordered) :
      s.Changes (.verifyEmail request now writes) t
  | updated {t : AuthRun} {call : Nat} {fresh salt : Uuid} {now : Instant} {writes : Bool}
      {admin : UserView} {id : Uuid} {request : UpdateUserRequest} (name : Option String)
      (here : s.calls[call]? = some (.permitted admin (.updateUser id request)))
      (found : ∃ user ∈ s.users, user.id = id)
      (guarded : id = admin.id → request.status ≠ some .disabled ∧ request.role ≠ some .member)
      (users : t.users = s.users.modify (s.users.findIdx (·.id == id)) (request.apply name))
      (drawn : t.drawn = s.drawn) (ordered : t.ordered = order s.ordered id request.status) :
      s.Changes (.administer call fresh salt now writes) t

variable {sha256} {s t : AuthRun}

theorem AuthRun.step_changes {action : AuthAction} (stepped : s.step sha256 action = some t) :
    s.Changes sha256 action t := by
  cases action with
  | login request now writes =>
      simp only [step, Option.some.injEq] at stepped
      subst stepped
      rcases s.store.signIn_cases sha256 request now writes with
        ⟨error, refused⟩ | ⟨email, user, -, -, signed⟩
      · refine .quiet ?_ (fun _ drawn => drawn) rfl
        simp only [users, refused]
      · refine .stamped (·.email == email) now ?_ rfl rfl
        simp only [users, signed, AuthStore.persist_state]
        rfl
  | openSession call token now =>
      simp only [step] at stepped
      split at stepped
      · cases stepped
        exact .quiet rfl (fun _ drawn => drawn) rfl
      · cases stepped
  | logout token =>
      cases stepped
      exact .quiet rfl (fun _ drawn => drawn) rfl
  | register request =>
      cases stepped
      exact .quiet rfl (fun _ drawn => drawn) rfl
  | enroll call id salt token now writes =>
      simp only [step] at stepped
      split at stepped
      · rename_i enrolment here
        split at stepped
        · cases stepped
        · rename_i fresh
          rw [Option.some.injEq] at stepped
          subst stepped
          rcases s.store.enroll_cases sha256 enrolment id salt token now writes with
            ⟨error, refused⟩ | ⟨user, verification, rfl, -, -, -, -, enrolled⟩
          · refine .quiet ?_ (fun _ drawn => List.mem_cons_of_mem _ drawn) rfl
            simp only [users, refused]
          · refine .added fresh ?_ rfl rfl
            simp only [users, enrolled, AuthStore.persist_state]
      · cases stepped
  | delivered call =>
      simp only [step] at stepped
      split at stepped
      · cases stepped
        exact .quiet rfl (fun _ drawn => drawn) rfl
      · cases stepped
  | undeliverable call writes =>
      simp only [step] at stepped
      split at stepped
      · rename_i id here
        rw [Option.some.injEq] at stepped
        subst stepped
        refine .withdrawn here ?_ rfl rfl
        simp only [users, AuthStore.withdraw, AuthStore.persist_state]
      · cases stepped
  | verifyEmail request now writes =>
      simp only [step, Option.some.injEq] at stepped
      subst stepped
      rcases s.store.verifyEmail_cases sha256 request now writes with
        ⟨error, refused⟩ | ⟨verification, found, confirmed⟩
      · refine .quiet ?_ (fun _ drawn => drawn) rfl
        simp only [users, refused]
      · refine .verified found ?_ rfl rfl
        simp only [users, confirmed, AuthStore.persist_state]
        rfl
  | permit token now op =>
      cases stepped
      exact .quiet rfl (fun _ drawn => drawn) rfl
  | administer call id salt now writes =>
      simp only [step] at stepped
      split at stepped
      · rename_i admin request here
        split at stepped
        · cases stepped
        · rename_i fresh
          rw [Option.some.injEq] at stepped
          subst stepped
          rcases s.store.create_cases sha256 request id salt now writes with
            ⟨error, refused⟩ | ⟨user, rfl, -, created⟩
          · refine .quiet ?_ (fun _ drawn => List.mem_cons_of_mem _ drawn) rfl
            simp only [users, refused]
          · refine .added fresh ?_ rfl rfl
            simp only [users, created, AuthStore.persist_state]
      · rename_i admin target request here
        rw [Option.some.injEq] at stepped
        subst stepped
        rcases s.store.update_cases admin target request with refused | ⟨user, name, found, guarded, changed⟩
        · obtain ⟨error, now_⟩ := refused writes
          obtain ⟨other, ever⟩ := refused true
          refine .quiet ?_ (fun _ drawn => drawn) ?_
          · simp only [users, now_]
          · simp [ever, Except.isOk, Except.toBool]
        · have target : ∃ user ∈ s.users, user.id = target :=
            ⟨user, List.mem_of_find?_eq_some found, by simpa using List.find?_some found⟩
          refine .updated name here target guarded ?_ rfl ?_
          · simp only [users, changed writes, AuthStore.persist_state]
            rfl
          · simp [changed true, AuthStore.persist, Except.isOk, Except.toBool]
      · rename_i admin settings here
        rw [Option.some.injEq] at stepped
        subst stepped
        rcases s.store.configure_cases settings writes with ⟨error, refused⟩ | ⟨answer, configured⟩
        · refine .quiet ?_ (fun _ drawn => drawn) rfl
          simp only [users, refused]
        · refine .quiet ?_ (fun _ drawn => drawn) rfl
          simp only [users, configured, AuthStore.persist_state]
      · cases stepped

/-! ## The last administrator -/

def StoredUser.activeAdmin (user : StoredUser) : Bool :=
  user.role == .admin && user.status == .active

/-- An administrator can use the console. -/
def AuthRun.Administered (s : AuthRun) : Prop := ∃ user ∈ s.users, user.activeAdmin = true

instance (s : AuthRun) : Decidable s.Administered :=
  inferInstanceAs (Decidable (∃ user ∈ s.users, user.activeAdmin = true))

/-- A request that takes the role or the status of an active administrator. -/
def UpdateUserRequest.takes (request : UpdateUserRequest) : Bool :=
  request.role == some .member || request.status == some .disabled ||
    request.status == some .pendingVerification

/-- Another active administrator is there. -/
def AuthRun.others (s : AuthRun) (id : Uuid) : Bool :=
  s.users.any fun user => user.activeAdmin && user.id != id

/-- A section takes nothing from the only active administrator.  The code refuses only what
an administrator asks for itself, and of that not `pending_verification`. -/
def AuthRun.spares (s : AuthRun) : AuthAction → Bool
  | .undeliverable call _ =>
      match s.calls[call]? with
      | some (.delivering id) => s.others id
      | _ => true
  | .administer call _ _ _ _ =>
      match s.calls[call]? with
      | some (.permitted admin (.updateUser id request)) =>
          !request.takes || s.others id ||
            (id == admin.id && request.status != some .pendingVerification)
      | _ => true
  | _ => true

theorem UpdateUserRequest.activeAdmin_apply {request : UpdateUserRequest} {name : Option String}
    {user : StoredUser} (keeps : request.takes = false) (admin : user.activeAdmin = true) :
    (request.apply name user).activeAdmin = true := by
  obtain ⟨renamed, role, status⟩ := request
  simp only [takes, Bool.or_eq_false_iff, beq_eq_false_iff_ne] at keeps
  simp only [StoredUser.activeAdmin, Bool.and_eq_true, beq_iff_eq, apply] at admin ⊢
  obtain ⟨⟨stays, on⟩, verified⟩ := keeps
  constructor
  · rcases role with - | - | -
    · exact admin.1
    · rfl
    · exact absurd rfl stays
  · rcases status with - | - | - | -
    · exact admin.2
    · exact absurd rfl verified
    · rfl
    · exact absurd rfl on

namespace AuthRun.Administered

/-- An edit of the first user a search finds. -/
theorem edited {p : StoredUser → Bool} {edit : StoredUser → StoredUser}
    (administered : s.Administered)
    (users : t.users = s.users.modify (s.users.findIdx p) edit)
    (keeps : ∀ user, user.activeAdmin = true → (edit user).activeAdmin = true) :
    t.Administered := by
  obtain ⟨user, member, admin⟩ := administered
  obtain ⟨i, here⟩ := List.mem_iff_getElem?.mp member
  by_cases same : s.users.findIdx p = i
  · refine ⟨edit user, List.mem_iff_getElem?.mpr ⟨i, ?_⟩, keeps user admin⟩
    rw [users, same, List.getElem?_modify_eq, here]
    rfl
  · refine ⟨user, List.mem_iff_getElem?.mpr ⟨i, ?_⟩, admin⟩
    rw [users, List.getElem?_modify_ne _ _ same, here]

/-- Somebody else is edited. -/
theorem edited_other {id : Uuid} {edit : StoredUser → StoredUser} (others : s.others id = true)
    (users : t.users = s.users.modify (s.users.findIdx (·.id == id)) edit) : t.Administered := by
  obtain ⟨user, member, both⟩ := List.any_eq_true.mp others
  obtain ⟨admin, differs⟩ := Bool.and_eq_true_iff.mp both
  obtain ⟨i, here⟩ := List.mem_iff_getElem?.mp member
  have apart : s.users.findIdx (·.id == id) ≠ i := by
    intro same
    obtain ⟨inside, shown⟩ := List.getElem?_eq_some_iff.mp here
    have hit : (s.users[i].id == id) = true := by
      have bound : s.users.findIdx (·.id == id) < s.users.length := same ▸ inside
      have found := List.findIdx_getElem (w := bound)
      simpa [same] using found
    rw [shown] at hit
    simp [beq_iff_eq.mp hit] at differs
  refine ⟨user, List.mem_iff_getElem?.mpr ⟨i, ?_⟩, admin⟩
  rw [users, List.getElem?_modify_ne _ _ apart, here]

theorem changes (administered : s.Administered) {action : AuthAction} (spared : s.spares action = true)
    (changed : s.Changes sha256 action t) : t.Administered := by
  cases changed with
  | quiet users drawn ordered =>
      rw [Administered, users]
      exact administered
  | stamped p now users drawn ordered => exact administered.edited users fun _ admin => admin
  | added fresh users drawn ordered =>
      obtain ⟨user, member, admin⟩ := administered
      exact ⟨user, users ▸ List.mem_append_left _ member, admin⟩
  | withdrawn here users drawn ordered =>
      simp only [spares, here] at spared
      obtain ⟨user, member, both⟩ := List.any_eq_true.mp spared
      obtain ⟨admin, differs⟩ := Bool.and_eq_true_iff.mp both
      exact ⟨user, users ▸ List.mem_filter.mpr ⟨member, differs⟩, admin⟩
  | verified found users drawn ordered =>
      refine administered.edited users fun user admin => ?_
      simp only [StoredUser.activeAdmin, Bool.and_eq_true, beq_iff_eq] at admin ⊢
      exact ⟨admin.1, rfl⟩
  | updated name here found guarded users drawn ordered =>
      rename_i call fresh salt now writes admin id request
      by_cases others : s.others id = true
      · exact edited_other others users
      · refine administered.edited users fun user => ?_
        apply UpdateUserRequest.activeAdmin_apply
        simp only [spares, here, others, Bool.or_false, Bool.or_eq_true, Bool.not_eq_true',
          Bool.and_eq_true, beq_iff_eq, bne_iff_ne] at spared
        rcases spared with keeps | ⟨own, verified⟩
        · exact keeps
        · obtain ⟨on, stays⟩ := guarded own
          simp [UpdateUserRequest.takes, on, stays, verified]

end AuthRun.Administered

/-- **An administrator remains**, in every run of calls side by side whose sections spare
the only one. -/
theorem administrator_remains {start final : AuthRun} {actions : List AuthAction}
    (started : (authMachine sha256).Start start)
    (met : (authMachine sha256).Meets (fun s action => s.spares action = true) start actions)
    (ran : (authMachine sha256).run start actions = some final) : final.Administered := by
  have first : start.Administered := by
    obtain ⟨email, password, url, id, salt, now, store, made, rfl⟩ := started
    obtain ⟨admin, state, -, -, role, status⟩ := AuthStore.new_first made
    refine ⟨admin, ?_, by simp [StoredUser.activeAdmin, role, status]⟩
    simp [AuthRun.users, state]
  refine Machine.run_preserves_of_meets ?_ met ran first
  intro s action t administered spared stepped
  exact administered.changes spared (AuthRun.step_changes stepped)

end Machine

/-! ## The first administrator, alone -/

def adminEmail : String := "admin@example.com"

def adminPassword : String := "correct horse"

@[irreducible] def adminHash : String := ((hashPassword Store.Sha256.digest 7 adminPassword).toOption).getD ""

theorem hashPassword_admin : hashPassword Store.Sha256.digest 7 adminPassword = .ok adminHash := by
  have valid : validatePassword adminPassword = .ok () := by decide +kernel
  unfold adminHash
  rw [hashPassword, valid]
  rfl

def firstAdmin (status : UserStatus) (lastLoginAt : Option Instant) : StoredUser :=
  ⟨1, adminEmail, "Administrator", .admin, status, adminHash, some 0, lastLoginAt, 0⟩

def firstStore (lastLoginAt : Option Instant) : AuthStore where
  state := ⟨⟨false⟩, [firstAdmin .active lastLoginAt], []⟩
  disk := ⟨⟨false⟩, [firstAdmin .active lastLoginAt], []⟩
  sessions _ := none
  emailApiUrl := some "https://mail.example.com"

def firstRun : AuthRun := { store := firstStore none, drawn := [1] }

theorem firstRun_started : (authMachine Store.Sha256.digest).Start firstRun := by
  refine ⟨adminEmail, adminPassword, some "https://mail.example.com", 1, 7, 0, firstStore none, ?_, rfl⟩
  have normal : normalizeEmail adminEmail = .ok adminEmail := by decide +kernel
  unfold AuthStore.new
  simp only [normal, hashPassword_admin]
  rfl

/-- The administrator has given its password. -/
def afterLogin : AuthRun :=
  { store := firstStore (some 5)
    calls := [.signedIn (firstAdmin .active (some 5)).view]
    drawn := [1] }

theorem firstStore_signIn (writes : Bool) :
    (firstStore none).signIn Store.Sha256.digest ⟨adminEmail, adminPassword⟩ 5 writes =
      ((firstStore none).editUser (·.email == adminEmail) (AuthStore.stamp 5)).persist writes
        (firstAdmin .active (some 5)).view := by
  have normal : normalizeEmail adminEmail = .ok adminEmail := by decide +kernel
  have found : (firstStore none).state.users.find? (·.email == adminEmail) =
      some (firstAdmin .active none) := by
    simp [firstStore, firstAdmin]
  have verified : verifyPassword Store.Sha256.digest adminHash adminPassword = .ok () :=
    verifyPassword_hashPassword hashPassword_admin
  exact AuthStore.signIn_ok ⟨adminEmail, adminPassword⟩ adminEmail (firstAdmin .active none) 5 writes
    normal found verified rfl

def adminLogin : AuthAction := .login ⟨adminEmail, adminPassword⟩ 5 true

theorem firstRun_step :
    (authMachine Store.Sha256.digest).step firstRun adminLogin = some afterLogin := by
  show firstRun.step Store.Sha256.digest adminLogin = some afterLogin
  have signed := firstStore_signIn true
  unfold AuthRun.step
  simp only [adminLogin, firstRun, signed]
  simp [AuthStore.persist, AuthStore.editUser, afterLogin, firstStore, firstAdmin, AuthStore.stamp]

theorem firstRun_login (rest : List AuthAction) :
    (authMachine Store.Sha256.digest).run firstRun (adminLogin :: rest) =
      (authMachine Store.Sha256.digest).run afterLogin rest := by
  rw [Machine.run, firstRun_step, Option.bind_some]

theorem firstRun_meets {ok : AuthRun → AuthAction → Prop} {rest : List AuthAction}
    (first : ok firstRun adminLogin)
    (later : (authMachine Store.Sha256.digest).Meets ok afterLogin rest) :
    (authMachine Store.Sha256.digest).Meets ok firstRun (adminLogin :: rest) := by
  refine ⟨first, fun next stepped => ?_⟩
  obtain rfl := Option.some.inj (firstRun_step.symm.trans stepped)
  exact later

/-- An administrator that gives its own account back to verification. -/
def ownPending : AdminOp := .updateUser 1 ⟨none, none, some .pendingVerification⟩

/-- It does so when it has made a second administrator. -/
def withSecond : List AuthAction :=
  [.openSession 0 "token" 6,
    .permit "token" 7 (.createUser ⟨"Second", "second@example.com", "battery staple", .admin⟩),
    .administer 1 2 8 9 true, .permit "token" 10 ownPending, .administer 2 3 11 12 true]

theorem administrator_remains_withSecond :
    ∃ final, (authMachine Store.Sha256.digest).run firstRun (adminLogin :: withSecond) = some final ∧
      final.users.map (·.status) = [.pendingVerification, .active] ∧ final.Administered := by
  obtain ⟨final, ran, shown⟩ : ∃ final,
      (authMachine Store.Sha256.digest).run afterLogin withSecond = some final ∧
        final.users.map (·.status) = [.pendingVerification, .active] :=
    Machine.run_exists (by decide +kernel)
  have whole := (firstRun_login withSecond).trans ran
  have met : (authMachine Store.Sha256.digest).Meets (fun s action => s.spares action = true) firstRun
      (adminLogin :: withSecond) := firstRun_meets rfl (by decide +kernel)
  exact ⟨final, whole, shown, administrator_remains firstRun_started met whole⟩

/-- It does so alone. -/
def alonePending : List AuthAction :=
  [.openSession 0 "token" 6, .permit "token" 7 ownPending, .administer 1 2 8 9 true]

/-- Nobody is left to let anybody in. -/
theorem admin_locked_out :
    ∃ final, (authMachine Store.Sha256.digest).Start firstRun ∧
      (authMachine Store.Sha256.digest).run firstRun (adminLogin :: alonePending) = some final ∧
      ¬ final.Administered := by
  obtain ⟨final, ran, alone⟩ : ∃ final,
      (authMachine Store.Sha256.digest).run afterLogin alonePending = some final ∧
        ¬ final.Administered :=
    Machine.run_exists (by decide +kernel)
  exact ⟨final, firstRun_started, (firstRun_login alonePending).trans ran, alone⟩

end MajsoulManager.Auth
