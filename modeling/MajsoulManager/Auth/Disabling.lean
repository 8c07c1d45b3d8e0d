/-
# Auth.Disabling — an account that an administrator has disabled

The status of a user is written by three operations: registration makes it pending, an
administrator sets it, and `verify_email` makes it active for whoever holds a link that has
not expired, whatever an administrator has decided since the link was sent.

`disabling_sticks`: unless such a link is used, the status an administrator gave stands,
and neither a session nor a password of the user is accepted.  `disabled_user_verifies` is
the link.
-/
import MajsoulManager.Auth.Calls

namespace MajsoulManager.Auth

open MajsoulManager.Theory
open MajsoulManager.Store (Bytes Uuid)

set_option autoImplicit false

section

variable (sha256 : Bytes → Vector UInt8 32)

/-- The orders of the administrators stand. -/
structure AuthRun.Sticks (s : AuthRun) : Prop where
  kept : ∀ user ∈ s.users, ∀ status, s.ordered user.id = some status →
    user.status = status ∧ status ≠ .active
  sessions : ∀ token now view, s.store.userForSession sha256 token now = .ok view →
    s.ordered view.id = none
  logins : ∀ request now writes view, (s.store.signIn sha256 request now writes).1 = .ok view →
    s.ordered view.id = none

/-- No link of a user under orders is used. -/
def AuthRun.unlinked (s : AuthRun) : AuthAction → Bool
  | .verifyEmail request now _ =>
      (s.store.findVerification sha256 request now).all fun verification =>
        (s.ordered verification.userId).isNone
  | _ => true

variable {sha256} {s t : AuthRun}

/-! ## Orders -/

theorem order_ne {ordered : Uuid → Option UserStatus} {id other : Uuid} (status : Option UserStatus)
    (differs : other ≠ id) : order ordered id status other = ordered other := by
  rcases status with - | - | - | -
  · rfl
  · exact Function.update_of_ne differs ..
  · exact Function.update_of_ne differs ..
  · exact Function.update_of_ne differs ..

/-- A user is under the order that was given last. -/
theorem order_self {ordered : Uuid → Option UserStatus} {id : Uuid} {status : Option UserStatus}
    {now : UserStatus} (under : order ordered id status id = some now) :
    (status = some now ∧ now ≠ .active) ∨ (status = none ∧ ordered id = some now) := by
  rcases status with - | - | - | -
  · exact .inr ⟨rfl, under⟩
  · rw [order, Function.update_self] at under
    obtain ⟨was, -, rfl⟩ := Option.map_eq_some_iff.mp under
    exact .inl ⟨rfl, nofun⟩
  · rw [order, Function.update_self] at under
    cases under
  · rw [order, Function.update_self] at under
    cases under
    exact .inl ⟨rfl, nofun⟩

/-! ## The invariant -/

structure AuthRun.Barred (s : AuthRun) : Prop where
  distinct : (s.users.map (·.id)).Nodup
  drawn : ∀ user ∈ s.users, user.id ∈ s.drawn
  known : ∀ id status, s.ordered id = some status → id ∈ s.drawn ∧ status ≠ .active
  kept : ∀ user ∈ s.users, ∀ status, s.ordered user.id = some status → user.status = status

/-- The user a search by id finds has it. -/
theorem AuthRun.found_id {id : Uuid} {j : Nat} {user : StoredUser} (here : s.users[j]? = some user)
    (hit : s.users.findIdx (·.id == id) = j) : user.id = id := by
  obtain ⟨inside, rfl⟩ := List.getElem?_eq_some_iff.mp here
  subst hit
  exact beq_iff_eq.mp (List.findIdx_getElem (w := inside))

namespace AuthRun.Barred

/-- Ids are distinct: only the user that is found has the id. -/
theorem other_id (barred : s.Barred) {id : Uuid} {j : Nat} {user : StoredUser}
    (here : s.users[j]? = some user) (differs : s.users.findIdx (·.id == id) ≠ j) : user.id ≠ id := by
  intro same
  obtain ⟨inside, rfl⟩ := List.getElem?_eq_some_iff.mp here
  have bound : s.users.findIdx (·.id == id) < s.users.length :=
    List.findIdx_lt_length_of_exists ⟨_, List.getElem_mem inside, by simpa using same⟩
  have found : s.users[s.users.findIdx (·.id == id)].id = id := by
    exact beq_iff_eq.mp (List.findIdx_getElem (w := bound))
  have within : s.users.findIdx (·.id == id) < (s.users.map (·.id)).length := by
    rwa [List.length_map]
  refine differs ((List.getElem?_inj within barred.distinct).mp ?_)
  rw [List.getElem?_map, List.getElem?_map, List.getElem?_eq_getElem bound,
    List.getElem?_eq_getElem inside, Option.map_some, Option.map_some, found, same]

/-- A user is edited, and its id is not. -/
theorem edited (barred : s.Barred) {p : StoredUser → Bool} {edit : StoredUser → StoredUser}
    (users : t.users = s.users.modify (s.users.findIdx p) edit) (ids : ∀ user, (edit user).id = user.id)
    (drawn : t.drawn = s.drawn)
    (known : ∀ id status, t.ordered id = some status → id ∈ s.drawn ∧ status ≠ .active)
    (kept : ∀ (j : Nat) (user : StoredUser), s.users[j]? = some user → ∀ status,
      t.ordered user.id = some status →
        (if s.users.findIdx p = j then edit user else user).status = status) : t.Barred := by
  have column : t.users.map (·.id) = s.users.map (·.id) := by
    rw [users]
    exact map_modify ids
  refine ⟨column ▸ barred.distinct, ?_, drawn ▸ known, ?_⟩
  · intro user member
    have listed : user.id ∈ s.users.map (·.id) := column ▸ List.mem_map_of_mem member
    obtain ⟨old, present, same⟩ := List.mem_map.mp listed
    rw [drawn, ← same]
    exact barred.drawn old present
  · intro user member status order
    obtain ⟨j, here⟩ := List.mem_iff_getElem?.mp (users ▸ member)
    rcases getElem?_modify_cases here with ⟨hit, old, found, rfl⟩ | ⟨miss, found⟩
    · rw [ids] at order
      have set := kept j old found status order
      rwa [if_pos hit] at set
    · have set := kept j user found status order
      rwa [if_neg miss] at set

/-- An order is given to the user that is found. -/
theorem ordered_apply (barred : s.Barred) {id : Uuid} {request : UpdateUserRequest}
    {name : Option String} (found : ∃ user ∈ s.users, user.id = id)
    (users : t.users = s.users.modify (s.users.findIdx (·.id == id)) (request.apply name))
    (drawn : t.drawn = s.drawn) (ordered : t.ordered = order s.ordered id request.status) :
    t.Barred := by
  refine barred.edited users (fun _ => rfl) drawn ?_ ?_
  · intro other status under
    rw [ordered] at under
    by_cases same : other = id
    · subst same
      obtain ⟨user, member, rfl⟩ := found
      refine ⟨barred.drawn user member, ?_⟩
      rcases order_self under with ⟨-, off⟩ | ⟨-, before⟩
      · exact off
      · exact (barred.known _ _ before).2
    · rw [order_ne _ same] at under
      exact barred.known other status under
  · intro j user here status under
    rw [ordered] at under
    split
    · rename_i hit
      have same := found_id here hit
      rw [same] at under
      show request.status.getD user.status = status
      rcases order_self under with ⟨set, -⟩ | ⟨unset, before⟩
      · rw [set, Option.getD_some]
      · rw [unset, Option.getD_none]
        exact barred.kept user (List.mem_of_getElem? here) status (same ▸ before)
    · rename_i miss
      rw [order_ne _ (barred.other_id here miss)] at under
      exact barred.kept user (List.mem_of_getElem? here) status under

theorem changes (barred : s.Barred) {action : AuthAction} (ok : s.unlinked sha256 action = true)
    (changed : s.Changes sha256 action t) : t.Barred := by
  cases changed with
  | quiet users drawn ordered =>
      refine ⟨users ▸ barred.distinct, ?_, ?_, ?_⟩
      · exact fun user member => drawn _ (barred.drawn user (users ▸ member))
      · intro id status under
        obtain ⟨known, off⟩ := barred.known id status (ordered ▸ under)
        exact ⟨drawn id known, off⟩
      · exact fun user member status under =>
          barred.kept user (users ▸ member) status (ordered ▸ under)
  | stamped p now users drawn ordered =>
      refine barred.edited users (fun _ => rfl) drawn (ordered ▸ barred.known) ?_
      intro j user here status under
      have was := barred.kept user (List.mem_of_getElem? here) status (ordered ▸ under)
      split
      · exact was
      · exact was
  | added fresh users drawn ordered =>
      rename_i user
      refine ⟨?_, ?_, ?_, ?_⟩
      · rw [users, List.map_append, List.map_singleton, List.nodup_append]
        refine ⟨barred.distinct, List.nodup_singleton _, ?_⟩
        rintro id listed other last rfl
        obtain ⟨old, member, rfl⟩ := List.mem_map.mp listed
        exact fresh (List.mem_singleton.mp last ▸ barred.drawn old member)
      · intro other member
        rw [users] at member
        rw [drawn]
        rcases List.mem_append.mp member with old | last
        · exact List.mem_cons_of_mem _ (barred.drawn other old)
        · rw [List.mem_singleton.mp last]
          exact List.mem_cons_self ..
      · intro id status under
        obtain ⟨known, off⟩ := barred.known id status (ordered ▸ under)
        exact ⟨drawn ▸ List.mem_cons_of_mem _ known, off⟩
      · intro other member status under
        rw [users] at member
        rw [ordered] at under
        rcases List.mem_append.mp member with old | last
        · exact barred.kept other old status under
        · rw [List.mem_singleton.mp last] at under
          exact absurd (barred.known _ _ under).1 fresh
  | withdrawn here users drawn ordered =>
      refine ⟨?_, ?_, ?_, ?_⟩
      · rw [users]
        exact barred.distinct.sublist (List.filter_sublist.map _)
      · intro user member
        rw [users] at member
        exact drawn ▸ barred.drawn user (List.mem_of_mem_filter member)
      · rw [drawn, ordered]
        exact barred.known
      · intro user member status under
        rw [users] at member
        exact barred.kept user (List.mem_of_mem_filter member) status (ordered ▸ under)
  | verified found users drawn ordered =>
      simp only [unlinked, found, Option.all_some, Option.isNone_iff_eq_none] at ok
      refine barred.edited users (fun _ => rfl) drawn (ordered ▸ barred.known) ?_
      intro j user here status under
      rw [ordered] at under
      split
      · rename_i hit
        rw [found_id here hit, ok] at under
        cases under
      · exact barred.kept user (List.mem_of_getElem? here) status under
  | updated name here found guarded users drawn ordered =>
      exact barred.ordered_apply found users drawn ordered

/-- A user who is let in is under no order. -/
theorem active_unordered (barred : s.Barred) {user : StoredUser} (member : user ∈ s.users)
    (active : user.status = .active) : s.ordered user.id = none := by
  cases under : s.ordered user.id with
  | none => rfl
  | some status =>
      have kept := barred.kept user member status under
      exact absurd (kept.symm.trans active) (barred.known _ _ under).2

theorem sticks (barred : s.Barred) : s.Sticks sha256 where
  kept user member status under := ⟨barred.kept user member status under, (barred.known _ _ under).2⟩
  sessions token now view accepted := by
    unfold AuthStore.userForSession at accepted
    split at accepted
    · cases accepted
    · split at accepted
      · cases accepted
      · split at accepted
        · cases accepted
        · rename_i user found
          split at accepted
          · cases accepted
          · rename_i active
            cases accepted
            exact barred.active_unordered (List.mem_of_find?_eq_some found) (not_not.mp active)
  logins request now writes view accepted := by
    rcases s.store.signIn_cases sha256 request now writes with
      ⟨error, refused⟩ | ⟨email, user, found, active, signed⟩
    · rw [refused] at accepted
      cases accepted
    · have unordered := barred.active_unordered (List.mem_of_find?_eq_some found) active
      rw [signed, AuthStore.persist] at accepted
      split at accepted
      · cases accepted
        exact unordered
      · cases accepted

end AuthRun.Barred

/-- **Disabling sticks**, in every run of calls side by side in which no link of a disabled
user is used. -/
theorem disabling_sticks {start final : AuthRun} {actions : List AuthAction}
    (started : (authMachine sha256).Start start)
    (met : (authMachine sha256).Meets (fun s action => s.unlinked sha256 action = true) start actions)
    (ran : (authMachine sha256).run start actions = some final) : final.Sticks sha256 := by
  have first : start.Barred := by
    obtain ⟨email, password, url, id, salt, now, store, made, rfl⟩ := started
    obtain ⟨admin, state, -, same, -, -⟩ := AuthStore.new_first made
    refine ⟨?_, ?_, nofun, nofun⟩
    · simp [AuthRun.users, state]
    · simp [AuthRun.users, state, same]
  have inv : final.Barred := by
    refine Machine.run_preserves_of_meets ?_ met ran first
    intro s action t barred ok stepped
    exact barred.changes ok (AuthRun.step_changes stepped)
  exact inv.sticks

end

/-! ## A link that is still good -/

/-- A member signs up and is disabled before it opens its link. -/
def signUpDisabled : List AuthAction :=
  [.openSession 0 "token" 6, .permit "token" 7 (.updateSettings ⟨true⟩), .administer 1 2 8 9 true,
    .register ⟨"Member", "member@example.com", "battery staple"⟩,
    .enroll 2 2 8 "link" 10 true, .delivered 2,
    .permit "token" 11 (.updateUser 2 ⟨none, none, some .disabled⟩), .administer 3 3 8 12 true]

theorem disabling_sticks_signUpDisabled :
    ∃ final, (authMachine Store.Sha256.digest).run firstRun (adminLogin :: signUpDisabled) =
        some final ∧
      (final.ordered 2 = some .disabled ∧ final.users.map (·.status) = [.active, .disabled]) ∧
      final.Sticks Store.Sha256.digest := by
  obtain ⟨final, ran, shown⟩ : ∃ final,
      (authMachine Store.Sha256.digest).run afterLogin signUpDisabled = some final ∧
        (final.ordered 2 = some .disabled ∧ final.users.map (·.status) = [.active, .disabled]) :=
    Machine.run_exists (by decide +kernel)
  have whole := (firstRun_login signUpDisabled).trans ran
  have met : (authMachine Store.Sha256.digest).Meets
      (fun s action => s.unlinked Store.Sha256.digest action = true) firstRun
      (adminLogin :: signUpDisabled) := firstRun_meets rfl (by decide +kernel)
  exact ⟨final, whole, shown, disabling_sticks firstRun_started met whole⟩

/-- The disabled member opens its link, and is active. -/
theorem disabled_user_verifies :
    ∃ final, (authMachine Store.Sha256.digest).run firstRun
        (adminLogin :: (signUpDisabled ++ [.verifyEmail ⟨"link"⟩ 13 true])) = some final ∧
      (final.ordered 2 = some .disabled ∧ final.users.map (·.status) = [.active, .active]) ∧
      ¬ final.Sticks Store.Sha256.digest := by
  obtain ⟨final, ran, shown, broken⟩ : ∃ final,
      (authMachine Store.Sha256.digest).run afterLogin
          (signUpDisabled ++ [.verifyEmail ⟨"link"⟩ 13 true]) = some final ∧
        (final.ordered 2 = some .disabled ∧ final.users.map (·.status) = [.active, .active]) ∧
        ∃ user ∈ final.users, final.ordered user.id = some .disabled ∧ user.status = .active :=
    Machine.run_exists (by decide +kernel)
  refine ⟨final, (firstRun_login _).trans ran, shown, fun sticks => ?_⟩
  obtain ⟨user, member, under, active⟩ := broken
  have kept := (sticks.kept user member _ under).1
  rw [active] at kept
  cases kept

end MajsoulManager.Auth
