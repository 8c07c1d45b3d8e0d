/-
# Refetch.Accounts — the accounts the re-fetch pool may take

Mahjong Soul allows one session per account, so the pool leaves out what a collector
could log in with and takes nothing twice (`refetch_service.rs`).  Both rules compare
usernames as they are spelled, while an account is its username up to letter case; and
a collector on a `pool:` reference is taken to be among the accounts filed under live
collection, which one on `pool:refetch` is not.

`pool_exclusive_iff` says for exactly which accounts the rules are enough.
-/
import MajsoulManager.Watch.Config

namespace MajsoulManager.Refetch

open MajsoulManager.Theory
open MajsoulManager.Accounts
open MajsoulManager.Watch

set_option autoImplicit false

/-- What the pool reads before every login: the secrets, and the configured
collectors, switched on or off. -/
structure World where
  secrets : Secrets
  instances : List WatchInstance

/-! ## The rules -/

/-- A `pool:` reference is not read. -/
def isPoolRef (secretRef : String) : Bool := "pool:".toList.isPrefixOf secretRef.toList

/-- The collectors one by one, beside the names already held. -/
def collectorsFrom (secrets : Secrets) (held : List String) :
    List WatchInstance → Except WatchServiceError (List String)
  | [] => .ok held
  | instance_ :: rest =>
      if isPoolRef instance_.accountSecretRef then collectorsFrom secrets held rest
      else
        match loadFirstAccount secrets instance_.accountSecretRef with
        | .ok account => collectorsFrom secrets (account.1 :: held) rest
        | .error error =>
            let id := instance_.id
            .error (.invalidConfig
              s!"读不到采集实例 {id} 的账号（{error}），无法确认补抓池会不会和它抢；把它的账号引用改成控制台账号池里的 pool:watch/账号，或者删掉这个实例")

/-- The usernames the collectors could log in with. -/
def collectorAccounts (world : World) : Except WatchServiceError (List String) :=
  collectorsFrom world.secrets (AccountPool.reserved world.secrets.document .watch) world.instances

/-- Everything in the pool that no collector holds, each at most once. -/
def poolAccounts (collectors : List String) :
    List String → List (String × String) → List (String × String)
  | _, [] => []
  | seen, account :: rest =>
      if account.1 ∈ collectors ∨ account.1 ∈ seen then poolAccounts collectors seen rest
      else account :: poolAccounts collectors (account.1 :: seen) rest

def usableAccounts (world : World) (secretRef : String) :
    Except WatchServiceError (List (String × String)) :=
  match loadAccounts world.secrets secretRef with
  | .error error => .error (.invalidConfig error)
  | .ok accounts => (collectorAccounts world).map fun held => poolAccounts held [] accounts

/-- The accounts `start` opens sessions for: as many as are configured, or as there are. -/
def startAccounts (world : World) (secretRef : String) (concurrency : Nat) :
    Except WatchServiceError (List (String × String)) :=
  match usableAccounts world secretRef with
  | .error error => .error error
  | .ok [] => .error (.invalidConfig "账号池里没有可用账号：文件为空，或者里面的账号都已经被采集实例占用")
  | .ok accounts => .ok (accounts.take (min concurrency accounts.length))

/-- The check a session makes before every login. -/
def mayLogIn (world : World) (username : String) : Bool :=
  match collectorAccounts world with
  | .error _ => false
  | .ok held => !held.contains username

/-! ## Sharing -/

section Exclusive

variable (lower : String → String)

/-- The account a collector resolves to. -/
def CollectsWith (secrets : Secrets) (instance_ : WatchInstance) (username : String) : Prop :=
  ∃ password, loadFirstAccount secrets instance_.accountSecretRef = .ok (username, password)

/-- A configured collector resolves to this account. -/
def Collects (world : World) (username : String) : Prop :=
  ∃ instance_ ∈ world.instances, CollectsWith world.secrets instance_ username

/-- Of the sessions started in one world, none that logs in in another takes a
collector's account, and no two are on one account. -/
def Exclusive (started now : World) (secretRef : String) (concurrency : Nat) : Prop :=
  ∀ accounts, startAccounts started secretRef concurrency = .ok accounts →
    (∀ account ∈ accounts, mayLogIn now account.1 = true →
      ∀ collected, Collects now collected → identity lower account.1 ≠ identity lower collected) ∧
    (accounts.map fun account => identity lower account.1).Nodup

/-- The collectors whose reference is read: `file:` and `env:`. -/
def readCollectors (instances : List WatchInstance) : List WatchInstance :=
  instances.filter fun instance_ => !isPoolRef instance_.accountSecretRef

/-- Every collector's `file:` and `env:` reference can be read. -/
def Readable (world : World) : Prop :=
  ∀ instance_ ∈ readCollectors world.instances, ∃ username,
    CollectsWith world.secrets instance_ username

/-- Spelled exactly like an account filed under live collection, or like the first
account of a collector's file or variable. -/
def Spelled (world : World) (username : String) : Prop :=
  (∃ account ∈ world.secrets.document.accounts,
    account.purpose = .watch ∧ account.username = username) ∨
  ∃ instance_ ∈ readCollectors world.instances, CollectsWith world.secrets instance_ username

/-- Whatever of the pool's reference is not spelled like a collector's account is no
collector's in another case, and is not there twice in different cases. -/
def SpelledApart (started now : World) (secretRef : String) : Prop :=
  Readable started → ∀ accounts, loadAccounts started.secrets secretRef = .ok accounts →
    ∀ account ∈ accounts, ¬ Spelled started account.1 →
      (Readable now → ¬ Spelled now account.1 →
        ∀ collected, Collects now collected → identity lower account.1 ≠ identity lower collected) ∧
      ∀ other ∈ accounts, ¬ Spelled started other.1 →
        identity lower other.1 = identity lower account.1 → other.1 = account.1

end Exclusive

/-! ## What the rules compute -/

theorem collectorsFrom_pool {secrets : Secrets} {held : List String} {instances : List WatchInstance} :
    collectorsFrom secrets held instances =
      collectorsFrom secrets held (readCollectors instances) := by
  induction instances generalizing held with
  | nil => rfl
  | cons instance_ rest ih =>
      by_cases pool : isPoolRef instance_.accountSecretRef = true
      · rw [collectorsFrom, if_pos pool, ih, readCollectors, readCollectors,
          List.filter_cons_of_neg (by simp [pool])]
      · rw [readCollectors, List.filter_cons_of_pos (by simp [pool]), collectorsFrom, if_neg pool,
          collectorsFrom, if_neg pool]
        cases loadFirstAccount secrets instance_.accountSecretRef with
        | error error => rfl
        | ok account => exact ih

theorem collectsWith_unique {secrets : Secrets} {instance_ : WatchInstance} {a b : String}
    (first : CollectsWith secrets instance_ a) (second : CollectsWith secrets instance_ b) : a = b := by
  obtain ⟨password, loaded⟩ := first
  obtain ⟨other, also⟩ := second
  rw [loaded] at also
  cases also
  rfl

/-- Reading the collectors fails when one of them cannot be read, and otherwise adds
exactly the accounts they resolve to. -/
theorem collectorsFrom_iff {secrets : Secrets} {instances : List WatchInstance}
    (reads : ∀ instance_ ∈ instances, isPoolRef instance_.accountSecretRef = false)
    (held : List String) :
    ((∃ found, collectorsFrom secrets held instances = .ok found) ↔
      ∀ instance_ ∈ instances, ∃ username, CollectsWith secrets instance_ username) ∧
    ∀ found, collectorsFrom secrets held instances = .ok found → ∀ username, username ∈ found ↔
      username ∈ held ∨ ∃ instance_ ∈ instances, CollectsWith secrets instance_ username := by
  induction instances generalizing held with
  | nil =>
      refine ⟨⟨fun _ => by simp, fun _ => ⟨held, rfl⟩⟩, ?_⟩
      rintro found read username
      cases read
      simp
  | cons instance_ rest ih =>
      obtain ⟨notPool, later⟩ := List.forall_mem_cons.mp reads
      rw [collectorsFrom, notPool, if_neg Bool.false_ne_true]
      cases loaded : loadFirstAccount secrets instance_.accountSecretRef with
      | error error =>
          have unread : ¬ ∃ username, CollectsWith secrets instance_ username := by
            rintro ⟨username, password, also⟩
            rw [loaded] at also
            cases also
          refine ⟨⟨fun read => ?_, fun all => absurd (all instance_ (by simp)) unread⟩, ?_⟩
          · obtain ⟨found, read⟩ := read
            cases read
          · intro found read
            cases read
      | ok account =>
          have here : CollectsWith secrets instance_ account.1 := ⟨account.2, loaded⟩
          obtain ⟨readable, members⟩ := ih later (account.1 :: held)
          refine ⟨⟨fun read => ?_, fun all => ?_⟩, ?_⟩
          · refine List.forall_mem_cons.mpr ⟨⟨account.1, here⟩, readable.mp read⟩
          · exact readable.mpr (List.forall_mem_cons.mp all).2
          · intro found read username
            rw [members found read username, List.mem_cons, List.exists_mem_cons_iff]
            constructor
            · rintro ((rfl | old) | other)
              · exact .inr (.inl here)
              · exact .inl old
              · exact .inr (.inr other)
            · rintro (old | this | other)
              · exact .inl (.inr old)
              · exact .inl (.inl (collectsWith_unique this here))
              · exact .inr other

/-- **What the collectors hold**: readable exactly when every file and variable is, and
then exactly the names spelled like a collector's. -/
theorem collectorAccounts_iff (world : World) :
    ((∃ held, collectorAccounts world = .ok held) ↔ Readable world) ∧
      ∀ held, collectorAccounts world = .ok held → ∀ username,
        username ∈ held ↔ Spelled world username := by
  have reads : ∀ instance_ ∈ readCollectors world.instances,
      isPoolRef instance_.accountSecretRef = false := by
    intro instance_ member
    simpa using (List.mem_filter.mp member).2
  have both := @collectorsFrom_iff world.secrets _ reads
    (AccountPool.reserved world.secrets.document .watch)
  obtain ⟨readable, members⟩ := both
  rw [collectorAccounts, collectorsFrom_pool]
  refine ⟨readable, ?_⟩
  intro held read username
  rw [members held read username, Spelled]
  refine or_congr ?_ Iff.rfl
  simp only [AccountPool.reserved, List.mem_map, List.mem_filter, beq_iff_eq]
  constructor
  · rintro ⟨account, ⟨member, purpose⟩, named⟩
    exact ⟨account, member, purpose, named⟩
  · rintro ⟨account, member, purpose, named⟩
    exact ⟨account, ⟨member, purpose⟩, named⟩

theorem mayLogIn_iff (world : World) (username : String) :
    mayLogIn world username = true ↔ Readable world ∧ ¬ Spelled world username := by
  obtain ⟨readable, members⟩ := collectorAccounts_iff world
  unfold mayLogIn
  cases read : collectorAccounts world with
  | error error =>
      have unread : ¬ Readable world := by
        intro all
        obtain ⟨held, ok⟩ := readable.mpr all
        rw [read] at ok
        cases ok
      simp [unread]
  | ok held =>
      have all : Readable world := readable.mp ⟨held, read⟩
      simp [all, ← members held read username]

/-- The rule keeps, in order, the first of each spelling that no collector holds. -/
theorem mem_poolAccounts {collectors seen : List String} {accounts : List (String × String)}
    {username : String} :
    (∃ password, (username, password) ∈ poolAccounts collectors seen accounts) ↔
      (∃ password, (username, password) ∈ accounts) ∧ username ∉ collectors ∧ username ∉ seen := by
  induction accounts generalizing seen with
  | nil => simp [poolAccounts]
  | cons account rest ih =>
      obtain ⟨name, secret⟩ := account
      rw [poolAccounts]
      split
      · rename_i skipped
        rw [ih]
        constructor
        · rintro ⟨⟨password, member⟩, apart⟩
          exact ⟨⟨password, List.mem_cons_of_mem _ member⟩, apart⟩
        · rintro ⟨⟨password, member⟩, apart⟩
          rcases List.mem_cons.mp member with here | later
          · cases here
            rcases skipped with held | twice
            · exact absurd held apart.1
            · exact absurd twice apart.2
          · exact ⟨⟨password, later⟩, apart⟩
      · rename_i kept
        rw [not_or] at kept
        have split : (∃ password, (username, password) ∈
              (name, secret) :: poolAccounts collectors (name :: seen) rest) ↔
            username = name ∨
              ∃ password, (username, password) ∈ poolAccounts collectors (name :: seen) rest := by
          constructor
          · rintro ⟨password, member⟩
            rcases List.mem_cons.mp member with here | later
            · exact .inl (Prod.mk.inj here).1
            · exact .inr ⟨password, later⟩
          · rintro (rfl | ⟨password, later⟩)
            · exact ⟨secret, List.mem_cons_self ..⟩
            · exact ⟨password, List.mem_cons_of_mem _ later⟩
        rw [split, ih]
        constructor
        · rintro (rfl | ⟨⟨password, member⟩, free, fresh⟩)
          · exact ⟨⟨secret, List.mem_cons_self ..⟩, kept⟩
          · exact ⟨⟨password, List.mem_cons_of_mem _ member⟩, free,
              fun old => fresh (List.mem_cons_of_mem _ old)⟩
        · rintro ⟨⟨password, member⟩, free, fresh⟩
          by_cases same : username = name
          · exact .inl same
          · rcases List.mem_cons.mp member with here | later
            · exact absurd (Prod.mk.inj here).1 same
            · refine .inr ⟨⟨password, later⟩, free, ?_⟩
              intro old
              rcases List.mem_cons.mp old with here | before
              · exact same here
              · exact fresh before

theorem poolAccounts_nodup (collectors seen : List String) (accounts : List (String × String)) :
    ((poolAccounts collectors seen accounts).map (·.1)).Nodup := by
  induction accounts generalizing seen with
  | nil => exact List.nodup_nil
  | cons account rest ih =>
      rw [poolAccounts]
      split
      · exact ih seen
      · rw [List.map_cons, List.nodup_cons]
        refine ⟨?_, ih _⟩
        intro again
        obtain ⟨other, member, same⟩ := List.mem_map.mp again
        have fresh := (mem_poolAccounts.mp ⟨other.2, member⟩).2.2
        rw [same] at fresh
        exact fresh (List.mem_cons_self ..)

theorem startAccounts_ok {world : World} {secretRef : String} {concurrency : Nat}
    {accounts : List (String × String)}
    (ok : startAccounts world secretRef concurrency = .ok accounts) :
    ∃ named held, loadAccounts world.secrets secretRef = .ok named ∧
      collectorAccounts world = .ok held ∧
      accounts = (poolAccounts held [] named).take (min concurrency (poolAccounts held [] named).length) := by
  unfold startAccounts usableAccounts at ok
  cases loaded : loadAccounts world.secrets secretRef with
  | error error =>
      rw [loaded] at ok
      cases ok
  | ok named =>
      rw [loaded] at ok
      cases read : collectorAccounts world with
      | error error =>
          rw [read] at ok
          cases ok
      | ok held =>
          rw [read] at ok
          refine ⟨named, held, rfl, rfl, ?_⟩
          simp only [Except.map] at ok
          split at ok
          · cases ok
          · cases ok
          · rename_i usable found
            cases found
            cases ok
            rfl

/-- With enough sessions configured, every usable account has one. -/
theorem startAccounts_all {world : World} {secretRef : String} {named : List (String × String)}
    {held : List String} (loaded : loadAccounts world.secrets secretRef = .ok named)
    (read : collectorAccounts world = .ok held) (some : poolAccounts held [] named ≠ []) :
    startAccounts world secretRef (poolAccounts held [] named).length =
      .ok (poolAccounts held [] named) := by
  unfold startAccounts usableAccounts
  simp only [loaded, read, Except.map]
  rw [Nat.min_self, List.take_length]

/-! ## When they are enough -/

section Exclusive

variable {lower : String → String}

/-- **The pool shares no account** with a collector or with itself, however many sessions
are configured, exactly when whatever its reference names is spelled like a collector's
account wherever it is one, and is spelled in one way. -/
theorem pool_exclusive_iff (started now : World) (secretRef : String) :
    (∀ concurrency, Exclusive lower started now secretRef concurrency) ↔
      SpelledApart lower started now secretRef := by
  constructor
  · intro exclusive readable named loaded account member unspelled
    obtain ⟨held, read⟩ := (collectorAccounts_iff started).1.mpr readable
    have spelled := (collectorAccounts_iff started).2 held read
    -- every account of the reference that is not spelled like a collector's has a session
    have runs : ∀ other ∈ named, ¬ Spelled started other.1 →
        ∃ password, (other.1, password) ∈ poolAccounts held [] named := by
      intro other inside free
      refine mem_poolAccounts.mpr ⟨⟨other.2, inside⟩, ?_, List.not_mem_nil⟩
      rw [spelled]
      exact free
    obtain ⟨password, running⟩ := runs account member unspelled
    obtain ⟨free, nodup⟩ := exclusive _ _
      (startAccounts_all loaded read (List.ne_nil_of_mem running))
    refine ⟨?_, ?_⟩
    · intro readableNow unspelledNow collected collects
      exact free _ running ((mayLogIn_iff now account.1).mpr ⟨readableNow, unspelledNow⟩) collected
        collects
    · intro other inside alsoFree same
      obtain ⟨secret, alsoRunning⟩ := runs other inside alsoFree
      have equal := List.inj_on_of_nodup_map nodup alsoRunning running same
      exact (Prod.mk.inj equal).1
  · intro apart concurrency accounts ok
    obtain ⟨named, held, loaded, read, rfl⟩ := startAccounts_ok ok
    have readable := (collectorAccounts_iff started).1.mp ⟨held, read⟩
    have spelled := (collectorAccounts_iff started).2 held read
    have usable : ∀ account ∈ poolAccounts held [] named, ∃ password, (account.1, password) ∈ named ∧
        ¬ Spelled started account.1 := by
      intro account member
      obtain ⟨⟨password, inside⟩, free, -⟩ := mem_poolAccounts.mp ⟨account.2, member⟩
      rw [spelled] at free
      exact ⟨password, inside, free⟩
    refine ⟨?_, ?_⟩
    · intro account member logsIn collected collects
      obtain ⟨password, inside, free⟩ := usable account (List.mem_of_mem_take member)
      obtain ⟨readableNow, unspelledNow⟩ := (mayLogIn_iff now account.1).mp logsIn
      exact (apart readable named loaded _ inside free).1 readableNow unspelledNow collected collects
    · have distinct : ((poolAccounts held [] named).map fun account =>
          identity lower account.1).Nodup := by
        have through : ((poolAccounts held [] named).map fun account => identity lower account.1) =
            ((poolAccounts held [] named).map (·.1)).map (identity lower) := by
          rw [List.map_map]
          rfl
        rw [through]
        refine List.Nodup.map_on ?_ (poolAccounts_nodup held [] named)
        intro a here b there same
        obtain ⟨first, member, rfl⟩ := List.mem_map.mp here
        obtain ⟨second, also, rfl⟩ := List.mem_map.mp there
        obtain ⟨password, inside, free⟩ := usable first member
        obtain ⟨secret, alsoInside, alsoFree⟩ := usable second also
        have equal := (apart readable named loaded _ alsoInside alsoFree).2 (first.1, password)
        exact equal inside free same
      exact distinct.sublist ((List.take_sublist _ _).map _)

end Exclusive

/-! ## One account in two cases -/

/-- A collector on a variable, and a pool on a file. -/
def twoSecrets (collector pool : String) : World where
  secrets :=
    { env := fun name => if name = "LIVE" then some collector else none
      file := fun path => if path = "/srv/pool" then some pool else none }
  instances := [{ id := "default", key := "default", accountSecretRef := "env:LIVE" }]

/-- **The collector's account in capitals is taken**: both are the one account to the
account pool, and the session logs in with it. -/
theorem capitals_are_taken :
    ¬ Exclusive asciiLowerCase (twoSecrets "live@x.com,a" "LIVE@x.com,b")
      (twoSecrets "live@x.com,a" "LIVE@x.com,b") "file:/srv/pool" 1 := by
  intro exclusive
  have started : startAccounts (twoSecrets "live@x.com,a" "LIVE@x.com,b") "file:/srv/pool" 1 =
      .ok [("LIVE@x.com", "b")] := by decide +kernel
  have collects : Collects (twoSecrets "live@x.com,a" "LIVE@x.com,b") "live@x.com" :=
    ⟨_, List.mem_singleton.mpr rfl, "a", by decide +kernel⟩
  exact (exclusive _ started).1 _ (List.mem_singleton.mpr rfl) (by decide +kernel) _ collects
    (by decide +kernel)

end MajsoulManager.Refetch
