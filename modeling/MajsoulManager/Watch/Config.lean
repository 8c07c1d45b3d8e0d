/-
# Watch.Config — the collectors a configuration asks for

`WatchServiceConfig` and its checks (`watch_service.rs`).  A configuration is accepted
whole: its instances differ in id, in state key and in account reference, and those
whose reference resolves differ in account (`acceptedConfig_distinct`).  Parsing a proxy
URL is the client library's, a parameter here.
-/
import MajsoulManager.Accounts.Secrets

namespace MajsoulManager.Watch

open MajsoulManager.Theory
open MajsoulManager.Accounts

set_option autoImplicit false

/-! ## The document -/

structure ModuleRef where
  name : String := "builtin"
  version : String := "majsoul2mjai-da985809"
  deriving DecidableEq, Repr

inductive WatchProxyMode where
  | direct
  | mihomo
  | custom
  deriving DecidableEq, Repr

structure WatchInstance where
  id : String
  key : String
  enabled : Bool := true
  room : String := "all"
  players : Nat := 4
  modes : List String := ["east", "south"]
  accountSecretRef : String
  clientVersion : Option String := none
  deriving DecidableEq, Repr

structure WatchServiceConfig where
  revision : UInt64
  enabled : Bool
  server : String := "cn"
  proxyMode : WatchProxyMode := .direct
  customProxyUrl : Option String := none
  pollIntervalSecs : Nat := 10
  requestDelayMs : Nat := 500
  loginModule : ModuleRef := {}
  pbFetchModule : ModuleRef := {}
  instances : List WatchInstance
  deriving DecidableEq, Repr

/-- Both the master switch and the instance's own are on. -/
def WatchServiceConfig.activeInstances (config : WatchServiceConfig) : List WatchInstance :=
  config.instances.filter fun instance_ => config.enabled && instance_.enabled

/-- Where a collector keeps its queue, under the data directory. -/
def statePath (instance_ : WatchInstance) : String := "watch/state-" ++ instance_.key ++ ".json"

/-- An instance without a key is new, and is given one. -/
def WatchServiceConfig.mintMissingKeys (config : WatchServiceConfig) (newKey : Nat → String) :
    WatchServiceConfig :=
  { config with
    instances := config.instances.mapIdx fun index instance_ =>
      if instance_.key = "" then { instance_ with key := newKey index } else instance_ }

/-! ## Its checks -/

/-- What the URL library says of a proxy: the scheme, or why it does not parse; and its
text with the credentials taken out. -/
structure Urls where
  scheme : String → Except String String
  redact : String → String

/-- A library that reads every text as plain `http`, for small examples. -/
def plainUrls : Urls := ⟨fun _ => .ok "http", id⟩

def redactedProxy (urls : Urls) (url : Option String) : Option String := url.map urls.redact

def restoredProxy (urls : Urls) (submitted stored : Option String) : Option String :=
  match submitted with
  | none => none
  | some submitted => if redactedProxy urls stored = some submitted then stored else some submitted

/-- One check of a configuration. -/
def refuse (bad : Bool) (message : String) : Except WatchServiceError Unit :=
  if bad then .error (.invalidConfig message) else .ok ()

def identifierChar (c : Char) : Bool := c.isAlphanum || c == '.' || c == '_' || c == '-'

def validateIdentifier (label value : String) : Except WatchServiceError Unit :=
  refuse (value == "" || 96 < value.utf8ByteSize || value == "." || value == ".." ||
    !value.toList.all identifierChar) s!"{label} contains unsupported characters"

def validateSecretRef (value : String) : Except WatchServiceError Unit :=
  let shape := "account_secret_ref must use file:, env: or pool:"
  match Text.splitOnce value ':' with
  | none => .error (.invalidConfig shape)
  | some (scheme, target) =>
      if target = "" then .error (.invalidConfig shape)
      else if scheme = "file" ∨ scheme = "env" then .ok ()
      else if scheme = "pool" then
        if (AccountPool.PoolRef.parse target).isSome then .ok ()
        else .error (.invalidConfig "pool: 引用要写成 pool:watch/账号 或 pool:refetch")
      else .error (.invalidConfig shape)

def WatchInstance.validate (instance_ : WatchInstance) : Except WatchServiceError Unit := do
  validateIdentifier "instance key" instance_.key
  validateIdentifier "instance id" instance_.id
  refuse (instance_.room ∉ ["gold", "jade", "throne", "all"])
    "room must be gold, jade, throne or all"
  refuse (instance_.players ∉ [3, 4]) "players must be 3 or 4"
  refuse (instance_.modes.isEmpty || instance_.modes.any fun mode => mode ∉ ["east", "south"])
    "modes must contain east and/or south"
  validateSecretRef instance_.accountSecretRef

/-- The first instance that shares what an earlier one has, if there is one. -/
def firstRepeat (field : WatchInstance → String) :
    List String → List WatchInstance → Option WatchInstance
  | _, [] => none
  | seen, instance_ :: rest =>
      if field instance_ ∈ seen then some instance_
      else firstRepeat field (field instance_ :: seen) rest

def refuseRepeat (field : WatchInstance → String) (instances : List WatchInstance)
    (message : String → String) : Except WatchServiceError Unit :=
  match firstRepeat field [] instances with
  | some repeated => .error (.invalidConfig (message repeated.id))
  | none => .ok ()

def validateProxy (urls : Urls) (mode : WatchProxyMode) (url : Option String) :
    Except WatchServiceError Unit :=
  match mode, url with
  | .direct, _ => .ok ()
  | .mihomo, _ => .ok ()
  | .custom, none => .error (.invalidConfig "custom_proxy_url is required in custom proxy mode")
  | .custom, some url =>
      match urls.scheme url with
      | .error error => .error (.invalidConfig s!"invalid custom proxy URL: {error}")
      | .ok scheme =>
          if scheme ∈ ["http", "https", "socks5"] then .ok ()
          else .error (.invalidConfig "custom proxy URL must use http, https or socks5")

def validateModuleRef (value : ModuleRef) : Except WatchServiceError Unit := do
  validateIdentifier "module name" value.name
  validateIdentifier "module version" value.version

def WatchServiceConfig.validate (urls : Urls) (config : WatchServiceConfig) :
    Except WatchServiceError Unit := do
  refuse config.instances.isEmpty "at least one watch instance is required"
  config.instances.forM WatchInstance.validate
  refuseRepeat (·.id) config.instances fun id => s!"duplicate watch instance id {id}"
  refuseRepeat (·.key) config.instances fun id =>
    s!"watch instance {id} reuses another instance's state key"
  refuseRepeat (·.accountSecretRef) config.instances fun id =>
    s!"watch instance {id} reuses another instance's account_secret_ref; each collector needs its own account"
  refuse (config.server ∉ ["cn", "en", "jp"]) "server must be cn, en or jp"
  refuse (config.pollIntervalSecs < 3 || 300 < config.pollIntervalSecs)
    "poll_interval_secs must be between 3 and 300"
  refuse (60000 < config.requestDelayMs) "request_delay_ms must not exceed 60000"
  validateProxy urls config.proxyMode config.customProxyUrl
  validateModuleRef config.loginModule
  validateModuleRef config.pbFetchModule

/-- An account as a log may show it. -/
def maskedAccount (username : String) : String :=
  match Text.splitOnce username '@' with
  | some (name, domain) => Text.takeChars name 2 ++ "***@" ++ domain
  | none => Text.takeChars username 2 ++ "***"

/-- The check `update_config` makes by resolving the references: a reference that does
not resolve is passed over. -/
def checkAccounts (lower : String → String) (secrets : Secrets) :
    List String → List WatchInstance → Except WatchServiceError Unit
  | _, [] => .ok ()
  | seen, instance_ :: rest =>
      match loadFirstAccount secrets instance_.accountSecretRef with
      | .error _ => checkAccounts lower secrets seen rest
      | .ok (username, _) =>
          let username := lower username
          if username ∈ seen then
            let masked := maskedAccount username
            .error (.invalidConfig
              s!"有两个采集实例最终会用同一个账号（{masked}）；雀魂一个账号只能开一个会话，它们会互相把对方踢下线")
          else checkAccounts lower secrets (username :: seen) rest

/-- What `update_config` asks of a submitted configuration before it stores it. -/
def acceptConfig (lower : String → String) (urls : Urls) (secrets : Secrets)
    (config : WatchServiceConfig) : Except WatchServiceError Unit := do
  config.validate urls
  checkAccounts lower secrets [] config.instances

/-! ## What the checks give -/

/-- Two collectors that can run beside each other: two state files, and two accounts as
far as both references resolve. -/
def Apart (lower : String → String) (secrets : Secrets) (a b : WatchInstance) : Prop :=
  statePath a ≠ statePath b ∧ ∀ first second,
    loadFirstAccount secrets a.accountSecretRef = .ok first →
    loadFirstAccount secrets b.accountSecretRef = .ok second → lower first.1 ≠ lower second.1

theorem Apart.symm {lower : String → String} {secrets : Secrets} {a b : WatchInstance}
    (apart : Apart lower secrets a b) : Apart lower secrets b a :=
  ⟨apart.1.symm, fun first second here there => (apart.2 second first there here).symm⟩

theorem firstRepeat_none {field : WatchInstance → String} {seen : List String}
    {instances : List WatchInstance} (none_ : firstRepeat field seen instances = none) :
    (∀ instance_ ∈ instances, field instance_ ∉ seen) ∧
      instances.Pairwise fun a b => field a ≠ field b := by
  induction instances generalizing seen with
  | nil => simp
  | cons instance_ rest ih =>
      rw [firstRepeat] at none_
      split at none_
      · cases none_
      · rename_i fresh
        obtain ⟨apart, pairwise⟩ := ih none_
        refine ⟨?_, List.pairwise_cons.mpr ⟨?_, pairwise⟩⟩
        · intro other member
          rcases List.mem_cons.mp member with rfl | later
          · exact fresh
          · intro old
            exact apart other later (List.mem_cons_of_mem _ old)
        · intro other later same
          exact apart other later (same ▸ List.mem_cons_self ..)

theorem refuseRepeat_ok {field : WatchInstance → String} {instances : List WatchInstance}
    {message : String → String} (ok : refuseRepeat field instances message = .ok ()) :
    instances.Pairwise fun a b => field a ≠ field b := by
  unfold refuseRepeat at ok
  split at ok
  · cases ok
  · rename_i none_
    exact (firstRepeat_none none_).2

theorem then_ok {x y : Except WatchServiceError Unit} (ok : (do x; y) = .ok ()) :
    x = .ok () ∧ y = .ok () := by
  cases x with
  | error error => cases ok
  | ok found => exact ⟨rfl, ok⟩

theorem validate_keys {urls : Urls} {config : WatchServiceConfig}
    (valid : config.validate urls = .ok ()) :
    config.instances.Pairwise fun a b => a.key ≠ b.key := by
  obtain ⟨-, valid⟩ := then_ok valid
  obtain ⟨-, valid⟩ := then_ok valid
  obtain ⟨-, valid⟩ := then_ok valid
  obtain ⟨keys, -⟩ := then_ok valid
  exact refuseRepeat_ok keys

theorem checkAccounts_ok {lower : String → String} {secrets : Secrets} {seen : List String}
    {instances : List WatchInstance} (ok : checkAccounts lower secrets seen instances = .ok ()) :
    (∀ instance_ ∈ instances, ∀ account,
      loadFirstAccount secrets instance_.accountSecretRef = .ok account → lower account.1 ∉ seen) ∧
    instances.Pairwise fun a b => ∀ first second,
      loadFirstAccount secrets a.accountSecretRef = .ok first →
      loadFirstAccount secrets b.accountSecretRef = .ok second → lower first.1 ≠ lower second.1 := by
  induction instances generalizing seen with
  | nil => simp
  | cons instance_ rest ih =>
      rw [checkAccounts] at ok
      cases loaded : loadFirstAccount secrets instance_.accountSecretRef with
      | error error =>
          rw [loaded] at ok
          obtain ⟨apart, pairwise⟩ := ih ok
          refine ⟨?_, List.pairwise_cons.mpr ⟨?_, pairwise⟩⟩
          · intro other member account found
            rcases List.mem_cons.mp member with rfl | later
            · rw [loaded] at found
              cases found
            · exact apart other later account found
          · intro other _ first second here
            rw [loaded] at here
            cases here
      | ok account =>
          rw [loaded] at ok
          simp only at ok
          split at ok
          · cases ok
          · rename_i fresh
            obtain ⟨apart, pairwise⟩ := ih ok
            refine ⟨?_, List.pairwise_cons.mpr ⟨?_, pairwise⟩⟩
            · intro other member second found
              rcases List.mem_cons.mp member with rfl | later
              · rw [loaded] at found
                cases found
                exact fresh
              · intro old
                exact apart other later second found (List.mem_cons_of_mem _ old)
            · intro other later first second here there same
              rw [loaded] at here
              cases here
              exact apart other later second there (same ▸ List.mem_cons_self ..)

/-- **An accepted configuration asks for collectors that can run together.** -/
theorem acceptConfig_apart {lower : String → String} {urls : Urls} {secrets : Secrets}
    {config : WatchServiceConfig} (accepted : acceptConfig lower urls secrets config = .ok ()) :
    config.instances.Pairwise (Apart lower secrets) := by
  unfold acceptConfig at accepted
  cases valid : config.validate urls with
  | error error =>
      rw [valid] at accepted
      cases accepted
  | ok found =>
      rw [valid] at accepted
      refine ((validate_keys valid).and (checkAccounts_ok accepted).2).imp ?_
      rintro a b ⟨keys, accounts⟩
      refine ⟨?_, accounts⟩
      intro same
      apply keys
      simpa [statePath] using same

end MajsoulManager.Watch
