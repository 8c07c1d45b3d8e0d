/-
# Watch.InstanceKeys — whose queue a collector reads

The key of an instance names its state file.  A configuration read off disk gives an
instance without one its id (`adoptIdsAsKeys`), unless another holds that id as its key;
one submitted through the API gives it a fresh one (`mintMissingKeys` of `Watch.Config`).
`WatchSupervisor::new` and `update_config` of `watch_service.rs` are the two paths.

`adoptIdsAsKeys_adopted` is the first rule for every stored configuration, and
`keyless_stays_keyless` the instance it gives no key: one without an id.
`keys_never_change` is for any sequence of boots, of edits of the file by hand and of
saves, each from a copy of any age.  Who an instance is is a number it is given when it
first appears, and the console hands back the key of the row it was made from.
`instanceKeys_settled` puts the two together.
-/
import MajsoulManager.Watch.Config
import MajsoulManager.Theory.Machine

namespace MajsoulManager.Watch

open MajsoulManager.Theory
open MajsoulManager.Accounts

set_option autoImplicit false

/-! ## Adopting -/

/-- The keys that are held. -/
def WatchServiceConfig.takenKeys (config : WatchServiceConfig) : List String :=
  (config.instances.filter (·.key != "")).map (·.key)

/-- What a keyless instance is given: its id, or a fresh key where its id is taken. -/
def adoptKey (taken : List String) (newKey : Nat → String) (index : Nat)
    (instance_ : WatchInstance) : WatchInstance :=
  if instance_.key = "" then
    { instance_ with key := if instance_.id ∈ taken then newKey index else instance_.id }
  else instance_

/-- Also whether there was one to adopt. -/
def WatchServiceConfig.adoptIdsAsKeys (config : WatchServiceConfig) (newKey : Nat → String) :
    WatchServiceConfig × Bool :=
  ({ config with instances := config.instances.mapIdx (adoptKey config.takenKeys newKey) },
    config.instances.any (·.key == ""))

/-- Keys that nobody has: not as a key, not as an id, and no two the same. -/
structure FreshKeys (newKey : Nat → String) (config : WatchServiceConfig) : Prop where
  some_ : ∀ i, newKey i ≠ ""
  unused : ∀ i, ∀ instance_ ∈ config.instances,
    newKey i ≠ instance_.key ∧ newKey i ≠ instance_.id
  apart : ∀ i j, newKey i = newKey j → i = j

/-- What adopting makes of a configuration, instance by instance. -/
structure Adopted (before after : WatchServiceConfig) : Prop where
  /-- Nothing but keys is touched. -/
  rows : after.instances.map (fun row => { row with key := "" }) =
    before.instances.map fun row => { row with key := "" }
  kept : ∀ (i : Nat) (row : WatchInstance), before.instances[i]? = some row → row.key ≠ "" →
    after.instances[i]? = some row
  /-- An instance with an id ends with a key. -/
  given : ∀ row ∈ after.instances, row.id ≠ "" → row.key ≠ ""
  own : ∀ (i : Nat) (row : WatchInstance), before.instances[i]? = some row → row.key = "" →
    (∀ other ∈ before.instances, other.key ≠ "" → other.key ≠ row.id) →
    after.instances[i]? = some { row with key := row.id }
  distinct : (after.instances.map (·.key)).Nodup

section Adopt

variable {config : WatchServiceConfig} {newKey : Nat → String}

theorem mem_takenKeys {key : String} :
    key ∈ config.takenKeys ↔ key ≠ "" ∧ ∃ row ∈ config.instances, row.key = key := by
  unfold WatchServiceConfig.takenKeys
  constructor
  · intro member
    obtain ⟨row, held, rfl⟩ := List.mem_map.mp member
    obtain ⟨listed, some_⟩ := List.mem_filter.mp held
    exact ⟨by simpa using some_, row, listed, rfl⟩
  · rintro ⟨some_, row, listed, rfl⟩
    exact List.mem_map.mpr ⟨row, List.mem_filter.mpr ⟨listed, by simpa using some_⟩, rfl⟩

theorem adopted_getElem? (i : Nat) :
    (config.adoptIdsAsKeys newKey).1.instances[i]? =
      (config.instances[i]?).map (adoptKey config.takenKeys newKey i) := by
  simp [WatchServiceConfig.adoptIdsAsKeys]

/-- Three ways to a key: it was there, it is the id, or it is fresh. -/
theorem adoptKey_key (taken : List String) (newKey : Nat → String) (i : Nat)
    (row : WatchInstance) :
    (row.key ≠ "" ∧ (adoptKey taken newKey i row).key = row.key) ∨
      (row.key = "" ∧ row.id ∉ taken ∧ (adoptKey taken newKey i row).key = row.id) ∨
      (row.key = "" ∧ row.id ∈ taken ∧ (adoptKey taken newKey i row).key = newKey i) := by
  unfold adoptKey
  by_cases keyless : row.key = ""
  · by_cases taken : row.id ∈ taken <;> simp [keyless, taken]
  · simp [keyless]

theorem adopted_distinct (ids : (config.instances.map (·.id)).Nodup)
    (keys : config.takenKeys.Nodup) (fresh : FreshKeys newKey config) :
    ((config.adoptIdsAsKeys newKey).1.instances.map (·.key)).Nodup := by
  have held : config.instances.Pairwise fun a b =>
      (a.key != "") = true → (b.key != "") = true → a.key ≠ b.key :=
    List.pairwise_filter.mp (List.pairwise_map.mp keys)
  rw [List.Nodup, List.pairwise_map]
  show (config.instances.mapIdx (adoptKey config.takenKeys newKey)).Pairwise _
  rw [List.pairwise_iff_getElem]
  intro i j inI inJ before
  rw [List.getElem_mapIdx, List.getElem_mapIdx]
  rw [List.length_mapIdx] at inI inJ
  have idI := List.pairwise_iff_getElem.mp (List.pairwise_map.mp ids) i j inI inJ before
  have keyI := List.pairwise_iff_getElem.mp held i j inI inJ before
  have takenOf : ∀ row ∈ config.instances, row.key ≠ "" → row.key ∈ config.takenKeys :=
    fun row member some_ => mem_takenKeys.mpr ⟨some_, row, member, rfl⟩
  have rowI := List.getElem_mem inI
  have rowJ := List.getElem_mem inJ
  generalize config.instances[i] = a at idI keyI rowI ⊢
  generalize config.instances[j] = b at idI keyI rowJ ⊢
  rcases adoptKey_key config.takenKeys newKey i a with
    ⟨someA, keyA⟩ | ⟨-, freeA, keyA⟩ | ⟨-, -, keyA⟩ <;>
  rcases adoptKey_key config.takenKeys newKey j b with
    ⟨someB, keyB⟩ | ⟨-, freeB, keyB⟩ | ⟨-, -, keyB⟩ <;>
  rw [keyA, keyB]
  · exact keyI (by simpa using someA) (by simpa using someB)
  · exact fun same => freeB (same ▸ takenOf a rowI someA)
  · exact fun same => (fresh.unused j a rowI).1 same.symm
  · exact fun same => freeA (same ▸ takenOf b rowJ someB)
  · exact idI
  · exact fun same => (fresh.unused j a rowI).2 same.symm
  · exact fun same => (fresh.unused i b rowJ).1 same
  · exact fun same => (fresh.unused i b rowJ).2 same
  · exact fun same => absurd (fresh.apart i j same) (by omega)

/-- **Adopting settles the keys** of any configuration whose ids, and whose keys, are
apart. -/
theorem adoptIdsAsKeys_adopted (ids : (config.instances.map (·.id)).Nodup)
    (keys : config.takenKeys.Nodup) (fresh : FreshKeys newKey config) :
    Adopted config (config.adoptIdsAsKeys newKey).1 := by
  refine ⟨?_, ?_, ?_, ?_, adopted_distinct ids keys fresh⟩
  · apply List.ext_getElem?
    intro i
    rw [List.getElem?_map, List.getElem?_map, adopted_getElem?, Option.map_map]
    congr 1
    funext row
    simp only [Function.comp_apply, adoptKey]
    split <;> rfl
  · intro i row here keyed
    rw [adopted_getElem?, here, Option.map_some, adoptKey, if_neg keyed]
  · intro row member named
    obtain ⟨i, here⟩ := List.getElem?_of_mem member
    rw [adopted_getElem?, Option.map_eq_some_iff] at here
    obtain ⟨old, -, rfl⟩ := here
    have sameId : (adoptKey config.takenKeys newKey i old).id = old.id := by
      unfold adoptKey
      split <;> rfl
    rw [sameId] at named
    rcases adoptKey_key config.takenKeys newKey i old with ⟨some_, key⟩ | ⟨-, -, key⟩ | ⟨-, -, key⟩
    · rwa [key]
    · rwa [key]
    · rw [key]
      exact fresh.some_ i
  · intro i row here keyless free
    have notTaken : row.id ∉ config.takenKeys := by
      intro taken
      obtain ⟨some_, other, listed, same⟩ := mem_takenKeys.mp taken
      exact free other listed (same ▸ some_) same
    rw [adopted_getElem?, here, Option.map_some, adoptKey, if_pos keyless, if_neg notTaken]

/-- An instance that ends without a key had neither key nor id. -/
theorem keyless_of_adopted (some_ : ∀ i, newKey i ≠ "") {row : WatchInstance}
    (member : row ∈ (config.adoptIdsAsKeys newKey).1.instances) (keyless : row.key = "") :
    row.id = "" := by
  obtain ⟨i, here⟩ := List.getElem?_of_mem member
  rw [adopted_getElem?, Option.map_eq_some_iff] at here
  obtain ⟨old, -, rfl⟩ := here
  rcases adoptKey_key config.takenKeys newKey i old with ⟨keyed, key⟩ | ⟨-, -, key⟩ | ⟨-, -, key⟩
  · exact absurd (key ▸ keyless) keyed
  · have sameId : (adoptKey config.takenKeys newKey i old).id = old.id := by
      unfold adoptKey
      split <;> rfl
    rw [sameId, ← key, keyless]
  · exact absurd (key ▸ keyless) (some_ i)

/-- **A second call changes nothing**, and says so where every instance has an id. -/
theorem adoptIdsAsKeys_twice (some_ : ∀ i, newKey i ≠ "") (again : Nat → String) :
    ((config.adoptIdsAsKeys newKey).1.adoptIdsAsKeys again).1 =
        (config.adoptIdsAsKeys newKey).1 ∧
      ((∀ row ∈ config.instances, row.id ≠ "") →
        ((config.adoptIdsAsKeys newKey).1.adoptIdsAsKeys again).2 = false) := by
  generalize settled : (config.adoptIdsAsKeys newKey).1 = after
  have left : ∀ row ∈ after.instances, row.key = "" → row.id = "" := by
    intro row member keyless
    exact keyless_of_adopted some_ (settled ▸ member) keyless
  constructor
  · have rows : after.instances.mapIdx (adoptKey after.takenKeys again) = after.instances := by
      apply List.ext_getElem?
      intro i
      rw [List.getElem?_mapIdx]
      cases here : after.instances[i]? with
      | none => rfl
      | some row =>
          rw [Option.map_some, adoptKey]
          split
          · rename_i keyless
            have empty := left row (List.mem_of_getElem? here) keyless
            have free : row.id ∉ after.takenKeys := fun taken => (mem_takenKeys.mp taken).1 empty
            obtain ⟨id, key, _, _, _, _, _, _⟩ := row
            obtain rfl : key = "" := keyless
            obtain rfl : id = "" := empty
            rw [if_neg free]
          · rfl
    show { after with instances := after.instances.mapIdx (adoptKey after.takenKeys again) } = after
    rw [rows]
  · intro named
    show after.instances.any (·.key == "") = false
    rw [List.any_eq_false]
    intro row member keyless
    have empty := left row member (by simpa using keyless)
    rw [← settled] at member
    obtain ⟨i, here⟩ := List.getElem?_of_mem member
    rw [adopted_getElem?, Option.map_eq_some_iff] at here
    obtain ⟨old, listed, rfl⟩ := here
    refine named old (List.mem_of_getElem? listed) ?_
    rw [← empty]
    unfold adoptKey
    split <;> rfl

end Adopt

/-! ## The two paths -/

/-- The one instance whose key is not minted. -/
def defaultInstance : WatchInstance where
  id := "default"
  key := "default"
  accountSecretRef := "pool:watch/待配置"

/-- What a deployment without a file starts with. -/
def defaultConfig : WatchServiceConfig where
  revision := 1
  enabled := false
  instances := [defaultInstance]

section Service

variable (lower : String → String) (urls : Urls)

/-- The default passes its own checks. -/
theorem defaultConfig_valid : defaultConfig.validate urls = .ok () := by
  have plain : defaultConfig.validate plainUrls = .ok () := by decide +kernel
  exact plain

/-- `WatchSupervisor::new`: the keys are settled, checked and written back. -/
def loadConfig (stored : WatchServiceConfig) (legacy : Bool) (newKey : Nat → String)
    (fault : Option PersistFault) : Except WatchServiceError WatchServiceConfig :=
  let adopted := stored.adoptIdsAsKeys newKey
  match adopted.1.validate urls with
  | .error error => .error error
  | .ok () =>
      if legacy || adopted.2 then
        match fault with
        | none => .ok adopted.1
        | some fault => .error (.io fault)
      else .ok adopted.1

/-- `update_config` up to its write; `probed` is what the modules answered. -/
def updateConfig (secrets : Secrets) (current next : WatchServiceConfig) (newKey : Nat → String)
    (probed : Except WatchServiceError Unit) (fault : Option PersistFault) :
    Except WatchServiceError WatchServiceConfig :=
  let next := next.mintMissingKeys newKey
  match acceptConfig lower urls secrets next with
  | .error error => .error error
  | .ok () =>
      match probed with
      | .error error => .error error
      | .ok () =>
          if next.revision ≠ current.revision then
            .error (.revisionConflict next.revision current.revision)
          else
            match fault with
            | some fault => .error (.io fault)
            | none =>
                .ok { next with
                  customProxyUrl := restoredProxy urls next.customProxyUrl current.customProxyUrl
                  revision := saturatingSucc current.revision }

/-- A configuration, and who each of its instances is. -/
structure Document where
  shared : WatchServiceConfig
  rows : List (Nat × WatchInstance)

def Document.config (document : Document) : WatchServiceConfig :=
  { document.shared with instances := document.rows.map (·.2) }

/-- Who has which key. -/
def Document.keys (document : Document) : List (Nat × String) :=
  document.rows.map fun row => (row.1, row.2.key)

/-- The same instances, in their order, as this configuration has them. -/
def Document.settled (document : Document) (config : WatchServiceConfig) : Document :=
  ⟨config, (document.rows.map (·.1)).zip config.instances⟩

/-- A row of an edited copy: the row it was made from, with its key, or one that is new
and has none. -/
structure Edit where
  source : Option Nat
  fields : WatchInstance

def Document.editRow (document : Document) (named index : Nat) (edit : Edit) :
    Nat × WatchInstance :=
  match edit.source.bind (document.rows[·]?) with
  | some row => (row.1, { edit.fields with key := row.2.key })
  | none => (named + index, { edit.fields with key := "" })

def Document.edited (document : Document) (named : Nat) (shared : WatchServiceConfig)
    (edits : List Edit) : Document :=
  ⟨shared, edits.mapIdx (document.editRow named)⟩

/-- `config.json`, the running supervisor's configuration, and what consoles have read of
it since; `named` instances have there been. -/
structure Service where
  disk : Option Document
  memory : Option Document
  copies : List Document
  named : Nat
  /-- Every key that was ever given, and to whom. -/
  given : List (Nat × String)

inductive KeyAction where
  | boot (legacy : Bool) (newKey : Nat → String) (fault : Option PersistFault)
  | halt
  /-- The file is edited by hand; no row of it is copied. -/
  | edit (shared : WatchServiceConfig) (edits : List Edit)
  /-- A save of what a console made of one of its copies. -/
  | save (copy : Nat) (secrets : Secrets) (shared : WatchServiceConfig) (edits : List Edit)
      (newKey : Nat → String) (probed : Except WatchServiceError Unit) (fault : Option PersistFault)

/-- The running configuration is this document, and so is the file. -/
def Service.stored (s : Service) (document : Document) (named : Nat) : Service where
  disk := some document
  memory := some document
  copies := s.copies ++ [document]
  named := named
  given := s.given ++ document.keys

/-- No row of a copy is handed in twice. -/
def Unrepeated (edits : List Edit) : Prop := (edits.filterMap (·.source)).Nodup

instance (edits : List Edit) : Decidable (Unrepeated edits) :=
  inferInstanceAs (Decidable (List.Nodup _))

def Service.step (s : Service) : KeyAction → Option Service
  | .boot legacy newKey fault =>
      match s.memory, s.disk with
      | none, some document =>
          match loadConfig urls document.config legacy newKey fault with
          | .error _ => some s
          | .ok config => some (s.stored (document.settled config) s.named)
      | none, none =>
          match fault with
          | some _ => some s
          | none => some (s.stored ⟨defaultConfig, [(s.named, defaultInstance)]⟩ (s.named + 1))
      | some _, _ => none
  | .halt => some { s with memory := none }
  | .edit shared edits =>
      match s.disk with
      | none => none
      | some document =>
          if Unrepeated edits then
            some { s with
              disk := some (document.edited s.named shared edits)
              named := s.named + edits.length }
          else none
  | .save copy secrets shared edits newKey probed fault =>
      match s.memory, s.copies[copy]? with
      | some current, some copy =>
          let submitted := copy.edited s.named shared edits
          match updateConfig lower urls secrets current.config submitted.config newKey probed
              fault with
          | .error _ => some s
          | .ok config => some (s.stored (submitted.settled config) (s.named + edits.length))
      | _, _ => none

/-- A deployment as it is found: a file or none, and nobody has read it. -/
def watchKeys : Machine Service KeyAction where
  Start s := s.memory = none ∧ s.copies = [] ∧
    (∀ document, s.disk = some document → (document.rows.map (·.1)).Nodup ∧
      ∀ row ∈ document.rows, row.1 < s.named) ∧
    s.given = (s.disk.map fun document => document.keys.filter (·.2 != "")).getD []
  step s action := s.step lower urls action

/-- An instance of the file or of the running configuration has this key. -/
def Service.Assigned (s : Service) (who : Nat) (key : String) : Prop :=
  key ≠ "" ∧ ∃ document, (s.disk = some document ∨ s.memory = some document) ∧
    (who, key) ∈ document.keys

/-! ## What is kept -/

/-- Every key that is held was given, once, and to one instance; a running configuration
holds one for each of its instances, and no two the same. -/
structure KeysInv (s : Service) : Prop where
  functional : ∀ who key other, (who, key) ∈ s.given → (who, other) ∈ s.given → key = other
  bounded : ∀ who key, (who, key) ∈ s.given → who < s.named
  disk : ∀ document, s.disk = some document → (document.rows.map (·.1)).Nodup ∧
    ∀ who key, (who, key) ∈ document.keys → who < s.named ∧
      (key ≠ "" → (who, key) ∈ s.given) ∧ (key = "" → ∀ other, (who, other) ∉ s.given)
  copies : ∀ document ∈ s.copies, ∀ who key, (who, key) ∈ document.keys →
    key ≠ "" ∧ (who, key) ∈ s.given
  memory : ∀ document, s.memory = some document →
    document ∈ s.copies ∧ (document.keys.map (·.2)).Nodup

variable {lower urls}

theorem instance_key_ne {row : WatchInstance} (valid : row.validate = .ok ()) : row.key ≠ "" := by
  obtain ⟨named, -⟩ := then_ok valid
  rintro empty
  rw [validateIdentifier, empty] at named
  simp [refuse] at named

theorem forM_ok {rows : List WatchInstance} (valid : rows.forM WatchInstance.validate = .ok ()) :
    ∀ row ∈ rows, row.validate = .ok () := by
  induction rows with
  | nil => simp
  | cons row rest ih =>
      obtain ⟨here, later⟩ := then_ok valid
      exact List.forall_mem_cons.mpr ⟨here, ih later⟩

theorem validate_keyed {config : WatchServiceConfig} (valid : config.validate urls = .ok ()) :
    ∀ row ∈ config.instances, row.key ≠ "" := by
  obtain ⟨-, valid⟩ := then_ok valid
  obtain ⟨each, -⟩ := then_ok valid
  exact fun row member => instance_key_ne (forM_ok each row member)

theorem loadConfig_ok {stored config : WatchServiceConfig} {legacy : Bool} {newKey : Nat → String}
    {fault : Option PersistFault} (loaded : loadConfig urls stored legacy newKey fault = .ok config) :
    config = (stored.adoptIdsAsKeys newKey).1 ∧ config.validate urls = .ok () := by
  unfold loadConfig at loaded
  dsimp only at loaded
  split at loaded
  · cases loaded
  · rename_i valid
    split at loaded
    · cases fault with
      | none =>
          cases loaded
          exact ⟨rfl, valid⟩
      | some fault => cases loaded
    · cases loaded
      exact ⟨rfl, valid⟩

theorem updateConfig_ok {secrets : Secrets} {current next config : WatchServiceConfig}
    {newKey : Nat → String} {probed : Except WatchServiceError Unit} {fault : Option PersistFault}
    (saved : updateConfig lower urls secrets current next newKey probed fault = .ok config) :
    config.instances = (next.mintMissingKeys newKey).instances ∧
      (next.mintMissingKeys newKey).validate urls = .ok () := by
  unfold updateConfig at saved
  dsimp only at saved
  split at saved
  · cases saved
  · rename_i accepted
    have valid : (next.mintMissingKeys newKey).validate urls = .ok () := by
      unfold acceptConfig at accepted
      exact (then_ok accepted).1
    split at saved
    · cases saved
    · split at saved
      · cases saved
      · split at saved
        · cases saved
        · cases saved
          exact ⟨rfl, valid⟩

/-- What both rules do: a row with a key is left alone. -/
def Spares (f : Nat → WatchInstance → WatchInstance) : Prop :=
  ∀ i row, row.key ≠ "" → f i row = row

theorem adoptKey_spares (taken : List String) (newKey : Nat → String) :
    Spares (adoptKey taken newKey) := fun _ _ keyed => if_neg keyed

theorem mintKey_spares (newKey : Nat → String) :
    Spares fun index row => if row.key = "" then { row with key := newKey index } else row :=
  fun _ _ keyed => if_neg keyed

theorem settled_rows {document : Document} {config : WatchServiceConfig}
    {f : Nat → WatchInstance → WatchInstance}
    (same : config.instances = document.config.instances.mapIdx f) :
    (document.settled config).rows = document.rows.mapIdx fun i row => (row.1, f i row.2) := by
  unfold Document.settled
  dsimp only
  rw [same]
  apply List.ext_getElem?
  intro i
  rw [List.zip, List.getElem?_zipWith, List.getElem?_map, List.getElem?_mapIdx,
    List.getElem?_mapIdx, Document.config, List.getElem?_map]
  cases document.rows[i]? <;> rfl

/-- A key of a settled document: that of the row, or a new one where it had none. -/
theorem mem_settled_keys {document : Document} {config : WatchServiceConfig}
    {f : Nat → WatchInstance → WatchInstance} (spares : Spares f)
    (same : config.instances = document.config.instances.mapIdx f) {who : Nat} {key : String}
    (member : (who, key) ∈ (document.settled config).keys) :
    ∃ (i : Nat) (row : Nat × WatchInstance), document.rows[i]? = some row ∧ row.1 = who ∧
      key = (f i row.2).key ∧ (row.2.key ≠ "" → key = row.2.key) := by
  unfold Document.keys at member
  rw [settled_rows same] at member
  obtain ⟨settled, listed, pair⟩ := List.mem_map.mp member
  obtain ⟨i, here⟩ := List.getElem?_of_mem listed
  rw [List.getElem?_mapIdx, Option.map_eq_some_iff] at here
  obtain ⟨row, found, rfl⟩ := here
  obtain ⟨rfl, rfl⟩ := Prod.mk.inj pair
  refine ⟨i, row, found, rfl, rfl, fun keyed => ?_⟩
  rw [spares i row.2 keyed]

theorem settled_key_list {document : Document} {config : WatchServiceConfig}
    {f : Nat → WatchInstance → WatchInstance}
    (same : config.instances = document.config.instances.mapIdx f) :
    (document.settled config).keys.map (·.2) = config.instances.map (·.key) := by
  have rows := settled_rows same
  have instances : (document.settled config).rows.map (·.2) = config.instances := by
    rw [rows, same]
    apply List.ext_getElem?
    intro i
    simp only [Document.config, List.getElem?_map, List.getElem?_mapIdx, Option.map_map]
    rfl
  rw [← instances, Document.keys, List.map_map, List.map_map]
  rfl

section Steps

variable {s : Service}

/-- A document that is stored keeps the invariant, if its keys were given to the same
instances or are given to new ones. -/
theorem KeysInv.stored (inv : KeysInv s) {document : Document} {named : Nat}
    (grown : s.named ≤ named)
    (known : ∀ who key, (who, key) ∈ document.keys → who < named ∧ key ≠ "" ∧
      ((who, key) ∈ s.given ∨ ∀ other, (who, other) ∉ s.given))
    (single : ∀ who key other, (who, key) ∈ document.keys → (who, other) ∈ document.keys →
      key = other)
    (distinct : (document.keys.map (·.2)).Nodup) : KeysInv (s.stored document named) := by
  have across : ∀ who key other, (who, key) ∈ s.given → (who, other) ∈ document.keys →
      key = other := by
    intro who key other old new
    rcases (known who other new).2.2 with given | fresh
    · exact inv.functional who key other old given
    · exact absurd old (fresh key)
  have given : ∀ who key, (who, key) ∈ (s.stored document named).given ↔
      (who, key) ∈ s.given ∨ (who, key) ∈ document.keys := fun who key => List.mem_append
  refine ⟨?_, ?_, ?_, ?_, ?_⟩
  · intro who key other first second
    rcases (given who key).mp first with first | first <;>
      rcases (given who other).mp second with second | second
    · exact inv.functional who key other first second
    · exact across who key other first second
    · exact (across who other key second first).symm
    · exact single who key other first second
  · intro who key member
    rcases (given who key).mp member with old | new
    · exact (inv.bounded who key old).trans_le grown
    · exact (known who key new).1
  · rintro other ⟨⟩
    constructor
    · have apart : document.keys.Pairwise fun a b => a.1 ≠ b.1 := by
        refine (List.pairwise_map.mp distinct).imp_of_mem ?_
        rintro ⟨who, key⟩ ⟨who', key'⟩ first second differ rfl
        exact differ (single who key key' first second)
      have whos : document.rows.map (·.1) = document.keys.map (·.1) := by
        rw [Document.keys, List.map_map]
        rfl
      rw [whos]
      exact List.pairwise_map.mpr apart
    · intro who key member
      obtain ⟨bound, some_, -⟩ := known who key member
      exact ⟨bound, fun _ => (given who key).mpr (.inr member), fun empty => absurd empty some_⟩
  · intro other member who key held
    rcases List.mem_append.mp member with old | new
    · obtain ⟨some_, was⟩ := inv.copies other old who key held
      exact ⟨some_, (given who key).mpr (.inl was)⟩
    · obtain rfl := List.mem_singleton.mp new
      exact ⟨(known who key held).2.1, (given who key).mpr (.inr held)⟩
  · rintro other ⟨⟩
    exact ⟨by simp [Service.stored], distinct⟩

theorem validate_key_list {config : WatchServiceConfig} (valid : config.validate urls = .ok ()) :
    (config.instances.map (·.key)).Nodup :=
  List.pairwise_map.mpr (validate_keys valid)

/-- **Booting keeps the keys** of the file, and gives one to each instance without. -/
theorem KeysInv.booted (inv : KeysInv s) {document : Document} (read : s.disk = some document)
    {legacy : Bool} {newKey : Nat → String} {fault : Option PersistFault}
    {config : WatchServiceConfig}
    (loaded : loadConfig urls document.config legacy newKey fault = .ok config) :
    KeysInv (s.stored (document.settled config) s.named) := by
  obtain ⟨adopted, valid⟩ := loadConfig_ok loaded
  have same : config.instances =
      document.config.instances.mapIdx (adoptKey document.config.takenKeys newKey) := by
    rw [adopted]
    rfl
  have spares := adoptKey_spares document.config.takenKeys newKey
  obtain ⟨whos, held⟩ := inv.disk document read
  have keyed : ∀ who key, (who, key) ∈ (document.settled config).keys → key ≠ "" := by
    intro who key member
    have listed : key ∈ config.instances.map (·.key) := by
      rw [← settled_key_list same]
      exact List.mem_map.mpr ⟨_, member, rfl⟩
    obtain ⟨row, inside, rfl⟩ := List.mem_map.mp listed
    exact validate_keyed valid row inside
  refine inv.stored le_rfl ?_ ?_ ?_
  · intro who key member
    obtain ⟨i, row, found, rfl, -, kept⟩ := mem_settled_keys spares same member
    have old : (row.1, row.2.key) ∈ document.keys :=
      List.mem_map.mpr ⟨row, List.mem_of_getElem? found, rfl⟩
    obtain ⟨bound, given, fresh⟩ := held row.1 row.2.key old
    refine ⟨bound, keyed row.1 key member, ?_⟩
    by_cases keyless : row.2.key = ""
    · exact .inr (fresh keyless)
    · rw [kept keyless]
      exact .inl (given keyless)
  · intro who key other first second
    obtain ⟨i, row, foundI, rfl, keyI, -⟩ := mem_settled_keys spares same first
    obtain ⟨j, row', foundJ, whoJ, keyJ, -⟩ := mem_settled_keys spares same second
    obtain ⟨inI, rfl⟩ := List.getElem?_eq_some_iff.mp foundI
    obtain ⟨inJ, rfl⟩ := List.getElem?_eq_some_iff.mp foundJ
    have equal := List.inj_on_of_nodup_map whos (List.getElem_mem inI) (List.getElem_mem inJ)
      whoJ.symm
    have place : i = j := (List.Nodup.getElem_inj_iff (List.Nodup.of_map _ whos)).mp equal
    subst place
    rw [keyI, keyJ]
  · rw [settled_key_list same]
    exact validate_key_list valid

/-- **A save keeps the keys** of the rows it was made from, and gives new ones new keys. -/
theorem KeysInv.saved (inv : KeysInv s) {copy : Document} (read : copy ∈ s.copies)
    {current shared config : WatchServiceConfig} {edits : List Edit} {secrets : Secrets}
    {newKey : Nat → String} {probed : Except WatchServiceError Unit} {fault : Option PersistFault}
    (accepted : updateConfig lower urls secrets current
      (copy.edited s.named shared edits).config newKey probed fault = .ok config) :
    KeysInv (s.stored ((copy.edited s.named shared edits).settled config)
      (s.named + edits.length)) := by
  obtain ⟨minted, valid⟩ := updateConfig_ok accepted
  have validConfig : ∀ row ∈ config.instances, row.key ≠ "" := by
    rw [minted]
    exact validate_keyed valid
  have spares := mintKey_spares newKey
  -- a row is that of its source, or is new
  have rowAt : ∀ i row, (copy.edited s.named shared edits).rows[i]? = some row →
      (row.2.key ≠ "" ∧ (row.1, row.2.key) ∈ s.given) ∨
        (row.1 = s.named + i ∧ i < edits.length) := by
    intro i row here
    rw [Document.edited, List.getElem?_mapIdx, Option.map_eq_some_iff] at here
    obtain ⟨edit, listed, rfl⟩ := here
    unfold Document.editRow
    cases found : edit.source.bind (copy.rows[·]?) with
    | none => exact .inr ⟨rfl, (List.getElem?_eq_some_iff.mp listed).1⟩
    | some source =>
        obtain ⟨j, -, at_⟩ := Option.bind_eq_some_iff.mp found
        have held : (source.1, source.2.key) ∈ copy.keys :=
          List.mem_map.mpr ⟨source, List.mem_of_getElem? at_, rfl⟩
        exact .inl (inv.copies copy read _ _ held)
  have keyed : ∀ who key,
      (who, key) ∈ ((copy.edited s.named shared edits).settled config).keys → key ≠ "" := by
    intro who key member
    have listed : key ∈ config.instances.map (·.key) := by
      rw [← settled_key_list minted]
      exact List.mem_map.mpr ⟨_, member, rfl⟩
    obtain ⟨row, inside, rfl⟩ := List.mem_map.mp listed
    exact validConfig row inside
  have new : ∀ i other, (s.named + i, other) ∉ s.given := by
    intro i other old
    have below := inv.bounded _ _ old
    omega
  refine inv.stored (Nat.le_add_right _ _) ?_ ?_ ?_
  · intro who key member
    obtain ⟨i, row, found, rfl, -, kept⟩ := mem_settled_keys spares minted member
    rcases rowAt i row found with ⟨some_, given⟩ | ⟨fresh, short⟩
    · refine ⟨(inv.bounded _ _ given).trans_le (Nat.le_add_right _ _), keyed _ _ member, .inl ?_⟩
      rw [kept some_]
      exact given
    · rw [fresh]
      exact ⟨by omega, keyed _ _ member, .inr (new i)⟩
  · intro who key other first second
    obtain ⟨i, row, foundI, rfl, keyI, keptI⟩ := mem_settled_keys spares minted first
    obtain ⟨j, row', foundJ, whoJ, keyJ, keptJ⟩ := mem_settled_keys spares minted second
    rcases rowAt i row foundI with ⟨someI, givenI⟩ | ⟨freshI, -⟩ <;>
      rcases rowAt j row' foundJ with ⟨someJ, givenJ⟩ | ⟨freshJ, -⟩
    · rw [keptI someI, keptJ someJ]
      exact inv.functional _ _ _ givenI (whoJ ▸ givenJ)
    · rw [← whoJ, freshJ] at givenI
      exact absurd givenI (new j _)
    · rw [whoJ, freshI] at givenJ
      exact absurd givenJ (new i _)
    · have place : i = j := by omega
      subst place
      obtain rfl := Option.some.inj (foundI.symm.trans foundJ)
      rw [keyI, keyJ]
  · rw [settled_key_list minted, minted]
    exact validate_key_list valid

/-- An edit of the file by hand gives no key and takes none away. -/
theorem KeysInv.edited (inv : KeysInv s) {document : Document} (read : s.disk = some document)
    (shared : WatchServiceConfig) {edits : List Edit} (once : Unrepeated edits) :
    KeysInv { s with
      disk := some (document.edited s.named shared edits)
      named := s.named + edits.length } := by
  obtain ⟨whos, held⟩ := inv.disk document read
  have rowAt : ∀ i row, (document.edited s.named shared edits).rows[i]? = some row →
      (∃ (j : Nat) (source : Nat × WatchInstance), document.rows[j]? = some source ∧
        (∃ edit, edits[i]? = some edit ∧ edit.source = some j) ∧ row.1 = source.1 ∧
          row.2.key = source.2.key) ∨
        (row.1 = s.named + i ∧ row.2.key = "" ∧ i < edits.length) := by
    intro i row here
    rw [Document.edited, List.getElem?_mapIdx, Option.map_eq_some_iff] at here
    obtain ⟨edit, listed, rfl⟩ := here
    unfold Document.editRow
    cases found : edit.source.bind (document.rows[·]?) with
    | none => exact .inr ⟨rfl, rfl, (List.getElem?_eq_some_iff.mp listed).1⟩
    | some source =>
        obtain ⟨j, from_, at_⟩ := Option.bind_eq_some_iff.mp found
        exact .inl ⟨j, source, at_, ⟨edit, listed, from_⟩, rfl, rfl⟩
  have below : ∀ (i : Nat) (source : Nat × WatchInstance), document.rows[i]? = some source →
      source.1 < s.named := by
    intro i source at_
    exact (held source.1 source.2.key
      (List.mem_map.mpr ⟨source, List.mem_of_getElem? at_, rfl⟩)).1
  refine ⟨inv.functional, fun who key old => (inv.bounded who key old).trans_le
    (Nat.le_add_right _ _), ?_, inv.copies, inv.memory⟩
  rintro other ⟨⟩
  constructor
  · rw [List.Nodup, List.pairwise_map, List.pairwise_iff_getElem]
    intro i j inI inJ before
    have atI := rowAt i _ (List.getElem?_eq_getElem inI)
    have atJ := rowAt j _ (List.getElem?_eq_getElem inJ)
    rcases atI with ⟨k, source, from_, ⟨edit, listed, cites⟩, who, -⟩ | ⟨fresh, -, -⟩ <;>
      rcases atJ with ⟨k', source', from', ⟨edit', listed', cites'⟩, who', -⟩ | ⟨fresh', -, -⟩
    · rw [who, who']
      intro same
      obtain ⟨inK, rfl⟩ := List.getElem?_eq_some_iff.mp from_
      obtain ⟨inK', rfl⟩ := List.getElem?_eq_some_iff.mp from'
      have equal := List.inj_on_of_nodup_map whos (List.getElem_mem inK) (List.getElem_mem inK') same
      have place : k = k' := (List.Nodup.getElem_inj_iff (List.Nodup.of_map _ whos)).mp equal
      obtain ⟨inE, rfl⟩ := List.getElem?_eq_some_iff.mp listed
      obtain ⟨inE', rfl⟩ := List.getElem?_eq_some_iff.mp listed'
      have apart := List.pairwise_iff_getElem.mp (List.pairwise_filterMap.mp once) i j inE inE'
        before k cites k' cites'
      exact apart place
    · rw [who, fresh']
      have under := below k source from_
      omega
    · rw [fresh, who']
      have under := below k' source' from'
      omega
    · rw [fresh, fresh']
      omega
  · intro who key member
    obtain ⟨row, listed, pair⟩ := List.mem_map.mp member
    obtain ⟨rfl, rfl⟩ := Prod.mk.inj pair
    obtain ⟨i, at_⟩ := List.getElem?_of_mem listed
    rcases rowAt i row at_ with ⟨j, source, from_, -, sameWho, sameKey⟩ | ⟨fresh, empty, short⟩
    · obtain ⟨bound, given, keyless⟩ := held source.1 source.2.key
        (List.mem_map.mpr ⟨source, List.mem_of_getElem? from_, rfl⟩)
      rw [sameWho, sameKey]
      exact ⟨bound.trans_le (Nat.le_add_right _ _), given, keyless⟩
    · rw [fresh, empty]
      refine ⟨by dsimp only; omega, fun some_ => absurd rfl some_, fun _ other old => ?_⟩
      have under := inv.bounded _ _ old
      omega

theorem KeysInv.step (inv : KeysInv s) {action : KeyAction} {next : Service}
    (stepped : s.step lower urls action = some next) : KeysInv next := by
  cases action with
  | boot legacy newKey fault =>
      simp only [Service.step] at stepped
      split at stepped
      · rename_i document _ read
        split at stepped
        · cases stepped
          exact inv
        · rename_i config loaded
          cases stepped
          exact inv.booted read loaded
      · split at stepped
        · cases stepped
          exact inv
        · cases stepped
          -- the first instance there has been is new, and has the default key
          refine inv.stored (Nat.le_succ _) ?_ ?_ (by simp [Document.keys])
          · intro who key member
            obtain ⟨rfl, rfl⟩ : who = s.named ∧ key = "default" := by
              simpa [Document.keys, defaultInstance] using member
            refine ⟨Nat.lt_succ_self _, by decide, .inr fun other old => ?_⟩
            exact absurd (inv.bounded _ _ old) (lt_irrefl _)
          · intro who key other first second
            have one : who = s.named ∧ key = "default" := by
              simpa [Document.keys, defaultInstance] using first
            have two : who = s.named ∧ other = "default" := by
              simpa [Document.keys, defaultInstance] using second
            rw [one.2, two.2]
      · cases stepped
  | halt =>
      cases stepped
      exact ⟨inv.functional, inv.bounded, inv.disk, inv.copies, by simp⟩
  | edit shared edits =>
      simp only [Service.step] at stepped
      split at stepped
      · cases stepped
      · rename_i document read
        split at stepped
        · rename_i once
          cases stepped
          exact inv.edited read shared once
        · cases stepped
  | save copy secrets shared edits newKey probed fault =>
      simp only [Service.step] at stepped
      split at stepped
      · rename_i current copied _ read
        split at stepped
        · cases stepped
          exact inv
        · rename_i config accepted
          cases stepped
          exact inv.saved (List.mem_of_getElem? read) accepted
      · cases stepped

/-- What was given stays given. -/
theorem given_mono {action : KeyAction} {next : Service}
    (stepped : s.step lower urls action = some next) {pair : Nat × String}
    (old : pair ∈ s.given) : pair ∈ next.given := by
  cases action with
  | boot legacy newKey fault =>
      simp only [Service.step] at stepped
      split at stepped
      · split at stepped
        · cases stepped
          exact old
        · cases stepped
          exact List.mem_append_left _ old
      · split at stepped
        · cases stepped
          exact old
        · cases stepped
          exact List.mem_append_left _ old
      · cases stepped
  | halt =>
      cases stepped
      exact old
  | edit shared edits =>
      simp only [Service.step] at stepped
      split at stepped
      · cases stepped
      · split at stepped
        · cases stepped
          exact old
        · cases stepped
  | save copy secrets shared edits newKey probed fault =>
      simp only [Service.step] at stepped
      split at stepped
      · split at stepped
        · cases stepped
          exact old
        · cases stepped
          exact List.mem_append_left _ old
      · cases stepped

theorem KeysInv.assigned (inv : KeysInv s) {who : Nat} {key : String}
    (assigned : s.Assigned who key) : (who, key) ∈ s.given := by
  obtain ⟨some_, document, onDisk | running, held⟩ := assigned
  · exact ((inv.disk document onDisk).2 who key held).2.1 some_
  · exact (inv.copies document (inv.memory document running).1 who key held).2

end Steps

theorem KeysInv.start {s : Service} (start : (watchKeys lower urls).Start s) : KeysInv s := by
  obtain ⟨memory, copies, disk, given⟩ := start
  have held : ∀ who key, (who, key) ∈ s.given → ∃ document, s.disk = some document ∧
      (who, key) ∈ document.keys := by
    intro who key member
    rw [given] at member
    cases read : s.disk with
    | none => simp [read] at member
    | some document =>
        rw [read] at member
        exact ⟨document, rfl, (List.mem_filter.mp member).1⟩
  have single : ∀ document, s.disk = some document → ∀ who key other,
      (who, key) ∈ document.keys → (who, other) ∈ document.keys → key = other := by
    intro document read who key other first second
    obtain ⟨row, listed, pair⟩ := List.mem_map.mp first
    obtain ⟨row', listed', pair'⟩ := List.mem_map.mp second
    obtain ⟨rfl, rfl⟩ := Prod.mk.inj pair
    obtain ⟨who, rfl⟩ := Prod.mk.inj pair'
    rw [List.inj_on_of_nodup_map (disk document read).1 listed listed' who.symm]
  refine ⟨?_, ?_, ?_, by simp [copies], by simp [memory]⟩
  · intro who key other first second
    obtain ⟨document, read, inside⟩ := held who key first
    obtain ⟨document', read', inside'⟩ := held who other second
    obtain rfl := Option.some.inj (read.symm.trans read')
    exact single document read who key other inside inside'
  · intro who key member
    obtain ⟨document, read, inside⟩ := held who key member
    obtain ⟨row, listed, pair⟩ := List.mem_map.mp inside
    obtain ⟨rfl, -⟩ := Prod.mk.inj pair
    exact (disk document read).2 row listed
  · intro document read
    refine ⟨(disk document read).1, fun who key member => ⟨?_, fun some_ => ?_, ?_⟩⟩
    · obtain ⟨row, listed, pair⟩ := List.mem_map.mp member
      obtain ⟨rfl, -⟩ := Prod.mk.inj pair
      exact (disk document read).2 row listed
    · rw [given, read]
      exact List.mem_filter.mpr ⟨member, by simpa using some_⟩
    · rintro rfl other old
      rw [given, read] at old
      obtain ⟨inside, some_⟩ := List.mem_filter.mp old
      have equal := single document read who "" other member inside
      simp [← equal] at some_

/-- **Once an instance has a key it keeps it**, over any run, and the keys of a running
configuration are apart. -/
theorem keys_never_change {start middle final : Service} {first later : List KeyAction}
    (found : (watchKeys lower urls).Start start)
    (before : (watchKeys lower urls).run start first = some middle)
    (after : (watchKeys lower urls).run middle later = some final) :
    (∀ who key other, middle.Assigned who key → final.Assigned who other → key = other) ∧
      ∀ document, final.memory = some document → (document.keys.map (·.2)).Nodup := by
  have preserved : ∀ {s t : Service} {actions : List KeyAction}, KeysInv s →
      (watchKeys lower urls).run s actions = some t → KeysInv t := by
    intro s t actions inv ran
    exact Machine.run_preserves (P := KeysInv) (fun _ _ _ inv stepped => inv.step stepped) ran inv
  have grown : ∀ {s t : Service} {actions : List KeyAction} {pair : Nat × String}, pair ∈ s.given →
      (watchKeys lower urls).run s actions = some t → pair ∈ t.given := by
    intro s t actions pair old ran
    exact Machine.run_preserves (P := fun s => pair ∈ s.given)
      (fun _ _ _ old stepped => given_mono stepped old) ran old
  have invMiddle := preserved (KeysInv.start found) before
  have invFinal := preserved invMiddle after
  refine ⟨?_, fun document running => (invFinal.memory document running).2⟩
  intro who key other here there
  exact invFinal.functional who key other (grown (invMiddle.assigned here) after)
    (invFinal.assigned there)

end Service

/-- **The keys of the instances are settled**: what adopting does to any stored
configuration, and what no sequence of boots, hand edits and saves changes. -/
theorem instanceKeys_settled (lower : String → String) (urls : Urls) :
    (∀ (config : WatchServiceConfig) (newKey : Nat → String),
      (config.instances.map (·.id)).Nodup → config.takenKeys.Nodup → FreshKeys newKey config →
      Adopted config (config.adoptIdsAsKeys newKey).1 ∧
        ∀ again, ((config.adoptIdsAsKeys newKey).1.adoptIdsAsKeys again).1 =
            (config.adoptIdsAsKeys newKey).1 ∧
          ((∀ row ∈ config.instances, row.id ≠ "") →
            ((config.adoptIdsAsKeys newKey).1.adoptIdsAsKeys again).2 = false)) ∧
    ∀ (start middle final : Service) (first later : List KeyAction),
      (watchKeys lower urls).Start start →
      (watchKeys lower urls).run start first = some middle →
      (watchKeys lower urls).run middle later = some final →
      (∀ who key other, middle.Assigned who key → final.Assigned who other → key = other) ∧
        ∀ document, final.memory = some document → (document.keys.map (·.2)).Nodup :=
  ⟨fun _ _ ids keys fresh => ⟨adoptIdsAsKeys_adopted ids keys fresh,
    adoptIdsAsKeys_twice fresh.some_⟩,
    fun _ _ _ _ _ found before after => keys_never_change found before after⟩

/-! ## A name that was freed, and an instance without one -/

/-- Keys of one letter. -/
def mintedKey (i : Nat) : String := String.ofList (List.replicate (i + 1) 'f')

theorem mintedKey_fresh {config : WatchServiceConfig}
    (others : ∀ row ∈ config.instances, (row.key = "" ∨ 'e' ∈ row.key.toList) ∧
      (row.id = "" ∨ 'e' ∈ row.id.toList)) : FreshKeys mintedKey config := by
  have some_ : ∀ i, mintedKey i ≠ "" := by
    intro i empty
    have chars := congrArg String.toList empty
    simp [mintedKey, List.replicate_succ] at chars
  have letters : ∀ i, 'e' ∉ (mintedKey i).toList := by
    intro i inside
    rw [mintedKey, String.toList_ofList] at inside
    exact absurd (List.eq_of_mem_replicate inside) (by decide)
  have differs : ∀ i (text : String), text = "" ∨ 'e' ∈ text.toList → mintedKey i ≠ text := by
    rintro i text (rfl | inside) same
    · exact some_ i same
    · exact letters i (same ▸ inside)
  refine ⟨some_, fun i row member => ?_, ?_⟩
  · exact ⟨differs i _ (others row member).1, differs i _ (others row member).2⟩
  · intro i j same
    have lengths := congrArg (fun text : String => text.toList.length) same
    simpa [mintedKey] using lengths

/-- An instance was renamed, and another added by hand under the name it had. -/
def renamedConfig : WatchServiceConfig :=
  { defaultConfig with
    instances := [{ defaultInstance with id := "four-player" },
      { defaultInstance with key := "", accountSecretRef := "env:OTHER" }] }

/-- The file with the renamed instance, and the one that was added. -/
def renamedFile : Service where
  disk := some ⟨renamedConfig, renamedConfig.instances.mapIdx fun index row => (index, row)⟩
  memory := none
  copies := []
  named := 2
  given := [(0, "default")]

/-- It is read, the second instance is renamed by the console, and it is read again. -/
def bootRenameBoot : List KeyAction :=
  [.boot false mintedKey none,
    .save 0 {} renamedConfig
      [⟨some 0, { defaultInstance with id := "four-player" }⟩,
        ⟨some 1, { defaultInstance with id := "sanma", accountSecretRef := "env:OTHER" }⟩]
      mintedKey (.ok ()) none,
    .halt, .boot false mintedKey none]

theorem instanceKeys_settled_renamed :
    (renamedConfig.adoptIdsAsKeys mintedKey).1.instances.map (·.key) = ["default", "ff"] ∧
    Adopted renamedConfig (renamedConfig.adoptIdsAsKeys mintedKey).1 ∧
    ∃ final, (watchKeys asciiLowerCase plainUrls).run renamedFile bootRenameBoot = some final ∧
      final.memory.map Document.keys = some [(0, "default"), (1, "ff")] ∧
      ∀ who key other, renamedFile.Assigned who key → final.Assigned who other → key = other := by
  have settled := instanceKeys_settled asciiLowerCase plainUrls
  obtain ⟨final, ran, keys⟩ : ∃ final,
      (watchKeys asciiLowerCase plainUrls).run renamedFile bootRenameBoot = some final ∧
        final.memory.map Document.keys = some [(0, "default"), (1, "ff")] :=
    Machine.run_exists (by decide +kernel)
  have start : (watchKeys asciiLowerCase plainUrls).Start renamedFile := by
    refine ⟨rfl, rfl, ?_, rfl⟩
    rintro document ⟨⟩
    decide
  refine ⟨by decide +kernel, ?_, final, ran, keys, ?_⟩
  · exact (settled.1 renamedConfig mintedKey (by decide) (by decide)
      (mintedKey_fresh (by decide))).1
  · exact (settled.2 renamedFile renamedFile final [] bootRenameBoot start rfl ran).1

/-- An instance with neither id nor key. -/
def namelessConfig : WatchServiceConfig :=
  { defaultConfig with instances := [{ defaultInstance with id := "", key := "" }] }

/-- **An instance without an id ends without a key**, and a second call reports a change
again; the check that follows refuses the configuration. -/
theorem keyless_stays_keyless :
    (namelessConfig.instances.map (·.id)).Nodup ∧ namelessConfig.takenKeys.Nodup ∧
      FreshKeys mintedKey namelessConfig ∧
      (namelessConfig.adoptIdsAsKeys mintedKey).1.instances.map (·.key) = [""] ∧
      ((namelessConfig.adoptIdsAsKeys mintedKey).1.adoptIdsAsKeys mintedKey).2 = true ∧
      loadConfig plainUrls namelessConfig false mintedKey none =
        .error (.invalidConfig "instance key contains unsupported characters") := by
  refine ⟨by decide, by decide, mintedKey_fresh (by decide), ?_⟩
  decide +kernel

end MajsoulManager.Watch
