/-
# Watch.ModuleStore — installing a module, and what a failed install leaves

`ModuleStore` of `watch_service.rs`: the modules are the directories
`<kind>/<name>/<version>` under one root, each with a manifest in it.  An install fills a
working directory beside the one it is for, tries the module there, and renames it.  The
listing walks every directory there is, the working directory of a failed install too:
only "already installed" removes it.  `install_unchanged_iff` says at which failures the
listing is what it was.

Base64, the digest and JSON are the crates'; the failure of a step that the system or the
module makes fail is an argument.  A new uuid is in no directory's name.
-/
import MajsoulManager.Watch.Config
import MajsoulManager.Watch.Plugin
import MajsoulManager.Accounts.Pool
import MajsoulManager.Theory.Utf8
import Mathlib.Data.List.Sort

namespace MajsoulManager.Watch

open MajsoulManager.Theory
open MajsoulManager.Accounts

set_option autoImplicit false

/-! ## Modules and their directories -/

inductive ModuleKind where
  | login
  | pbFetch
  | register
  deriving DecidableEq, Repr

def ModuleKind.directory : ModuleKind → String
  | .login => "login"
  | .pbFetch => "pb_fetch"
  | .register => "register"

structure ModuleManifest where
  protocolVersion : Nat
  kind : ModuleKind
  name : String
  version : String
  executable : String
  args : List String := []
  sha256 : String
  deriving DecidableEq, Repr

structure InstalledModule where
  kind : ModuleKind
  name : String
  version : String
  protocolVersion : Nat
  builtin : Bool
  active : Bool
  deriving DecidableEq, Repr

structure InstallModuleRequest where
  manifest : ModuleManifest
  artifactBase64 : String

abbrev Files := List (String × List UInt8)

/-- A directory two levels under a kind, with the files right in it. -/
structure ModuleDir where
  kind : ModuleKind
  name : String
  version : String
  files : Files
  deriving DecidableEq

/-- The directories in the order a walk meets them. -/
abbrev ModuleTree := List ModuleDir

def maxModuleBytes : Nat := 64 * 1024 * 1024

def manifestFile : String := "manifest.json"

/-- The crates an install calls: `base64`, `hex` of `sha2`, and `serde_json` for a
manifest. -/
structure ModuleCrates where
  decode : String → Except String (List UInt8)
  sha256Hex : List UInt8 → String
  toJson : ModuleManifest → List UInt8
  fromJson : List UInt8 → Option ModuleManifest

/-- A manifest is read back from its JSON, and not from a part of it. -/
structure ModuleCrates.Lawful (crates : ModuleCrates) (manifest : ModuleManifest) : Prop where
  whole : crates.fromJson (crates.toJson manifest) = some manifest
  part : ∀ n < (crates.toJson manifest).length,
    crates.fromJson ((crates.toJson manifest).take n) = none

inductive ModuleError where
  | config (error : WatchServiceError)
  | invalidModule (message : String)
  /-- A step failed: the file system's error, or the module's. -/
  | failed
  deriving DecidableEq

/-! ## Listing -/

section Listing

variable (crates : ModuleCrates)

def ModuleRef.builtin : ModuleRef := {}

/-- What the walk makes of one directory. -/
def ModuleDir.listed (loginActive pbActive : ModuleRef) (dir : ModuleDir) : Option InstalledModule :=
  match dir.files.lookup manifestFile with
  | none => none
  | some raw =>
      match crates.fromJson raw with
      | none => none
      | some manifest =>
          let selected : ModuleRef := ⟨manifest.name, manifest.version⟩
          some
            { kind := dir.kind
              name := manifest.name
              version := manifest.version
              protocolVersion := manifest.protocolVersion
              builtin := false
              active :=
                match dir.kind with
                | .login => selected = loginActive
                | .pbFetch => selected = pbActive
                | .register => true }

/-- Ordered by the kind's directory, the name and the version. -/
def InstalledModule.before (left right : InstalledModule) : Bool :=
  left.kind.directory < right.kind.directory ||
    left.kind.directory == right.kind.directory &&
      (left.name < right.name || left.name == right.name && left.version ≤ right.version)

def ModuleTree.list (tree : ModuleTree) (loginActive pbActive : ModuleRef) : List InstalledModule :=
  let builtins : List InstalledModule :=
    [{ kind := .login, name := "builtin", version := ModuleRef.builtin.version
       protocolVersion := moduleProtocolVersion, builtin := true
       active := loginActive = ModuleRef.builtin },
      { kind := .pbFetch, name := "builtin", version := ModuleRef.builtin.version
        protocolVersion := moduleProtocolVersion, builtin := true
        active := pbActive = ModuleRef.builtin }]
  let found := [ModuleKind.login, .pbFetch, .register].flatMap fun kind =>
    (tree.filter (·.kind = kind)).filterMap (ModuleDir.listed crates loginActive pbActive)
  (builtins ++ found).insertionSort fun left right => left.before right = true

def ModuleTree.sole (tree : ModuleTree) (kind : ModuleKind) : Except ModuleError ModuleRef :=
  let installed := ((tree.list crates ModuleRef.builtin ModuleRef.builtin).filter fun module_ =>
    module_.kind = kind && !module_.builtin).map fun module_ =>
      (⟨module_.name, module_.version⟩ : ModuleRef)
  match installed with
  | [] =>
      .error (.config (.invalidConfig ("没装 " ++ kind.directory ++
        " 模块。这一类没有内建实现（内建的 TLS 指纹和 Chrome 对不上），先在采集设置的「模块」里装一个")))
  | [one] => .ok one
  | several =>
      .error (.config (.invalidConfig ("装了 " ++ toString several.length ++ " 个 " ++
        kind.directory ++ " 模块，先卸掉多余的：" ++ "、".intercalate
          (several.map fun module_ => module_.name ++ "@" ++ module_.version))))

end Listing

/-! ## Installing -/

/-- The step of an install that fails.  A write that fails may leave a part of what it was
to write, and a removal some of the files. -/
inductive InstallFault where
  | createDir
  | writeArtifact (written : Option Nat)
  | setExecutable
  | writeManifest (written : Option Nat)
  | spawn
  | health
  | tryExists
  | removeDir (kept : List String)
  | createParent
  | rename
  deriving DecidableEq

def isAsciiHexdigit (c : Char) : Bool :=
  c.isDigit || ('a' ≤ c && c ≤ 'f') || ('A' ≤ c && c ≤ 'F')

def validateManifest (manifest : ModuleManifest) : Except ModuleError Unit :=
  if manifest.protocolVersion ≠ moduleProtocolVersion then
    .error (.invalidModule s!"protocol_version must be {moduleProtocolVersion}")
  else
    match validateIdentifier "module name" manifest.name with
    | .error error => .error (.config error)
    | .ok () =>
        match validateIdentifier "module version" manifest.version with
        | .error error => .error (.config error)
        | .ok () =>
            if manifest.executable = "" ∨ manifest.executable.toList.head? = some '/' ∨
                ".." ∈ Text.split manifest.executable '/' then
              .error (.invalidModule "executable must be a relative file path without parent components")
            else if manifest.sha256.utf8ByteSize ≠ 64 ∨ !manifest.sha256.toList.all isAsciiHexdigit then
              .error (.invalidModule "sha256 must be a 64-character hexadecimal digest")
            else .ok ()

/-- Where a write to a path under a new directory goes: the path names a file right in it,
or the write fails. -/
def plainFile (executable : String) : Option String :=
  match (Text.split executable '/').reverse with
  | [] => none
  | last :: dirs =>
      if last ≠ "" ∧ last ≠ "." ∧ dirs.all (fun dir => dir == "" || dir == ".") then some last
      else none

/-- `Path::with_extension`. -/
def withExtension (name extension : String) : String :=
  let stem :=
    match Text.splitOnce (String.ofList name.toList.reverse) '.' with
    | none => name
    | some (_, before) => if before = "" then name else String.ofList before.toList.reverse
  stem ++ "." ++ extension

def Files.put (files : Files) (name : String) (bytes : List UInt8) : Files :=
  files.filter (·.1 != name) ++ [(name, bytes)]

def ModuleTree.has (tree : ModuleTree) (kind : ModuleKind) (name version : String) : Bool :=
  tree.any fun dir => dir.kind == kind && dir.name == name && dir.version == version

/-- The directory an install fills, beside the one it is for. -/
def ModuleManifest.workingDir (manifest : ModuleManifest) (uuid : String) (files : Files) : ModuleDir :=
  ⟨manifest.kind, manifest.name, withExtension manifest.version ("install-" ++ uuid), files⟩

section Install

variable (crates : ModuleCrates)

/-- What `install` checks before it touches the tree: the artifact. -/
def checkRequest (request : InstallModuleRequest) : Except ModuleError (List UInt8) :=
  match validateManifest request.manifest with
  | .error error => .error error
  | .ok () =>
      match crates.decode request.artifactBase64 with
      | .error error => .error (.invalidModule error)
      | .ok bytes =>
          if bytes.isEmpty ∨ maxModuleBytes < bytes.length then
            .error (.invalidModule s!"artifact must be between 1 byte and {maxModuleBytes} bytes")
          else if !eqIgnoreAsciiCase (crates.sha256Hex bytes) request.manifest.sha256 then
            .error (.invalidModule "artifact sha256 does not match manifest")
          else .ok bytes

/-- From the artifact to the health check: whether all of it went well, and the files of the
working directory. -/
def fillDirectory (manifest : ModuleManifest) (bytes : List UInt8) (fault : Option InstallFault) :
    Bool × Files :=
  match plainFile manifest.executable with
  | none => (false, [])
  | some file =>
      let json := crates.toJson manifest
      let withArtifact : Files := [(file, bytes)]
      match fault with
      | some (.writeArtifact none) => (false, [])
      | some (.writeArtifact (some n)) => (false, [(file, bytes.take n)])
      | some .setExecutable => (false, withArtifact)
      | some (.writeManifest none) => (false, withArtifact)
      | some (.writeManifest (some n)) =>
          (false, withArtifact.put manifestFile (json.take n))
      | some .spawn | some .health => (false, withArtifact.put manifestFile json)
      | _ => (true, withArtifact.put manifestFile json)

def install (tree : ModuleTree) (request : InstallModuleRequest) (uuid : String)
    (fault : Option InstallFault) : Except ModuleError InstalledModule × ModuleTree :=
  let manifest := request.manifest
  match checkRequest crates request with
  | .error error => (.error error, tree)
  | .ok bytes =>
      let temporary := manifest.workingDir uuid
      if fault = some .createDir then (.error .failed, tree)
      else
        match fillDirectory crates manifest bytes fault with
        | (false, files) => (.error .failed, tree ++ [temporary files])
        | (true, files) =>
            if fault = some .tryExists then (.error .failed, tree ++ [temporary files])
            else if (tree ++ [temporary files]).has manifest.kind manifest.name manifest.version then
              match fault with
              | some (.removeDir kept) =>
                  (.error .failed, tree ++ [temporary (files.filter fun file => file.1 ∈ kept)])
              | _ => (.error (.invalidModule "that module version is already installed"), tree)
            else if fault = some .createParent ∨ fault = some .rename then
              (.error .failed, tree ++ [temporary files])
            else
              (.ok
                { kind := manifest.kind
                  name := manifest.name
                  version := manifest.version
                  protocolVersion := manifest.protocolVersion
                  builtin := false
                  active := false },
                tree ++ [⟨manifest.kind, manifest.name, manifest.version, files⟩])

end Install

/-! ## What a listing sees -/

/-- The listing, and the module of a kind without a builtin, are what they were. -/
structure Unchanged (crates : ModuleCrates) (before after : ModuleTree) : Prop where
  list : ∀ loginActive pbActive,
    after.list crates loginActive pbActive = before.list crates loginActive pbActive
  sole : ∀ kind, after.sole crates kind = before.sole crates kind

theorem Unchanged.refl (crates : ModuleCrates) (tree : ModuleTree) : Unchanged crates tree tree :=
  ⟨fun _ _ => rfl, fun _ => rfl⟩

/-- The manifest a walk finds in a directory. -/
def ModuleDir.manifest (crates : ModuleCrates) (dir : ModuleDir) : Option ModuleManifest :=
  (dir.files.lookup manifestFile).bind crates.fromJson

section Unchanged

variable {crates : ModuleCrates}

theorem listed_eq_none_iff {dir : ModuleDir} (loginActive pbActive : ModuleRef) :
    dir.listed crates loginActive pbActive = none ↔ dir.manifest crates = none := by
  unfold ModuleDir.listed ModuleDir.manifest
  cases dir.files.lookup manifestFile with
  | none => simp
  | some raw =>
      cases parsed : crates.fromJson raw with
      | none => simp [parsed]
      | some manifest => simp [parsed]

/-- One more directory is one more module exactly when it has a manifest. -/
theorem length_list_append (tree : ModuleTree) (dir : ModuleDir) (loginActive pbActive : ModuleRef) :
    ((tree ++ [dir]).list crates loginActive pbActive).length =
      (tree.list crates loginActive pbActive).length + (dir.manifest crates).toList.length := by
  have one : (dir.listed crates loginActive pbActive).toList.length =
      (dir.manifest crates).toList.length := by
    have same : dir.listed crates loginActive pbActive = none ↔ dir.manifest crates = none :=
      listed_eq_none_iff loginActive pbActive
    cases found : dir.listed crates loginActive pbActive <;>
      cases there : dir.manifest crates <;> simp_all
  rw [← one]
  unfold ModuleTree.list
  rw [List.length_insertionSort, List.length_insertionSort]
  simp only [List.flatMap_cons, List.flatMap_nil, List.length_append, List.append_nil,
    List.filter_append, List.filterMap_append, List.length_cons, List.length_nil]
  -- The walk meets the directory under its own kind, and under no other.
  have here : ∀ kind : ModuleKind, (([dir].filter (·.kind = kind)).filterMap
      (ModuleDir.listed crates loginActive pbActive)).length =
        if dir.kind = kind then (dir.listed crates loginActive pbActive).toList.length else 0 := by
    intro kind
    by_cases same : dir.kind = kind
    · rw [if_pos same, List.filter_cons_of_pos (by simpa using same), List.filter_nil]
      rw [List.filterMap_cons, List.filterMap_nil]
      cases dir.listed crates loginActive pbActive with
      | none => rfl
      | some found => rfl
    · rw [if_neg same, List.filter_cons_of_neg (by simpa using same)]
      rfl
  rw [here, here, here]
  cases dir.kind with
  | login => simp; omega
  | pbFetch => simp; omega
  | register => simp; omega

theorem unchanged_append_iff {tree : ModuleTree} {dir : ModuleDir} :
    Unchanged crates tree (tree ++ [dir]) ↔ dir.manifest crates = none := by
  constructor
  · intro unchanged
    have same := congrArg List.length (unchanged.list ModuleRef.builtin ModuleRef.builtin)
    rw [length_list_append] at same
    cases there : dir.manifest crates with
    | none => rfl
    | some manifest =>
        rw [there] at same
        simp at same
  · intro none
    have list : ∀ loginActive pbActive,
        (tree ++ [dir]).list crates loginActive pbActive = tree.list crates loginActive pbActive := by
      intro loginActive pbActive
      have nothing : ∀ kind : ModuleKind, (([dir].filter (·.kind = kind)).filterMap
          (ModuleDir.listed crates loginActive pbActive)) = [] := by
        intro kind
        rw [List.filterMap_eq_nil_iff]
        intro other member
        rw [List.mem_singleton.mp (List.mem_filter.mp member).1]
        exact (listed_eq_none_iff _ _).mpr none
      unfold ModuleTree.list
      simp only [List.flatMap_cons, List.filter_append, List.filterMap_append, nothing,
        List.append_nil]
    refine ⟨list, fun kind => ?_⟩
    unfold ModuleTree.sole
    rw [list]

end Unchanged

/-! ## What a failed install leaves -/

/-- The module is installed, in the tree or in the working directory itself. -/
def Installed (tree : ModuleTree) (manifest : ModuleManifest) (uuid : String) : Prop :=
  tree.has manifest.kind manifest.name manifest.version = true ∨
    withExtension manifest.version ("install-" ++ uuid) = manifest.version

/-- The step's failure leaves a working directory with a manifest in it.  An executable may
be named as the manifest is, and be one. -/
def Spoils (crates : ModuleCrates) (tree : ModuleTree) (manifest : ModuleManifest) (uuid : String)
    (bytes : List UInt8) (file : String) : InstallFault → Prop
  | .createDir => False
  | .writeArtifact written =>
      file = manifestFile ∧ ∃ n ∈ written, (crates.fromJson (bytes.take n)).isSome
  | .setExecutable => file = manifestFile ∧ (crates.fromJson bytes).isSome
  | .writeManifest none => file = manifestFile ∧ (crates.fromJson bytes).isSome
  | .writeManifest (some n) => (crates.toJson manifest).length ≤ n
  | .spawn => True
  | .health => True
  | .tryExists => True
  | .removeDir kept => manifestFile ∈ kept ∧ Installed tree manifest uuid
  | .createParent => ¬ Installed tree manifest uuid
  | .rename => ¬ Installed tree manifest uuid

section Leaves

variable {crates : ModuleCrates} {tree : ModuleTree} {request : InstallModuleRequest}
  {uuid file : String} {bytes : List UInt8}

theorem lookup_singleton (file : String) (bytes : List UInt8) :
    ([(file, bytes)] : Files).lookup manifestFile = if file = manifestFile then some bytes else none := by
  rw [List.lookup_cons]
  by_cases same : file = manifestFile
  · rw [if_pos same, same, beq_self_eq_true]
  · rw [if_neg same, beq_eq_false_iff_ne.mpr (Ne.symm same)]
    rfl

theorem lookup_put (files : Files) (bytes : List UInt8) :
    (files.put manifestFile bytes).lookup manifestFile = some bytes := by
  have gone : (files.filter (·.1 != manifestFile)).lookup manifestFile = none := by
    apply List.lookup_eq_none_iff.mpr
    intro entry member
    have other : entry.1 ≠ manifestFile := by simpa using (List.mem_filter.mp member).2
    exact bne_iff_ne.mpr other.symm
  rw [Files.put, List.lookup_append, gone]
  simp

theorem lookup_filter_put (files : Files) (bytes : List UInt8) (kept : List String) :
    ((files.put manifestFile bytes).filter fun file => file.1 ∈ kept).lookup manifestFile =
      if manifestFile ∈ kept then some bytes else none := by
  have gone : ((files.filter (·.1 != manifestFile)).filter fun file => file.1 ∈ kept).lookup
      manifestFile = none := by
    apply List.lookup_eq_none_iff.mpr
    intro entry member
    have other : entry.1 ≠ manifestFile := by
      simpa using (List.mem_filter.mp (List.mem_filter.mp member).1).2
    exact bne_iff_ne.mpr other.symm
  rw [Files.put, List.filter_append, List.lookup_append, gone]
  by_cases here : manifestFile ∈ kept <;> simp [here]

theorem installed_iff (files : Files) :
    (tree ++ [request.manifest.workingDir uuid files]).has request.manifest.kind
        request.manifest.name request.manifest.version = true ↔
      Installed tree request.manifest uuid := by
  unfold ModuleTree.has Installed ModuleManifest.workingDir
  simp [List.any_append, ModuleTree.has]

/-- A tree with the working directory in it is as it was if there is no manifest in that. -/
theorem unchanged_workingDir_iff (files : Files) :
    Unchanged crates tree (tree ++ [request.manifest.workingDir uuid files]) ↔
      (files.lookup manifestFile).bind crates.fromJson = none :=
  unchanged_append_iff

/-- The tree after a failure while the working directory is filled. -/
theorem install_of_not_filled (checked : checkRequest crates request = .ok bytes)
    {fault : InstallFault} {files : Files}
    (filled : fillDirectory crates request.manifest bytes (some fault) = (false, files))
    (made : fault ≠ .createDir) :
    (install crates tree request uuid (some fault)).2 =
      tree ++ [request.manifest.workingDir uuid files] := by
  simp [install, checked, made, filled]

/-- The tree after a failure once it is filled, of a module that is not installed. -/
theorem install_of_filled (checked : checkRequest crates request = .ok bytes)
    {fault : InstallFault} {files : Files}
    (filled : fillDirectory crates request.manifest bytes (some fault) = (true, files))
    (absent : ¬ Installed tree request.manifest uuid)
    (late : fault = .createParent ∨ fault = .rename) :
    (install crates tree request uuid (some fault)).2 =
      tree ++ [request.manifest.workingDir uuid files] := by
  have new : (tree ++ [request.manifest.workingDir uuid files]).has request.manifest.kind
      request.manifest.name request.manifest.version = false := by
    rw [Bool.eq_false_iff]
    exact fun held => absent ((installed_iff files).mp held)
  rcases late with rfl | rfl <;> simp [install, checked, filled, new]

/-- An install of a module that is there removes its working directory. -/
theorem install_of_installed (checked : checkRequest crates request = .ok bytes)
    {fault : InstallFault} {files : Files}
    (filled : fillDirectory crates request.manifest bytes (some fault) = (true, files))
    (there : Installed tree request.manifest uuid) (late : fault = .createParent ∨ fault = .rename) :
    (install crates tree request uuid (some fault)).2 = tree := by
  have held := (@installed_iff tree request uuid files).mpr there
  rcases late with rfl | rfl <;> simp [install, checked, filled, held]

/-- **The failing step decides what the tree shows.** -/
theorem unchanged_iff_not_spoils {fault : InstallFault} {error : ModuleError}
    (lawful : crates.Lawful request.manifest) (checked : checkRequest crates request = .ok bytes)
    (plain : plainFile request.manifest.executable = some file)
    (failed : (install crates tree request uuid (some fault)).1 = .error error) :
    Unchanged crates tree (install crates tree request uuid (some fault)).2 ↔
      ¬ Spoils crates tree request.manifest uuid bytes file fault := by
  have whole := lawful.whole
  -- Once it is filled, the working directory has the manifest in it.
  have shown : ∀ files : Files, ((files.put manifestFile (crates.toJson request.manifest)).lookup
      manifestFile).bind crates.fromJson ≠ none := by
    intro files
    rw [lookup_put, Option.bind_some, whole]
    exact Option.some_ne_none _
  cases fault with
  | createDir =>
      have same : (install crates tree request uuid (some .createDir)).2 = tree := by
        simp [install, checked]
      rw [same]
      exact iff_of_true (.refl crates tree) id
  | writeArtifact written =>
      cases written with
      | none =>
          have filled : fillDirectory crates request.manifest bytes (some (.writeArtifact none)) =
              (false, []) := by rw [fillDirectory, plain]
          rw [install_of_not_filled checked filled nofun, unchanged_workingDir_iff]
          simp [Spoils]
      | some n =>
          have filled : fillDirectory crates request.manifest bytes
              (some (.writeArtifact (some n))) = (false, [(file, bytes.take n)]) := by
            rw [fillDirectory, plain]
          rw [install_of_not_filled checked filled nofun, unchanged_workingDir_iff,
            lookup_singleton]
          by_cases same : file = manifestFile <;> simp [Spoils, same]
  | setExecutable =>
      have filled : fillDirectory crates request.manifest bytes (some .setExecutable) =
          (false, [(file, bytes)]) := by rw [fillDirectory, plain]
      rw [install_of_not_filled checked filled nofun, unchanged_workingDir_iff, lookup_singleton]
      by_cases same : file = manifestFile <;> simp [Spoils, same]
  | writeManifest written =>
      cases written with
      | none =>
          have filled : fillDirectory crates request.manifest bytes (some (.writeManifest none)) =
              (false, [(file, bytes)]) := by rw [fillDirectory, plain]
          rw [install_of_not_filled checked filled nofun, unchanged_workingDir_iff,
            lookup_singleton]
          by_cases same : file = manifestFile <;> simp [Spoils, same]
      | some n =>
          have filled : fillDirectory crates request.manifest bytes
              (some (.writeManifest (some n))) = (false, Files.put [(file, bytes)] manifestFile
                ((crates.toJson request.manifest).take n)) := by
            rw [fillDirectory, plain]
          rw [install_of_not_filled checked filled nofun, unchanged_workingDir_iff, lookup_put,
            Option.bind_some]
          by_cases short : n < (crates.toJson request.manifest).length
          · rw [lawful.part n short]
            simpa [Spoils] using short
          · have all : (crates.toJson request.manifest).length ≤ n := Nat.le_of_not_lt short
            rw [List.take_of_length_le all, whole]
            simpa [Spoils] using all
  | spawn =>
      have filled : fillDirectory crates request.manifest bytes (some .spawn) =
          (false, Files.put [(file, bytes)] manifestFile (crates.toJson request.manifest)) := by
        rw [fillDirectory, plain]
      rw [install_of_not_filled checked filled nofun, unchanged_workingDir_iff]
      exact iff_of_false (shown _) (not_not.mpr trivial)
  | health =>
      have filled : fillDirectory crates request.manifest bytes (some .health) =
          (false, Files.put [(file, bytes)] manifestFile (crates.toJson request.manifest)) := by
        rw [fillDirectory, plain]
      rw [install_of_not_filled checked filled nofun, unchanged_workingDir_iff]
      exact iff_of_false (shown _) (not_not.mpr trivial)
  | tryExists =>
      have filled : fillDirectory crates request.manifest bytes (some .tryExists) =
          (true, Files.put [(file, bytes)] manifestFile (crates.toJson request.manifest)) := by
        rw [fillDirectory, plain]
      have left : (install crates tree request uuid (some .tryExists)).2 =
          tree ++ [request.manifest.workingDir uuid
            (Files.put [(file, bytes)] manifestFile (crates.toJson request.manifest))] := by
        simp [install, checked, filled]
      rw [left, unchanged_workingDir_iff]
      exact iff_of_false (shown _) (not_not.mpr trivial)
  | removeDir kept =>
      have filled : fillDirectory crates request.manifest bytes (some (.removeDir kept)) =
          (true, Files.put [(file, bytes)] manifestFile (crates.toJson request.manifest)) := by
        rw [fillDirectory, plain]
      by_cases there : Installed tree request.manifest uuid
      · have held := (@installed_iff tree request uuid (Files.put [(file, bytes)] manifestFile
          (crates.toJson request.manifest))).mpr there
        have left : (install crates tree request uuid (some (.removeDir kept))).2 =
            tree ++ [request.manifest.workingDir uuid ((Files.put [(file, bytes)] manifestFile
              (crates.toJson request.manifest)).filter fun file => file.1 ∈ kept)] := by
          simp [install, checked, filled, held]
        rw [left, unchanged_workingDir_iff, lookup_filter_put]
        by_cases here : manifestFile ∈ kept <;> simp [Spoils, here, there, whole]
      · -- The removal is not reached, and the install does not fail.
        have new : (tree ++ [request.manifest.workingDir uuid (Files.put [(file, bytes)]
            manifestFile (crates.toJson request.manifest))]).has request.manifest.kind
              request.manifest.name request.manifest.version = false := by
          rw [Bool.eq_false_iff]
          exact fun held => there ((installed_iff _).mp held)
        simp [install, checked, filled, new] at failed
  | createParent =>
      have filled : fillDirectory crates request.manifest bytes (some .createParent) =
          (true, Files.put [(file, bytes)] manifestFile (crates.toJson request.manifest)) := by
        rw [fillDirectory, plain]
      by_cases there : Installed tree request.manifest uuid
      · rw [install_of_installed checked filled there (.inl rfl)]
        exact iff_of_true (.refl crates tree) (not_not.mpr there)
      · rw [install_of_filled checked filled there (.inl rfl),
          unchanged_workingDir_iff]
        exact iff_of_false (shown _) (not_not.mpr there)
  | rename =>
      have filled : fillDirectory crates request.manifest bytes (some .rename) =
          (true, Files.put [(file, bytes)] manifestFile (crates.toJson request.manifest)) := by
        rw [fillDirectory, plain]
      by_cases there : Installed tree request.manifest uuid
      · rw [install_of_installed checked filled there (.inr rfl)]
        exact iff_of_true (.refl crates tree) (not_not.mpr there)
      · rw [install_of_filled checked filled there (.inr rfl),
          unchanged_workingDir_iff]
        exact iff_of_false (shown _) (not_not.mpr there)

/-- **A failed install leaves the listing as it was exactly when the step that failed leaves
no manifest behind.** -/
theorem install_unchanged_iff {fault : Option InstallFault} {error : ModuleError}
    (lawful : crates.Lawful request.manifest)
    (failed : (install crates tree request uuid fault).1 = .error error) :
    Unchanged crates tree (install crates tree request uuid fault).2 ↔
      ¬ ∃ bytes file step, checkRequest crates request = .ok bytes ∧
        plainFile request.manifest.executable = some file ∧ fault = some step ∧
          Spoils crates tree request.manifest uuid bytes file step := by
  cases checked : checkRequest crates request with
  | error refused =>
      have same : (install crates tree request uuid fault).2 = tree := by simp [install, checked]
      rw [same]
      refine iff_of_true (.refl crates tree) ?_
      rintro ⟨bytes, file, step, accepted, -⟩
      cases accepted
  | ok bytes =>
      cases plain : plainFile request.manifest.executable with
      | none =>
          -- The artifact has no place to go to, and the working directory stays empty.
          have filled : fillDirectory crates request.manifest bytes fault = (false, []) := by
            rw [fillDirectory, plain]
          refine iff_of_true ?_ (by rintro ⟨_, file, _, _, found, -⟩; cases found)
          by_cases made : fault = some .createDir
          · have same : (install crates tree request uuid fault).2 = tree := by
              simp [install, checked, made]
            rw [same]
            exact .refl crates tree
          · have left : (install crates tree request uuid fault).2 =
                tree ++ [request.manifest.workingDir uuid []] := by
              simp [install, checked, made, filled]
            rw [left, unchanged_workingDir_iff]
            rfl
      | some file =>
          cases fault with
          | none =>
              -- Nothing failed but the check for the module itself, which cleans up.
              have filled : fillDirectory crates request.manifest bytes none =
                  (true, Files.put [(file, bytes)] manifestFile (crates.toJson request.manifest)) := by
                rw [fillDirectory, plain]
              refine iff_of_true ?_ (by rintro ⟨_, _, _, _, _, found, -⟩; cases found)
              by_cases there : Installed tree request.manifest uuid
              · have held := (@installed_iff tree request uuid (Files.put [(file, bytes)]
                  manifestFile (crates.toJson request.manifest))).mpr there
                have same : (install crates tree request uuid none).2 = tree := by
                  simp [install, checked, filled, held]
                rw [same]
                exact .refl crates tree
              · have new : (tree ++ [request.manifest.workingDir uuid (Files.put [(file, bytes)]
                    manifestFile (crates.toJson request.manifest))]).has request.manifest.kind
                      request.manifest.name request.manifest.version = false := by
                  rw [Bool.eq_false_iff]
                  exact fun held => there ((installed_iff _).mp held)
                simp [install, checked, filled, new] at failed
          | some step =>
              rw [unchanged_iff_not_spoils lawful checked plain failed]
              refine not_congr ⟨fun spoils => ⟨bytes, file, step, rfl, rfl, rfl, spoils⟩, ?_⟩
              rintro ⟨_, _, _, ⟨⟩, ⟨⟩, ⟨⟩, spoils⟩
              exact spoils

end Leaves

/-! ## A new release that does not start -/

def registrar (version : String) : ModuleManifest where
  protocolVersion := 1
  kind := .register
  name := "curl-chrome"
  version := version
  executable := "module"
  sha256 := "6e340b9cffb37a989ca544e6bb780a2c78901d3fb33738768511a30617afa01d"

/-- Its manifest as it is written. -/
@[irreducible] def registrarJson (version : String) : List UInt8 :=
  Text.utf8 ("\x7b\n  \"protocol_version\": 1,\n  \"kind\": \"register\",\n  \"name\": \"curl-chrome\",\n" ++
    "  \"version\": \"" ++ version ++ "\",\n  \"executable\": \"module\",\n  \"args\": [],\n" ++
    "  \"sha256\": \"6e340b9cffb37a989ca544e6bb780a2c78901d3fb33738768511a30617afa01d\"\n\x7d")

/-- The crates on these manifests and on the artifact that is one zero byte. -/
def registrarCrates : ModuleCrates where
  decode text := if text = "AA==" then .ok [0] else .error "Invalid padding"
  sha256Hex bytes :=
    if bytes = [0] then "6e340b9cffb37a989ca544e6bb780a2c78901d3fb33738768511a30617afa01d" else ""
  toJson manifest := registrarJson manifest.version
  fromJson raw :=
    if raw = registrarJson "1" then some (registrar "1")
    else if raw = registrarJson "2" then some (registrar "2") else none

/-- Version 1 is installed. -/
def oneRegistrar : ModuleTree :=
  [⟨.register, "curl-chrome", "1", [("module", [0]), ("manifest.json", registrarJson "1")]⟩]

theorem length_registrarJson :
    0 < (registrarJson "2").length ∧ (registrarJson "1").length = (registrarJson "2").length := by
  unfold registrarJson
  simp only [Text.utf8_append, List.length_append]
  have one : (Text.utf8 "1").length = 1 := by decide +kernel
  have two : (Text.utf8 "2").length = 1 := by decide +kernel
  rw [one, two]
  omega

theorem registrarJson_ne : registrarJson "2" ≠ registrarJson "1" := by
  unfold registrarJson
  simp only [Text.utf8_append, ne_eq, List.append_assoc, List.append_cancel_left_eq,
    List.append_cancel_right_eq]
  decide +kernel

theorem fromJson_registrarJson :
    registrarCrates.fromJson (registrarJson "1") = some (registrar "1") ∧
      registrarCrates.fromJson (registrarJson "2") = some (registrar "2") :=
  ⟨if_pos rfl, (if_neg registrarJson_ne).trans (if_pos rfl)⟩

theorem registrar_lawful : registrarCrates.Lawful (registrar "2") where
  whole := fromJson_registrarJson.2
  part n short := by
    -- A part is shorter than either text.
    have short : n < (registrarJson "2").length := short
    have length : ((registrarJson "2").take n).length = n := by rw [List.length_take]; omega
    have other : ∀ text : List UInt8, text.length = (registrarJson "2").length →
        (registrarJson "2").take n ≠ text := by
      intro text long same
      rw [same] at length
      omega
    exact (if_neg (other _ length_registrarJson.2)).trans (if_neg (other _ rfl))

/-- A request for the second version. -/
def secondRegistrar : InstallModuleRequest := ⟨registrar "2", "AA=="⟩

theorem checkRequest_second : checkRequest registrarCrates secondRegistrar = .ok [0] := by
  have valid : validateManifest secondRegistrar.manifest = .ok () := by decide +kernel
  have digest : eqIgnoreAsciiCase (registrarCrates.sha256Hex [0]) secondRegistrar.manifest.sha256 =
      true := beq_self_eq_true _
  unfold checkRequest
  rw [valid, show registrarCrates.decode secondRegistrar.artifactBase64 = .ok [0] from rfl]
  simp [digest, maxModuleBytes]

theorem plainFile_module : plainFile (registrar "2").executable = some "module" := by decide +kernel

/-- The disk is full while the manifest is written. -/
theorem install_unchanged_iff_diskFull :
    Unchanged registrarCrates oneRegistrar (install registrarCrates oneRegistrar secondRegistrar "0"
      (some (.writeManifest (some 0)))).2 := by
  have filled : fillDirectory registrarCrates secondRegistrar.manifest [0]
      (some (.writeManifest (some 0))) = (false, Files.put [("module", [0])] manifestFile []) := by
    rw [fillDirectory, show secondRegistrar.manifest = registrar "2" from rfl, plainFile_module]
    rfl
  have failed : (install registrarCrates oneRegistrar secondRegistrar "0"
      (some (.writeManifest (some 0)))).1 = .error .failed := by
    simp [install, checkRequest_second, filled]
  refine (install_unchanged_iff registrar_lawful failed).mpr ?_
  rintro ⟨bytes, file, step, -, -, ⟨⟩, spoils⟩
  exact absurd spoils (Nat.not_le_of_lt length_registrarJson.1)

/-- The new version fails its health check: the install is an error, and from there on the
listing has a module more. -/
theorem unhealthy_module_listed :
    (install registrarCrates oneRegistrar secondRegistrar "0" (some .health)).1 = .error .failed ∧
      (∀ loginActive pbActive, ((install registrarCrates oneRegistrar secondRegistrar "0"
          (some .health)).2.list registrarCrates loginActive pbActive).length =
            (oneRegistrar.list registrarCrates loginActive pbActive).length + 1) ∧
        ¬ Unchanged registrarCrates oneRegistrar
          (install registrarCrates oneRegistrar secondRegistrar "0" (some .health)).2 := by
  have filled : fillDirectory registrarCrates secondRegistrar.manifest [0] (some .health) =
      (false, Files.put [("module", [0])] manifestFile (registrarJson "2")) := by
    have json : registrarCrates.toJson (registrar "2") = registrarJson "2" := rfl
    rw [fillDirectory, show secondRegistrar.manifest = registrar "2" from rfl, plainFile_module, json]
  have left : (install registrarCrates oneRegistrar secondRegistrar "0" (some .health)).2 =
      oneRegistrar ++ [secondRegistrar.manifest.workingDir "0"
        (Files.put [("module", [0])] manifestFile (registrarJson "2"))] :=
    install_of_not_filled checkRequest_second filled nofun
  have found : (secondRegistrar.manifest.workingDir "0" (Files.put [("module", [0])] manifestFile
      (registrarJson "2"))).manifest registrarCrates = some (registrar "2") := by
    rw [ModuleDir.manifest, ModuleManifest.workingDir, lookup_put, Option.bind_some,
      fromJson_registrarJson.2]
  rw [left, unchanged_append_iff, found]
  refine ⟨by simp [install, checkRequest_second, filled], fun loginActive pbActive => ?_, nofun⟩
  rw [length_list_append, found]
  rfl

end MajsoulManager.Watch
