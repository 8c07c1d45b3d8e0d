/-
# Mihomo.RuntimeConfig — the configuration mihomo is given

`write_runtime_config` of `mihomo.rs`: a provider for each subscription, a select group for
the process, for each lane and for each outbound slot, and a listener for each of these but the
first.  Everything is one text, and mihomo reads it by its lines.

* `runtimeConfig_read`: what is read of the text are the providers, groups and listeners that
  were meant, whatever stands in the URLs, the prefixes and the secret.
* `runtimeConfig_sound`: after every sequence of calls the file gives each node an exit of its
  own, on a port that nothing else is on, and nothing in it names what is not there.
-/
import MajsoulManager.Mihomo.Slots
import MajsoulManager.Store.RowText
import MajsoulManager.Theory.Trim

namespace MajsoulManager.Mihomo.Outbound

open MajsoulManager.Theory
open MajsoulManager.Store (quoted Printable printable_quoted)

set_option autoImplicit false

/-! ## The text -/

def MihomoLane.all : List MihomoLane := [.watch, .refetch]

def MihomoLane.group : MihomoLane → String
  | .watch => "MAJSOUL-WATCH"
  | .refetch => "MAJSOUL-REFETCH"

def MihomoLane.listener : MihomoLane → String
  | .watch => "majsoul-watch-in"
  | .refetch => "majsoul-refetch-in"

def outboundGroup (slot : UInt16) : String := "MAJSOUL-OUT-" ++ toString slot.toNat

def healthUrl : String := "https://game.maj-soul.com/1/version.json"

def healthTimeoutMs : UInt32 := 10000

def healthLazy : Bool := false

def healthExpectedStatus : String := "200"

/-- `to_string` of `serde_json`, on a string. -/
def jsonText (text : String) : String := String.ofList (quoted text)

def providerLines (stored : StoredSubscription) : List String :=
  let nodePrefix := stored.nodePrefix.getD ""
  let overrideBlock :=
    if nodePrefix = "" then []
    else ["    override:", "      additional-prefix: " ++ jsonText nodePrefix]
  ["  " ++ stored.id ++ ":", "    type: http", "    url: " ++ jsonText stored.url,
      "    path: ./providers/" ++ stored.id ++ ".yaml",
      "    interval: " ++ toString stored.updateIntervalSecs.toNat] ++
    overrideBlock ++
    ["    health-check:", "      enable: true", "      url: " ++ healthUrl, "      interval: 300",
      "      timeout: " ++ toString healthTimeoutMs.toNat, "      lazy: " ++ toString healthLazy,
      "      expected-status: " ++ healthExpectedStatus]

structure Group where
  name : String
  proxies : List String
  uses : List String
  deriving DecidableEq

structure Listener where
  name : String
  port : UInt16
  proxy : String
  deriving DecidableEq

def itemLine (item : String) : String := "      - " ++ item

def Group.lines (group : Group) : List String :=
  let providerUse := if group.uses = [] then [] else "    use:" :: group.uses.map itemLine
  ["  - name: " ++ group.name, "    type: select", "    proxies:"] ++ group.proxies.map itemLine ++
    providerUse

def Listener.lines (listener : Listener) : List String :=
  ["  - name: " ++ listener.name, "    type: mixed", "    port: " ++ toString listener.port.toNat,
    "    listen: 0.0.0.0", "    proxy: " ++ listener.proxy]

/-- The group that `rules` names. -/
def sharedGroup (subscriptions : List StoredSubscription) : Group where
  name := groupName
  proxies := ["DIRECT"]
  uses := ids subscriptions

/-- A group that follows the shared one until something is picked in it. -/
def followingGroup (subscriptions : List StoredSubscription) (name : String) : Group where
  name := name
  proxies := [groupName, "DIRECT"]
  uses := ids subscriptions

def laneListener (lane : MihomoLane) : Listener where
  name := lane.listener
  port := lane.port
  proxy := lane.group

def outboundListener (slot : UInt16) : Listener where
  name := "majsoul-out-" ++ toString slot.toNat ++ "-in"
  port := outboundPort slot
  proxy := outboundGroup slot

/-- Ordered by slot. -/
def outboundSlots (assignments : Assignments) : List UInt16 :=
  (assignments.map (·.2)).insertionSort (· ≤ ·)

def groups (subscriptions : List StoredSubscription) (assignments : Assignments) : List Group :=
  sharedGroup subscriptions ::
    (MihomoLane.all.map MihomoLane.group ++ (outboundSlots assignments).map outboundGroup).map
      (followingGroup subscriptions)

def listeners (assignments : Assignments) : List Listener :=
  MihomoLane.all.map laneListener ++ (outboundSlots assignments).map outboundListener

def headerLines : List String :=
  ["mixed-port: 7890",
    "allow-lan: true",
    "bind-address: \"*\"",
    "mode: rule",
    "log-level: info",
    "ipv6: false",
    "external-controller: 0.0.0.0:9090",
    "# Selections survive a restart. Without it mihomo resets every select group to",
    "# its first entry — DIRECT — whenever the container comes back, so a deployment",
    "# would silently start collecting from the host's own address until somebody",
    "# noticed and re-picked. That was true of the single group before the split and",
    "# would have been true of all three after it.",
    "profile:",
    "  store-selected: true"]

def providerBlock (subscriptions : List StoredSubscription) : List String :=
  if subscriptions = [] then []
  else "proxy-providers:" :: (subscriptions.flatMap providerLines ++ [""])

def runtimeLines (secret : String) (subscriptions : List StoredSubscription)
    (assignments : Assignments) : List String :=
  headerLines ++ ["secret: " ++ jsonText secret, ""] ++ providerBlock subscriptions ++
    "proxy-groups:" :: (groups subscriptions assignments).flatMap Group.lines ++
    "listeners:" :: (listeners assignments).flatMap Listener.lines ++
    ["rules:", "  - MATCH," ++ groupName]

/-- What `write_runtime_config` puts into `config.yaml`. -/
def runtimeConfig (secret : String) (subscriptions : List StoredSubscription)
    (assignments : Assignments) : String :=
  String.join ((runtimeLines secret subscriptions assignments).map fun line => line ++ "\n")

/-! ## The reader -/

/-- The lines under a key of the first column. -/
def block (key : String) (lines : List String) : List String :=
  ((lines.dropWhile (· != key)).drop 1).takeWhile fun line => line.toList.head? == some ' '

/-- What stands behind a label. -/
def fieldOf (label line : String) : Option String :=
  if label.toList.isPrefixOf line.toList then
    some (String.ofList (line.toList.drop label.toList.length))
  else none

/-- The name of a provider, which is the key of the second level. -/
def providerName (line : String) : Option String := do
  let key ← fieldOf "  " line
  if key.toList.head? = some ' ' then none else Text.stripSuffix key ':'

def readProviders (text : String) : List String :=
  (block "proxy-providers:" (Text.lines text)).filterMap providerName

/-- What is gathered from the lines that follow. -/
structure Gathered where
  items : List String := []
  proxies : List String := []
  uses : List String := []
  groups : List Group := []

/-- A line of the groups; they are read from the last. -/
def readGroupLine (line : String) (behind : Gathered) : Gathered :=
  match fieldOf "      - " line with
  | some item => { behind with items := item :: behind.items }
  | none =>
      if line = "    use:" then { behind with items := [], uses := behind.items }
      else if line = "    proxies:" then { behind with items := [], proxies := behind.items }
      else
        match fieldOf "  - name: " line with
        | some name => { groups := ⟨name, behind.proxies, behind.uses⟩ :: behind.groups }
        | none => behind

def readGroups (text : String) : List Group :=
  ((block "proxy-groups:" (Text.lines text)).foldr readGroupLine {}).groups

def listenersOf : List String → Option (List Listener)
  | [] => some []
  | name :: kind :: port :: listen :: proxy :: rest => do
      let name ← fieldOf "  - name: " name
      let digits ← fieldOf "    port: " port
      let port ← Text.parseUnsigned 16 digits.toList
      let proxy ← fieldOf "    proxy: " proxy
      let behind ← listenersOf rest
      if kind = "    type: mixed" ∧ listen = "    listen: 0.0.0.0" then
        some (⟨name, UInt16.ofNat port, proxy⟩ :: behind)
      else none
  | _ => none

def readListeners (text : String) : Option (List Listener) :=
  listenersOf (block "listeners:" (Text.lines text))

/-! ## Blocks -/

theorem fieldOf_append (label rest : String) : fieldOf label (label ++ rest) = some rest := by
  rw [fieldOf, String.toList_append, if_pos (by simp),
    List.drop_left, String.ofList_toList]

/-- A block is found where no line before it is its key. -/
theorem block_eq {key : String} {before inside after : List String}
    (earlier : ∀ line ∈ before, line ≠ key)
    (inner : ∀ line ∈ inside, line.toList.head? = some ' ')
    (outer : ∀ line, after.head? = some line → line.toList.head? ≠ some ' ') :
    block key (before ++ key :: inside ++ after) = inside := by
  have skipped : ∀ line ∈ before, (line != key) = true := fun line member =>
    bne_iff_ne.mpr (earlier line member)
  have kept : ∀ line ∈ inside, (line.toList.head? == some ' ') = true := fun line member =>
    beq_iff_eq.mpr (inner line member)
  rw [block, List.append_assoc, List.dropWhile_append_of_pos skipped, List.cons_append,
    List.dropWhile_cons_of_neg (by simp), List.drop_one, List.tail_cons,
    List.takeWhile_append_of_pos kept]
  cases after with
  | nil => simp
  | cons line rest =>
      have ended := outer line rfl
      rw [List.takeWhile_cons_of_neg (by simpa using ended), List.append_nil]

theorem block_none {key : String} {lines : List String} (gone : ∀ line ∈ lines, line ≠ key) :
    block key lines = [] := by
  have skipped : lines.dropWhile (· != key) = [] :=
    List.dropWhile_eq_nil_iff.mpr fun line member => bne_iff_ne.mpr (gone line member)
  rw [block, skipped]
  rfl

theorem head_append {label : String} {c : Char} (first : label.toList.head? = some c)
    (rest : String) : (label ++ rest).toList.head? = some c := by
  rw [String.toList_append, List.head?_append, first]
  rfl

/-- The keys of the first column that are looked for. -/
def keys : List String := ["proxy-providers:", "proxy-groups:", "listeners:"]

theorem ne_key_of_head {line key : String} (known : key ∈ keys) {c : Char}
    (first : line.toList.head? = some c) (other : c ≠ 'p' ∧ c ≠ 'l') : line ≠ key := by
  rintro rfl
  have heads : ∀ key ∈ keys, key.toList.head? = some 'p' ∨ key.toList.head? = some 'l' := by decide
  rcases heads line known with same | same
  · exact other.1 (Option.some.inj (first.symm.trans same))
  · exact other.2 (Option.some.inj (first.symm.trans same))

theorem opening_ne_key {secret line key : String} (known : key ∈ keys)
    (member : line ∈ headerLines ++ ["secret: " ++ jsonText secret, ""]) : line ≠ key := by
  rcases List.mem_append.mp member with header | behind
  · have all : ∀ line ∈ headerLines, line ∉ keys := by decide
    exact fun same => all line header (same ▸ known)
  · rcases List.mem_pair.mp behind with rfl | rfl
    · exact ne_key_of_head known (@head_append "secret: " 's' rfl _) (by decide)
    · exact fun same => absurd (same ▸ known) (by decide)

/-! ## Providers -/

/-- The id of a subscription: the first one's, or one off the digits that were drawn. -/
def Named (stored : StoredSubscription) : Prop :=
  stored.id = legacyProvider ∨
    ∃ drawn : String, (∀ c ∈ drawn.toList, c.isAlphanum = true) ∧ stored.id = "majsoul-" ++ drawn

theorem Named.first {stored : StoredSubscription} (named : Named stored) :
    stored.id.toList.head? = some 'm' := by
  rcases named with same | ⟨drawn, -, same⟩
  · rw [same]
    rfl
  · rw [same]
    exact head_append rfl drawn

/-- Only the key of a provider stands in the second column. -/
theorem providerName_deep {line : String} (deep : "    ".toList <+: line.toList) :
    providerName line = none := by
  obtain ⟨rest, same⟩ := deep
  have text : line = "  " ++ ("  " ++ String.ofList rest) := by
    rw [← String.toList_inj, ← same]
    simp
  have blank : ("  " ++ String.ofList rest).toList.head? = some ' ' := head_append rfl _
  rw [providerName, text, fieldOf_append]
  simp only [Option.bind_eq_bind, Option.bind_some, blank, if_true]

theorem providerName_key {stored : StoredSubscription} (named : Named stored) :
    providerName ("  " ++ stored.id ++ ":") = some stored.id := by
  have first : (stored.id ++ ":").toList.head? ≠ some ' ' := by
    rw [head_append named.first]
    decide
  have cut : Text.stripSuffix (stored.id ++ ":") ':' = some stored.id := by
    have whole := Text.stripSuffix_append stored.id.toList ':'
    have text : String.ofList (stored.id.toList ++ [':']) = stored.id ++ ":" := by
      rw [← String.toList_inj]
      simp
    rwa [text, String.ofList_toList] at whole
  rw [providerName, String.append_assoc, fieldOf_append]
  simp only [Option.bind_eq_bind, Option.bind_some, if_neg first, cut]

theorem deep_append {label : String} (deep : "    ".toList <+: label.toList) (rest : String) :
    "    ".toList <+: (label ++ rest).toList := by
  rw [String.toList_append]
  exact deep.trans (List.prefix_append _ _)

theorem providerLines_deep {stored : StoredSubscription} :
    ∀ line ∈ (providerLines stored).tail, "    ".toList <+: line.toList := by
  intro line member
  simp only [providerLines, List.cons_append, List.nil_append, List.tail_cons, List.mem_append,
    List.mem_cons, List.not_mem_nil, or_false] at member
  rcases member with rfl | rfl | rfl | rfl | extra | rfl | rfl | rfl | rfl | rfl | rfl | rfl
  · decide
  · exact deep_append (by decide) _
  · exact deep_append (deep_append (by decide) _) _
  · exact deep_append (by decide) _
  · split at extra
    · simp at extra
    · rcases List.mem_pair.mp extra with rfl | rfl
      · decide
      · exact deep_append (by decide) _
  · decide
  · decide
  · exact deep_append (by decide) _
  · decide
  · exact deep_append (by decide) _
  · exact deep_append (by decide) _
  · exact deep_append (by decide) _

theorem providerLines_cons (stored : StoredSubscription) :
    providerLines stored = ("  " ++ stored.id ++ ":") :: (providerLines stored).tail := rfl

theorem indented_providerLines {stored : StoredSubscription} :
    ∀ line ∈ providerLines stored, line.toList.head? = some ' ' := by
  rw [providerLines_cons, List.forall_mem_cons]
  refine ⟨head_append (head_append rfl _) _, fun line member => ?_⟩
  obtain ⟨rest, same⟩ := providerLines_deep line member
  rw [← same]
  rfl

theorem filterMap_providerLines {stored : StoredSubscription} (named : Named stored) :
    (providerLines stored).filterMap providerName = [stored.id] := by
  have none : (providerLines stored).tail.filterMap providerName = [] :=
    List.filterMap_eq_nil_iff.mpr fun line member =>
      providerName_deep (providerLines_deep line member)
  rw [providerLines_cons, List.filterMap_cons, providerName_key named, none]

theorem filterMap_providers {subscriptions : List StoredSubscription}
    (named : ∀ stored ∈ subscriptions, Named stored) :
    (subscriptions.flatMap providerLines).filterMap providerName = ids subscriptions := by
  induction subscriptions with
  | nil => rfl
  | cons stored rest ih =>
      obtain ⟨first, later⟩ := List.forall_mem_cons.mp named
      rw [List.flatMap_cons, List.filterMap_append, filterMap_providerLines first, ih later]
      rfl

/-! ## Groups and listeners -/

theorem indented_group {group : Group} :
    ∀ line ∈ group.lines, line.toList.head? = some ' ' := by
  have item : ∀ {items : List String}, ∀ line ∈ items.map itemLine,
      line.toList.head? = some ' ' := by
    intro items line member
    obtain ⟨text, -, rfl⟩ := List.mem_map.mp member
    exact head_append rfl _
  intro line member
  simp only [Group.lines, List.mem_append, List.mem_cons, List.not_mem_nil, or_false] at member
  rcases member with ((rfl | rfl | rfl) | proxy) | used
  · exact head_append rfl _
  · rfl
  · rfl
  · exact item line proxy
  · split at used
    · simp at used
    · rcases List.mem_cons.mp used with rfl | listed
      · rfl
      · exact item line listed

theorem indented_listener {listener : Listener} :
    ∀ line ∈ listener.lines, line.toList.head? = some ' ' := by
  intro line member
  simp only [Listener.lines, List.mem_cons, List.not_mem_nil, or_false] at member
  rcases member with rfl | rfl | rfl | rfl | rfl
  · exact head_append rfl _
  · rfl
  · exact head_append rfl _
  · rfl
  · exact head_append rfl _

theorem foldr_items (items : List String) (behind : Gathered) :
    (items.map itemLine).foldr readGroupLine behind =
      { behind with items := items ++ behind.items } := by
  induction items with
  | nil => rfl
  | cons item rest ih =>
      rw [List.map_cons, List.foldr_cons, ih, readGroupLine, itemLine, fieldOf_append]
      rfl

theorem readGroupLine_name (name : String) (behind : Gathered) :
    readGroupLine ("  - name: " ++ name) behind =
      { groups := ⟨name, behind.proxies, behind.uses⟩ :: behind.groups } := by
  have third : ("  - name: " ++ name).toList[2]? = some '-' := by
    rw [String.toList_append]
    rfl
  have item : fieldOf "      - " ("  - name: " ++ name) = none := by
    refine if_neg fun same => ?_
    obtain ⟨rest, text⟩ : "      - ".toList <+: ("  - name: " ++ name).toList :=
      List.isPrefixOf_iff_prefix.mp same
    have blank : ("      - ".toList ++ rest)[2]? = some ' ' := rfl
    rw [← text, blank] at third
    exact absurd third (by decide)
  have uses : "  - name: " ++ name ≠ "    use:" := by
    intro same
    rw [same] at third
    exact absurd third (by decide)
  have proxies : "  - name: " ++ name ≠ "    proxies:" := by
    intro same
    rw [same] at third
    exact absurd third (by decide)
  simp only [readGroupLine, item, if_neg uses, if_neg proxies, fieldOf_append]

theorem foldr_group (group : Group) (groups : List Group) :
    group.lines.foldr readGroupLine { groups } = { groups := group :: groups } := by
  have proxies : ∀ behind : Gathered, readGroupLine "    proxies:" behind =
      { behind with items := [], proxies := behind.items } := fun behind => rfl
  have kind : ∀ behind : Gathered, readGroupLine "    type: select" behind = behind :=
    fun behind => rfl
  have uses : ∀ behind : Gathered, readGroupLine "    use:" behind =
      { behind with items := [], uses := behind.items } := fun behind => rfl
  rw [Group.lines]
  by_cases none : group.uses = []
  · simp only [none, if_true, List.append_nil, List.cons_append, List.nil_append, List.foldr_cons,
      foldr_items, proxies, kind, readGroupLine_name]
    rw [← none]
  · simp only [if_neg none, List.cons_append, List.nil_append, List.foldr_cons, List.foldr_append,
      foldr_items, proxies, kind, uses, readGroupLine_name, List.append_nil]

theorem foldr_groups (groups : List Group) :
    (groups.flatMap Group.lines).foldr readGroupLine {} = { groups } := by
  induction groups with
  | nil => rfl
  | cons group rest ih => rw [List.flatMap_cons, List.foldr_append, ih, foldr_group]

theorem listenersOf_lines (listeners : List Listener) :
    listenersOf (listeners.flatMap Listener.lines) = some listeners := by
  induction listeners with
  | nil => rfl
  | cons listener rest ih =>
      have port : Text.parseUnsigned 16 (toString listener.port.toNat).toList =
          some listener.port.toNat := by
        rw [Nat.toString_eq_repr, Nat.toList_repr]
        exact Text.parseUnsigned_toDigits listener.port.toNat_lt
      rw [List.flatMap_cons, Listener.lines]
      simp only [List.cons_append, List.nil_append, listenersOf, fieldOf_append, port, ih,
        Option.bind_eq_bind, Option.bind_some, UInt16.ofNat_toNat, and_self, if_true]

/-! ## No line of its own -/

theorem printable_append {label rest : String} (first : Printable label.toList)
    (second : Printable rest.toList) : Printable (label ++ rest).toList := by
  rw [String.toList_append]
  exact first.append second

theorem printable_known {line : String} (visible : (line.toList.all fun c => 32 ≤ c.toNat) = true) :
    Printable line.toList := by
  intro c member
  simpa using List.all_eq_true.mp visible c member

theorem printable_label {label rest : String}
    (visible : (label.toList.all fun c => 32 ≤ c.toNat) = true) (second : Printable rest.toList) :
    Printable (label ++ rest).toList :=
  printable_append (printable_known visible) second

theorem printable_nat (n : Nat) : Printable (toString n : String).toList := by
  intro c member
  have bounds := Text.toNat_of_isDigit (Text.isDigit_of_mem_toString member)
  omega

theorem printable_jsonText (text : String) : Printable (jsonText text).toList := by
  rw [jsonText, String.toList_ofList]
  exact printable_quoted text

theorem Named.printable {stored : StoredSubscription} (named : Named stored) :
    Printable stored.id.toList := by
  rcases named with same | ⟨drawn, alphanumeric, same⟩
  · rw [same]
    exact printable_known rfl
  · rw [same]
    refine printable_label rfl fun c member => ?_
    have kind := alphanumeric c member
    simp only [Char.isAlphanum, Char.isAlpha, Char.isUpper, Char.isLower, Char.isDigit,
      Bool.or_eq_true, Bool.and_eq_true, decide_eq_true_eq, ge_iff_le,
      UInt32.le_iff_toNat_le] at kind
    have lowest : 'A'.val.toNat = 65 ∧ 'a'.val.toNat = 97 ∧ '0'.val.toNat = 48 := ⟨rfl, rfl, rfl⟩
    have value : c.toNat = c.val.toNat := rfl
    omega

theorem printable_providerLines {stored : StoredSubscription} (named : Named stored) :
    ∀ line ∈ providerLines stored, Printable line.toList := by
  intro line member
  simp only [providerLines, List.mem_append, List.mem_cons, List.not_mem_nil, or_false] at member
  rcases member with ((rfl | rfl | rfl | rfl | rfl) | extra) | rfl | rfl | rfl | rfl | rfl | rfl |
    rfl
  · exact printable_append (printable_label rfl named.printable)
      (printable_known rfl)
  · exact printable_known rfl
  · exact printable_label rfl (printable_jsonText _)
  · exact printable_append (printable_label rfl named.printable)
      (printable_known rfl)
  · exact printable_label rfl (printable_nat _)
  · split at extra
    · simp at extra
    · rcases List.mem_pair.mp extra with rfl | rfl
      · exact printable_known rfl
      · exact printable_label rfl (printable_jsonText _)
  · exact printable_known rfl
  · exact printable_known rfl
  · exact printable_label rfl (printable_known rfl)
  · exact printable_known rfl
  · exact printable_label rfl (printable_nat _)
  · exact printable_label rfl (printable_known rfl)
  · exact printable_label rfl (printable_known rfl)

theorem printable_group {group : Group} (name : Printable group.name.toList)
    (proxies : ∀ item ∈ group.proxies, Printable item.toList)
    (uses : ∀ item ∈ group.uses, Printable item.toList) :
    ∀ line ∈ group.lines, Printable line.toList := by
  have listed : ∀ {items : List String}, (∀ item ∈ items, Printable item.toList) →
      ∀ line ∈ items.map itemLine, Printable line.toList := by
    intro items all line member
    obtain ⟨item, inside, rfl⟩ := List.mem_map.mp member
    exact printable_label rfl (all item inside)
  intro line member
  simp only [Group.lines, List.mem_append, List.mem_cons, List.not_mem_nil, or_false] at member
  rcases member with ((rfl | rfl | rfl) | proxy) | used
  · exact printable_label rfl name
  · exact printable_known rfl
  · exact printable_known rfl
  · exact listed proxies line proxy
  · split at used
    · simp at used
    · rcases List.mem_cons.mp used with rfl | inside
      · exact printable_known rfl
      · exact listed uses line inside

theorem printable_listener {listener : Listener} (name : Printable listener.name.toList)
    (proxy : Printable listener.proxy.toList) :
    ∀ line ∈ listener.lines, Printable line.toList := by
  intro line member
  simp only [Listener.lines, List.mem_cons, List.not_mem_nil, or_false] at member
  rcases member with rfl | rfl | rfl | rfl | rfl
  · exact printable_label rfl name
  · exact printable_known rfl
  · exact printable_label rfl (printable_nat _)
  · exact printable_known rfl
  · exact printable_label rfl proxy

theorem printable_outboundGroup (slot : UInt16) : Printable (outboundGroup slot).toList :=
  printable_label rfl (printable_nat _)

theorem printable_laneGroup (lane : MihomoLane) : Printable lane.group.toList := by
  cases lane
  · exact printable_known rfl
  · exact printable_known rfl

theorem printable_groups {subscriptions : List StoredSubscription}
    (named : ∀ stored ∈ subscriptions, Named stored) (assignments : Assignments) :
    ∀ line ∈ (groups subscriptions assignments).flatMap Group.lines, Printable line.toList := by
  have uses : ∀ item ∈ ids subscriptions, Printable item.toList := by
    intro item member
    obtain ⟨stored, inside, rfl⟩ := List.mem_map.mp member
    exact (named stored inside).printable
  have shared : ∀ item ∈ [groupName, "DIRECT"], Printable item.toList := by
    intro item member
    rcases List.mem_pair.mp member with rfl | rfl
    · exact printable_known rfl
    · exact printable_known rfl
  intro line member
  obtain ⟨group, inside, here⟩ := List.mem_flatMap.mp member
  rw [groups, List.mem_cons, List.mem_map] at inside
  rcases inside with rfl | ⟨name, known, rfl⟩
  · refine printable_group (shared _ List.mem_cons_self) (fun item direct => ?_) uses line here
    exact shared item (List.mem_cons_of_mem _ direct)
  · refine printable_group ?_ shared uses line here
    rcases List.mem_append.mp known with ruled | outbound
    · obtain ⟨lane, -, rfl⟩ := List.mem_map.mp ruled
      exact printable_laneGroup lane
    · obtain ⟨slot, -, rfl⟩ := List.mem_map.mp outbound
      exact printable_outboundGroup slot

theorem printable_listeners (assignments : Assignments) :
    ∀ line ∈ (listeners assignments).flatMap Listener.lines, Printable line.toList := by
  intro line member
  obtain ⟨listener, inside, here⟩ := List.mem_flatMap.mp member
  rcases List.mem_append.mp inside with ruled | outbound
  · obtain ⟨lane, -, rfl⟩ := List.mem_map.mp ruled
    refine printable_listener ?_ (printable_laneGroup lane) line here
    cases lane
    · exact printable_known rfl
    · exact printable_known rfl
  · obtain ⟨slot, -, rfl⟩ := List.mem_map.mp outbound
    refine printable_listener ?_ (printable_outboundGroup slot) line here
    exact printable_append (printable_label rfl (printable_nat _))
      (printable_known rfl)

section Reading

variable (secret : String) {subscriptions : List StoredSubscription}
  (named : ∀ stored ∈ subscriptions, Named stored) (assignments : Assignments)

include named in
theorem printable_runtimeLines :
    ∀ line ∈ runtimeLines secret subscriptions assignments, Printable line.toList := by
  have header : (headerLines.all fun line => line.toList.all fun c => 32 ≤ c.toNat) = true := rfl
  intro line member
  simp only [runtimeLines, List.append_assoc, List.cons_append, List.nil_append, List.mem_append,
    List.mem_cons, List.not_mem_nil, or_false] at member
  rcases member with opening | rfl | rfl | provider | rfl | group | rfl | listener | rfl | rfl
  · exact printable_known (List.all_eq_true.mp header line opening)
  · exact printable_label rfl (printable_jsonText _)
  · exact printable_known rfl
  · rw [providerBlock] at provider
    split at provider
    · simp at provider
    · rw [List.mem_cons, List.mem_append, List.mem_singleton] at provider
      rcases provider with rfl | inside | rfl
      · exact printable_known rfl
      · obtain ⟨stored, known, here⟩ := List.mem_flatMap.mp inside
        exact printable_providerLines (named stored known) line here
      · exact printable_known rfl
  · exact printable_known rfl
  · exact printable_groups named assignments line group
  · exact printable_known rfl
  · exact printable_listeners assignments line listener
  · exact printable_known rfl
  · exact printable_known rfl

include named in
/-- The lines of the file are the ones that were written. -/
theorem lines_runtimeConfig :
    Text.lines (runtimeConfig secret subscriptions assignments) =
      runtimeLines secret subscriptions assignments := by
  refine Text.lines_join fun line member => ?_
  have printable := printable_runtimeLines secret named assignments line member
  constructor
  · intro inside
    exact absurd (printable _ inside) (by decide)
  · intro inside
    exact absurd (printable _ inside) (by decide)

/-! ## What is read -/

theorem providerBlock_ne {line key : String} (known : key = "proxy-groups:" ∨ key = "listeners:")
    (member : line ∈ providerBlock subscriptions) : line ≠ key := by
  have listed : key ∈ keys := by
    rcases known with rfl | rfl
    · decide
    · decide
  rw [providerBlock] at member
  split at member
  · simp at member
  · rw [List.mem_cons, List.mem_append, List.mem_singleton] at member
    rcases member with rfl | inside | rfl
    · rcases known with rfl | rfl
      · decide
      · decide
    · obtain ⟨stored, -, here⟩ := List.mem_flatMap.mp inside
      exact ne_key_of_head listed (indented_providerLines line here) (by decide)
    · exact fun same => absurd (same ▸ listed) (by decide)

theorem indented_groups {groups : List Group} :
    ∀ line ∈ groups.flatMap Group.lines, line.toList.head? = some ' ' := by
  intro line member
  obtain ⟨group, -, here⟩ := List.mem_flatMap.mp member
  exact indented_group line here

theorem indented_listeners {listeners : List Listener} :
    ∀ line ∈ listeners.flatMap Listener.lines, line.toList.head? = some ' ' := by
  intro line member
  obtain ⟨listener, -, here⟩ := List.mem_flatMap.mp member
  exact indented_listener line here

include named in
theorem readProviders_runtimeConfig :
    readProviders (runtimeConfig secret subscriptions assignments) = ids subscriptions := by
  rw [readProviders, lines_runtimeConfig secret named assignments]
  by_cases none : subscriptions = []
  · have gone : ∀ line ∈ runtimeLines secret subscriptions assignments,
        line ≠ "proxy-providers:" := by
      intro line member
      rw [runtimeLines, none, providerBlock, if_pos rfl] at member
      simp only [List.append_assoc, List.cons_append, List.nil_append, List.mem_append,
        List.mem_cons, List.not_mem_nil, or_false] at member
      rcases member with opening | rfl | rfl | rfl | group | rfl | listener | rfl | rfl
      · exact @opening_ne_key secret _ _ (by decide) (List.mem_append_left _ opening)
      · exact @opening_ne_key secret _ _ (by decide) (by simp)
      · decide
      · decide
      · exact ne_key_of_head (by decide) (indented_groups line group) (by decide)
      · decide
      · exact ne_key_of_head (by decide) (indented_listeners line listener) (by decide)
      · decide
      · decide
    rw [block_none gone, none]
    rfl
  · have shape : runtimeLines secret subscriptions assignments =
        (headerLines ++ ["secret: " ++ jsonText secret, ""]) ++
          "proxy-providers:" :: subscriptions.flatMap providerLines ++
          "" :: "proxy-groups:" :: ((groups subscriptions assignments).flatMap Group.lines ++
            "listeners:" :: ((listeners assignments).flatMap Listener.lines ++
              ["rules:", "  - MATCH," ++ groupName])) := by
      simp only [runtimeLines, providerBlock, if_neg none, List.append_assoc, List.cons_append,
        List.nil_append]
    rw [shape, block_eq]
    · exact filterMap_providers named
    · exact fun line member => opening_ne_key (by decide) member
    · intro line member
      obtain ⟨stored, -, here⟩ := List.mem_flatMap.mp member
      exact indented_providerLines line here
    · intro line first
      rw [List.head?_cons, Option.some_inj] at first
      rw [← first]
      decide

include named in
theorem readGroups_runtimeConfig :
    readGroups (runtimeConfig secret subscriptions assignments) =
      groups subscriptions assignments := by
  have shape : runtimeLines secret subscriptions assignments =
      (headerLines ++ ["secret: " ++ jsonText secret, ""] ++ providerBlock subscriptions) ++
        "proxy-groups:" :: (groups subscriptions assignments).flatMap Group.lines ++
        "listeners:" :: ((listeners assignments).flatMap Listener.lines ++
          ["rules:", "  - MATCH," ++ groupName]) := by
    simp only [runtimeLines, List.append_assoc, List.cons_append, List.nil_append]
  rw [readGroups, lines_runtimeConfig secret named assignments, shape, block_eq, foldr_groups]
  · intro line member
    rcases List.mem_append.mp member with opening | provider
    · exact opening_ne_key (by decide) opening
    · exact providerBlock_ne (.inl rfl) provider
  · exact indented_groups
  · intro line first
    rw [List.head?_cons, Option.some_inj] at first
    rw [← first]
    decide

include named in
theorem readListeners_runtimeConfig :
    readListeners (runtimeConfig secret subscriptions assignments) =
      some (listeners assignments) := by
  have shape : runtimeLines secret subscriptions assignments =
      (headerLines ++ ["secret: " ++ jsonText secret, ""] ++ providerBlock subscriptions ++
        "proxy-groups:" :: (groups subscriptions assignments).flatMap Group.lines) ++
        "listeners:" :: (listeners assignments).flatMap Listener.lines ++
        ["rules:", "  - MATCH," ++ groupName] := by
    simp only [runtimeLines, List.append_assoc, List.cons_append, List.nil_append]
  rw [readListeners, lines_runtimeConfig secret named assignments, shape, block_eq,
    listenersOf_lines]
  · intro line member
    rw [List.mem_append, List.mem_append, List.mem_cons] at member
    rcases member with (opening | provider) | rfl | group
    · exact opening_ne_key (by decide) opening
    · exact providerBlock_ne (.inr rfl) provider
    · decide
    · exact ne_key_of_head (by decide) (indented_groups line group) (by decide)
  · exact indented_listeners
  · intro line first
    rw [List.head?_cons, Option.some_inj] at first
    rw [← first]
    decide

end Reading

/-- Its URL would open a block of listeners, were it not quoted. -/
def hostileUrl : StoredSubscription where
  id := "majsoul-0a1b2c"
  label := "one"
  nodePrefix := some "[0a1b2c] "
  url := "https://one.example/sub\nlisteners:\n  - name: other"
  updateIntervalSecs := 3600

theorem named_hostileUrl : ∀ stored ∈ [hostileUrl], Named stored :=
  List.forall_mem_singleton.mpr (.inr ⟨"0a1b2c", by simp, rfl⟩)

/-- What mihomo is told: every name is there, and every exit is its own. -/
structure ConfigSound (providers : List String) (groups : List Group) (listeners : List Listener) :
    Prop where
  names : (groups.map (·.name)).Nodup
  /-- Every group has the nodes of every subscription. -/
  uses : ∀ group ∈ groups, group.uses = providers
  proxies : ∀ group ∈ groups, ∀ item ∈ group.proxies, item = "DIRECT" ∨
    item ∈ groups.map (·.name)
  /-- A group in which nothing was picked is where the shared one is. -/
  follows : ∀ group ∈ groups, group.name ≠ groupName → group.proxies.head? = some groupName
  listenerNames : (listeners.map (·.name)).Nodup
  ports : (sharedPort :: controllerPort :: listeners.map (·.port)).Nodup
  exits : (listeners.map (·.proxy)).Nodup
  bound : ∀ listener ∈ listeners, listener.proxy ≠ groupName ∧
    listener.proxy ∈ groups.map (·.name)

theorem outboundGroup_inj {slot other : UInt16} (same : outboundGroup slot = outboundGroup other) :
    slot = other := by
  have digits : (toString slot.toNat : String) = toString other.toNat := by
    simpa [outboundGroup, ← String.toList_inj] using same
  exact UInt16.toNat_inj.mp (Text.toString_nat_inj.mp digits)

theorem outboundListener_name_inj {slot other : UInt16}
    (same : (outboundListener slot).name = (outboundListener other).name) : slot = other := by
  have digits : (toString slot.toNat : String) = toString other.toNat := by
    simpa [outboundListener, ← String.toList_inj] using same
  exact UInt16.toNat_inj.mp (Text.toString_nat_inj.mp digits)

/-- No outbound group is called like one of the fixed three. -/
theorem outboundGroup_ne (slot : UInt16) :
    outboundGroup slot ∉ groupName :: MihomoLane.all.map MihomoLane.group := by
  have eighth : (outboundGroup slot).toList[8]? = some 'O' := by
    rw [outboundGroup, String.toList_append]
    rfl
  have others : ∀ name ∈ groupName :: MihomoLane.all.map MihomoLane.group,
      name.toList[8]? ≠ some 'O' := by decide
  exact fun member => others _ member eighth

theorem outboundListener_name_ne (slot : UInt16) :
    (outboundListener slot).name ∉ MihomoLane.all.map fun lane => (laneListener lane).name := by
  have eighth : (outboundListener slot).name.toList[8]? = some 'o' := by
    rw [outboundListener, String.toList_append, String.toList_append]
    rfl
  have others : ∀ name ∈ MihomoLane.all.map fun lane => (laneListener lane).name,
      name.toList[8]? ≠ some 'o' := by decide
  exact fun member => others _ member eighth

/-- Slots that are filed, after some fixed entries of the same kind. -/
theorem nodup_fixed_slots {α : Type} {assignments : Assignments} (inv : SlotsInv assignments)
    {fixed : List α} {f : UInt16 → α} (distinct : fixed.Nodup)
    (injective : ∀ slot ∈ assignments.map (·.2), ∀ other ∈ assignments.map (·.2),
      f slot = f other → slot = other)
    (apart : ∀ slot ∈ assignments.map (·.2), f slot ∉ fixed) :
    (fixed ++ (outboundSlots assignments).map f).Nodup := by
  have perm : (outboundSlots assignments).Perm (assignments.map (·.2)) :=
    List.perm_insertionSort _ _
  have slots : (outboundSlots assignments).Nodup := perm.nodup_iff.mpr inv.slots
  refine List.nodup_append.mpr ⟨distinct, ?_, ?_⟩
  · refine slots.map_on fun slot member other memberOther same => ?_
    exact injective slot (perm.mem_iff.mp member) other (perm.mem_iff.mp memberOther) same
  · rintro entry inside named outbound rfl
    obtain ⟨slot, member, rfl⟩ := List.mem_map.mp outbound
    exact apart slot (perm.mem_iff.mp member) inside

theorem usable_of_mem {assignments : Assignments} (inv : SlotsInv assignments) {slot : UInt16}
    (member : slot ∈ assignments.map (·.2)) : Usable slot := by
  obtain ⟨entry, inside, rfl⟩ := List.mem_map.mp member
  exact inv.usable entry inside

theorem groupNames_eq (subscriptions : List StoredSubscription) (assignments : Assignments) :
    (groups subscriptions assignments).map (·.name) =
      (groupName :: MihomoLane.all.map MihomoLane.group) ++
        (outboundSlots assignments).map outboundGroup := by
  rw [groups, List.map_cons, List.map_map]
  change groupName :: (_ : List String).map id = _
  rw [List.map_id]
  rfl

theorem configSound (subscriptions : List StoredSubscription) {assignments : Assignments}
    (inv : SlotsInv assignments) :
    ConfigSound (ids subscriptions) (groups subscriptions assignments) (listeners assignments) := by
  have names := groupNames_eq subscriptions assignments
  have proxies : (listeners assignments).map (·.proxy) =
      MihomoLane.all.map MihomoLane.group ++ (outboundSlots assignments).map outboundGroup := by
    rw [listeners, List.map_append, List.map_map, List.map_map]
    rfl
  have shared : groupName ∈ (groups subscriptions assignments).map (·.name) := by
    rw [names]
    simp
  refine ⟨?_, ?_, ?_, ?_, ?_, ?_, ?_, ?_⟩
  · rw [names]
    exact nodup_fixed_slots inv (by decide) (fun slot _ other _ => outboundGroup_inj)
      (fun slot _ => outboundGroup_ne slot)
  · intro group member
    rw [groups, List.mem_cons, List.mem_map] at member
    rcases member with rfl | ⟨name, -, rfl⟩
    · rfl
    · rfl
  · intro group member item inside
    rw [groups, List.mem_cons, List.mem_map] at member
    rcases member with rfl | ⟨name, -, rfl⟩
    · exact .inl (List.mem_singleton.mp inside)
    · rcases List.mem_pair.mp inside with rfl | rfl
      · exact .inr shared
      · exact .inl rfl
  · intro group member other
    rw [groups, List.mem_cons, List.mem_map] at member
    rcases member with rfl | ⟨name, -, rfl⟩
    · exact absurd rfl other
    · rfl
  · rw [listeners, List.map_append, List.map_map, List.map_map]
    exact nodup_fixed_slots inv (by decide) (fun slot _ other _ => outboundListener_name_inj)
      (fun slot _ => outboundListener_name_ne slot)
  · have ports : sharedPort :: controllerPort :: (listeners assignments).map (·.port) =
        (sharedPort :: controllerPort :: MihomoLane.all.map MihomoLane.port) ++
          (outboundSlots assignments).map outboundPort := by
      rw [listeners, List.map_append, List.map_map, List.map_map]
      rfl
    rw [ports]
    refine nodup_fixed_slots inv (by decide) ?_ ?_
    · intro slot member other memberOther same
      have value := (outboundPort_usable (usable_of_mem inv member)).1
      have valueOther := (outboundPort_usable (usable_of_mem inv memberOther)).1
      rw [same] at value
      exact UInt16.toNat_inj.mp (by omega)
    · intro slot member fixed
      obtain ⟨-, controller, shared, lanes⟩ := outboundPort_usable (usable_of_mem inv member)
      rw [List.mem_cons, List.mem_cons, List.mem_map] at fixed
      rcases fixed with same | same | ⟨lane, -, same⟩
      · exact shared same
      · exact controller same
      · exact lanes lane same.symm
  · rw [proxies]
    refine nodup_fixed_slots inv (by decide) (fun slot _ other _ => outboundGroup_inj) ?_
    exact fun slot _ member => outboundGroup_ne slot (List.mem_cons_of_mem _ member)
  · intro listener member
    have inside : listener.proxy ∈ (listeners assignments).map (·.proxy) :=
      List.mem_map.mpr ⟨listener, member, rfl⟩
    rw [proxies] at inside
    refine ⟨?_, ?_⟩
    · rcases List.mem_append.mp inside with lane | outbound
      · have others : ∀ name ∈ MihomoLane.all.map MihomoLane.group, name ≠ groupName := by decide
        exact others _ lane
      · obtain ⟨slot, -, same⟩ := List.mem_map.mp outbound
        rw [← same]
        exact fun called => outboundGroup_ne slot (called ▸ List.mem_cons_self)
    · rw [names]
      exact List.mem_cons_of_mem _ inside

/-- The listeners are the lanes' and, slot by slot, the assigned ones. -/
theorem mem_listeners {assignments : Assignments} {listener : Listener} :
    listener ∈ listeners assignments ↔
      (∃ lane, listener = laneListener lane) ∨
        ∃ entry ∈ assignments, listener = outboundListener entry.2 := by
  rw [listeners, List.mem_append, List.mem_map, List.mem_map]
  constructor
  · rintro (⟨lane, -, rfl⟩ | ⟨slot, member, rfl⟩)
    · exact .inl ⟨lane, rfl⟩
    · rw [outboundSlots, List.mem_insertionSort] at member
      obtain ⟨entry, inside, rfl⟩ := List.mem_map.mp member
      exact .inr ⟨entry, inside, rfl⟩
  · rintro (⟨lane, rfl⟩ | ⟨entry, inside, rfl⟩)
    · refine .inl ⟨lane, ?_, rfl⟩
      cases lane
      · decide
      · decide
    · refine .inr ⟨entry.2, ?_, rfl⟩
      rw [outboundSlots, List.mem_insertionSort]
      exact List.mem_map.mpr ⟨entry, inside, rfl⟩

/-- **The file that is read is sound**, after every sequence of calls: nothing in it names what
is not there, no two listeners share a port or a group, and the exits are the two lanes and one
for each node that has a slot, on that slot's port. -/
theorem runtimeConfig_sound (secret : String) {subscriptions : List StoredSubscription}
    (named : ∀ stored ∈ subscriptions, Named stored) (calls : List (List String × List String)) :
    ∃ exits, readListeners (runtimeConfig secret subscriptions (refiledBy calls)) = some exits ∧
      ConfigSound (readProviders (runtimeConfig secret subscriptions (refiledBy calls)))
        (readGroups (runtimeConfig secret subscriptions (refiledBy calls))) exits ∧
      ∀ listener, listener ∈ exits ↔ (∃ lane, listener = laneListener lane) ∨
        ∃ entry ∈ refiledBy calls, listener = outboundListener entry.2 := by
  refine ⟨listeners (refiledBy calls), readListeners_runtimeConfig secret named _, ?_,
    fun listener => mem_listeners⟩
  rw [readProviders_runtimeConfig secret named, readGroups_runtimeConfig secret named]
  exact configSound subscriptions (refiledBy_inv calls)

/-- One node is asked for, and then another one with it. -/
def oneThenTwo : List (List String × List String) :=
  [(["node 01"], []), (["node 02", "node 01"], [])]

theorem runtimeConfig_sound_oneThenTwo :
    ∃ exits,
      readListeners (runtimeConfig "token" [hostileUrl] (refiledBy oneThenTwo)) = some exits ∧
      ConfigSound (readProviders (runtimeConfig "token" [hostileUrl] (refiledBy oneThenTwo)))
        (readGroups (runtimeConfig "token" [hostileUrl] (refiledBy oneThenTwo))) exits ∧
      ∀ listener, listener ∈ exits ↔ (∃ lane, listener = laneListener lane) ∨
        ∃ entry ∈ refiledBy oneThenTwo, listener = outboundListener entry.2 :=
  runtimeConfig_sound "token" named_hostileUrl oneThenTwo

end MajsoulManager.Mihomo.Outbound
