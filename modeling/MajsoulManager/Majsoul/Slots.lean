/-
# Majsoul.Slots — a message field by field

A message may write its fields in any order, leave out a value that is zero or
empty, pack repeated numbers or write them one by one, and carry fields nobody
knows.  What it says about one field number is the `group` of fields with that
number; `u32At`, `textAt`, `tilesAt`, `intsAt`, … say that a group spells a value.

If the arms of a decoder touch a component of the value under one number only
(`Lens`), the component comes out as the group of that number spells it, whatever
else the message holds (`Slot.final`), and a message whose groups all read is read
(`returns_of_groups`).
-/
import MajsoulManager.Majsoul.Encode
import MajsoulManager.Theory.Utf8

namespace MajsoulManager.Majsoul

open MajsoulManager.Theory
open MajsoulManager.Store

set_option autoImplicit false

/-! ## Groups of fields -/

/-- What a message says under one number. -/
def group (fields : List Field) (number : UInt32) : List Field :=
  fields.filter (·.number == number)

section Reading

variable {σ β : Type} {arms : List (Arm σ)}

/-- Only the arms of `number` touch the component, and those depend on nothing else. -/
def Lens (arms : List (Arm σ)) (get : σ → β) (number : UInt32) : Prop :=
  ∀ a ∈ arms, ∀ data change, a.act data = .ok change →
    if a.number = number then ∀ v w, get v = get w → get (change v) = get (change w)
    else ∀ v, get (change v) = get v

theorem Lens.read {get : σ → β} {number : UInt32} (lens : Lens arms get number) {field : Field}
    {change : σ → σ} (read : readArms arms field = .ok change) :
    if field.number = number then ∀ v w, get v = get w → get (change v) = get (change w)
    else ∀ v, get (change v) = get v := by
  unfold readArms at read
  split at read
  · rename_i a found
    have key := List.find?_some found
    simp only [Arm.matches, Bool.and_eq_true, beq_iff_eq] at key
    rw [← key.1]
    exact lens a (List.mem_of_find?_eq_some found) field.data change read
  · cases read
    split
    · exact fun v w same => same
    · exact fun v => rfl

/-- The component depends on the group alone. -/
theorem readFields_group {get : σ → β} {number : UInt32} (lens : Lens arms get number)
    {fields : List Field} {v w final : σ} (same : get v = get w)
    (read : readFields (readArms arms) v fields = .ok final) :
    ∃ alone, readFields (readArms arms) w (group fields number) = .ok alone ∧
      get final = get alone := by
  induction fields generalizing v w with
  | nil =>
      cases read
      exact ⟨w, rfl, same⟩
  | cons field rest ih =>
      obtain ⟨change, here, later⟩ := Outcome.bind_eq_ok.mp read
      have touched := lens.read here
      by_cases mine : field.number = number
      · rw [if_pos mine] at touched
        obtain ⟨alone, readAlone, equal⟩ := ih (touched v w same) later
        refine ⟨alone, ?_, equal⟩
        rw [group, List.filter_cons_of_pos (by simp [mine]), readFields, here]
        exact readAlone
      · rw [if_neg mine] at touched
        obtain ⟨alone, readAlone, equal⟩ := ih ((touched v).trans same) later
        refine ⟨alone, ?_, equal⟩
        rw [group, List.filter_cons_of_neg (by simp [mine])]
        exact readAlone

theorem readFields_returns {fields : List Field}
    (accepted : ∀ field ∈ fields, (readArms arms field).Returns) (v : σ) :
    (readFields (readArms arms) v fields).Returns := by
  induction fields generalizing v with
  | nil => simp [readFields]
  | cons field rest ih =>
      obtain ⟨⟨change, here⟩, later⟩ := List.forall_mem_cons.mp accepted
      rw [readFields, here]
      exact ih later (change v)

theorem accepted_of_readFields {fields : List Field} {v final : σ}
    (read : readFields (readArms arms) v fields = .ok final) :
    ∀ field ∈ fields, (readArms arms field).Returns := by
  induction fields generalizing v with
  | nil => simp
  | cons field rest ih =>
      obtain ⟨change, here, later⟩ := Outcome.bind_eq_ok.mp read
      exact List.forall_mem_cons.mpr ⟨⟨change, here⟩, ih later⟩

/-- The group of this number reads, and leaves `x` in the component. -/
def Slot (arms : List (Arm σ)) (init : σ) (fields : List Field) (number : UInt32) (get : σ → β)
    (x : β) : Prop :=
  ∃ alone, readFields (readArms arms) init (group fields number) = .ok alone ∧ get alone = x

/-- **A component comes out as its group spells it.** -/
theorem Slot.final {init final : σ} {fields : List Field} {number : UInt32} {get : σ → β} {x : β}
    (slot : Slot arms init fields number get x) (lens : Lens arms get number)
    (read : readFields (readArms arms) init fields = .ok final) : get final = x := by
  obtain ⟨alone, readAlone, same⟩ := slot
  obtain ⟨alone', readAlone', equal⟩ := readFields_group lens rfl read
  rw [readAlone] at readAlone'
  cases readAlone'
  rw [equal, same]

theorem Slot.accepted {init : σ} {fields : List Field} {number : UInt32} {get : σ → β} {x : β}
    (slot : Slot arms init fields number get x) :
    ∀ field ∈ fields, field.number = number → (readArms arms field).Returns := by
  obtain ⟨alone, readAlone, -⟩ := slot
  intro field member mine
  refine accepted_of_readFields readAlone field ?_
  simp [group, member, mine]

/-- **A message whose known groups all read is read.** -/
theorem accepted_of_groups {fields : List Field}
    (groups : ∀ a ∈ arms, ∀ field ∈ fields, field.number = a.number →
      (readArms arms field).Returns) :
    ∀ field ∈ fields, (readArms arms field).Returns := by
  intro field member
  cases found : arms.find? (·.matches field) with
  | none => simp [readArms, found]
  | some a =>
      have key := List.find?_some found
      simp only [Arm.matches, Bool.and_eq_true, beq_iff_eq] at key
      exact groups a (List.mem_of_find?_eq_some found) field member key.1.symm

/-- The message is read, through its fields. -/
theorem parseMessage_spelled (arms : List (Arm σ)) {fields : List Field} {buf : Bytes}
    (written : Written fields buf)
    (init : σ) (groups : ∀ a ∈ arms, ∀ field ∈ fields, field.number = a.number →
      (readArms arms field).Returns) :
    ∃ final, parseMessage arms init buf = .ok final ∧
      readFields (readArms arms) init fields = .ok final := by
  obtain ⟨final, read⟩ := readFields_returns (accepted_of_groups groups) init
  exact ⟨final, by rw [parseMessage, readMessage_written _ _ written, read], read⟩

/-! ## Lenses -/

section Lenses

variable {τ γ : Type} {get : σ → β} {number : UInt32}

theorem lens_nil (get : σ → β) (number : UInt32) : Lens ([] : List (Arm σ)) get number := by
  simp [Lens]

theorem lens_arm {other : UInt32} {wireType : UInt8} {parse : Bytes → Outcome Error τ}
    {change : τ → σ → σ}
    (touched : ∀ x, if other = number then ∀ v w, get v = get w → get (change x v) = get (change x w)
      else ∀ v, get (change x v) = get v)
    (rest : Lens arms get number) :
    Lens (arm other wireType parse change :: arms) get number := by
  refine List.forall_mem_cons.mpr ⟨?_, rest⟩
  intro data change' acted
  obtain ⟨x, -, rfl⟩ := Outcome.map_eq_ok.mp acted
  exact touched x

/-- An arm of another number that leaves the component alone. -/
theorem lens_other {other : UInt32} {wireType : UInt8} {parse : Bytes → Outcome Error τ}
    {change : τ → σ → σ} (differ : other ≠ number) (keeps : ∀ x v, get (change x v) = get v)
    (rest : Lens arms get number) :
    Lens (arm other wireType parse change :: arms) get number := by
  refine lens_arm (fun x => ?_) rest
  rw [if_neg differ]
  exact keeps x

/-- An arm that overwrites the component. -/
theorem lens_sets {wireType : UInt8} {parse : Bytes → Outcome Error τ} {change : τ → σ → σ}
    (sets : ∀ x v w, get (change x v) = get (change x w)) (rest : Lens arms get number) :
    Lens (arm number wireType parse change :: arms) get number := by
  refine lens_arm (fun x => ?_) rest
  rw [if_pos rfl]
  exact fun v w _ => sets x v w

/-- An arm that works on the component alone. -/
theorem lens_updates {wireType : UInt8} {parse : Bytes → Outcome Error τ} {change : τ → σ → σ}
    (update : τ → β → β) (updates : ∀ x v, get (change x v) = update x (get v))
    (rest : Lens arms get number) :
    Lens (arm number wireType parse change :: arms) get number := by
  refine lens_arm (fun x => ?_) rest
  rw [if_pos rfl]
  intro v w same
  rw [updates, updates, same]

/-- An arm that appends to the component. -/
theorem lens_appends {get : σ → List γ} {wireType : UInt8} {parse : Bytes → Outcome Error τ}
    {change : τ → σ → σ} {added : τ → List γ} (appends : ∀ x v, get (change x v) = get v ++ added x)
    (rest : Lens arms get number) :
    Lens (arm number wireType parse change :: arms) get number :=
  lens_updates (fun x before => before ++ added x) appends rest

end Lenses

/-! ## Reading one arm -/

/-- The arm of a number and wire type. -/
def armAt (arms : List (Arm σ)) (number : UInt32) (wireType : UInt8) : Option (Arm σ) :=
  arms.find? fun a => a.number == number && a.wireType == wireType

theorem readArms_at {field : Field} {a : Arm σ}
    (found : armAt arms field.number field.wireType = some a) :
    readArms arms field = a.act field.data := by
  have hit : arms.find? (·.matches field) = some a := found
  simp [readArms, hit]

end Reading

/-! ## Groups that spell a value -/

def varintField (number : UInt32) (value : UInt64) : Field := ⟨number, 0, encodeVarint value⟩

def bytesField (number : UInt32) (data : Bytes) : Field := ⟨number, 2, data⟩

def textField (number : UInt32) (text : String) : Field := bytesField number (Text.utf8 text)

/-- The sign of an `int32` fills the upper half of the varint. -/
def signExtend (value : Int32) : UInt64 := value.toInt64.toUInt64

/-- One number; a zero may be left out. -/
def varintAt (fields : List Field) (number : UInt32) (value : UInt64) : Prop :=
  group fields number = [varintField number value] ∨ (value = 0 ∧ group fields number = [])

def u32At (fields : List Field) (number : UInt32) (value : UInt32) : Prop :=
  varintAt fields number value.toUInt64

def i32At (fields : List Field) (number : UInt32) (value : Int32) : Prop :=
  varintAt fields number (signExtend value)

def boolAt (fields : List Field) (number : UInt32) (value : Bool) : Prop :=
  varintAt fields number (if value then 1 else 0)

/-- One number that is either there or not, zero or not. -/
def optU32At (fields : List Field) (number : UInt32) (value : Option UInt32) : Prop :=
  group fields number = (value.map fun v => varintField number v.toUInt64).toList

/-- One text; an empty one may be left out. -/
def textAt (fields : List Field) (number : UInt32) (text : String) : Prop :=
  group fields number = [textField number text] ∨ (text = "" ∧ group fields number = [])

/-- Some bytes; none may be left out. -/
def bytesAt (fields : List Field) (number : UInt32) (data : Bytes) : Prop :=
  group fields number = [bytesField number data] ∨ (data = [] ∧ group fields number = [])

/-- Some numbers, packed, or one. -/
inductive Chunk where
  | packed (values : List Int32)
  | single (value : Int32)

def Chunk.values : Chunk → List Int32
  | .packed values => values
  | .single value => [value]

def Chunk.field (number : UInt32) : Chunk → Field
  | .packed values => bytesField number (values.flatMap fun value => encodeVarint (signExtend value))
  | .single value => varintField number (signExtend value)

/-- Repeated numbers: packed, one by one, or some of each. -/
def intsAt (fields : List Field) (number : UInt32) (values : List Int32) : Prop :=
  ∃ chunks : List Chunk, values = chunks.flatMap Chunk.values ∧
    group fields number = chunks.map (Chunk.field number)

/-- One tile; without one the text is empty. -/
def tileAt (fields : List Field) (number : UInt32) (tile : String) : Prop :=
  (∃ t : Tile, tile = t.mjai ∧ group fields number = [textField number t.text]) ∨
    (tile = "" ∧ group fields number = [])

def tilesAt (fields : List Field) (number : UInt32) (tiles : List String) : Prop :=
  ∃ ts : List Tile, tiles = ts.map Tile.mjai ∧
    group fields number = ts.map fun t => textField number t.text

/-- Repeated messages, each spelled by its bytes. -/
def messagesAt {α : Type} (fields : List Field) (number : UInt32) (spells : α → Bytes → Prop)
    (items : List α) : Prop :=
  ∃ datas, List.Forall₂ spells items datas ∧ group fields number = datas.map (bytesField number)

/-- One message; an absent one reads as `absent`. -/
def messageAt {α : Type} (fields : List Field) (number : UInt32) (spells : α → Bytes → Prop)
    (absent item : α) : Prop :=
  (∃ data, spells item data ∧ group fields number = [bytesField number data]) ∨
    (item = absent ∧ group fields number = [])

/-- Bytes that are fields which spell a value. -/
def SpelledBy {α : Type} (spells : α → List Field → Prop) (item : α) (buf : Bytes) : Prop :=
  ∃ fields, Written fields buf ∧ spells item fields

/-! ## What the arms make of them -/

theorem asI32_signExtend (value : Int32) : value.toInt64.toUInt64.toUInt32.toInt32 = value := by
  apply Int32.toBitVec_inj.mp
  apply BitVec.eq_of_getElem_eq
  intro i inside
  have wide : i < 64 := by omega
  simp [Int32.toInt64, UInt64.toUInt32, BitVec.getElem_signExtend, inside, wide]

theorem extractVarint_encode (value : UInt64) : extractVarint (encodeVarint value) = .ok value := by
  rw [extractVarint, decodeVarint_self]
  rfl

theorem extractString_utf8 (text : String) : extractString (Text.utf8 text) = text :=
  Text.fromUtf8Lossy_utf8 text

theorem packedFrom_encode {values : List Int32} {fuel : Nat}
    (enough : (values.flatMap fun value => encodeVarint (signExtend value)).length ≤ fuel) :
    packedFrom fuel (values.flatMap fun value => encodeVarint (signExtend value)) = .ok values := by
  induction values generalizing fuel with
  | nil => cases fuel <;> rfl
  | cons value rest ih =>
      have positive := List.length_pos_of_ne_nil (encodeVarint_ne_nil (signExtend value))
      rw [List.flatMap_cons] at enough ⊢
      rw [List.length_append] at enough
      cases fuel with
      | zero => omega
      | succ fuel =>
          obtain ⟨byte, more, bytes⟩ := List.exists_cons_of_ne_nil
            (encodeVarint_ne_nil (signExtend value))
          have read := decodeVarint_encodeVarint (signExtend value)
            (rest.flatMap fun value => encodeVarint (signExtend value))
          have back := ih (show _ ≤ fuel by omega)
          rw [bytes, List.cons_append] at read ⊢
          rw [packedFrom, read]
          · simp only [bind, Except.bind]
            rw [← List.cons_append, ← bytes, List.drop_left, back]
            simp only [signExtend, asI32_signExtend]
          · simp

theorem decodePackedVarints_encode (values : List Int32) :
    decodePackedVarints (values.flatMap fun value => encodeVarint (signExtend value)) =
      .ok values := packedFrom_encode (Nat.le_refl _)

theorem readArms_varint {σ : Type} {arms : List (Arm σ)} {number : UInt32}
    {change : UInt64 → σ → σ} (found : armAt arms number 0 = some (varintArm number change))
    (value : UInt64) : readArms arms (varintField number value) = .ok (change value) := by
  have hit : armAt arms (varintField number value).number (varintField number value).wireType =
      some (varintArm number change) := found
  rw [readArms_at hit]
  simp [varintArm, arm, varintField, extractVarint_encode, ofExcept]

section Slots

variable {σ β : Type} {arms : List (Arm σ)} {init : σ} {fields : List Field} {number : UInt32}
  {get : σ → β}

/-- A varint, through the conversion its arm applies. -/
theorem slot_varint (convert : UInt64 → β) {change : UInt64 → σ → σ} {value : UInt64}
    (found : armAt arms number 0 = some (varintArm number change))
    (sets : ∀ x v, get (change x v) = convert x) (start : get init = convert 0)
    (spelled : varintAt fields number value) :
    Slot arms init fields number get (convert value) := by
  rcases spelled with spelled | ⟨zero, spelled⟩
  · refine ⟨change value init, ?_, sets value init⟩
    rw [spelled, readFields, readArms_varint found]
    rfl
  · exact ⟨init, by rw [spelled]; rfl, by rw [start, zero]⟩

/-- A number that stands for something else. -/
theorem slot_coded (convert : UInt32 → β) {change : UInt64 → σ → σ} {code : UInt32}
    (found : armAt arms number 0 = some (varintArm number change))
    (sets : ∀ x v, get (change x v) = convert x.toUInt32) (start : get init = convert 0)
    (spelled : u32At fields number code) : Slot arms init fields number get (convert code) := by
  have slot : Slot arms init fields number get (convert code.toUInt64.toUInt32) :=
    slot_varint (fun x => convert x.toUInt32) found sets start spelled
  rwa [UInt32.toUInt32_toUInt64] at slot

theorem slot_u32 {get : σ → UInt32} {change : UInt64 → σ → σ} {value : UInt32}
    (found : armAt arms number 0 = some (varintArm number change))
    (sets : ∀ x v, get (change x v) = x.toUInt32) (start : get init = 0)
    (spelled : u32At fields number value) : Slot arms init fields number get value :=
  slot_coded id found sets start spelled

theorem slot_i32 {get : σ → Int32} {change : UInt64 → σ → σ} {value : Int32}
    (found : armAt arms number 0 = some (varintArm number change))
    (sets : ∀ x v, get (change x v) = x.toUInt32.toInt32) (start : get init = 0)
    (spelled : i32At fields number value) : Slot arms init fields number get value := by
  have slot := slot_varint (fun x => x.toUInt32.toInt32) found sets start spelled
  rwa [signExtend, asI32_signExtend] at slot

theorem slot_bool {get : σ → Bool} {change : UInt64 → σ → σ} {value : Bool}
    (found : armAt arms number 0 = some (varintArm number change))
    (sets : ∀ x v, get (change x v) = (x != 0)) (start : get init = false)
    (spelled : boolAt fields number value) : Slot arms init fields number get value := by
  have slot := slot_varint (· != 0) found sets start spelled
  cases value <;> exact slot

theorem slot_optU32 {get : σ → Option UInt32} {change : UInt64 → σ → σ} {value : Option UInt32}
    (found : armAt arms number 0 = some (varintArm number change))
    (sets : ∀ x v, get (change x v) = some x.toUInt32) (start : get init = none)
    (spelled : optU32At fields number value) : Slot arms init fields number get value := by
  cases value with
  | none => exact ⟨init, by rw [spelled]; rfl, start⟩
  | some v =>
      refine ⟨change v.toUInt64 init, ?_, by rw [sets, UInt32.toUInt32_toUInt64]⟩
      rw [spelled, Option.map_some, Option.toList_some, readFields, readArms_varint found]
      rfl

/-- A length-delimited field, once its data is read. -/
theorem readFields_delimited {τ : Type} {parse : Bytes → Outcome Error τ} {change : τ → σ → σ}
    {data : Bytes} {x : τ} (found : armAt arms number 2 = some (arm number 2 parse change))
    (read : parse data = .ok x) (v : σ) (rest : List Field) :
    readFields (readArms arms) v (bytesField number data :: rest) =
      readFields (readArms arms) (change x v) rest := by
  have here : readArms arms (bytesField number data) = .ok (change x) := by
    have hit : armAt arms (bytesField number data).number (bytesField number data).wireType =
        some (arm number 2 parse change) := found
    rw [readArms_at hit]
    simp [arm, bytesField, read]
  rw [readFields, here]
  rfl

theorem slot_text {get : σ → String} {change : String → σ → σ} {text : String}
    (found : armAt arms number 2 = some (textArm number change))
    (sets : ∀ x v, get (change x v) = x) (start : get init = "")
    (spelled : textAt fields number text) : Slot arms init fields number get text := by
  rcases spelled with spelled | ⟨empty, spelled⟩
  · refine ⟨change text init, ?_, sets text init⟩
    rw [spelled, textField, readFields_delimited found (by rw [extractString_utf8])]
    rfl
  · exact ⟨init, by rw [spelled]; rfl, by rw [start, empty]⟩

theorem slot_bytes {get : σ → Bytes} {change : Bytes → σ → σ} {data : Bytes}
    (found : armAt arms number 2 = some (bytesArm number change))
    (sets : ∀ x v, get (change x v) = x) (start : get init = [])
    (spelled : bytesAt fields number data) : Slot arms init fields number get data := by
  rcases spelled with spelled | ⟨empty, spelled⟩
  · refine ⟨change data init, ?_, sets data init⟩
    rw [spelled, readFields_delimited found rfl]
    rfl
  · exact ⟨init, by rw [spelled]; rfl, by rw [start, empty]⟩

theorem readTile_text (tile : Tile) : readTile (Text.utf8 tile.text) = .ok tile.mjai := by
  rw [readTile, extractString_utf8, tileStrToMjai_text]

theorem slot_tile {get : σ → String} {change : String → σ → σ} {tile : String}
    (found : armAt arms number 2 = some (tileArm number change))
    (sets : ∀ x v, get (change x v) = x) (start : get init = "")
    (spelled : tileAt fields number tile) : Slot arms init fields number get tile := by
  rcases spelled with ⟨t, rfl, spelled⟩ | ⟨empty, spelled⟩
  · refine ⟨change t.mjai init, ?_, sets t.mjai init⟩
    rw [spelled, textField, readFields_delimited found (readTile_text t)]
    rfl
  · exact ⟨init, by rw [spelled]; rfl, by rw [start, empty]⟩

/-- Repeated fields run the change of each in turn. -/
theorem readFields_repeated {τ ι : Type} {parse : Bytes → Outcome Error τ} {change : τ → σ → σ}
    {bytes : ι → Bytes} {value : ι → τ}
    (found : armAt arms number 2 = some (arm number 2 parse change)) {items : List ι}
    (read : ∀ item ∈ items, parse (bytes item) = .ok (value item)) (v : σ) :
    readFields (readArms arms) v (items.map fun item => bytesField number (bytes item)) =
      .ok (items.foldl (fun v item => change (value item) v) v) := by
  induction items generalizing v with
  | nil => rfl
  | cons item rest ih =>
      obtain ⟨here, later⟩ := List.forall_mem_cons.mp read
      rw [List.map_cons, readFields_delimited found here, ih later, List.foldl_cons]

/-- A component that every change appends to. -/
theorem foldl_append {τ γ ι : Type} {get : σ → List γ} {change : τ → σ → σ} {added : τ → List γ}
    (appends : ∀ x v, get (change x v) = get v ++ added x) (value : ι → τ) (items : List ι) (v : σ) :
    get (items.foldl (fun v item => change (value item) v) v) =
      get v ++ items.flatMap fun item => added (value item) := by
  induction items generalizing v with
  | nil => simp
  | cons item rest ih => rw [List.foldl_cons, ih, appends, List.flatMap_cons, List.append_assoc]

theorem slot_tiles {get : σ → List String} {change : String → σ → σ} {tiles : List String}
    (found : armAt arms number 2 = some (tileArm number change))
    (appends : ∀ x v, get (change x v) = get v ++ [x]) (start : get init = [])
    (spelled : tilesAt fields number tiles) : Slot arms init fields number get tiles := by
  obtain ⟨ts, rfl, spelled⟩ := spelled
  refine ⟨_, spelled ▸ readFields_repeated found (fun t _ => readTile_text t) init, ?_⟩
  rw [foldl_append appends, start, List.nil_append, List.map_eq_flatMap]

/-- Repeated messages, each of which its parser reads. -/
theorem slot_fold {α : Type} {parse : Bytes → Outcome Error α} {change : α → σ → σ}
    {spells : α → Bytes → Prop} {items : List α}
    (found : armAt arms number 2 = some (arm number 2 parse change))
    (reads : ∀ item data, spells item data → parse data = .ok item)
    (spelled : messagesAt fields number spells items) :
    Slot arms init fields number get (get (items.foldl (fun v item => change item v) init)) := by
  obtain ⟨datas, pairs, spelled⟩ := spelled
  refine ⟨_, ?_, rfl⟩
  rw [spelled]
  clear spelled
  induction pairs generalizing init with
  | nil => rfl
  | cons here _ ih =>
      rw [List.map_cons, readFields_delimited found (reads _ _ here), List.foldl_cons]
      exact ih

theorem slot_messages {α : Type} {get : σ → List α} {parse : Bytes → Outcome Error α}
    {change : α → σ → σ} {spells : α → Bytes → Prop} {items : List α}
    (found : armAt arms number 2 = some (arm number 2 parse change))
    (reads : ∀ item data, spells item data → parse data = .ok item)
    (appends : ∀ x v, get (change x v) = get v ++ [x]) (start : get init = [])
    (spelled : messagesAt fields number spells items) :
    Slot arms init fields number get items := by
  have slot : Slot arms init fields number get
      (get (items.foldl (fun v item => change item v) init)) := slot_fold found reads spelled
  have grown : get (items.foldl (fun v item => change item v) init) =
      get init ++ items.flatMap fun item => [item] := foldl_append appends id items init
  rw [grown, start] at slot
  simpa using slot

theorem slot_message {α : Type} {get : σ → α} {parse : Bytes → Outcome Error α}
    {change : α → σ → σ} {spells : α → Bytes → Prop} {absent item : α}
    (found : armAt arms number 2 = some (arm number 2 parse change))
    (reads : ∀ item data, spells item data → parse data = .ok item)
    (sets : ∀ x v, get (change x v) = x) (start : get init = absent)
    (spelled : messageAt fields number spells absent item) :
    Slot arms init fields number get item := by
  rcases spelled with ⟨data, spelled, only⟩ | ⟨missing, only⟩
  · refine ⟨change item init, ?_, sets item init⟩
    rw [only, readFields_delimited found (reads item data spelled)]
    rfl
  · exact ⟨init, by rw [only]; rfl, by rw [start, missing]⟩

theorem readFields_chunks {extend : List Int32 → σ → σ}
    (foundPacked : armAt arms number 2 = some (packedArm number extend))
    (foundSingle : armAt arms number 0 =
      some (varintArm number fun v => extend [v.toUInt32.toInt32])) (chunks : List Chunk) (v : σ) :
    readFields (readArms arms) v (chunks.map (Chunk.field number)) =
      .ok (chunks.foldl (fun v chunk => extend chunk.values v) v) := by
  induction chunks generalizing v with
  | nil => rfl
  | cons chunk rest ih =>
      cases chunk with
      | packed values =>
          rw [List.map_cons, Chunk.field,
            readFields_delimited foundPacked (by rw [decodePackedVarints_encode]; rfl)]
          exact ih _
      | single value =>
          rw [List.map_cons, Chunk.field, readFields, readArms_varint foundSingle,
            Outcome.ok_bind, signExtend, asI32_signExtend]
          exact ih _

/-- Repeated numbers, in whatever chunks they come. -/
theorem slot_ints {γ : Type} (convert : Int32 → γ) {get : σ → List γ}
    {extend : List Int32 → σ → σ} {values : List Int32} (foundPacked : armAt arms number 2 = some (packedArm number extend))
    (foundSingle : armAt arms number 0 =
      some (varintArm number fun v => extend [v.toUInt32.toInt32]))
    (appends : ∀ xs v, get (extend xs v) = get v ++ xs.map convert) (start : get init = [])
    (spelled : intsAt fields number values) :
    Slot arms init fields number get (values.map convert) := by
  obtain ⟨chunks, rfl, spelled⟩ := spelled
  refine ⟨_, spelled ▸ readFields_chunks foundPacked foundSingle chunks init, ?_⟩
  rw [foldl_append appends Chunk.values chunks init, start]
  simp [List.map_flatMap]

/-- Scores are kept as they are. -/
theorem slot_scores {get : σ → List Int32} {extend : List Int32 → σ → σ} {values : List Int32}
    (foundPacked : armAt arms number 2 = some (packedArm number extend))
    (foundSingle : armAt arms number 0 =
      some (varintArm number fun v => extend [v.toUInt32.toInt32]))
    (appends : ∀ xs v, get (extend xs v) = get v ++ xs) (start : get init = [])
    (spelled : intsAt fields number values) : Slot arms init fields number get values := by
  have slot := slot_ints id foundPacked foundSingle (by simpa using appends) start spelled
  rwa [List.map_id] at slot

end Slots

end MajsoulManager.Majsoul
