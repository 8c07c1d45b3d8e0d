/-
# Majsoul.Schema — a message by its field loop

The decoders of `proto.rs` and `events.rs` are one loop over the fields of a
message with a `match` on number and wire type.  Here the arms of that `match`
are a table; `readArms` is the `match`, and `parseMessage` the loop around it.

A table whose keys are distinct panics on a field exactly when the arm of that
field does (`readArms_panics`), so a message is characterised by the hazards of
its arms (`parseMessage_panics`).
-/
import MajsoulManager.Majsoul.Tiles

namespace MajsoulManager.Majsoul

open MajsoulManager.Theory
open MajsoulManager.Store

set_option autoImplicit false

/-- `(number, wire_type) => …`: what the data of such a field does to the value
being built. -/
structure Arm (σ : Type) where
  number : UInt32
  wireType : UInt8
  act : Bytes → Outcome Error (σ → σ)

section Arms

variable {σ τ : Type}

/-- Reads the data, then changes the value. -/
def arm (number : UInt32) (wireType : UInt8) (parse : Bytes → Outcome Error τ)
    (change : τ → σ → σ) : Arm σ :=
  ⟨number, wireType, fun data => change <$> parse data⟩

def varintArm (number : UInt32) (change : UInt64 → σ → σ) : Arm σ :=
  arm number 0 (fun data => ofExcept (extractVarint data)) change

def textArm (number : UInt32) (change : String → σ → σ) : Arm σ :=
  arm number 2 (fun data => .ok (extractString data)) change

def bytesArm (number : UInt32) (change : Bytes → σ → σ) : Arm σ := arm number 2 .ok change

def packedArm (number : UInt32) (change : List Int32 → σ → σ) : Arm σ :=
  arm number 2 (fun data => ofExcept (decodePackedVarints data)) change

/-- `tile_str_to_mjai(&extract_string(field.data))?`. -/
def readTile (data : Bytes) : Outcome Error String := tileStrToMjai (extractString data)

def tileArm (number : UInt32) (change : String → σ → σ) : Arm σ := arm number 2 readTile change

def Arm.matches (a : Arm σ) (field : Field) : Bool :=
  a.number == field.number && a.wireType == field.wireType

/-- The first arm that matches; a field no arm matches is skipped. -/
def readArms (arms : List (Arm σ)) (field : Field) : Outcome Error (σ → σ) :=
  match arms.find? (·.matches field) with
  | some a => a.act field.data
  | none => .ok id

def parseMessage (arms : List (Arm σ)) (init : σ) (data : Bytes) : Outcome Error σ :=
  readMessage (readArms arms) init data

/-- A nested loop that works on the outer loop's own variables. -/
def parseInto (arms : List (Arm σ)) (data : Bytes) : Outcome Error (σ → σ) :=
  readMessage (fun field => (fun change before => change ∘ before) <$> readArms arms field) id data

/-! ## Hazards -/

/-- The keys of a table, as the `match` spells them. -/
def keys (arms : List (Arm σ)) : List (UInt32 × UInt8) := arms.map fun a => (a.number, a.wireType)

/-- A length-delimited field whose data satisfies `P`. -/
def inField (number : UInt32) (P : Bytes → Prop) (field : Field) : Prop :=
  field.number = number ∧ field.wireType = 2 ∧ P field.data

/-- A tile that is one character of several bytes. -/
def LoneTile (data : Bytes) : Prop := LoneChar (extractString data)

/-- Such a tile, in one of the fields that hold tiles. -/
def tileIn (numbers : List UInt32) (field : Field) : Prop :=
  ∃ number ∈ numbers, inField number LoneTile field

/-- Some arm matches the field and panics on its data. -/
def ArmPanics (arms : List (Arm σ)) (field : Field) : Prop :=
  ∃ a ∈ arms, (a.number = field.number ∧ a.wireType = field.wireType) ∧ (a.act field.data).Panics

@[simp] theorem armPanics_nil (field : Field) : ¬ ArmPanics ([] : List (Arm σ)) field := by
  simp [ArmPanics]

theorem armPanics_cons (a : Arm σ) (rest : List (Arm σ)) (field : Field) :
    ArmPanics (a :: rest) field ↔
      ((a.number = field.number ∧ a.wireType = field.wireType) ∧ (a.act field.data).Panics) ∨
        ArmPanics rest field := by
  simp [ArmPanics]

theorem readArms_panics {arms : List (Arm σ)} (distinct : (keys arms).Nodup) (field : Field) :
    (readArms arms field).Panics ↔ ArmPanics arms field := by
  induction arms with
  | nil => simp [readArms]
  | cons a rest ih =>
      simp only [keys, List.map_cons, List.nodup_cons] at distinct
      rw [armPanics_cons, readArms, List.find?_cons]
      by_cases here : a.number = field.number ∧ a.wireType = field.wireType
      · have hit : a.matches field = true := by simp [Arm.matches, here.1, here.2]
        simp only [hit, here, true_and, iff_self_or]
        rintro ⟨b, member, there, -⟩
        have same : (b.number, b.wireType) = (a.number, a.wireType) := by
          rw [there.1, there.2, here.1, here.2]
        exact absurd (same ▸ List.mem_map_of_mem member) distinct.1
      · have miss : a.matches field = false := by
          simpa [Arm.matches] using here
        simp only [miss, here, false_and, false_or]
        exact ih distinct.2

theorem armPanics_safe {a : Arm σ} (safe : ∀ data, ¬ (a.act data).Panics) (rest : List (Arm σ))
    (field : Field) : ArmPanics (a :: rest) field ↔ ArmPanics rest field := by
  simp [armPanics_cons, safe field.data]

@[simp] theorem armPanics_varint (number : UInt32) (change : UInt64 → σ → σ)
    (rest : List (Arm σ)) (field : Field) :
    ArmPanics (varintArm number change :: rest) field ↔ ArmPanics rest field :=
  armPanics_safe (fun data => by simp [varintArm, arm, Outcome.map_panics]) rest field

@[simp] theorem armPanics_text (number : UInt32) (change : String → σ → σ)
    (rest : List (Arm σ)) (field : Field) :
    ArmPanics (textArm number change :: rest) field ↔ ArmPanics rest field :=
  armPanics_safe (fun data => by simp [textArm, arm]) rest field

@[simp] theorem armPanics_bytes (number : UInt32) (change : Bytes → σ → σ)
    (rest : List (Arm σ)) (field : Field) :
    ArmPanics (bytesArm number change :: rest) field ↔ ArmPanics rest field :=
  armPanics_safe (fun data => by simp [bytesArm, arm]) rest field

@[simp] theorem armPanics_packed (number : UInt32) (change : List Int32 → σ → σ)
    (rest : List (Arm σ)) (field : Field) :
    ArmPanics (packedArm number change :: rest) field ↔ ArmPanics rest field :=
  armPanics_safe (fun data => by simp [packedArm, arm, Outcome.map_panics]) rest field

/-- A length-delimited arm panics on what its parser panics on. -/
theorem armPanics_arm {number : UInt32} {parse : Bytes → Outcome Error τ} {P : Bytes → Prop}
    (hazards : ∀ data, (parse data).Panics ↔ P data) (change : τ → σ → σ) (rest : List (Arm σ))
    (field : Field) :
    ArmPanics (arm number 2 parse change :: rest) field ↔
      inField number P field ∨ ArmPanics rest field := by
  rw [armPanics_cons]
  refine or_congr_left ?_
  simp only [arm, Outcome.map_panics, hazards, inField, and_assoc]
  rw [eq_comm (a := number), eq_comm (a := (2 : UInt8))]

theorem readTile_panics (data : Bytes) : (readTile data).Panics ↔ LoneTile data :=
  tileStrToMjai_panics _

@[simp] theorem armPanics_tile (number : UInt32) (change : String → σ → σ)
    (rest : List (Arm σ)) (field : Field) :
    ArmPanics (tileArm number change :: rest) field ↔
      inField number LoneTile field ∨ ArmPanics rest field :=
  armPanics_arm readTile_panics change rest field

@[simp] theorem tileIn_nil (field : Field) : ¬ tileIn [] field := by
  simp [tileIn]

@[simp] theorem tileIn_cons (number : UInt32) (numbers : List UInt32) (field : Field) :
    tileIn (number :: numbers) field ↔ inField number LoneTile field ∨ tileIn numbers field := by
  simp [tileIn]

/-- A field the table reads without failing. -/
def Accepts (arms : List (Arm σ)) (field : Field) : Prop := (readArms arms field).Returns

/-- **When a message panics**: its walk reaches a length that wraps, or a field
whose arm panics, every field before it read. -/
theorem parseMessage_panics (arms : List (Arm σ)) {hazard : Field → Prop}
    (distinct : (keys arms).Nodup) (hazards : ∀ field, ArmPanics arms field ↔ hazard field)
    (init : σ) (data : Bytes) :
    (parseMessage arms init data).Panics ↔ MessageHazard (Accepts arms) hazard data :=
  readMessage_panics (fun field => (readArms_panics distinct field).trans (hazards field)) init data

theorem parseInto_panics (arms : List (Arm σ)) {hazard : Field → Prop}
    (distinct : (keys arms).Nodup) (hazards : ∀ field, ArmPanics arms field ↔ hazard field)
    (data : Bytes) :
    (parseInto arms data).Panics ↔ MessageHazard (Accepts arms) hazard data := by
  have accepted : Accepts arms =
      fun field => ((fun change before => change ∘ before) <$> readArms arms field :
        Outcome Error ((σ → σ) → σ → σ)).Returns := by
    funext field
    exact propext Outcome.map_returns.symm
  rw [accepted, parseInto]
  refine readMessage_panics (fun field => ?_) id data
  rw [Outcome.map_panics, readArms_panics distinct]
  exact hazards field

/-- What every arm of a message keeps, the message has. -/
theorem parseMessage_invariant {arms : List (Arm σ)} {P : σ → Prop}
    (kept : ∀ a ∈ arms, ∀ data change, a.act data = .ok change → ∀ value, P value →
      P (change value))
    {init final : σ} {data : Bytes} (started : P init)
    (done : parseMessage arms init data = .ok final) : P final := by
  refine readMessage_invariant (fun field change accepted value holds => ?_) started done
  unfold readArms at accepted
  split at accepted
  · rename_i a found
    exact kept a (List.mem_of_find?_eq_some found) field.data change accepted value holds
  · cases accepted
    exact holds

end Arms

end MajsoulManager.Majsoul
