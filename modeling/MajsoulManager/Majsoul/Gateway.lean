/-
# Majsoul.Gateway — the parsers of what the gateway sends

`rpc.rs`: `wrapper`, `extract_error_code` and `extract_string_field`, three loops
written by hand over one format.  A length is any 64-bit number.  Only
`extract_error_code` checks the sum of a position and a length; in the other two it
wraps, and a sum that wrapped either is a slice that starts past its end, or takes
the position back.

`gateway_parsers_iff`: the three stop, panic nowhere and never go back exactly when
no field that the walk reaches is long enough to wrap.  What `encode` writes is
decoded as it was.
-/
import MajsoulManager.Majsoul.Encode
import MajsoulManager.Theory.Loop
import MajsoulManager.Theory.Utf8

namespace MajsoulManager.Majsoul.Gateway

open MajsoulManager.Theory
open MajsoulManager.Store

set_option autoImplicit false

/-! ## Varints -/

/-- `wrapper::decode_varint`, which refuses what does not fit. -/
def varintFrom (value : UInt64) (shift pos : Nat) : Bytes → Except Error (UInt64 × Nat)
  | [] => .error ["Unexpected end in varint"]
  | byte :: rest =>
      let part := (byte &&& 0x7f).toUInt64
      if 64 ≤ shift ∨ UInt64.ofNat (2 ^ 64 - 1) >>> UInt64.ofNat shift < part then
        .error ["Varint overflows u64"]
      else
        let value := value ||| part <<< UInt64.ofNat shift
        if byte &&& 0x80 = 0 then .ok (value, pos + 1)
        else varintFrom value (shift + 7) (pos + 1) rest

def decodeVarint (buf : Bytes) : Except Error (UInt64 × Nat) := varintFrom 0 0 0 buf

theorem varintFrom_eq_ok {value : UInt64} {shift pos : Nat} {buf : Bytes} {read : UInt64 × Nat} :
    varintFrom value shift pos buf = .ok read ↔
      Majsoul.varintFrom value shift pos buf = .ok read := by
  induction buf generalizing value shift pos with
  | nil => simp [varintFrom, Majsoul.varintFrom]
  | cons byte rest ih =>
      simp only [varintFrom, Majsoul.varintFrom]
      split
      · simp
      · split
        · rfl
        · exact ih

/-- The two copies of the reader read the same numbers. -/
theorem decodeVarint_eq_ok {buf : Bytes} {read : UInt64 × Nat} :
    decodeVarint buf = .ok read ↔ Majsoul.decodeVarint buf = .ok read := varintFrom_eq_ok

/-- The length of `extract_string_field`: nothing is refused, a shift past the word
wraps, and a varint that is cut off ends where the data does. -/
def lengthFrom (length : UInt64) (shift pos : Nat) : Bytes → UInt64 × Nat
  | [] => (length, pos)
  | byte :: rest =>
      let length := length ||| (byte &&& 0x7f).toUInt64 <<< UInt64.ofNat shift
      if byte &&& 0x80 = 0 then (length, pos + 1)
      else lengthFrom length (shift + 7) (pos + 1) rest

theorem lengthFrom_pos (length : UInt64) (shift pos : Nat) (buf : Bytes) :
    pos ≤ (lengthFrom length shift pos buf).2 ∧
      (lengthFrom length shift pos buf).2 ≤ pos + buf.length := by
  induction buf generalizing length shift pos with
  | nil => simp [lengthFrom]
  | cons byte rest ih =>
      simp only [lengthFrom]
      split
      · simp
      · have later := ih (length ||| (byte &&& 0x7f).toUInt64 <<< UInt64.ofNat shift) (shift + 7)
          (pos + 1)
        simp only [List.length_cons]
        omega

/-- Skips a varint: its continued bytes, and one more. -/
def skipVarint (buf : Bytes) (pos : Nat) : Nat :=
  pos + ((buf.drop pos).takeWhile fun byte => byte &&& 0x80 != 0).length + 1

/-! ## The wrapper -/

/-- Field 2 is written even when the body is empty. -/
def encode (name : String) (data : Bytes) : Bytes :=
  0x0a :: (encodeVarint (UInt64.ofNat (Text.utf8 name).length) ++ (Text.utf8 name ++
    0x12 :: (encodeVarint (UInt64.ofNat data.length) ++ data)))

structure Walk where
  pos : Nat
  name : String
  data : Bytes
  deriving DecidableEq

def Walk.start : Walk := ⟨0, "", []⟩

/-- Where the data of the length-delimited field whose tag is at `pos` starts, and
where it ends: the sum is taken modulo the word size. -/
def delimited (buf : Bytes) (pos : Nat) : Except Error (Nat × Nat) := do
  let (length, taken) ← decodeVarint (buf.drop (pos + 1))
  let start := pos + 1 + taken
  .ok (start, (start + length.toNat) % 2 ^ 64)

/-- One turn of the loop of `wrapper::decode`. -/
def decodeTurn (buf : Bytes) (walk : Walk) : Turn Walk (Except Error (String × Bytes)) :=
  match buf[walk.pos]? with
  | none => .stop (.ok (walk.name, walk.data))
  | some tag =>
      if tag &&& 7 ≠ 2 then
        if tag &&& 7 = 0 then .again { walk with pos := skipVarint buf (walk.pos + 1) }
        else .again { walk with pos := walk.pos + 1 }
      else
        match delimited buf walk.pos with
        | .error reason => .stop (.error reason)
        | .ok (start, stop) =>
            if buf.length < stop then .stop (.error ["Buffer overflow"])
            else if tag >>> 3 = 1 then
              match (Outcome.slice buf start stop : Outcome Error Bytes) with
              | .ok bytes => .again { walk with pos := stop, name := Text.fromUtf8Lossy bytes }
              | _ => .panic
            else if tag >>> 3 = 2 then
              match (Outcome.slice buf start stop : Outcome Error Bytes) with
              | .ok bytes => .again { walk with pos := stop, data := bytes }
              | _ => .panic
            else .again { walk with pos := stop }

/-- Where the data of the field at `pos` starts and ends, if it is length-delimited:
the jump that `decode` makes there. -/
def delimitedAt (buf : Bytes) (pos : Nat) : Option (Nat × Nat) :=
  match buf[pos]? with
  | some tag => if tag &&& 7 = 2 then (delimited buf pos).toOption else none
  | none => none

/-! ## Error codes and string fields -/

/-- Nested or direct; every sum is checked. -/
def extractErrorCode (data : Bytes) : Outcome Error (Option UInt64) :=
  let codeOf := fun payload : Bytes =>
    if payload.head? = some 0x08 then do
      match decodeVarint (← Outcome.slice payload 1 payload.length) with
      | .ok (code, _) => .ok (some code)
      | .error _ => .ok none
    else .ok none
  if data.head? = some 0x0a then do
    match decodeVarint (← Outcome.slice data 1 data.length) with
    | .error _ => .ok none
    | .ok (length, taken) =>
        let stop := 1 + taken + length.toNat
        if 2 ^ 64 ≤ stop ∨ data.length < stop then .ok none
        else codeOf ((data.drop (1 + taken)).take length.toNat)
  else codeOf data

/-- Where the data of the field whose tag is at `pos` starts and ends. -/
def stringSpan (data : Bytes) (pos : Nat) : Nat × Nat :=
  let (length, start) := lengthFrom 0 0 (pos + 1) (data.drop (pos + 1))
  (start, (start + length.toNat) % 2 ^ 64)

/-- One turn of the loop of `extract_string_field`. -/
def stringTurn (data : Bytes) (target : UInt32) (pos : Nat) : Turn Nat (Option String) :=
  match data[pos]? with
  | none => .stop none
  | some tag =>
      if tag &&& 7 = 2 then
        let (start, stop) := stringSpan data pos
        if (tag >>> 3).toUInt32 = target ∧ stop ≤ data.length then
          match (Outcome.slice data start stop : Outcome Error Bytes) with
          | .ok bytes => .stop (some (Text.fromUtf8Lossy bytes))
          | _ => .panic
        else .again stop
      else if tag &&& 7 = 0 then .again (skipVarint data (pos + 1))
      else .stop none

/-- The jump that `extract_string_field` makes at `pos`. -/
def stringJump (data : Bytes) (pos : Nat) : Option (Nat × Nat) :=
  match data[pos]? with
  | some tag => if tag &&& 7 = 2 then some (stringSpan data pos) else none
  | none => none

/-! ## Where the walks go -/

/-- The field at `pos` is length-delimited and ends before its data starts. -/
def wrapsAt (buf : Bytes) (pos : Nat) : Prop :=
  ∃ start stop, delimitedAt buf pos = some (start, stop) ∧ stop < start

/-- Where the field at `pos` ends, if the decoder goes on after it. -/
def decodeNext (buf : Bytes) (pos : Nat) : Option Nat :=
  match buf[pos]? with
  | none => none
  | some tag =>
      if tag &&& 7 ≠ 2 then
        if tag &&& 7 = 0 then some (skipVarint buf (pos + 1)) else some (pos + 1)
      else
        match delimited buf pos with
        | .error _ => none
        | .ok (_, stop) => if buf.length < stop then none else some stop

def stringWrapsAt (data : Bytes) (pos : Nat) : Prop :=
  ∃ start stop, stringJump data pos = some (start, stop) ∧ stop < start

/-- Where the field at `pos` ends, if the search goes on after it. -/
def stringNext (data : Bytes) (target : UInt32) (pos : Nat) : Option Nat :=
  match data[pos]? with
  | none => none
  | some tag =>
      if tag &&& 7 = 2 then
        let (_, stop) := stringSpan data pos
        if (tag >>> 3).toUInt32 = target ∧ stop ≤ data.length then none else some stop
      else if tag &&& 7 = 0 then some (skipVarint data (pos + 1))
      else none

theorem lt_skipVarint (buf : Bytes) (pos : Nat) : pos < skipVarint buf (pos + 1) := by
  unfold skipVarint
  omega

/-- Data starts after its tag and inside the buffer. -/
theorem delimited_start {buf : Bytes} {pos start stop : Nat} (inside : pos < buf.length)
    (found : delimited buf pos = .ok (start, stop)) : pos < start ∧ start ≤ buf.length := by
  unfold delimited at found
  cases read : decodeVarint (buf.drop (pos + 1)) with
  | error reason =>
      rw [read] at found
      cases found
  | ok both =>
      obtain ⟨length, taken⟩ := both
      rw [read] at found
      cases found
      have bound := decodeVarint_taken (decodeVarint_eq_ok.mp read)
      rw [List.length_drop] at bound
      omega

theorem stringSpan_start {data : Bytes} {pos : Nat} (inside : pos < data.length) :
    pos < (stringSpan data pos).1 ∧ (stringSpan data pos).1 ≤ data.length := by
  have bound := lengthFrom_pos 0 0 (pos + 1) (data.drop (pos + 1))
  rw [List.length_drop] at bound
  simp only [stringSpan]
  omega

/-- A turn of the decoder, where the field does not wrap. -/
theorem decodeTurn_good {buf : Bytes} (walk : Walk) (fits : ¬ wrapsAt buf walk.pos) :
    Loop.GoodTurn (decodeTurn buf) Walk.pos (fun walk => delimitedAt buf walk.pos) (decodeNext buf)
      buf.length walk := by
  have ordered : ∀ start stop, delimitedAt buf walk.pos = some (start, stop) → start ≤ stop := by
    intro start stop jumped
    apply Nat.le_of_not_lt
    intro back
    exact fits ⟨start, stop, jumped, back⟩
  refine ⟨ordered, ?_⟩
  unfold decodeTurn decodeNext
  cases here : buf[walk.pos]? with
  | none => exact .inl ⟨rfl, _, rfl⟩
  | some tag =>
      have inside : walk.pos < buf.length := (List.getElem?_eq_some_iff.mp here).1
      simp only
      by_cases delimitedTag : tag &&& 7 = 2
      · simp only [ne_eq, delimitedTag, not_true_eq_false, if_false]
        cases found : delimited buf walk.pos with
        | error reason => exact .inl ⟨rfl, _, rfl⟩
        | ok span =>
            obtain ⟨start, stop⟩ := span
            obtain ⟨after, within⟩ := delimited_start inside found
            have forward : start ≤ stop := by
              apply ordered
              simp [delimitedAt, here, delimitedTag, found, Except.toOption]
            by_cases long : buf.length < stop
            · simp only [long, if_true]
              exact .inl ⟨trivial, _, rfl⟩
            · have data : (Outcome.slice buf start stop : Outcome Error Bytes) =
                  .ok ((buf.drop start).take (stop - start)) :=
                slice_of_le forward (Nat.le_of_not_lt long)
              simp only [long, if_false, data]
              split
              · exact .inr ⟨_, rfl, rfl, by simp only; omega, inside⟩
              · split
                · exact .inr ⟨_, rfl, rfl, by simp only; omega, inside⟩
                · exact .inr ⟨_, rfl, rfl, by simp only; omega, inside⟩
      · simp only [ne_eq, delimitedTag, not_false_eq_true, if_true]
        split
        · exact .inr ⟨_, rfl, rfl, lt_skipVarint buf walk.pos, inside⟩
        · exact .inr ⟨_, rfl, rfl, Nat.lt_succ_self _, inside⟩

/-- A turn of the search, where the field does not wrap. -/
theorem stringTurn_good {data : Bytes} (target : UInt32) (pos : Nat)
    (fits : ¬ stringWrapsAt data pos) :
    Loop.GoodTurn (stringTurn data target) id (stringJump data) (stringNext data target) data.length
      pos := by
  have ordered : ∀ start stop, stringJump data pos = some (start, stop) → start ≤ stop := by
    intro start stop jumped
    apply Nat.le_of_not_lt
    intro back
    exact fits ⟨start, stop, jumped, back⟩
  refine ⟨ordered, ?_⟩
  unfold stringTurn stringNext
  simp only [id]
  cases here : data[pos]? with
  | none => exact .inl ⟨rfl, _, rfl⟩
  | some tag =>
      have inside : pos < data.length := (List.getElem?_eq_some_iff.mp here).1
      simp only
      by_cases delimitedTag : tag &&& 7 = 2
      · simp only [delimitedTag, if_true]
        obtain ⟨after, within⟩ := stringSpan_start inside
        have forward : (stringSpan data pos).1 ≤ (stringSpan data pos).2 := by
          apply ordered
          simp [stringJump, here, delimitedTag]
        by_cases found : (tag >>> 3).toUInt32 = target ∧ (stringSpan data pos).2 ≤ data.length
        · have bytes := slice_of_le forward found.2
          simp only [found, and_self, if_true, bytes]
          exact .inl ⟨trivial, _, rfl⟩
        · simp only [found, if_false]
          exact .inr ⟨_, rfl, rfl, by omega, inside⟩
      · simp only [delimitedTag, if_false]
        by_cases varint : tag &&& 7 = 0
        · simp only [varint, if_true]
          exact .inr ⟨_, rfl, rfl, lt_skipVarint data pos, inside⟩
        · simp only [varint, if_false]
          exact .inl ⟨trivial, _, rfl⟩

/-- **The decoder** is sound exactly when no field it walks to wraps. -/
theorem decode_sound_iff (buf : Bytes) :
    Loop.Sound (decodeTurn buf) (fun walk => delimitedAt buf walk.pos) Walk.start ↔
      ∀ pos, Loop.Walked (decodeNext buf) 0 pos → ¬ wrapsAt buf pos :=
  Loop.sound_iff_walk decodeTurn_good (fun _ wraps => wraps) Walk.start

/-- **The search** is sound exactly when no field it walks to wraps. -/
theorem string_sound_iff (data : Bytes) (target : UInt32) :
    Loop.Sound (stringTurn data target) (stringJump data) 0 ↔
      ∀ pos, Loop.Walked (stringNext data target) 0 pos → ¬ stringWrapsAt data pos :=
  Loop.sound_iff_walk (stringTurn_good target) (fun _ wraps => wraps) 0

theorem slice_tail (first : UInt8) (rest : Bytes) :
    (Outcome.slice (first :: rest) 1 (first :: rest).length : Outcome Error Bytes) = .ok rest := by
  rw [slice_of_le (by simp) (Nat.le_refl _)]
  simp

/-- Every sum of `extract_error_code` is checked, and so it always answers. -/
theorem extractErrorCode_returns (data : Bytes) : (extractErrorCode data).Returns := by
  have coded : ∀ payload : Bytes, (if payload.head? = some 0x08 then do
      match decodeVarint (← Outcome.slice payload 1 payload.length) with
      | .ok (code, _) => .ok (some code)
      | .error _ => .ok none
    else .ok none : Outcome Error (Option UInt64)).Returns := by
    intro payload
    split
    · rename_i tagged
      obtain ⟨rest, rfl⟩ := List.head?_eq_some_iff.mp tagged
      rw [slice_tail, Outcome.ok_bind]
      cases decodeVarint rest <;> simp
    · simp
  unfold extractErrorCode
  simp only
  split
  · rename_i tagged
    obtain ⟨rest, rfl⟩ := List.head?_eq_some_iff.mp tagged
    rw [slice_tail, Outcome.ok_bind]
    cases decodeVarint rest with
    | error reason => simp
    | ok read =>
        obtain ⟨length, taken⟩ := read
        simp only
        split
        · simp
        · exact coded _
  · exact coded data

/-! ## What was encoded -/

/-- A field that was written is delimited as it was, in a buffer a program can
hold. -/
theorem delimited_written {before payload rest : Bytes} (tag : UInt8)
    (fits : (before ++ tag :: (encodeVarint (UInt64.ofNat payload.length) ++
      (payload ++ rest))).length < 2 ^ 63) :
    delimited (before ++ tag :: (encodeVarint (UInt64.ofNat payload.length) ++ (payload ++ rest)))
        before.length =
      .ok (before.length + 1 + (encodeVarint (UInt64.ofNat payload.length)).length,
        before.length + 1 + (encodeVarint (UInt64.ofNat payload.length)).length + payload.length) := by
  simp only [List.length_append, List.length_cons] at fits
  have behind : (before ++ tag :: (encodeVarint (UInt64.ofNat payload.length) ++
      (payload ++ rest))).drop (before.length + 1) =
      encodeVarint (UInt64.ofNat payload.length) ++ (payload ++ rest) := by
    rw [List.drop_length_add_append]
    rfl
  have length : (UInt64.ofNat payload.length).toNat = payload.length := by
    simpa using Nat.mod_eq_of_lt (show payload.length < 2 ^ 64 by omega)
  have read := decodeVarint_eq_ok.mpr
    (decodeVarint_encodeVarint (UInt64.ofNat payload.length) (payload ++ rest))
  simp only [delimited, behind, read, length, Bind.bind, Except.bind]
  rw [Nat.mod_eq_of_lt (by omega)]

theorem slice_written (before payload rest : Bytes) (tag : UInt8) (varint : Bytes) :
    (Outcome.slice (before ++ tag :: (varint ++ (payload ++ rest)))
        (before.length + 1 + varint.length) (before.length + 1 + varint.length + payload.length) :
        Outcome Error Bytes) = .ok payload := by
  have ahead : before ++ tag :: (varint ++ (payload ++ rest)) =
      (before ++ tag :: varint) ++ (payload ++ rest) := by simp
  have length : before.length + 1 + varint.length = (before ++ tag :: varint).length := by
    simp only [List.length_append, List.length_cons]
    omega
  rw [slice_of_le (Nat.le_add_right _ _), Nat.add_sub_cancel_left, ahead, length, List.drop_left,
    List.take_left]
  simp only [List.length_append, List.length_cons]
  omega

/-- One turn over a field that was written. -/
theorem decodeTurn_written {before payload rest : Bytes} {tag : UInt8} {walk : Walk}
    (here : walk.pos = before.length) (delimitedTag : tag &&& 7 = 2)
    (fits : (before ++ tag :: (encodeVarint (UInt64.ofNat payload.length) ++
      (payload ++ rest))).length < 2 ^ 63) :
    decodeTurn (before ++ tag :: (encodeVarint (UInt64.ofNat payload.length) ++ (payload ++ rest)))
        walk =
      .again ⟨before.length + 1 + (encodeVarint (UInt64.ofNat payload.length)).length +
          payload.length,
        if tag >>> 3 = 1 then Text.fromUtf8Lossy payload else walk.name,
        if tag >>> 3 = 1 then walk.data else if tag >>> 3 = 2 then payload else walk.data⟩ := by
  have tagHere : (before ++ tag :: (encodeVarint (UInt64.ofNat payload.length) ++
      (payload ++ rest)))[walk.pos]? = some tag := by
    rw [here, List.getElem?_append_right (Nat.le_refl _), Nat.sub_self]
    rfl
  have short : ¬ (before ++ tag :: (encodeVarint (UInt64.ofNat payload.length) ++
      (payload ++ rest))).length < before.length + 1 +
        (encodeVarint (UInt64.ofNat payload.length)).length + payload.length := by
    simp only [List.length_append, List.length_cons]
    omega
  unfold decodeTurn
  rw [tagHere, here]
  simp only [ne_eq, delimitedTag, not_true_eq_false, if_false, delimited_written tag fits, short,
    slice_written]
  split
  · rfl
  · split
    · rfl
    · rfl

/-- **Decoding undoes encoding**, for a buffer a program can hold. -/
theorem decode_encode {name : String} {data : Bytes} (fits : (encode name data).length < 2 ^ 63) :
    Loop.Returns (decodeTurn (encode name data)) Walk.start (.ok (name, data)) := by
  let nameLength := encodeVarint (UInt64.ofNat (Text.utf8 name).length)
  let dataLength := encodeVarint (UInt64.ofNat data.length)
  have asName : encode name data =
      [] ++ 0x0a :: (nameLength ++ (Text.utf8 name ++ 0x12 :: (dataLength ++ data))) := rfl
  have asData : encode name data =
      (0x0a :: (nameLength ++ Text.utf8 name)) ++ 0x12 :: (dataLength ++ (data ++ [])) := by
    simp [encode, nameLength, dataLength]
  have first : decodeTurn (encode name data) Walk.start =
      .again ⟨(0x0a :: (nameLength ++ Text.utf8 name)).length, name, []⟩ := by
    rw [asName] at fits ⊢
    rw [decodeTurn_written rfl (by decide) fits]
    have number : (0x0a : UInt8) >>> 3 = 1 := by decide
    simp only [number, if_true, Text.fromUtf8Lossy_utf8, Walk.start, List.length_cons,
      List.length_append, List.length_nil, nameLength]
    congr 2
    omega
  have second : decodeTurn (encode name data)
      ⟨(0x0a :: (nameLength ++ Text.utf8 name)).length, name, []⟩ =
      .again ⟨(encode name data).length, name, data⟩ := by
    have length := congrArg List.length asData
    rw [asData] at fits
    rw [length, asData, decodeTurn_written rfl (by decide) fits]
    have number : (0x12 : UInt8) >>> 3 = 2 := by decide
    have other : ¬ (2 : UInt8) = 1 := by decide
    simp only [number, other, if_false, if_true, List.length_append, List.length_cons,
      List.length_nil, dataLength]
    congr 2
    omega
  have third : decodeTurn (encode name data) ⟨(encode name data).length, name, data⟩ =
      .stop (.ok (name, data)) := by
    simp [decodeTurn]
  exact ((Loop.returns_of_stop third).again second).again first

/-! ## The three parsers -/

/-- What the parsers owe for one byte string, and the decoder for one message. -/
structure ParsersSound (buf : Bytes) (target : UInt32) (name : String) (data : Bytes) : Prop where
  decode : Loop.Sound (decodeTurn buf) (fun walk => delimitedAt buf walk.pos) Walk.start
  errorCode : (extractErrorCode buf).Returns
  stringField : Loop.Sound (stringTurn buf target) (stringJump buf) 0
  roundTrip : Loop.Returns (decodeTurn (encode name data)) Walk.start (.ok (name, data))

/-- **The parsers of the gateway's bytes** stop, panic nowhere and never go back
exactly when no length-delimited field that either walk reaches wraps. -/
theorem gateway_parsers_iff (buf : Bytes) (target : UInt32) (name : String) (data : Bytes)
    (fits : (encode name data).length < 2 ^ 63) :
    ParsersSound buf target name data ↔
      (∀ pos, Loop.Walked (decodeNext buf) 0 pos → ¬ wrapsAt buf pos) ∧
        ∀ pos, Loop.Walked (stringNext buf target) 0 pos → ¬ stringWrapsAt buf pos := by
  rw [← decode_sound_iff, ← string_sound_iff]
  constructor
  · intro sound
    exact ⟨sound.decode, sound.stringField⟩
  · rintro ⟨decode, stringField⟩
    exact ⟨decode, extractErrorCode_returns buf, stringField, decode_encode fits⟩

/-- A heartbeat's empty answer is parsed. -/
theorem gateway_parsers_heartbeat :
    ParsersSound [] 2 ".lq.Route.heartbeat" [] := by
  have ends : ∀ next : Nat → Option Nat, next 0 = none → ∀ pos, Loop.Walked next 0 pos → pos = 0 := by
    intro next none_ pos walked
    rcases Relation.ReflTransGen.cases_head walked with rfl | ⟨stop, went, -⟩
    · rfl
    · rw [none_] at went
      cases went
  refine (gateway_parsers_iff [] 2 ".lq.Route.heartbeat" [] (by decide +kernel)).mpr ⟨?_, ?_⟩
  · intro pos walked
    rw [ends _ rfl pos walked]
    rintro ⟨start, stop, found, -⟩
    cases found
  · intro pos walked
    rw [ends _ rfl pos walked]
    rintro ⟨start, stop, found, -⟩
    cases found

/-- A name of almost `2 ^ 64` bytes: eleven bytes that make the decoder panic. -/
def hugeName : Bytes := [0x0a, 0xff, 0xff, 0xff, 0xff, 0xff, 0xff, 0xff, 0xff, 0xff, 0x01]

/-- A third field that ends where it began: eleven bytes the decoder and the search
never get past. -/
def endlessField : Bytes := [0x1a, 0xf5, 0xff, 0xff, 0xff, 0xff, 0xff, 0xff, 0xff, 0xff, 0x01]

theorem gateway_parsers_fail :
    decodeTurn hugeName Walk.start = .panic ∧
      (∀ result, ¬ Loop.Returns (decodeTurn hugeName) Walk.start result) ∧
      (∀ result, ¬ Loop.Returns (decodeTurn endlessField) Walk.start result) ∧
      (∀ result, ¬ Loop.Returns (stringTurn endlessField 2) 0 result) ∧
      stringTurn hugeName 1 0 = .panic := by
  have panics : decodeTurn hugeName Walk.start = .panic := by decide +kernel
  have loops : decodeTurn endlessField Walk.start = .again Walk.start := by decide +kernel
  have searches : stringTurn endlessField 2 0 = .again 0 := by decide +kernel
  refine ⟨panics, Loop.not_returns_of_panic panics, Loop.not_returns_of_again_self loops,
    Loop.not_returns_of_again_self searches, by decide +kernel⟩

end MajsoulManager.Majsoul.Gateway
