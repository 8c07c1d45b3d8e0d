/-
# Store.Reference — reference implementations of the third-party code

`UuidText`, `Rfc3339` and `Zstd` state what the pipeline relies on.  Here each is
implemented, so that none of those assumptions is empty and a counterexample can
be computed: the hyphenated uuid text, the RFC 3339 text in UTC, a zstd encoder
that writes every frame as one raw block, and SHA-256.
-/
import MajsoulManager.Store.Catalog

namespace MajsoulManager.Store

open MajsoulManager.Theory

set_option autoImplicit false

/-! ## Uuids -/

/-- The lowest `count` hexadecimal digits, most significant first. -/
def nibbles : Nat → Nat → List Nat
  | 0, _ => []
  | count + 1, n => nibbles count (n / 16) ++ [n % 16]

def hexValue (c : Char) : Option Nat :=
  if '0' ≤ c ∧ c ≤ '9' then some (c.toNat - 48)
  else if 'a' ≤ c ∧ c ≤ 'f' then some (c.toNat - 87)
  else none

def readHex (digits : List Char) : Option Nat :=
  (digits.mapM hexValue).map fun values => values.foldl (fun acc d => acc * 16 + d) 0

def hyphenate (digits : List Char) : List Char :=
  digits.take 8 ++ '-' :: (digits.drop 8).take 4 ++ '-' :: (digits.drop 12).take 4 ++
    '-' :: (digits.drop 16).take 4 ++ '-' :: digits.drop 20

def uuidToText (id : Uuid) : String :=
  String.ofList (hyphenate ((nibbles 32 id.toNat).map hexDigit))

def uuidParse (text : String) : Option Uuid :=
  (readHex (text.toList.filter (· != '-'))).map (BitVec.ofNat 128)

theorem hexValue_hexDigit {n : Nat} (small : n < 16) : hexValue (hexDigit n) = some n := by
  have all : ∀ n : Fin 16, hexValue (hexDigit n) = some n.val := by decide
  exact all ⟨n, small⟩

theorem hexDigit_ne_hyphen {n : Nat} (small : n < 16) : hexDigit n ≠ '-' := by
  have all : ∀ n : Fin 16, hexDigit n ≠ '-' := by decide
  exact all ⟨n, small⟩

theorem nibbles_lt {count n d : Nat} (member : d ∈ nibbles count n) : d < 16 := by
  induction count generalizing n with
  | zero => simp [nibbles] at member
  | succ count ih =>
      simp only [nibbles, List.mem_append, List.mem_singleton] at member
      rcases member with earlier | rfl
      · exact ih earlier
      · exact Nat.mod_lt _ (by norm_num)

theorem nibbles_fold (count n : Nat) :
    (nibbles count n).foldl (fun acc d => acc * 16 + d) 0 = n % 16 ^ count := by
  induction count generalizing n with
  | zero => simp [nibbles, Nat.mod_one]
  | succ count ih =>
      rw [nibbles, List.foldl_append, ih, List.foldl_cons, List.foldl_nil, Nat.pow_succ,
        Nat.mul_comm (16 ^ count), Nat.mod_mul]
      omega

theorem readHex_digits {values : List Nat} (small : ∀ d ∈ values, d < 16) :
    readHex (values.map hexDigit) = some (values.foldl (fun acc d => acc * 16 + d) 0) := by
  have read : (values.map hexDigit).mapM hexValue = some values := by
    induction values with
    | nil => rfl
    | cons d rest ih =>
        simp [List.mapM_cons, hexValue_hexDigit (small d (by simp)),
          ih fun e member => small e (by simp [member])]
  simp [readHex, read]

theorem filter_hyphenate {digits : List Char} (plain : ∀ c ∈ digits, c ≠ '-') :
    (hyphenate digits).filter (· != '-') = digits := by
  have kept : ∀ part : List Char, (∀ c ∈ part, c ∈ digits) →
      part.filter (· != '-') = part := by
    intro part inside
    rw [List.filter_eq_self]
    intro c member
    simpa using plain c (inside c member)
  have first : ∀ n m, ∀ c ∈ (digits.drop n).take m, c ∈ digits := fun n m c member =>
    List.mem_of_mem_drop (List.mem_of_mem_take member)
  have join : ∀ n m, (digits.drop n).take m ++ digits.drop (n + m) = digits.drop n := by
    intro n m
    rw [← List.drop_drop, List.take_append_drop]
  simp only [hyphenate, List.filter_append, List.filter_cons, List.append_assoc, List.cons_append,
    bne_self_eq_false, Bool.false_eq_true, if_false]
  rw [kept _ fun c => List.mem_of_mem_take, kept _ (first 8 4), kept _ (first 12 4),
    kept _ (first 16 4), kept _ fun c => List.mem_of_mem_drop, join 16 4, join 12 4, join 8 4,
    List.take_append_drop]

/-- The hyphenated text of a uuid. -/
def uuidText : UuidText where
  toText := uuidToText
  parseStr := uuidParse
  parseStr_toText := by
    intro id
    have plain : ∀ c ∈ (nibbles 32 id.toNat).map hexDigit, c ≠ '-' := by
      intro c member
      obtain ⟨d, inside, rfl⟩ := List.mem_map.mp member
      exact hexDigit_ne_hyphen (nibbles_lt inside)
    simp only [uuidParse, uuidToText, String.toList_ofList, filter_hyphenate plain,
      readHex_digits fun d => nibbles_lt, nibbles_fold, Option.map_some]
    rw [Nat.mod_eq_of_lt (by simpa using id.isLt), BitVec.ofNat_toNat, BitVec.setWidth_eq]

/-! ## Instants -/

def digitValue (c : Char) : Option Nat :=
  if '0' ≤ c ∧ c ≤ '9' then some (c.toNat - 48) else none

theorem digitValue_digit (n : Nat) : digitValue (digit n) = some (n % 10) := by
  have all : ∀ n : Fin 10, digitValue (Char.ofNat (48 + n)) = some n.val := by decide
  exact all ⟨n % 10, Nat.mod_lt _ (by norm_num)⟩

/-- A number written with as many digits as there are characters. -/
def readDigits (digits : List Char) : Option Nat :=
  (digits.mapM digitValue).map fun values => values.foldl (fun acc d => acc * 10 + d) 0

theorem readDigits_pad2 {n : Nat} (small : n < 100) : readDigits (pad2 n) = some n := by
  simp [readDigits, pad2, digitValue_digit, List.mapM_cons]
  omega

theorem readDigits_pad4 {n : Nat} (small : n < 10000) : readDigits (pad4 n) = some n := by
  simp [readDigits, pad4, digitValue_digit, List.mapM_cons]
  omega

/-- As many groups of three digits as the fraction needs. -/
def fractionText (nanos : Nat) : List Char :=
  if nanos = 0 then []
  else if nanos % 1000000 = 0 then '.' :: pad3 (nanos / 1000000)
  else if nanos % 1000 = 0 then '.' :: (pad3 (nanos / 1000000) ++ pad3 (nanos / 1000 % 1000))
  else '.' :: (pad3 (nanos / 1000000) ++ pad3 (nanos / 1000 % 1000) ++ pad3 (nanos % 1000))

def utcOffset : List Char := ['+', '0', '0', ':', '0', '0']

/-- The fraction is told from its length, the six characters of the offset
included. -/
def readFraction (rest : List Char) : Option Nat :=
  if rest.length = 6 then some 0
  else if rest.length = 10 then (readDigits ((rest.drop 1).take 3)).map (· * 1000000)
  else if rest.length = 13 then (readDigits ((rest.drop 1).take 6)).map (· * 1000)
  else if rest.length = 16 then readDigits ((rest.drop 1).take 9)
  else none

def dateText (t : DateTime) : List Char :=
  let date := civilOfSeconds t.secs
  yearText date.year ++ '-' :: pad2 date.month.toNat ++ '-' :: pad2 date.day.toNat

def timeText (t : DateTime) : List Char :=
  let second := (t.secs % 86400).toNat
  pad2 (second / 3600) ++ ':' :: pad2 (second / 60 % 60) ++
    ':' :: pad2 (second % 60 + t.nanos / 1000000000)

def rfc3339ToText (t : DateTime) : String :=
  String.ofList (dateText t ++ 'T' :: timeText t ++ fractionText (t.nanos % 1000000000) ++ utcOffset)

/-- Second sixty is the leap second after second fifty-nine. -/
def instantOf (year month day hour minute second nanos : Nat) : Option DateTime :=
  let days := daysFromCivil ⟨year, month, day⟩
  if second = 60 then
    DateTime.fromTimestamp (days * 86400 + (hour * 3600 + minute * 60 + 59 : Nat))
      (nanos + 1000000000)
  else DateTime.fromTimestamp (days * 86400 + (hour * 3600 + minute * 60 + second : Nat)) nanos

def readRfc3339 : List Char → Option DateTime
  | y₁ :: y₂ :: y₃ :: y₄ :: '-' :: m₁ :: m₂ :: '-' :: d₁ :: d₂ :: 'T' :: h₁ :: h₂ :: ':' ::
      n₁ :: n₂ :: ':' :: s₁ :: s₂ :: rest => do
      let year ← readDigits [y₁, y₂, y₃, y₄]
      let month ← readDigits [m₁, m₂]
      let day ← readDigits [d₁, d₂]
      let hour ← readDigits [h₁, h₂]
      let minute ← readDigits [n₁, n₂]
      let second ← readDigits [s₁, s₂]
      let nanos ← readFraction rest
      instantOf year month day hour minute second nanos
  | _ => none

theorem readFraction_fractionText {n : Nat} (small : n < 1000000000) :
    readFraction (fractionText n ++ utcOffset) = some n := by
  unfold fractionText
  split
  · simp_all [readFraction, utcOffset]
  split
  · simp [readFraction, utcOffset, pad3, readDigits, digitValue_digit, List.mapM_cons]
    omega
  split
  · simp [readFraction, utcOffset, pad3, readDigits, digitValue_digit, List.mapM_cons]
    omega
  · simp [readFraction, utcOffset, pad3, readDigits, digitValue_digit, List.mapM_cons]
    omega

theorem fromTimestamp_self (t : DateTime) : DateTime.fromTimestamp t.secs t.nanos = some t := by
  unfold DateTime.fromTimestamp
  rw [dif_pos ⟨t.nanos_lt, t.leap_second, t.year_ge, t.year_le⟩]

/-- The fields of an instant's text lead back to it. -/
theorem instantOf_fields (t : DateTime) (low : 0 ≤ t.year) :
    instantOf t.year.toNat (civilOfSeconds t.secs).month.toNat (civilOfSeconds t.secs).day.toNat
      ((t.secs % 86400).toNat / 3600) ((t.secs % 86400).toNat / 60 % 60)
      ((t.secs % 86400).toNat % 60 + t.nanos / 1000000000) (t.nanos % 1000000000) = some t := by
  obtain ⟨monthLow, -, dayLow, -⟩ := civilFromDays_bounds (t.secs / 86400)
  have days : daysFromCivil ⟨t.year.toNat, (civilOfSeconds t.secs).month.toNat,
      (civilOfSeconds t.secs).day.toNat⟩ = t.secs / 86400 := by
    have fields : (⟨t.year.toNat, (civilOfSeconds t.secs).month.toNat,
        (civilOfSeconds t.secs).day.toNat⟩ : CivilDate) = civilFromDays (t.secs / 86400) := by
      simp only [DateTime.year, civilOfSeconds] at low ⊢
      rw [Int.toNat_of_nonneg low, Int.toNat_of_nonneg (by omega), Int.toNat_of_nonneg (by omega)]
    rw [fields, daysFromCivil_civilFromDays]
  have nanosLt := t.nanos_lt
  have leap := t.leap_second
  unfold instantOf
  simp only [days]
  split
  · -- second sixty is only printed inside a leap second
    have whole : t.secs / 86400 * 86400 + ((t.secs % 86400).toNat / 3600 * 3600 +
        (t.secs % 86400).toNat / 60 % 60 * 60 + 59 : Nat) = t.secs := by omega
    have nanos : t.nanos % 1000000000 + 1000000000 = t.nanos := by omega
    rw [whole, nanos, fromTimestamp_self]
  · have whole : t.secs / 86400 * 86400 + ((t.secs % 86400).toNat / 3600 * 3600 +
        (t.secs % 86400).toNat / 60 % 60 * 60 +
        ((t.secs % 86400).toNat % 60 + t.nanos / 1000000000) : Nat) = t.secs := by omega
    have nanos : t.nanos % 1000000000 = t.nanos := by omega
    rw [whole, nanos, fromTimestamp_self]

theorem readRfc3339_signed {sign : Char} (notDigit : digitValue sign = none) (rest : List Char) :
    readRfc3339 (sign :: rest) = none := by
  unfold readRfc3339
  split
  · rename_i same
    simp only [List.cons.injEq] at same
    obtain ⟨rfl, -⟩ := same
    simp [readDigits, List.mapM_cons, notDigit]
  · rfl

/-- The RFC 3339 text of an instant. -/
def rfc3339 : Rfc3339 where
  toText := rfc3339ToText
  parse := fun text => readRfc3339 text.toList
  parse_toText := by
    intro t low high
    obtain ⟨monthLow, monthHigh, dayLow, dayHigh⟩ := civilFromDays_bounds (t.secs / 86400)
    have plain : yearText (civilOfSeconds t.secs).year = pad4 t.year.toNat :=
      if_pos ⟨low, high⟩
    have year := readDigits_pad4 (n := t.year.toNat) (by omega)
    have month := readDigits_pad2 (n := (civilOfSeconds t.secs).month.toNat)
      (by unfold civilOfSeconds; omega)
    have day := readDigits_pad2 (n := (civilOfSeconds t.secs).day.toNat)
      (by unfold civilOfSeconds; omega)
    have hour := readDigits_pad2 (n := (t.secs % 86400).toNat / 3600) (by omega)
    have minute := readDigits_pad2 (n := (t.secs % 86400).toNat / 60 % 60) (by omega)
    have nanosLt := t.nanos_lt
    have second := readDigits_pad2 (n := (t.secs % 86400).toNat % 60 + t.nanos / 1000000000)
      (by omega)
    have fraction := readFraction_fractionText (n := t.nanos % 1000000000) (by omega)
    simp only [pad2, pad4] at year month day hour minute second
    simp only [rfc3339ToText, String.toList_ofList, dateText, timeText, plain, pad2, pad4,
      List.cons_append, List.nil_append, readRfc3339, year, month, day, hour,
      minute, second, fraction, Option.bind_eq_bind, Option.bind_some]
    exact instantOf_fields t low
  parse_signed := by
    intro t signed
    have text : ∃ sign rest, digitValue sign = none ∧ (rfc3339ToText t).toList = sign :: rest := by
      unfold DateTime.year at signed
      refine ⟨if (civilOfSeconds t.secs).year < 0 then '-' else '+', ?_⟩
      simp only [rfc3339ToText, dateText, yearText, String.toList_ofList]
      rw [if_neg signed]
      refine ⟨_, ?_, rfl⟩
      split <;> decide
    obtain ⟨sign, rest, notDigit, text⟩ := text
    rw [text]
    exact readRfc3339_signed notDigit rest

/-! ## Frames -/

/-- The header of a frame of one raw block: the magic number, a single segment
with a four byte content size, and the size of its only block. -/
def rawBlockHeader (size : Nat) : Bytes :=
  [0x28, 0xb5, 0x2f, 0xfd, 0xa0, UInt8.ofNat size, UInt8.ofNat (size / 256),
    UInt8.ofNat (size / 65536), 0, UInt8.ofNat (size * 8 + 1), UInt8.ofNat (size * 8 / 256),
    UInt8.ofNat (size * 8 / 65536)]

/-- An encoder that never compresses: one raw block, of at most 128 KiB. -/
def rawBlocks : Zstd where
  compress := fun raw =>
    if raw.length ≤ 131072 then some (rawBlockHeader raw.length ++ raw) else none
  decompress := fun frame capacity =>
    if (frame.drop 12).length ≤ capacity then some (frame.drop 12) else none
  decompress_compress := by
    intro raw frame compressed
    split at compressed
    · cases compressed
      simp [rawBlockHeader]
    · cases compressed

/-! ## Digests -/

namespace Sha256

def roundConstants : List Nat :=
  [0x428a2f98, 0x71374491, 0xb5c0fbcf, 0xe9b5dba5, 0x3956c25b, 0x59f111f1, 0x923f82a4, 0xab1c5ed5,
   0xd807aa98, 0x12835b01, 0x243185be, 0x550c7dc3, 0x72be5d74, 0x80deb1fe, 0x9bdc06a7, 0xc19bf174,
   0xe49b69c1, 0xefbe4786, 0x0fc19dc6, 0x240ca1cc, 0x2de92c6f, 0x4a7484aa, 0x5cb0a9dc, 0x76f988da,
   0x983e5152, 0xa831c66d, 0xb00327c8, 0xbf597fc7, 0xc6e00bf3, 0xd5a79147, 0x06ca6351, 0x14292967,
   0x27b70a85, 0x2e1b2138, 0x4d2c6dfc, 0x53380d13, 0x650a7354, 0x766a0abb, 0x81c2c92e, 0x92722c85,
   0xa2bfe8a1, 0xa81a664b, 0xc24b8b70, 0xc76c51a3, 0xd192e819, 0xd6990624, 0xf40e3585, 0x106aa070,
   0x19a4c116, 0x1e376c08, 0x2748774c, 0x34b0bcb5, 0x391c0cb3, 0x4ed8aa4a, 0x5b9cca4f, 0x682e6ff3,
   0x748f82ee, 0x78a5636f, 0x84c87814, 0x8cc70208, 0x90befffa, 0xa4506ceb, 0xbef9a3f7, 0xc67178f2]

def initialHash : List Nat :=
  [0x6a09e667, 0xbb67ae85, 0x3c6ef372, 0xa54ff53a, 0x510e527f, 0x9b05688c, 0x1f83d9ab, 0x5be0cd19]

def rotateRight (x n : Nat) : Nat := x >>> n ||| (x <<< (32 - n)) % 2 ^ 32

/-- One word of the schedule from the sixteen before it, newest first. -/
def nextWord (words : List Nat) : Nat :=
  let w2 := words.getD 1 0
  let w15 := words.getD 14 0
  let s0 := rotateRight w15 7 ^^^ rotateRight w15 18 ^^^ w15 >>> 3
  let s1 := rotateRight w2 17 ^^^ rotateRight w2 19 ^^^ w2 >>> 10
  (words.getD 15 0 + s0 + words.getD 6 0 + s1) % 2 ^ 32

def extend : Nat → List Nat → List Nat
  | 0, words => words
  | n + 1, words => extend n (nextWord words :: words)

def round : List Nat → Nat × Nat → List Nat
  | [a, b, c, d, e, f, g, h], (k, w) =>
      let s1 := rotateRight e 6 ^^^ rotateRight e 11 ^^^ rotateRight e 25
      let ch := (e &&& f) ^^^ ((2 ^ 32 - 1 - e) &&& g)
      let t1 := (h + s1 + ch + k + w) % 2 ^ 32
      let s0 := rotateRight a 2 ^^^ rotateRight a 13 ^^^ rotateRight a 22
      let maj := (a &&& b) ^^^ (a &&& c) ^^^ (b &&& c)
      [(t1 + s0 + maj) % 2 ^ 32, a, b, c, (d + t1) % 2 ^ 32, e, f, g]
  | state, _ => state

def bigEndian (bytes : List Nat) : Nat := bytes.foldl (fun n b => 256 * n + b) 0

def wordsOf : Nat → List Nat → List Nat
  | 0, _ => []
  | n + 1, bytes => bigEndian (bytes.take 4) :: wordsOf n (bytes.drop 4)

def compressBlock (state : List Nat) (block : List Nat) : List Nat :=
  let schedule := (extend 48 (wordsOf 16 block).reverse).reverse
  (state.zip ((roundConstants.zip schedule).foldl round state)).map fun (x, y) => (x + y) % 2 ^ 32

def bytesOf (count n : Nat) : List Nat :=
  (List.range count).reverse.map fun i => n / 256 ^ i % 256

def padded (bytes : List Nat) : List Nat :=
  bytes ++ [0x80] ++ List.replicate ((119 - bytes.length % 64) % 64) 0 ++ bytesOf 8 (8 * bytes.length)

def blocks : Nat → List Nat → List Nat → List Nat
  | 0, state, _ => state
  | n + 1, state, bytes => blocks n (compressBlock state (bytes.take 64)) (bytes.drop 64)

def digest (bytes : Bytes) : Vector UInt8 32 :=
  let input := padded (bytes.map UInt8.toNat)
  let digest := (blocks (input.length / 64) initialHash input).flatMap (bytesOf 4)
  Vector.ofFn fun i => UInt8.ofNat (digest.getD i 0)

example : hexEncode (digest (utf8 "abc")).toList =
    "ba7816bf8f01cfea414140de5dae2223b00361a396177a9cb410ff61f20015ad" := by
  decide +kernel

end Sha256

/-- The reference implementations, around a JSON reader. -/
def reference (serde : Record.Serde) : Crates where
  serde := serde
  uuid := uuidText
  rfc3339 := rfc3339
  zstd := rawBlocks
  sha256 := Sha256.digest

end MajsoulManager.Store
