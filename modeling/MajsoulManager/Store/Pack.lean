/-
# Store.Pack — the pack file: framed, compressed, append-only

`pack.rs`.  A pack is a magic header followed by entries; an entry is a 24 byte
header and one zstd frame.  `PackWriter.append` is the writing half, `readFrame`
the reading half, and `append_spec` connects them: a frame that was written reads
back as the bytes it was written from, in this pack and in every pack that
extends it.  `scanPack` rebuilds the locations from the headers alone.

zstd itself is third-party; `Zstd` is what the pack format relies on of it.
-/
import MajsoulManager.Record.ReplayHazard

namespace MajsoulManager.Store

open MajsoulManager.Theory

set_option autoImplicit false

abbrev Bytes := List UInt8

/-- A record id, as the 128 bits `as_u128` reads. -/
abbrev Uuid := BitVec 128

instance : LawfulBEq Uuid := inferInstance

def Uuid.bytes (id : Uuid) : Bytes :=
  (List.range 16).map fun i => UInt8.ofNat (id.toNat / 256 ^ (15 - i))

def beBytes (n : UInt32) : Bytes :=
  (List.range 4).map fun i => UInt8.ofNat (n.toNat / 256 ^ (3 - i))

/-- The bulk compressor.  Decompressing takes the capacity of the output. -/
structure Zstd where
  compress : Bytes → Option Bytes
  decompress : Bytes → Nat → Option Bytes
  decompress_compress : ∀ raw frame, compress raw = some frame →
    decompress frame raw.length = some raw

inductive Codec where
  | zstd
  deriving DecidableEq, Repr

structure PackLocation where
  packKey : String
  offset : Nat
  compressedSize : UInt32
  rawSize : UInt32
  codec : Codec
  deriving DecidableEq, Repr

inductive PackError where
  | io
  | tooLarge
  | corrupt
  deriving DecidableEq, Repr

/-- `MJPACK01`. -/
def magic : Bytes := [0x4d, 0x4a, 0x50, 0x41, 0x43, 0x4b, 0x30, 0x31]

def entryHeaderLen : Nat := 24

/-- The writing half of a pack: its object key, the file so far, and the size the
writer accounts for. -/
structure PackWriter where
  key : String
  file : Bytes
  size : Nat
  firstAppend : Option Nat
  deriving DecidableEq, Repr

def PackWriter.create (key : String) : PackWriter where
  key := key
  file := magic
  size := magic.length
  firstAppend := none

def entryHeader (id : Uuid) (rawSize compressedSize : UInt32) : Bytes :=
  id.bytes ++ beBytes rawSize ++ beBytes compressedSize

@[simp] theorem entryHeader_length (id : Uuid) (rawSize compressedSize : UInt32) :
    (entryHeader id rawSize compressedSize).length = entryHeaderLen := by
  simp [entryHeader, Uuid.bytes, beBytes, entryHeaderLen]

section Writing

variable (zstd : Zstd)

/-- One entry.  `disk` says whether the file takes the entry that starts at a
position: a write that fails part-way is a failed append like any other, for the
writer is not used again. -/
def PackWriter.append (disk : Nat → Bool) (now : Nat) (writer : PackWriter) (id : Uuid)
    (raw : Bytes) : Outcome PackError (PackWriter × PackLocation) :=
  if raw.length < 2 ^ 32 then
    match zstd.compress raw with
    | none => .err .io
    | some frame =>
        if frame.length < 2 ^ 32 then
          if disk writer.size then
            let rawSize := UInt32.ofNat raw.length
            let compressedSize := UInt32.ofNat frame.length
            let offset := writer.size + entryHeaderLen
            .ok ({ writer with
                    file := writer.file ++ (entryHeader id rawSize compressedSize ++ frame)
                    size := offset + frame.length
                    firstAppend := writer.firstAppend.or (some now) },
                  { packKey := writer.key, offset, compressedSize, rawSize, codec := .zstd })
          else .err .io
        else .err .tooLarge
  else .err .tooLarge

/-! ## Reading -/

/-- The frame has to be exactly as long as the index recorded, and so have the
bytes it decompresses to. -/
def decompress (compressed : Bytes) (location : PackLocation) : Option Bytes :=
  if compressed.length = location.compressedSize.toNat then
    (zstd.decompress compressed location.rawSize.toNat).filter fun raw =>
      raw.length == location.rawSize.toNat
  else none

/-- A ranged read of a pack: refused unless the whole range is there. -/
def readFrame (object : Bytes) (location : PackLocation) : Option Bytes :=
  if location.offset + location.compressedSize.toNat ≤ object.length then
    decompress zstd ((object.drop location.offset).take location.compressedSize.toNat) location
  else none

end Writing

variable {zstd : Zstd}

/-- A pack that grows keeps every frame it had. -/
theorem readFrame_append {object more raw : Bytes} {location : PackLocation}
    (read : readFrame zstd object location = some raw) :
    readFrame zstd (object ++ more) location = some raw := by
  unfold readFrame at read ⊢
  split at read
  · rename_i inside
    rw [if_pos (by rw [List.length_append]; omega)]
    have same : ((object ++ more).drop location.offset).take location.compressedSize.toNat =
        (object.drop location.offset).take location.compressedSize.toNat := by
      rw [List.drop_append_of_le_length (by omega),
        List.take_append_of_le_length (by rw [List.length_drop]; omega)]
    rw [same, read]
  · cases read

theorem PackWriter.append_eq_ok {disk : Nat → Bool} {now : Nat} {writer next : PackWriter}
    {id : Uuid} {raw : Bytes} {location : PackLocation}
    (appended : writer.append zstd disk now id raw = .ok (next, location)) :
    ∃ frame, raw.length < 2 ^ 32 ∧ zstd.compress raw = some frame ∧ frame.length < 2 ^ 32 ∧
      disk writer.size = true ∧
      next = { writer with
        file := writer.file ++ (entryHeader id (.ofNat raw.length) (.ofNat frame.length) ++ frame)
        size := writer.size + entryHeaderLen + frame.length
        firstAppend := writer.firstAppend.or (some now) } ∧
      location = ⟨writer.key, writer.size + entryHeaderLen, .ofNat frame.length,
        .ofNat raw.length, .zstd⟩ := by
  unfold PackWriter.append at appended
  split at appended
  · rename_i rawFits
    split at appended
    · cases appended
    · rename_i frame compressed
      split at appended
      · rename_i frameFits
        split at appended
        · rename_i written
          simp only [Outcome.ok.injEq, Prod.mk.injEq] at appended
          exact ⟨frame, rawFits, compressed, frameFits, written, appended.1.symm,
            appended.2.symm⟩
        · cases appended
      · cases appended
  · cases appended

/-- The writer's size is the size of its file. -/
def PackWriter.Whole (writer : PackWriter) : Prop := writer.size = writer.file.length

theorem PackWriter.create_whole (key : String) : (PackWriter.create key).Whole := rfl

/-- **An entry reads back.**  Appending keeps the pack whole and what it had, and
the location it returns reads back as the bytes appended. -/
theorem PackWriter.append_spec {disk : Nat → Bool} {now : Nat} {writer next : PackWriter}
    {id : Uuid} {raw : Bytes} {location : PackLocation} (whole : writer.Whole)
    (appended : writer.append zstd disk now id raw = .ok (next, location)) :
    next.Whole ∧ next.key = writer.key ∧ writer.file <+: next.file ∧
      location.packKey = writer.key ∧ readFrame zstd next.file location = some raw := by
  obtain ⟨frame, rawFits, compressed, frameFits, -, rfl, rfl⟩ := append_eq_ok appended
  have rawSize : (UInt32.ofNat raw.length).toNat = raw.length := by
    simpa using Nat.mod_eq_of_lt rawFits
  have frameSize : (UInt32.ofNat frame.length).toNat = frame.length := by
    simpa using Nat.mod_eq_of_lt frameFits
  have start : writer.size + entryHeaderLen =
      (writer.file ++ entryHeader id (.ofNat raw.length) (.ofNat frame.length)).length := by
    rw [List.length_append, entryHeader_length, whole]
  refine ⟨?_, rfl, List.prefix_append _ _, rfl, ?_⟩
  · simp only [Whole, List.length_append, entryHeader_length] at whole ⊢
    omega
  · simp only [readFrame, frameSize, start, ← List.append_assoc, List.length_append, decompress,
      rawSize]
    simp [zstd.decompress_compress raw frame compressed]

/-! ## Scanning -/

def fromBeBytes (bytes : Bytes) : Nat := bytes.foldl (fun n b => 256 * n + b.toNat) 0

/-- What a scan finds of one pack file. -/
structure PackFile where
  key : String
  modified : DateTime
  entries : List (Uuid × PackLocation)

/-- The entries from a position on.  It stops at a tail that is short, or that was
never written: the nil id, or an empty frame. -/
def scanEntries (key : String) (file : Bytes) : Nat → Nat → List (Uuid × PackLocation)
  | 0, _ => []
  | fuel + 1, position =>
      if position + entryHeaderLen ≤ file.length then
        let header := (file.drop position).take entryHeaderLen
        let id : Uuid := .ofNat 128 (fromBeBytes (header.take 16))
        let rawSize := UInt32.ofNat (fromBeBytes ((header.drop 16).take 4))
        let compressedSize := UInt32.ofNat (fromBeBytes ((header.drop 20).take 4))
        let offset := position + entryHeaderLen
        if id = 0 ∨ compressedSize = 0 then []
        else if file.length < offset + compressedSize.toNat then []
        else (id, ⟨key, offset, compressedSize, rawSize, .zstd⟩) ::
          scanEntries key file fuel (offset + compressedSize.toNat)
      else []

/-- Every entry is longer than a byte, so the file's length is fuel enough. -/
def scanPack (key : String) (modified : DateTime) (file : Bytes) : Except PackError PackFile :=
  if file.length < magic.length then .error .io
  else if file.take magic.length ≠ magic then .error .corrupt
  else .ok ⟨key, modified, scanEntries key file file.length magic.length⟩

theorem scanEntries_packKey {key : String} {file : Bytes} {fuel position : Nat}
    {entry : Uuid × PackLocation} (found : entry ∈ scanEntries key file fuel position) :
    entry.2.packKey = key := by
  induction fuel generalizing position with
  | zero => simp [scanEntries] at found
  | succ fuel ih =>
      simp only [scanEntries] at found
      split at found
      · split at found
        · cases found
        · split at found
          · cases found
          · rcases List.mem_cons.mp found with rfl | later
            · rfl
            · exact ih later
      · cases found

/-- A scan's locations name the pack it scanned. -/
theorem scanPack_packKey {key : String} {modified : DateTime} {file : Bytes} {pack : PackFile}
    (scanned : scanPack key modified file = .ok pack) :
    pack.key = key ∧ ∀ entry ∈ pack.entries, entry.2.packKey = key := by
  unfold scanPack at scanned
  split at scanned
  · cases scanned
  · split at scanned <;> cases scanned
    exact ⟨rfl, fun entry found => scanEntries_packKey found⟩

end MajsoulManager.Store
