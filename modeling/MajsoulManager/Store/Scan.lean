/-
# Store.Scan — a scan finds what was appended

`scan_pack` rebuilds the locations of a pack from its entry headers alone.
`Appended` is a pack filled by any sequence of appends; `Appended.layout` says what
its file is, byte for byte, and everything else is read off that layout:

* `Appended.ascending`: the frames stand one after another, inside the file;
* `scan_recovers`: a scan of the file cut off anywhere after the magic header finds
  exactly the entries that are wholly there, and a scan of the file with a tail of
  zeroes finds every entry and no other.
-/
import MajsoulManager.Store.Reference

namespace MajsoulManager.Store

open MajsoulManager.Theory

set_option autoImplicit false

/-! ## Big-endian numbers -/

def beDigits (count n : Nat) : Bytes :=
  (List.range count).map fun i => UInt8.ofNat (n / 256 ^ (count - 1 - i))

theorem beDigits_succ (count n : Nat) :
    beDigits (count + 1) n = beDigits count (n / 256) ++ [UInt8.ofNat n] := by
  have earlier : ∀ i ∈ List.range count, UInt8.ofNat (n / 256 ^ (count + 1 - 1 - i)) =
      UInt8.ofNat (n / 256 / 256 ^ (count - 1 - i)) := by
    intro i member
    have inside := List.mem_range.mp member
    rw [Nat.div_div_eq_div_mul, ← Nat.pow_succ',
      show count + 1 - 1 - i = (count - 1 - i).succ by omega]
  simp only [beDigits, List.range_succ, List.map_append, List.map_cons, List.map_nil]
  rw [List.map_congr_left earlier]
  simp

theorem fromBeBytes_append (bytes : Bytes) (last : UInt8) :
    fromBeBytes (bytes ++ [last]) = 256 * fromBeBytes bytes + last.toNat := by
  simp [fromBeBytes]

theorem fromBeBytes_beDigits (count n : Nat) : fromBeBytes (beDigits count n) = n % 256 ^ count := by
  induction count generalizing n with
  | zero => simp [beDigits, fromBeBytes, Nat.mod_one]
  | succ count ih =>
      rw [beDigits_succ, fromBeBytes_append, ih, Nat.pow_succ, Nat.mul_comm (256 ^ count),
        Nat.mod_mul]
      have last : (UInt8.ofNat n).toNat = n % 256 := by simp
      omega

@[simp] theorem fromBeBytes_uuid (id : Uuid) : fromBeBytes id.bytes = id.toNat := by
  have digits : fromBeBytes id.bytes = id.toNat % 256 ^ 16 := fromBeBytes_beDigits 16 id.toNat
  rw [digits]
  exact Nat.mod_eq_of_lt id.isLt

@[simp] theorem fromBeBytes_beBytes (n : UInt32) : fromBeBytes (beBytes n) = n.toNat := by
  have digits : fromBeBytes (beBytes n) = n.toNat % 256 ^ 4 := fromBeBytes_beDigits 4 n.toNat
  rw [digits]
  exact Nat.mod_eq_of_lt n.toNat_lt

/-! ## The layout of a pack -/

/-- One entry of a pack: its id, the size of what it holds, and its frame. -/
structure Framed where
  id : Uuid
  rawSize : UInt32
  frame : Bytes
  frame_lt : frame.length < 2 ^ 32

namespace Framed

def size (entry : Framed) : UInt32 := .ofNat entry.frame.length

def bytes (entry : Framed) : Bytes := entryHeader entry.id entry.rawSize entry.size ++ entry.frame

/-- An entry the scan takes for one. -/
def Real (entry : Framed) : Prop := entry.id ≠ 0 ∧ entry.frame ≠ []

@[simp] theorem size_toNat (entry : Framed) : entry.size.toNat = entry.frame.length := by
  simpa [size] using Nat.mod_eq_of_lt entry.frame_lt

@[simp] theorem bytes_length (entry : Framed) :
    entry.bytes.length = entryHeaderLen + entry.frame.length := by
  simp [bytes]

def location (key : String) (position : Nat) (entry : Framed) : PackLocation :=
  ⟨key, position + entryHeaderLen, entry.size, entry.rawSize, .zstd⟩

end Framed

/-- Where a frame ends. -/
def PackLocation.stop (location : PackLocation) : Nat :=
  location.offset + location.compressedSize.toNat

theorem Framed.location_stop (key : String) (position : Nat) (entry : Framed) :
    (entry.location key position).stop = position + entry.bytes.length := by
  simp [Framed.location, PackLocation.stop, Nat.add_assoc]

/-- The ids and locations of entries that stand one after another. -/
def located (key : String) : Nat → List Framed → List (Uuid × PackLocation)
  | _, [] => []
  | position, entry :: rest =>
      (entry.id, entry.location key position) :: located key (position + entry.bytes.length) rest

theorem located_append (key : String) (position : Nat) (front back : List Framed) :
    located key position (front ++ back) = located key position front ++
      located key (position + (front.flatMap Framed.bytes).length) back := by
  induction front generalizing position with
  | nil => simp [located]
  | cons entry rest ih =>
      rw [List.cons_append, located, ih, located, List.cons_append, List.flatMap_cons,
        List.length_append, Nat.add_assoc]

/-- The frames stand one after another from a position on. -/
theorem located_ascending (key : String) (position : Nat) (entries : List Framed) :
    (∀ found ∈ located key position entries, position ≤ found.2.offset ∧
      found.2.stop ≤ position + (entries.flatMap Framed.bytes).length) ∧
    (located key position entries).Pairwise fun left right => left.2.stop ≤ right.2.offset := by
  induction entries generalizing position with
  | nil => simp [located]
  | cons entry rest ih =>
      obtain ⟨inside, ordered⟩ := ih (position + entry.bytes.length)
      rw [located, List.forall_mem_cons, List.pairwise_cons, List.flatMap_cons, List.length_append]
      refine ⟨⟨⟨?_, ?_⟩, fun found later => ?_⟩, fun found later => ?_, ordered⟩
      · exact Nat.le_add_right _ _
      · rw [Framed.location_stop]
        omega
      · have bounds := inside found later
        omega
      · rw [Framed.location_stop]
        exact (inside found later).1

/-! ## Scanning a layout -/

/-- What the scan reads of a header. -/
theorem header_fields (id : Uuid) (rawSize size : UInt32) :
    BitVec.ofNat 128 (fromBeBytes ((entryHeader id rawSize size).take 16)) = id ∧
      UInt32.ofNat (fromBeBytes (((entryHeader id rawSize size).drop 16).take 4)) = rawSize ∧
      UInt32.ofNat (fromBeBytes (((entryHeader id rawSize size).drop 20).take 4)) = size := by
  have idLength : id.bytes.length = 16 := by simp [Uuid.bytes]
  have rawLength : (beBytes rawSize).length = 4 := by simp [beBytes]
  have sizeLength : (beBytes size).length = 4 := by simp [beBytes]
  have first : (entryHeader id rawSize size).take 16 = id.bytes := by
    rw [entryHeader, List.append_assoc, ← idLength, List.take_left]
  have second : (entryHeader id rawSize size).drop 16 = beBytes rawSize ++ beBytes size := by
    rw [entryHeader, List.append_assoc, ← idLength, List.drop_left]
  have third : (entryHeader id rawSize size).drop 20 = beBytes size := by
    have both : (id.bytes ++ beBytes rawSize).length = 20 := by simp [idLength, rawLength]
    rw [entryHeader, ← both, List.drop_left]
  refine ⟨?_, ?_, ?_⟩
  · rw [first, fromBeBytes_uuid, BitVec.ofNat_toNat, BitVec.setWidth_eq]
  · rw [second, ← rawLength, List.take_left, fromBeBytes_beBytes, UInt32.ofNat_toNat]
  · rw [third, ← sizeLength, List.take_length, fromBeBytes_beBytes, UInt32.ofNat_toNat]

/-- The scan takes an entry that is wholly there, and goes on after it. -/
theorem scanEntries_entry {key : String} {before after : Bytes} {entry : Framed} (real : entry.Real)
    (fuel : Nat) :
    scanEntries key (before ++ (entry.bytes ++ after)) (fuel + 1) before.length =
      (entry.id, entry.location key before.length) ::
        scanEntries key (before ++ (entry.bytes ++ after)) fuel
          (before.length + entry.bytes.length) := by
  have header : ((before ++ (entry.bytes ++ after)).drop before.length).take entryHeaderLen =
      entryHeader entry.id entry.rawSize entry.size := by
    rw [List.drop_left, Framed.bytes, List.append_assoc]
    rw [← entryHeader_length entry.id entry.rawSize entry.size, List.take_left]
  obtain ⟨id, rawSize, size⟩ := header_fields entry.id entry.rawSize entry.size
  have sized : entry.size ≠ 0 := by
    intro empty
    have length := entry.size_toNat
    rw [empty] at length
    exact real.2 (List.eq_nil_of_length_eq_zero length.symm)
  have length : (before ++ (entry.bytes ++ after)).length =
      before.length + (entryHeaderLen + entry.frame.length) + after.length := by
    simp [Nat.add_assoc]
  rw [scanEntries]
  simp only [header, id, rawSize, size, real.1, sized, or_self, if_false, length,
    Framed.size_toNat, Framed.bytes_length, Framed.location]
  rw [if_pos (by omega), if_neg (by omega), Nat.add_assoc]

/-- The scan stops at an entry that is cut off, wherever it is cut. -/
theorem scanEntries_torn {key : String} {before : Bytes} {entry : Framed} {kept : Nat}
    (cut : kept < entry.bytes.length) (fuel : Nat) :
    scanEntries key (before ++ entry.bytes.take kept) fuel before.length = [] := by
  cases fuel with
  | zero => rfl
  | succ fuel =>
      have length : (before ++ entry.bytes.take kept).length = before.length + kept := by
        rw [List.length_append, List.length_take, Nat.min_eq_left (Nat.le_of_lt cut)]
      rw [scanEntries, length]
      split
      · rename_i whole
        have header : ((before ++ entry.bytes.take kept).drop before.length).take entryHeaderLen =
            entryHeader entry.id entry.rawSize entry.size := by
          rw [List.drop_left, List.take_take, Nat.min_eq_left (by omega), Framed.bytes,
            ← entryHeader_length entry.id entry.rawSize entry.size, List.take_left]
        obtain ⟨id, rawSize, size⟩ := header_fields entry.id entry.rawSize entry.size
        rw [Framed.bytes_length] at cut
        simp only [header, id, rawSize, size, Framed.size_toNat]
        split
        · rfl
        · rw [if_pos (by omega)]
      · rfl

/-- The scan stops at zeroes. -/
theorem scanEntries_zeroes {key : String} (before : Bytes) (zeroes fuel : Nat) :
    scanEntries key (before ++ List.replicate zeroes 0) fuel before.length = [] := by
  cases fuel with
  | zero => rfl
  | succ fuel =>
      rw [scanEntries]
      split
      · rename_i whole
        simp only [List.length_append, List.length_replicate] at whole
        have header : ((before ++ List.replicate zeroes 0).drop before.length).take entryHeaderLen =
            List.replicate entryHeaderLen 0 := by
          rw [List.drop_left, List.take_replicate, Nat.min_eq_left (by omega)]
        have nil : fromBeBytes ((List.replicate entryHeaderLen (0 : UInt8)).take 16) = 0 := by decide
        simp only [header, nil]
        exact if_pos (Or.inl rfl)
      · rfl

/-- Entries that are wholly there, and whatever stops the scan after them. -/
theorem scanEntries_whole {key : String} {entries : List Framed} {before after : Bytes} {fuel : Nat}
    (real : ∀ entry ∈ entries, entry.Real) (enough : entries.length ≤ fuel)
    (stops : ∀ fuel, scanEntries key (before ++ (entries.flatMap Framed.bytes ++ after)) fuel
      (before.length + (entries.flatMap Framed.bytes).length) = []) :
    scanEntries key (before ++ (entries.flatMap Framed.bytes ++ after)) fuel before.length =
      located key before.length entries := by
  induction entries generalizing before fuel with
  | nil => exact stops fuel
  | cons entry rest ih =>
      obtain ⟨here, later⟩ := List.forall_mem_cons.mp real
      obtain ⟨fuel, rfl⟩ : ∃ n, fuel = n + 1 :=
        ⟨fuel - 1, by simp only [List.length_cons] at enough; omega⟩
      have file : before ++ ((entry :: rest).flatMap Framed.bytes ++ after) =
          (before ++ entry.bytes) ++ (rest.flatMap Framed.bytes ++ after) := by
        simp
      have first : before ++ ((entry :: rest).flatMap Framed.bytes ++ after) =
          before ++ (entry.bytes ++ (rest.flatMap Framed.bytes ++ after)) := by
        simp
      have length : (before ++ entry.bytes).length = before.length + entry.bytes.length :=
        List.length_append
      rw [located, first, scanEntries_entry here, ← first, file, ← length, ih later]
      · simpa using enough
      · intro fuel
        rw [← file, length]
        have stopped := stops fuel
        rwa [List.flatMap_cons, List.length_append, ← Nat.add_assoc] at stopped

/-! ## Cutting a layout off -/

/-- The entries that are wholly in the first bytes of a layout, and the piece of
the next one. -/
theorem take_layout (entries : List Framed) (kept : Nat) :
    (∃ front back piece, entries = front ++ back ∧
      (entries.flatMap Framed.bytes).take kept = front.flatMap Framed.bytes ++ piece ∧
      (back = [] ∧ piece = [] ∧ (front.flatMap Framed.bytes).length ≤ kept ∨
        ∃ entry rest more, back = entry :: rest ∧ piece = entry.bytes.take more ∧
          more < entry.bytes.length ∧
          kept = (front.flatMap Framed.bytes).length + more)) := by
  induction entries generalizing kept with
  | nil => exact ⟨[], [], [], rfl, by simp, .inl ⟨rfl, rfl, by simp⟩⟩
  | cons entry rest ih =>
      by_cases cut : kept < entry.bytes.length
      · refine ⟨[], entry :: rest, entry.bytes.take kept, rfl, ?_,
          .inr ⟨entry, rest, kept, rfl, rfl, cut, by simp⟩⟩
        rw [List.flatMap_cons, List.take_append_of_le_length (Nat.le_of_lt cut)]
        rfl
      · obtain ⟨more, rfl⟩ := Nat.exists_eq_add_of_le (Nat.le_of_not_lt cut)
        obtain ⟨front, back, piece, rfl, taken, tail⟩ := ih more
        refine ⟨entry :: front, back, piece, rfl, ?_, ?_⟩
        · rw [List.flatMap_cons, List.take_length_add_append, taken, List.flatMap_cons,
            List.append_assoc]
        · rw [List.flatMap_cons, List.length_append]
          rcases tail with ⟨last, none_, fits⟩ | ⟨torn, after, bytes, same, cutOff, short, rfl⟩
          · exact .inl ⟨last, none_, by omega⟩
          · exact .inr ⟨torn, after, bytes, same, cutOff, short, by omega⟩

theorem flatMap_bytes_length (framed : List Framed) :
    framed.length ≤ (framed.flatMap Framed.bytes).length := by
  induction framed with
  | nil => simp
  | cons entry rest ih =>
      have longer : 24 ≤ entry.bytes.length := by simp [entryHeaderLen]
      rw [List.flatMap_cons, List.length_append, List.length_cons]
      omega

/-- **A scan of a layout that is cut off** finds the entries that end in time. -/
theorem scanEntries_take {key : String} {entries : List Framed} {before : Bytes} {kept fuel : Nat}
    (real : ∀ entry ∈ entries, entry.Real)
    (enough : ((entries.flatMap Framed.bytes).take kept).length ≤ fuel) :
    scanEntries key (before ++ (entries.flatMap Framed.bytes).take kept) fuel before.length =
      (located key before.length entries).filter fun found =>
        found.2.stop ≤ before.length + kept := by
  obtain ⟨front, back, piece, rfl, taken, tail⟩ := take_layout entries kept
  have frontReal : ∀ entry ∈ front, entry.Real := fun entry member =>
    real entry (List.mem_append_left back member)
  have room : front.length ≤ fuel := by
    have bytes := flatMap_bytes_length front
    rw [taken, List.length_append] at enough
    omega
  have inTime : (located key before.length front).filter
      (fun found => found.2.stop ≤ before.length + kept) = located key before.length front := by
    rw [List.filter_eq_self]
    intro found member
    have bounds := ((located_ascending key before.length front).1 found member).2
    have fits : (front.flatMap Framed.bytes).length ≤ kept := by
      rcases tail with ⟨-, -, fits⟩ | ⟨-, -, more, -, -, -, rfl⟩
      · exact fits
      · exact Nat.le_add_right _ _
    simp only [decide_eq_true_eq]
    omega
  rw [taken, located_append, List.filter_append, inTime]
  have late : (located key (before.length + (front.flatMap Framed.bytes).length) back).filter
      (fun found => found.2.stop ≤ before.length + kept) = [] := by
    rcases tail with ⟨rfl, -, -⟩ | ⟨entry, rest, more, rfl, -, short, rfl⟩
    · rfl
    · rw [List.filter_eq_nil_iff]
      intro found member
      rw [located] at member
      simp only [decide_eq_true_eq, Nat.not_le]
      rcases List.mem_cons.mp member with rfl | member
      · rw [Framed.location_stop]
        omega
      · have bounds := ((located_ascending key _ rest).1 found member).1
        have ends : found.2.offset ≤ found.2.stop := Nat.le_add_right _ _
        omega
  rw [late, List.append_nil]
  apply scanEntries_whole frontReal room
  intro fuel
  rcases tail with ⟨-, rfl, -⟩ | ⟨entry, rest, more, -, rfl, short, -⟩
  · have stopped : scanEntries key ((before ++ front.flatMap Framed.bytes) ++ List.replicate 0 0)
        fuel (before ++ front.flatMap Framed.bytes).length = [] := scanEntries_zeroes _ 0 fuel
    simpa using stopped
  · have stopped : scanEntries key ((before ++ front.flatMap Framed.bytes) ++ entry.bytes.take more)
        fuel (before ++ front.flatMap Framed.bytes).length = [] := scanEntries_torn short fuel
    simpa using stopped

/-! ## Packs filled by appends -/

/-- What one append put into a pack. -/
structure Entry where
  id : Uuid
  raw : Bytes
  location : PackLocation

/-- A pack that holds the entries, in order.  An append that fails before it writes
leaves the pack as it was; one that fails later is the end of its writer. -/
inductive Appended (zstd : Zstd) (key : String) : PackWriter → List Entry → Prop
  | create : Appended zstd key (.create key) []
  | append {disk : Nat → Bool} {now : Nat} {writer next : PackWriter} {entries : List Entry}
      {id : Uuid} {raw : Bytes} {location : PackLocation}
      (earlier : Appended zstd key writer entries)
      (appended : writer.append zstd disk now id raw = .ok (next, location)) :
      Appended zstd key next (entries ++ [⟨id, raw, location⟩])

section Packs

variable {zstd : Zstd} {key : String} {writer : PackWriter} {entries : List Entry}

theorem Appended.whole (appended : Appended zstd key writer entries) :
    writer.Whole ∧ writer.key = key := by
  induction appended with
  | create => exact ⟨PackWriter.create_whole key, rfl⟩
  | append earlier appended ih =>
      obtain ⟨whole, same, -⟩ := PackWriter.append_spec ih.1 appended
      exact ⟨whole, same.trans ih.2⟩

/-- **The file of a pack**, byte for byte. -/
theorem Appended.layout (appended : Appended zstd key writer entries) :
    ∃ framed : List Framed, writer.file = magic ++ framed.flatMap Framed.bytes ∧
      entries.map (fun entry => (entry.id, entry.location)) = located key magic.length framed ∧
      ∀ frame ∈ framed, ∃ entry ∈ entries, frame.id = entry.id ∧
        zstd.compress entry.raw = some frame.frame := by
  induction appended with
  | create => exact ⟨[], by simp [PackWriter.create], rfl, by simp⟩
  | @append disk now writer next entries id raw location earlier appended ih =>
      obtain ⟨framed, file, found, compressed⟩ := ih
      obtain ⟨whole, same⟩ := earlier.whole
      obtain ⟨frame, -, squeezed, fits, -, rfl, rfl⟩ := PackWriter.append_eq_ok appended
      let entry : Framed := ⟨id, .ofNat raw.length, frame, fits⟩
      have start : writer.size = magic.length + (framed.flatMap Framed.bytes).length := by
        rw [whole, file, List.length_append]
      refine ⟨framed ++ [entry], ?_, ?_, ?_⟩
      · simp [file, entry, Framed.bytes, Framed.size]
      · rw [List.map_append, found, located_append, ← start]
        simp [entry, located, Framed.location, Framed.size, same]
      · intro added member
        rcases List.mem_append.mp member with old | new
        · obtain ⟨entry, inside, both⟩ := compressed added old
          exact ⟨entry, List.mem_append_left _ inside, both⟩
        · rw [List.mem_singleton] at new
          subst new
          exact ⟨_, List.mem_append_right _ (List.mem_singleton_self _), rfl, squeezed⟩

/-- Every entry reads back. -/
theorem Appended.reads (appended : Appended zstd key writer entries) :
    ∀ entry ∈ entries, readFrame zstd writer.file entry.location = some entry.raw := by
  induction appended with
  | create => simp
  | @append disk now writer next entries id raw location earlier appended ih =>
      obtain ⟨-, -, ⟨more, grown⟩, -, read⟩ := PackWriter.append_spec earlier.whole.1 appended
      intro entry member
      rcases List.mem_append.mp member with old | new
      · rw [← grown]
        exact readFrame_append (ih entry old)
      · rw [List.mem_singleton] at new
        subst new
        exact read

/-- The frames stand one after another, inside the file. -/
theorem Appended.ascending (appended : Appended zstd key writer entries) :
    (∀ entry ∈ entries, magic.length ≤ entry.location.offset ∧
      entry.location.stop ≤ writer.file.length) ∧
    entries.Pairwise fun left right => left.location.stop ≤ right.location.offset := by
  obtain ⟨framed, file, found, -⟩ := appended.layout
  obtain ⟨inside, ordered⟩ := located_ascending key magic.length framed
  rw [← found] at inside ordered
  constructor
  · intro entry member
    rw [file, List.length_append]
    exact inside _ (List.mem_map_of_mem member)
  · exact List.pairwise_map.mp ordered

theorem located_rekey (key other : String) (position : Nat) (framed : List Framed) :
    located other position framed =
      (located key position framed).map fun found =>
        (found.1, { found.2 with packKey := other }) := by
  induction framed generalizing position with
  | nil => rfl
  | cons entry rest ih => rw [located, located, List.map_cons, ih]; rfl

theorem readFrame_take {file raw : Bytes} {location : PackLocation} {kept : Nat}
    (inTime : location.stop ≤ kept) (read : readFrame zstd file location = some raw) :
    readFrame zstd (file.take kept) location = some raw := by
  unfold readFrame at read ⊢
  unfold PackLocation.stop at inTime
  split at read
  · rename_i inside
    rw [if_pos (by rw [List.length_take]; omega), List.drop_take, List.take_take,
      Nat.min_eq_left (by omega)]
    exact read
  · cases read

/-- What a scan under a key of its own says of an entry. -/
def Entry.scanned (key : String) (entry : Entry) : Uuid × PackLocation :=
  (entry.id, { entry.location with packKey := key })

theorem scanPack_magic (scanKey : String) (modified : DateTime) (rest : Bytes) :
    scanPack scanKey modified (magic ++ rest) =
      .ok ⟨scanKey, modified,
        scanEntries scanKey (magic ++ rest) (magic ++ rest).length magic.length⟩ := by
  rw [scanPack, List.take_left, if_neg (by simp), if_neg (by simp)]

/-- **A scan recovers what was appended.**  Cut off anywhere after the magic
header, the file shows exactly the entries that end before the cut; with zeroes
after it, it shows them all.  Each reads back as the bytes that were appended. -/
theorem scan_recovers (zstd : Zstd)
    (framed : ∀ raw frame, zstd.compress raw = some frame → frame ≠ [])
    {key : String} {writer : PackWriter} {entries : List Entry}
    (appended : Appended zstd key writer entries) (real : ∀ entry ∈ entries, entry.id ≠ 0)
    (scanKey : String) (modified : DateTime) :
    (∀ kept, magic.length ≤ kept →
      scanPack scanKey modified (writer.file.take kept) = .ok ⟨scanKey, modified,
        (entries.filter fun entry => entry.location.stop ≤ kept).map (Entry.scanned scanKey)⟩ ∧
      ∀ entry ∈ entries, entry.location.stop ≤ kept →
        readFrame zstd (writer.file.take kept) (entry.scanned scanKey).2 = some entry.raw) ∧
    ∀ zeroes,
      scanPack scanKey modified (writer.file ++ List.replicate zeroes 0) =
        .ok ⟨scanKey, modified, entries.map (Entry.scanned scanKey)⟩ ∧
      ∀ entry ∈ entries,
        readFrame zstd (writer.file ++ List.replicate zeroes 0) (entry.scanned scanKey).2 =
          some entry.raw := by
  obtain ⟨frames, file, found, compressed⟩ := appended.layout
  have reads := appended.reads
  have everyReal : ∀ frame ∈ frames, frame.Real := by
    intro frame member
    obtain ⟨entry, inside, same, squeezed⟩ := compressed frame member
    exact ⟨same ▸ real entry inside, framed _ _ squeezed⟩
  have rekeyed : located scanKey magic.length frames = entries.map (Entry.scanned scanKey) := by
    rw [located_rekey key, ← found, List.map_map]
    rfl
  refine ⟨fun kept after => ⟨?_, fun entry member inTime => ?_⟩,
    fun zeroes => ⟨?_, fun entry member => ?_⟩⟩
  · obtain ⟨more, rfl⟩ := Nat.exists_eq_add_of_le after
    rw [file, List.take_length_add_append, scanPack_magic, scanEntries_take everyReal
      (by rw [List.length_append]; omega), rekeyed, List.filter_map]
    rfl
  · exact readFrame_take inTime (reads entry member)
  · have bound := flatMap_bytes_length frames
    rw [file, List.append_assoc, scanPack_magic, scanEntries_whole everyReal
      (by rw [List.length_append, List.length_append]; omega), rekeyed]
    intro fuel
    rw [← List.append_assoc, ← List.length_append]
    exact scanEntries_zeroes _ zeroes fuel
  · exact readFrame_append (reads entry member)

end Packs

/-! ### A pack of one entry -/

def samplePack : PackWriter where
  key := "packs/a.mjpack"
  file := magic ++ (entryHeader 7 2 14 ++ (rawBlockHeader 2 ++ [1, 2]))
  size := 46
  firstAppend := some 0

def sampleModified : DateTime := .ofParts 0 0 rfl

def sampleEntry : Entry := ⟨7, [1, 2], ⟨"packs/a.mjpack", 32, 14, 2, .zstd⟩⟩

theorem samplePack_appended : Appended rawBlocks "packs/a.mjpack" samplePack [sampleEntry] := by
  have appended : (PackWriter.create "packs/a.mjpack").append rawBlocks (fun _ => true) 0 7 [1, 2] =
      .ok (samplePack, sampleEntry.location) := by decide +kernel
  exact .append .create appended

theorem rawBlocks_framed (raw frame : Bytes) (squeezed : rawBlocks.compress raw = some frame) :
    frame ≠ [] := by
  simp only [rawBlocks] at squeezed
  split at squeezed
  · cases squeezed
    simp [rawBlockHeader]
  · cases squeezed

/-- Cut off after forty bytes the pack shows nothing; with zeroes after it, its one
entry. -/
theorem scan_recovers_sample :
    scanPack "packs/a.mjpack" sampleModified (samplePack.file.take 40) =
        .ok ⟨"packs/a.mjpack", sampleModified, []⟩ ∧
      scanPack "packs/a.mjpack" sampleModified (samplePack.file ++ List.replicate 240 0) =
        .ok ⟨"packs/a.mjpack", sampleModified, [(7, sampleEntry.location)]⟩ := by
  have recovers := scan_recovers rawBlocks rawBlocks_framed samplePack_appended (by decide)
    "packs/a.mjpack" sampleModified
  exact ⟨(recovers.1 40 (by decide)).1, (recovers.2 240).1⟩

end MajsoulManager.Store
