/-
# Majsoul.Tiles — tiles, from the game's spelling to mjai's

`tiles.rs`.  The length check counts bytes and the two indexings count
characters, so a string of one character that takes several bytes gets past the
check and panics (`tileStrToMjai_panics`).  A tile that came out of the
conversion is never such a string (`tileStrToMjai_safe`).
-/
import MajsoulManager.Majsoul.Wire

namespace MajsoulManager.Majsoul

open MajsoulManager.Theory

set_option autoImplicit false

def honorTile (s : String) (num : Char) : Outcome Error String :=
  match num with
  | '1' => .ok "E"
  | '2' => .ok "S"
  | '3' => .ok "W"
  | '4' => .ok "N"
  | '5' => .ok "P"
  | '6' => .ok "F"
  | '7' => .ok "C"
  | _ => .err ["Invalid honor tile: " ++ s]

/-- What the two characters of a tile say. -/
def tileOf (s : String) (num suit : Char) : Outcome Error String :=
  if suit = 'm' ∨ suit = 'p' ∨ suit = 's' then
    if num = '0' then .ok (String.ofList ['5', suit, 'r'])
    else .ok (String.ofList [num, suit])
  else if suit = 'z' then honorTile s num
  else .err ["Invalid suit: " ++ suit.toString]

def tileStrToMjai (s : String) : Outcome Error String :=
  if s.utf8ByteSize < 2 then .err ["Invalid tile string: " ++ s]
  else do
    let num ← Outcome.index s.toList 0
    let suit ← Outcome.index s.toList 1
    tileOf s num suit

/-- One character, of more than one byte. -/
def LoneChar (s : String) : Prop := 2 ≤ s.utf8ByteSize ∧ s.toList.length = 1

instance (s : String) : Decidable (LoneChar s) :=
  inferInstanceAs (Decidable (2 ≤ s.utf8ByteSize ∧ s.toList.length = 1))

theorem honorTile_panics (s : String) (num : Char) : ¬ (honorTile s num).Panics := by
  unfold honorTile
  split <;> simp

theorem tileOf_panics (s : String) (num suit : Char) : ¬ (tileOf s num suit).Panics := by
  unfold tileOf
  split
  · split <;> simp
  · split
    · exact honorTile_panics s num
    · simp

/-- A text without characters has no bytes. -/
theorem utf8ByteSize_of_toList_nil {s : String} (empty : s.toList = []) : s.utf8ByteSize = 0 := by
  have same : s = "" := by
    rw [← String.ofList_toList (s := s), empty]
  rw [same]
  rfl

/-- **The one panic of the tile conversion.** -/
theorem tileStrToMjai_panics (s : String) : (tileStrToMjai s).Panics ↔ LoneChar s := by
  unfold tileStrToMjai LoneChar
  split
  · rename_i short
    simp
    omega
  · rename_i long
    have bytes : 2 ≤ s.utf8ByteSize := by omega
    cases chars : s.toList with
    | nil =>
        have none := utf8ByteSize_of_toList_nil chars
        omega
    | cons num rest =>
        cases rest with
        | nil => simp [Outcome.index, bytes]
        | cons suit rest => simp [Outcome.index, bytes, tileOf_panics]

theorem honorTile_short {s : String} {num : Char} {tile : String}
    (converted : honorTile s num = .ok tile) : tile.utf8ByteSize < 2 := by
  unfold honorTile at converted
  split at converted <;> cases converted <;> decide

theorem tileOf_safe {s : String} {num suit : Char} {tile : String}
    (converted : tileOf s num suit = .ok tile) : ¬ LoneChar tile := by
  unfold tileOf at converted
  rintro ⟨bytes, single⟩
  split at converted
  · split at converted
    · cases converted
      simp at single
    · cases converted
      simp at single
  · split at converted
    · have short := honorTile_short converted
      omega
    · cases converted

/-- What the conversion wrote, the ankan expansion can index. -/
theorem tileStrToMjai_safe {s tile : String} (converted : tileStrToMjai s = .ok tile) :
    ¬ LoneChar tile := by
  unfold tileStrToMjai at converted
  split at converted
  · cases converted
  · obtain ⟨num, -, converted⟩ := Outcome.bind_eq_ok.mp converted
    obtain ⟨suit, -, converted⟩ := Outcome.bind_eq_ok.mp converted
    exact tileOf_safe converted

/-! ## The tiles of the game -/

inductive Suit where
  | m
  | p
  | s
  deriving DecidableEq

def Suit.letter : Suit → Char
  | .m => 'm'
  | .p => 'p'
  | .s => 's'

/-- A tile of a suit, where zero is the red five, or one of the seven honors. -/
inductive Tile where
  | suited (suit : Suit) (number : Fin 10)
  | honor (index : Fin 7)
  deriving DecidableEq

/-- As the game spells it. -/
def Tile.text : Tile → String
  | .suited suit number => String.ofList [Char.ofNat (number.val + 48), suit.letter]
  | .honor index => String.ofList [Char.ofNat (index.val + 49), 'z']

/-- As mjai spells it. -/
def Tile.mjai : Tile → String
  | .suited suit number =>
      if number = 0 then String.ofList ['5', suit.letter, 'r']
      else String.ofList [Char.ofNat (number.val + 48), suit.letter]
  | .honor index => ["E", "S", "W", "N", "P", "F", "C"].get (index.cast rfl)

/-- **Every tile converts.** -/
theorem tileStrToMjai_text (tile : Tile) : tileStrToMjai tile.text = .ok tile.mjai := by
  cases tile with
  | suited suit number =>
      cases suit <;> revert number <;> decide
  | honor index =>
      revert index
      decide

-- a red five, a wind, and the character that is neither
example : tileStrToMjai "0s" = .ok "5sr" := by decide
example : tileStrToMjai "2z" = .ok "S" := by decide
example : tileStrToMjai "東" = .panic := by decide

end MajsoulManager.Majsoul
