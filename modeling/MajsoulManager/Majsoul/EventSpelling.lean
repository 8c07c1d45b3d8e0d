/-
# Majsoul.EventSpelling — the events of a hand, written

For each `Record*` message: what its fields say about an event (`…Fields`), and
that the decoder of `Majsoul.Events` reads the event back (`…_spelled`).  Fields may
come in any order and with unknown fields among them; scores may be packed or not.
-/
import MajsoulManager.Majsoul.Events
import MajsoulManager.Majsoul.Slots

namespace MajsoulManager.Majsoul

open MajsoulManager.Theory
open MajsoulManager.Store

set_option autoImplicit false

/-! ## Draws, discards, calls and kans -/

/-- The fields of a draw. -/
structure DealTileFields (e : DealTile) (fields : List Field) : Prop where
  seat : u32At fields 1 e.seat
  tile : tileAt fields 2 e.tile
  doras : tilesAt fields 6 e.doras

theorem dealTile_lenses :
    Lens dealTileArms (·.seat) 1 ∧
    Lens dealTileArms (·.tile) 2 ∧
    Lens dealTileArms (·.doras) 6 := by
  refine ⟨?_, ?_, ?_⟩ <;> repeat' first
    | exact lens_nil _ _
    | refine lens_other (by decide) (fun _ _ => rfl) ?_
    | refine lens_sets (fun _ _ _ => rfl) ?_
    | refine lens_appends (fun _ _ => rfl) ?_

theorem parseDealTile_spelled {e : DealTile} {buf : Bytes}
    (spelled : SpelledBy DealTileFields e buf) :
    parseDealTile buf = .ok e := by
  obtain ⟨fields, written, s⟩ := spelled
  have seat : Slot dealTileArms {} fields 1 (·.seat) e.seat :=
    slot_u32 rfl (fun _ _ => rfl) rfl s.seat
  have tile : Slot dealTileArms {} fields 2 (·.tile) e.tile :=
    slot_tile rfl (fun _ _ => rfl) rfl s.tile
  have doras : Slot dealTileArms {} fields 6 (·.doras) e.doras :=
    slot_tiles rfl (fun _ _ => rfl) rfl s.doras
  obtain ⟨final, parsed, read⟩ := parseMessage_spelled dealTileArms written {} (by
    simp only [dealTileArms, List.forall_mem_cons]
    exact ⟨seat.accepted, tile.accepted, doras.accepted, by simp⟩)
  obtain ⟨l₁, l₂, l₃⟩ := dealTile_lenses
  rw [parseDealTile, parsed]
  exact congrArg Outcome.ok (DealTile.ext
    (seat.final l₁ read) (tile.final l₂ read) (doras.final l₃ read))

/-- The fields of a discard. -/
structure DiscardTileFields (e : DiscardTile) (fields : List Field) : Prop where
  seat : u32At fields 1 e.seat
  tile : tileAt fields 2 e.tile
  isLiqi : boolAt fields 3 e.isLiqi
  moqie : boolAt fields 5 e.moqie
  isWliqi : boolAt fields 9 e.isWliqi
  doras : tilesAt fields 8 e.doras

theorem discardTile_lenses :
    Lens discardTileArms (·.seat) 1 ∧
    Lens discardTileArms (·.tile) 2 ∧
    Lens discardTileArms (·.isLiqi) 3 ∧
    Lens discardTileArms (·.moqie) 5 ∧
    Lens discardTileArms (·.isWliqi) 9 ∧
    Lens discardTileArms (·.doras) 8 := by
  refine ⟨?_, ?_, ?_, ?_, ?_, ?_⟩ <;> repeat' first
    | exact lens_nil _ _
    | refine lens_other (by decide) (fun _ _ => rfl) ?_
    | refine lens_sets (fun _ _ _ => rfl) ?_
    | refine lens_appends (fun _ _ => rfl) ?_

theorem parseDiscardTile_spelled {e : DiscardTile} {buf : Bytes}
    (spelled : SpelledBy DiscardTileFields e buf) :
    parseDiscardTile buf = .ok e := by
  obtain ⟨fields, written, s⟩ := spelled
  have seat : Slot discardTileArms {} fields 1 (·.seat) e.seat :=
    slot_u32 rfl (fun _ _ => rfl) rfl s.seat
  have tile : Slot discardTileArms {} fields 2 (·.tile) e.tile :=
    slot_tile rfl (fun _ _ => rfl) rfl s.tile
  have isLiqi : Slot discardTileArms {} fields 3 (·.isLiqi) e.isLiqi :=
    slot_bool rfl (fun _ _ => rfl) rfl s.isLiqi
  have moqie : Slot discardTileArms {} fields 5 (·.moqie) e.moqie :=
    slot_bool rfl (fun _ _ => rfl) rfl s.moqie
  have isWliqi : Slot discardTileArms {} fields 9 (·.isWliqi) e.isWliqi :=
    slot_bool rfl (fun _ _ => rfl) rfl s.isWliqi
  have doras : Slot discardTileArms {} fields 8 (·.doras) e.doras :=
    slot_tiles rfl (fun _ _ => rfl) rfl s.doras
  obtain ⟨final, parsed, read⟩ := parseMessage_spelled discardTileArms written {} (by
    simp only [discardTileArms, List.forall_mem_cons]
    exact ⟨seat.accepted, tile.accepted, isLiqi.accepted, moqie.accepted, doras.accepted,
    isWliqi.accepted, by simp⟩)
  obtain ⟨l₁, l₂, l₃, l₄, l₅, l₆⟩ := discardTile_lenses
  rw [parseDiscardTile, parsed]
  exact congrArg Outcome.ok (DiscardTile.ext
    (seat.final l₁ read) (tile.final l₂ read) (isLiqi.final l₃ read) (moqie.final l₄ read)
    (isWliqi.final l₅ read) (doras.final l₆ read))

def ChiPengGangType.code : ChiPengGangType → UInt32
  | .chi => 0
  | .pon => 1
  | .daiminkan => 2

theorem ChiPengGangType.of_code (t : ChiPengGangType) : of t.code = t := by
  cases t <;> rfl

/-- Where the tiles of a call came from, as the list of numbers it is. -/
def fromsAt (fields : List Field) (number : UInt32) (froms : List UInt32) : Prop :=
  intsAt fields number (froms.map (·.toInt32))

theorem map_toUInt32_toInt32 (froms : List UInt32) :
    (froms.map (·.toInt32)).map (·.toUInt32) = froms := by
  simp [List.map_map, Function.comp_def]

/-- The fields of a chi, pon or daiminkan. -/
structure ChiPengGangFields (e : ChiPengGang) (fields : List Field) : Prop where
  seat : u32At fields 1 e.seat
  callType : u32At fields 2 e.callType.code
  tiles : tilesAt fields 3 e.tiles
  froms : fromsAt fields 4 e.froms

theorem chiPengGang_lenses :
    Lens chiPengGangArms (·.seat) 1 ∧
    Lens chiPengGangArms (·.callType) 2 ∧
    Lens chiPengGangArms (·.tiles) 3 ∧
    Lens chiPengGangArms (·.froms) 4 := by
  refine ⟨?_, ?_, ?_, ?_⟩ <;> repeat' first
    | exact lens_nil _ _
    | refine lens_other (by decide) (fun _ _ => rfl) ?_
    | refine lens_sets (fun _ _ _ => rfl) ?_
    | refine lens_appends (fun _ _ => rfl) ?_

theorem parseChiPengGang_spelled {e : ChiPengGang} {buf : Bytes}
    (spelled : SpelledBy ChiPengGangFields e buf) :
    parseChiPengGang buf = .ok e := by
  obtain ⟨fields, written, s⟩ := spelled
  have seat : Slot chiPengGangArms {} fields 1 (·.seat) e.seat :=
    slot_u32 rfl (fun _ _ => rfl) rfl s.seat
  have callType : Slot chiPengGangArms {} fields 2 (·.callType) e.callType :=
    e.callType.of_code ▸ slot_coded ChiPengGangType.of rfl (fun _ _ => rfl) rfl s.callType
  have tiles : Slot chiPengGangArms {} fields 3 (·.tiles) e.tiles :=
    slot_tiles rfl (fun _ _ => rfl) rfl s.tiles
  have froms : Slot chiPengGangArms {} fields 4 (·.froms) e.froms :=
    map_toUInt32_toInt32 e.froms ▸ slot_ints (·.toUInt32) rfl rfl (fun _ _ => rfl) rfl s.froms
  obtain ⟨final, parsed, read⟩ := parseMessage_spelled chiPengGangArms written {} (by
    simp only [chiPengGangArms, scoreArms, List.cons_append, List.nil_append, List.forall_mem_cons]
    exact ⟨seat.accepted, callType.accepted, tiles.accepted, froms.accepted, froms.accepted,
    by simp⟩)
  obtain ⟨l₁, l₂, l₃, l₄⟩ := chiPengGang_lenses
  rw [parseChiPengGang, parsed]
  exact congrArg Outcome.ok (ChiPengGang.ext
    (seat.final l₁ read) (callType.final l₂ read) (tiles.final l₃ read) (froms.final l₄ read))

def AnGangAddGangType.code : AnGangAddGangType → UInt32
  | .kakan => 2
  | .ankan => 3

theorem AnGangAddGangType.of_code (t : AnGangAddGangType) : of t.code = t := by
  cases t <;> rfl

/-- The fields of a concealed or added kan. -/
structure AnGangAddGangFields (e : AnGangAddGang) (fields : List Field) : Prop where
  seat : u32At fields 1 e.seat
  gangType : u32At fields 2 e.gangType.code
  tiles : tileAt fields 3 e.tiles
  doras : tilesAt fields 6 e.doras

theorem anGangAddGang_lenses :
    Lens anGangAddGangArms (·.seat) 1 ∧
    Lens anGangAddGangArms (·.gangType) 2 ∧
    Lens anGangAddGangArms (·.tiles) 3 ∧
    Lens anGangAddGangArms (·.doras) 6 := by
  refine ⟨?_, ?_, ?_, ?_⟩ <;> repeat' first
    | exact lens_nil _ _
    | refine lens_other (by decide) (fun _ _ => rfl) ?_
    | refine lens_sets (fun _ _ _ => rfl) ?_
    | refine lens_appends (fun _ _ => rfl) ?_

theorem parseAnGangAddGang_spelled {e : AnGangAddGang} {buf : Bytes}
    (spelled : SpelledBy AnGangAddGangFields e buf) :
    parseAnGangAddGang buf = .ok e := by
  obtain ⟨fields, written, s⟩ := spelled
  have seat : Slot anGangAddGangArms {} fields 1 (·.seat) e.seat :=
    slot_u32 rfl (fun _ _ => rfl) rfl s.seat
  have gangType : Slot anGangAddGangArms {} fields 2 (·.gangType) e.gangType :=
    e.gangType.of_code ▸ slot_coded AnGangAddGangType.of rfl (fun _ _ => rfl) rfl s.gangType
  have tiles : Slot anGangAddGangArms {} fields 3 (·.tiles) e.tiles :=
    slot_tile rfl (fun _ _ => rfl) rfl s.tiles
  have doras : Slot anGangAddGangArms {} fields 6 (·.doras) e.doras :=
    slot_tiles rfl (fun _ _ => rfl) rfl s.doras
  obtain ⟨final, parsed, read⟩ := parseMessage_spelled anGangAddGangArms written {} (by
    simp only [anGangAddGangArms, List.forall_mem_cons]
    exact ⟨seat.accepted, gangType.accepted, tiles.accepted, doras.accepted, by simp⟩)
  obtain ⟨l₁, l₂, l₃, l₄⟩ := anGangAddGang_lenses
  rw [parseAnGangAddGang, parsed]
  exact congrArg Outcome.ok (AnGangAddGang.ext
    (seat.final l₁ read) (gangType.final l₂ read) (tiles.final l₃ read) (doras.final l₄ read))

/-- The fields of a north declaration. -/
structure BaBeiFields (e : BaBei) (fields : List Field) : Prop where
  seat : u32At fields 1 e.seat
  moqie : boolAt fields 8 e.moqie
  doras : tilesAt fields 6 e.doras

theorem baBei_lenses :
    Lens baBeiArms (·.seat) 1 ∧
    Lens baBeiArms (·.moqie) 8 ∧
    Lens baBeiArms (·.doras) 6 := by
  refine ⟨?_, ?_, ?_⟩ <;> repeat' first
    | exact lens_nil _ _
    | refine lens_other (by decide) (fun _ _ => rfl) ?_
    | refine lens_sets (fun _ _ _ => rfl) ?_
    | refine lens_appends (fun _ _ => rfl) ?_

theorem parseBaBei_spelled {e : BaBei} {buf : Bytes}
    (spelled : SpelledBy BaBeiFields e buf) :
    parseBaBei buf = .ok e := by
  obtain ⟨fields, written, s⟩ := spelled
  have seat : Slot baBeiArms {} fields 1 (·.seat) e.seat :=
    slot_u32 rfl (fun _ _ => rfl) rfl s.seat
  have moqie : Slot baBeiArms {} fields 8 (·.moqie) e.moqie :=
    slot_bool rfl (fun _ _ => rfl) rfl s.moqie
  have doras : Slot baBeiArms {} fields 6 (·.doras) e.doras :=
    slot_tiles rfl (fun _ _ => rfl) rfl s.doras
  obtain ⟨final, parsed, read⟩ := parseMessage_spelled baBeiArms written {} (by
    simp only [baBeiArms, List.forall_mem_cons]
    exact ⟨seat.accepted, doras.accepted, moqie.accepted, by simp⟩)
  obtain ⟨l₁, l₂, l₃⟩ := baBei_lenses
  rw [parseBaBei, parsed]
  exact congrArg Outcome.ok (BaBei.ext
    (seat.final l₁ read) (moqie.final l₂ read) (doras.final l₃ read))

/-- The fields of an abortive draw. -/
structure LiuJuFields (e : LiuJu) (fields : List Field) : Prop where
  liujuType : u32At fields 1 e.liujuType
  seat : optU32At fields 3 e.seat
  tiles : tilesAt fields 4 e.tiles

theorem liuJu_lenses :
    Lens liuJuArms (·.liujuType) 1 ∧
    Lens liuJuArms (·.seat) 3 ∧
    Lens liuJuArms (·.tiles) 4 := by
  refine ⟨?_, ?_, ?_⟩ <;> repeat' first
    | exact lens_nil _ _
    | refine lens_other (by decide) (fun _ _ => rfl) ?_
    | refine lens_sets (fun _ _ _ => rfl) ?_
    | refine lens_appends (fun _ _ => rfl) ?_

theorem parseLiuJu_spelled {e : LiuJu} {buf : Bytes}
    (spelled : SpelledBy LiuJuFields e buf) :
    parseLiuJu buf = .ok e := by
  obtain ⟨fields, written, s⟩ := spelled
  have liujuType : Slot liuJuArms {} fields 1 (·.liujuType) e.liujuType :=
    slot_u32 rfl (fun _ _ => rfl) rfl s.liujuType
  have seat : Slot liuJuArms {} fields 3 (·.seat) e.seat :=
    slot_optU32 rfl (fun _ _ => rfl) rfl s.seat
  have tiles : Slot liuJuArms {} fields 4 (·.tiles) e.tiles :=
    slot_tiles rfl (fun _ _ => rfl) rfl s.tiles
  obtain ⟨final, parsed, read⟩ := parseMessage_spelled liuJuArms written {} (by
    simp only [liuJuArms, List.forall_mem_cons]
    exact ⟨liujuType.accepted, seat.accepted, tiles.accepted, by simp⟩)
  obtain ⟨l₁, l₂, l₃⟩ := liuJu_lenses
  rw [parseLiuJu, parsed]
  exact congrArg Outcome.ok (LiuJu.ext
    (liujuType.final l₁ read) (seat.final l₂ read) (tiles.final l₃ read))

/-! ## Wins -/

/-- The fields of a yaku. -/
structure FanInfoFields (e : FanInfo) (fields : List Field) : Prop where
  id : u32At fields 3 e.id
  name : textAt fields 1 e.name
  val : u32At fields 2 e.val

theorem fanInfo_lenses :
    Lens fanInfoArms (·.id) 3 ∧
    Lens fanInfoArms (·.name) 1 ∧
    Lens fanInfoArms (·.val) 2 := by
  refine ⟨?_, ?_, ?_⟩ <;> repeat' first
    | exact lens_nil _ _
    | refine lens_other (by decide) (fun _ _ => rfl) ?_
    | refine lens_sets (fun _ _ _ => rfl) ?_

theorem parseFanInfo_spelled {e : FanInfo} {buf : Bytes}
    (spelled : SpelledBy FanInfoFields e buf) :
    parseFanInfo buf = .ok e := by
  obtain ⟨fields, written, s⟩ := spelled
  have id : Slot fanInfoArms {} fields 3 (·.id) e.id := slot_u32 rfl (fun _ _ => rfl) rfl s.id
  have name : Slot fanInfoArms {} fields 1 (·.name) e.name :=
    slot_text rfl (fun _ _ => rfl) rfl s.name
  have val : Slot fanInfoArms {} fields 2 (·.val) e.val := slot_u32 rfl (fun _ _ => rfl) rfl s.val
  obtain ⟨final, parsed, read⟩ := parseMessage_spelled fanInfoArms written {} (by
    simp only [fanInfoArms, List.forall_mem_cons]
    exact ⟨name.accepted, val.accepted, id.accepted, by simp⟩)
  obtain ⟨l₁, l₂, l₃⟩ := fanInfo_lenses
  rw [parseFanInfo, parsed]
  exact congrArg Outcome.ok (FanInfo.ext
    (id.final l₁ read) (name.final l₂ read) (val.final l₃ read))

/-- `kezi(1z,1z,1z)`. -/
def meldText (kind : String) (tiles : List Tile) : String :=
  String.ofList (kind.toList ++ '(' :: (Text.joinWith ',' (tiles.map (·.text.toList)) ++ [')']))

/-- The bytes of a meld: a kind without a bracket in it, and at least one tile. -/
def meldSpells (meld : Meld) (data : Bytes) : Prop :=
  ∃ tiles : List Tile, tiles ≠ [] ∧ '(' ∉ meld.kind.toList ∧ meld.tiles = tiles.map Tile.mjai ∧
    data = Text.utf8 (meldText meld.kind tiles)

theorem Tile.text_plain (tile : Tile) : ',' ∉ tile.text.toList := by
  cases tile with
  | suited suit number =>
      cases suit <;> revert number <;> decide
  | honor index =>
      revert index
      decide

theorem parseMeld_spelled {meld : Meld} {data : Bytes} (spelled : meldSpells meld data) :
    parseMeld (extractString data) = .ok meld := by
  obtain ⟨tiles, some, plain, same, rfl⟩ := spelled
  have parts : meldParts (meldText meld.kind tiles) =
      .ok (meld.kind, String.ofList (Text.joinWith ',' (tiles.map (·.text.toList)))) := by
    rw [meldParts, meldText, Text.splitOnce_append plain]
    simp only [Text.stripSuffix_append, String.ofList_toList]
  have pieces : Text.split (String.ofList (Text.joinWith ',' (tiles.map (·.text.toList)))) ',' =
      tiles.map (·.text) := by
    rw [Text.split, String.toList_ofList, Text.splitChars_joinWith (by simpa using some)]
    · simp [List.map_map, Function.comp_def]
    · intro piece member
      obtain ⟨tile, -, rfl⟩ := List.mem_map.mp member
      exact tile.text_plain
  have converted : (tiles.map (·.text)).mapM tileStrToMjai = .ok (tiles.map Tile.mjai) := by
    rw [List.mapM_map]
    exact Outcome.mapM_of_ok fun tile _ => tileStrToMjai_text tile
  rw [extractString_utf8, parseMeld, parts]
  simp only [ofExcept, Outcome.ok_bind, pieces, converted]
  rw [← same]

/-- The fields of one win. -/
structure HuleInfoFields (e : HuleInfo) (fields : List Field) : Prop where
  seat : u32At fields 4 e.seat
  zimo : boolAt fields 5 e.zimo
  hand : tilesAt fields 1 e.hand
  melds : messagesAt fields 2 meldSpells e.melds
  huTile : tileAt fields 3 e.huTile
  fu : u32At fields 13 e.fu
  pointRong : i32At fields 15 e.pointRong
  pointZimoQin : i32At fields 16 e.pointZimoQin
  pointZimoXian : i32At fields 17 e.pointZimoXian
  han : u32At fields 11 e.han
  yiman : boolAt fields 10 e.yiman
  riichi : boolAt fields 7 e.riichi
  doras : tilesAt fields 8 e.doras
  uraDoras : tilesAt fields 9 e.uraDoras
  yakus : messagesAt fields 12 (SpelledBy FanInfoFields) e.yakus

theorem huleInfo_lenses :
    Lens huleInfoArms (·.seat) 4 ∧
    Lens huleInfoArms (·.zimo) 5 ∧
    Lens huleInfoArms (·.hand) 1 ∧
    Lens huleInfoArms (·.melds) 2 ∧
    Lens huleInfoArms (·.huTile) 3 ∧
    Lens huleInfoArms (·.fu) 13 ∧
    Lens huleInfoArms (·.pointRong) 15 ∧
    Lens huleInfoArms (·.pointZimoQin) 16 ∧
    Lens huleInfoArms (·.pointZimoXian) 17 ∧
    Lens huleInfoArms (·.han) 11 ∧
    Lens huleInfoArms (·.yiman) 10 ∧
    Lens huleInfoArms (·.riichi) 7 ∧
    Lens huleInfoArms (·.doras) 8 ∧
    Lens huleInfoArms (·.uraDoras) 9 ∧
    Lens huleInfoArms (·.yakus) 12 := by
  refine ⟨?_, ?_, ?_, ?_, ?_, ?_, ?_, ?_, ?_, ?_, ?_, ?_, ?_, ?_, ?_⟩ <;> repeat' first
    | exact lens_nil _ _
    | refine lens_other (by decide) (fun _ _ => rfl) ?_
    | refine lens_sets (fun _ _ _ => rfl) ?_
    | refine lens_appends (fun _ _ => rfl) ?_

theorem parseHuleInfo_spelled {e : HuleInfo} {buf : Bytes}
    (spelled : SpelledBy HuleInfoFields e buf) :
    parseHuleInfo buf = .ok e := by
  obtain ⟨fields, written, s⟩ := spelled
  have seat : Slot huleInfoArms {} fields 4 (·.seat) e.seat :=
    slot_u32 rfl (fun _ _ => rfl) rfl s.seat
  have zimo : Slot huleInfoArms {} fields 5 (·.zimo) e.zimo :=
    slot_bool rfl (fun _ _ => rfl) rfl s.zimo
  have hand : Slot huleInfoArms {} fields 1 (·.hand) e.hand :=
    slot_tiles rfl (fun _ _ => rfl) rfl s.hand
  have melds : Slot huleInfoArms {} fields 2 (·.melds) e.melds :=
    slot_messages rfl (fun _ _ => parseMeld_spelled) (fun _ _ => rfl) rfl s.melds
  have huTile : Slot huleInfoArms {} fields 3 (·.huTile) e.huTile :=
    slot_tile rfl (fun _ _ => rfl) rfl s.huTile
  have fu : Slot huleInfoArms {} fields 13 (·.fu) e.fu := slot_u32 rfl (fun _ _ => rfl) rfl s.fu
  have pointRong : Slot huleInfoArms {} fields 15 (·.pointRong) e.pointRong :=
    slot_i32 rfl (fun _ _ => rfl) rfl s.pointRong
  have pointZimoQin : Slot huleInfoArms {} fields 16 (·.pointZimoQin) e.pointZimoQin :=
    slot_i32 rfl (fun _ _ => rfl) rfl s.pointZimoQin
  have pointZimoXian : Slot huleInfoArms {} fields 17 (·.pointZimoXian) e.pointZimoXian :=
    slot_i32 rfl (fun _ _ => rfl) rfl s.pointZimoXian
  have han : Slot huleInfoArms {} fields 11 (·.han) e.han :=
    slot_u32 rfl (fun _ _ => rfl) rfl s.han
  have yiman : Slot huleInfoArms {} fields 10 (·.yiman) e.yiman :=
    slot_bool rfl (fun _ _ => rfl) rfl s.yiman
  have riichi : Slot huleInfoArms {} fields 7 (·.riichi) e.riichi :=
    slot_bool rfl (fun _ _ => rfl) rfl s.riichi
  have doras : Slot huleInfoArms {} fields 8 (·.doras) e.doras :=
    slot_tiles rfl (fun _ _ => rfl) rfl s.doras
  have uraDoras : Slot huleInfoArms {} fields 9 (·.uraDoras) e.uraDoras :=
    slot_tiles rfl (fun _ _ => rfl) rfl s.uraDoras
  have yakus : Slot huleInfoArms {} fields 12 (·.yakus) e.yakus :=
    slot_messages rfl (fun _ _ => parseFanInfo_spelled) (fun _ _ => rfl) rfl s.yakus
  obtain ⟨final, parsed, read⟩ := parseMessage_spelled huleInfoArms written {} (by
    simp only [huleInfoArms, List.forall_mem_cons]
    exact ⟨hand.accepted, melds.accepted, huTile.accepted, seat.accepted, zimo.accepted,
    riichi.accepted, doras.accepted, uraDoras.accepted, yiman.accepted, han.accepted,
    yakus.accepted, fu.accepted, pointRong.accepted, pointZimoQin.accepted,
    pointZimoXian.accepted, by simp⟩)
  obtain ⟨l₁, l₂, l₃, l₄, l₅, l₆, l₇, l₈, l₉, l₁₀, l₁₁, l₁₂, l₁₃, l₁₄, l₁₅⟩ := huleInfo_lenses
  rw [parseHuleInfo, parsed]
  exact congrArg Outcome.ok (HuleInfo.ext
    (seat.final l₁ read) (zimo.final l₂ read) (hand.final l₃ read) (melds.final l₄ read)
    (huTile.final l₅ read) (fu.final l₆ read) (pointRong.final l₇ read)
    (pointZimoQin.final l₈ read) (pointZimoXian.final l₉ read) (han.final l₁₀ read)
    (yiman.final l₁₁ read) (riichi.final l₁₂ read) (doras.final l₁₃ read)
    (uraDoras.final l₁₄ read) (yakus.final l₁₅ read))

/-- The fields of the wins of a hand. -/
structure HuleFields (e : Hule) (fields : List Field) : Prop where
  hules : messagesAt fields 1 (SpelledBy HuleInfoFields) e.hules
  deltaScores : intsAt fields 3 e.deltaScores
  scores : intsAt fields 5 e.scores
  doras : tilesAt fields 7 e.doras

theorem hule_lenses :
    Lens huleArms (·.hules) 1 ∧
    Lens huleArms (·.deltaScores) 3 ∧
    Lens huleArms (·.scores) 5 ∧
    Lens huleArms (·.doras) 7 := by
  refine ⟨?_, ?_, ?_, ?_⟩ <;> repeat' first
    | exact lens_nil _ _
    | refine lens_other (by decide) (fun _ _ => rfl) ?_
    | refine lens_sets (fun _ _ _ => rfl) ?_
    | refine lens_appends (fun _ _ => rfl) ?_

theorem parseHule_spelled {e : Hule} {buf : Bytes}
    (spelled : SpelledBy HuleFields e buf) :
    parseHule buf = .ok e := by
  obtain ⟨fields, written, s⟩ := spelled
  have hules : Slot huleArms {} fields 1 (·.hules) e.hules :=
    slot_messages rfl (fun _ _ => parseHuleInfo_spelled) (fun _ _ => rfl) rfl s.hules
  have deltaScores : Slot huleArms {} fields 3 (·.deltaScores) e.deltaScores :=
    slot_scores rfl rfl (fun _ _ => rfl) rfl s.deltaScores
  have scores : Slot huleArms {} fields 5 (·.scores) e.scores :=
    slot_scores rfl rfl (fun _ _ => rfl) rfl s.scores
  have doras : Slot huleArms {} fields 7 (·.doras) e.doras :=
    slot_tiles rfl (fun _ _ => rfl) rfl s.doras
  obtain ⟨final, parsed, read⟩ := parseMessage_spelled huleArms written {} (by
    simp only [huleArms, scoreArms, List.cons_append, List.nil_append, List.forall_mem_cons]
    exact ⟨hules.accepted, deltaScores.accepted, deltaScores.accepted, scores.accepted,
    scores.accepted, doras.accepted, by simp⟩)
  obtain ⟨l₁, l₂, l₃, l₄⟩ := hule_lenses
  rw [parseHule, parsed]
  exact congrArg Outcome.ok (Hule.ext
    (hules.final l₁ read) (deltaScores.final l₂ read) (scores.final l₃ read)
    (doras.final l₄ read))

/-! ## Exhaustive draws -/

/-- The fields of what a seat showed. -/
structure NoTilePlayerFields (e : NoTilePlayer) (fields : List Field) : Prop where
  tenpai : boolAt fields 3 e.tenpai
  hand : tilesAt fields 4 e.hand

theorem noTilePlayer_lenses :
    Lens noTilePlayerArms (·.tenpai) 3 ∧
    Lens noTilePlayerArms (·.hand) 4 := by
  refine ⟨?_, ?_⟩ <;> repeat' first
    | exact lens_nil _ _
    | refine lens_other (by decide) (fun _ _ => rfl) ?_
    | refine lens_sets (fun _ _ _ => rfl) ?_
    | refine lens_appends (fun _ _ => rfl) ?_

theorem parseNoTilePlayer_spelled {e : NoTilePlayer} {buf : Bytes}
    (spelled : SpelledBy NoTilePlayerFields e buf) :
    parseMessage noTilePlayerArms {} buf = .ok e := by
  obtain ⟨fields, written, s⟩ := spelled
  have tenpai : Slot noTilePlayerArms {} fields 3 (·.tenpai) e.tenpai :=
    slot_bool rfl (fun _ _ => rfl) rfl s.tenpai
  have hand : Slot noTilePlayerArms {} fields 4 (·.hand) e.hand :=
    slot_tiles rfl (fun _ _ => rfl) rfl s.hand
  obtain ⟨final, parsed, read⟩ := parseMessage_spelled noTilePlayerArms written {} (by
    simp only [noTilePlayerArms, List.forall_mem_cons]
    exact ⟨tenpai.accepted, hand.accepted, by simp⟩)
  obtain ⟨l₁, l₂⟩ := noTilePlayer_lenses
  rw [parsed]
  exact congrArg Outcome.ok (NoTilePlayer.ext
    (tenpai.final l₁ read) (hand.final l₂ read))

/-- The fields of a payment. -/
structure PaymentFields (e : Payment) (fields : List Field) : Prop where
  old : intsAt fields 2 e.old
  delta : intsAt fields 3 e.delta

theorem payment_lenses :
    Lens paymentArms (·.old) 2 ∧
    Lens paymentArms (·.delta) 3 := by
  refine ⟨?_, ?_⟩ <;> repeat' first
    | exact lens_nil _ _
    | refine lens_other (by decide) (fun _ _ => rfl) ?_
    | refine lens_sets (fun _ _ _ => rfl) ?_
    | refine lens_appends (fun _ _ => rfl) ?_

theorem parsePayment_spelled {e : Payment} {buf : Bytes}
    (spelled : SpelledBy PaymentFields e buf) :
    parseMessage paymentArms {} buf = .ok e := by
  obtain ⟨fields, written, s⟩ := spelled
  have old : Slot paymentArms {} fields 2 (·.old) e.old :=
    slot_scores rfl rfl (fun _ _ => rfl) rfl s.old
  have delta : Slot paymentArms {} fields 3 (·.delta) e.delta :=
    slot_scores rfl rfl (fun _ _ => rfl) rfl s.delta
  obtain ⟨final, parsed, read⟩ := parseMessage_spelled paymentArms written {} (by
    simp only [paymentArms, scoreArms, List.cons_append, List.nil_append, List.forall_mem_cons]
    exact ⟨old.accepted, old.accepted, delta.accepted, delta.accepted, by simp⟩)
  obtain ⟨l₁, l₂⟩ := payment_lenses
  rw [parsed]
  exact congrArg Outcome.ok (Payment.ext
    (old.final l₁ read) (delta.final l₂ read))

/-- What seat `i` gained over all payments; the sums wrap. -/
def gained (payments : List Payment) (i : Nat) : Int32 :=
  (payments.map fun payment => payment.delta.getD i 0).sum

/-- As many seats as the longest payment names. -/
def paidSeats (payments : List Payment) : Nat :=
  (payments.map fun payment => payment.delta.length).foldr max 0

/-- The opening scores: those of the first payment that has any. -/
def openingScores (payments : List Payment) : List Int32 :=
  ((payments.map Payment.old).find? (· != [])).getD []

/-- What the players showed and the payments settled, as an event. -/
def NoTile.settled (liujumanguan : Bool) (players : List NoTilePlayer) (payments : List Payment) :
    NoTile where
  scores := (openingScores payments).mapIdx fun i old => old + gained payments i
  deltaScores := (List.range (paidSeats payments)).map (gained payments)
  tenpai := players.map NoTilePlayer.tenpai
  liujumanguan := liujumanguan
  tenpaiHands := players.map NoTilePlayer.hand

theorem addDeltas_nil (deltas : List Int32) : addDeltas [] deltas = deltas := by
  induction deltas with
  | nil => rfl
  | cons delta rest ih => rw [addDeltas, ih, Int32.zero_add]

theorem addDeltas_length (totals deltas : List Int32) :
    (addDeltas totals deltas).length = max totals.length deltas.length := by
  induction deltas generalizing totals with
  | nil => cases totals <;> simp [addDeltas]
  | cons delta rest ih => cases totals <;> simp [addDeltas, ih]

theorem addDeltas_getD (totals deltas : List Int32) (i : Nat) :
    (addDeltas totals deltas).getD i 0 = totals.getD i 0 + deltas.getD i 0 := by
  induction deltas generalizing totals i with
  | nil => cases totals <;> simp [addDeltas]
  | cons delta rest ih =>
      cases totals with
      | nil =>
          rw [addDeltas_nil]
          simp
      | cons total totals =>
          cases i with
          | zero => rfl
          | succ i => simpa [addDeltas] using ih totals i

theorem foldl_addDeltas_getD (totals : List Int32) (payments : List Payment) (i : Nat) :
    (payments.foldl (fun totals payment => addDeltas totals payment.delta) totals).getD i 0 =
      totals.getD i 0 + gained payments i := by
  induction payments generalizing totals with
  | nil => simp [gained]
  | cons payment rest ih =>
      rw [List.foldl_cons, ih, addDeltas_getD]
      simp [gained, Int32.add_assoc]

theorem foldl_addDeltas_length (totals : List Int32) (payments : List Payment) :
    (payments.foldl (fun totals payment => addDeltas totals payment.delta) totals).length =
      max totals.length (paidSeats payments) := by
  induction payments generalizing totals with
  | nil => simp [paidSeats]
  | cons payment rest ih =>
      rw [List.foldl_cons, ih, addDeltas_length]
      simp [paidSeats, Nat.max_assoc]

/-- The running totals are what each seat gained. -/
theorem foldl_addDeltas (payments : List Payment) :
    payments.foldl (fun totals payment => addDeltas totals payment.delta) [] =
      (List.range (paidSeats payments)).map (gained payments) := by
  have length := foldl_addDeltas_length [] payments
  refine List.ext_getElem (by simpa using length) fun i inside _ => ?_
  have value := foldl_addDeltas_getD [] payments i
  rw [List.getD_eq_getElem _ _ inside] at value
  simpa using value

theorem closingScores_eq (old deltas : List Int32) :
    closingScores old deltas = old.mapIdx fun i score => score + deltas.getD i 0 := by
  induction old generalizing deltas with
  | nil => rfl
  | cons score rest ih =>
      cases deltas with
      | nil =>
          rw [closingScores, ih, List.mapIdx_cons]
          simp
      | cons delta deltas =>
          rw [closingScores, ih, List.mapIdx_cons]
          simp

/-- Paying only moves the scores: the first opening stands, the totals add up. -/
theorem foldl_pay (payments : List Payment) (e : NoTileDraft) :
    payments.foldl (fun e payment => NoTileDraft.pay payment e) e =
      { e with
        oldScores := if e.oldScores = [] then openingScores payments else e.oldScores
        deltaScores := payments.foldl (fun totals payment => addDeltas totals payment.delta)
          e.deltaScores } := by
  induction payments generalizing e with
  | nil =>
      by_cases empty : e.oldScores = []
      · simp [openingScores, empty, NoTileDraft.ext_iff]
      · simp [empty]
  | cons payment rest ih =>
      rw [List.foldl_cons, ih]
      by_cases empty : e.oldScores = []
      · by_cases none : payment.old = []
        · simp [NoTileDraft.pay, openingScores, empty, none]
        · have found : (payment.old != []) = true := by simpa using none
          simp [NoTileDraft.pay, openingScores, empty, none, found]
      · simp [NoTileDraft.pay, empty]

theorem foldl_show (players : List NoTilePlayer) (e : NoTileDraft) :
    players.foldl (fun e player => NoTileDraft.show player e) e =
      { e with
        tenpai := e.tenpai ++ players.map NoTilePlayer.tenpai
        tenpaiHands := e.tenpaiHands ++ players.map NoTilePlayer.hand } := by
  induction players generalizing e with
  | nil => simp
  | cons player rest ih =>
      rw [List.foldl_cons, ih]
      simp [NoTileDraft.show]

/-- The fields of an exhaustive draw. -/
structure NoTileFields (e : NoTile) (fields : List Field) : Prop where
  settled : ∃ liujumanguan players payments, e = NoTile.settled liujumanguan players payments ∧
    boolAt fields 1 liujumanguan ∧
    messagesAt fields 2 (SpelledBy NoTilePlayerFields) players ∧
    messagesAt fields 3 (SpelledBy PaymentFields) payments

theorem noTile_lenses :
    Lens noTileArms (·.liujumanguan) 1 ∧
    Lens noTileArms (fun e => (e.tenpai, e.tenpaiHands)) 2 ∧
    Lens noTileArms (fun e => (e.oldScores, e.deltaScores)) 3 := by
  refine ⟨?_, ?_, ?_⟩
  · exact lens_sets (fun _ _ _ => rfl) <| lens_other (by decide) (fun _ _ => rfl) <|
      lens_other (by decide) (fun _ _ => rfl) <| lens_nil _ _
  · refine lens_other (by decide) (fun _ _ => rfl) ?_
    refine lens_updates (fun player before =>
      (before.1 ++ [player.tenpai], before.2 ++ [player.hand])) (fun _ _ => rfl) ?_
    exact lens_other (by decide) (fun _ _ => rfl) <| lens_nil _ _
  · refine lens_other (by decide) (fun _ _ => rfl) <| lens_other (by decide) (fun _ _ => rfl) ?_
    refine lens_updates (fun payment before =>
      (if before.1 = [] then payment.old else before.1, addDeltas before.2 payment.delta))
      (fun _ _ => rfl) ?_
    exact lens_nil _ _

theorem parseNoTile_spelled {e : NoTile} {buf : Bytes}
    (spelled : SpelledBy NoTileFields e buf) :
    parseNoTile buf = .ok e := by
  obtain ⟨fields, written, liujumanguan, players, payments, rfl, manguan, shown, paid⟩ := spelled
  have flag : Slot noTileArms {} fields 1 (·.liujumanguan) liujumanguan :=
    slot_bool rfl (fun _ _ => rfl) rfl manguan
  have hands : Slot noTileArms {} fields 2 (fun e => (e.tenpai, e.tenpaiHands)) _ :=
    slot_fold rfl (fun _ _ => parseNoTilePlayer_spelled) shown
  have scores : Slot noTileArms {} fields 3 (fun e => (e.oldScores, e.deltaScores)) _ :=
    slot_fold rfl (fun _ _ => parsePayment_spelled) paid
  rw [foldl_show] at hands
  rw [foldl_pay, foldl_addDeltas] at scores
  obtain ⟨final, parsed, read⟩ := parseMessage_spelled noTileArms written {} (by
    simp only [noTileArms, List.forall_mem_cons]
    exact ⟨flag.accepted, hands.accepted, scores.accepted, by simp⟩)
  obtain ⟨l₁, l₂, l₃⟩ := noTile_lenses
  have flagged := flag.final l₁ read
  obtain ⟨tenpai, tenpaiHands⟩ := Prod.mk.inj (hands.final l₂ read)
  obtain ⟨old, delta⟩ := Prod.mk.inj (scores.final l₃ read)
  rw [parseNoTile, parsed]
  simp only [Outcome.ok_bind, flagged, tenpai, tenpaiHands, old, delta, NoTile.settled,
    List.nil_append, if_true, Outcome.ok.injEq, NoTile.mk.injEq, and_true]
  rw [closingScores_eq]
  refine List.ext_getElem (by simp) fun i inside _ => ?_
  have value := foldl_addDeltas_getD [] payments i
  rw [foldl_addDeltas] at value
  simp only [List.getElem_mapIdx, value]
  simp

/-! ## New rounds -/

/-- The fields of a new round: four hands, and the indicators the first of which is
the marker. -/
structure NewRoundFields (e : NewRound) (fields : List Field) : Prop where
  chang : u32At fields 1 e.chang
  ju : u32At fields 2 e.ju
  ben : u32At fields 3 e.ben
  scores : intsAt fields 5 e.scores
  liqibang : u32At fields 6 e.liqibang
  doras : tilesAt fields 16 e.doras
  marker : e.doraMarker = e.doras.head?.getD ""
  hands : ∃ h₀ h₁ h₂ h₃, e.tiles = [h₀, h₁, h₂, h₃] ∧ tilesAt fields 7 h₀ ∧ tilesAt fields 8 h₁ ∧
    tilesAt fields 9 h₂ ∧ tilesAt fields 10 h₃

theorem newRound_lenses :
    Lens newRoundArms (·.chang) 1 ∧
    Lens newRoundArms (·.ju) 2 ∧
    Lens newRoundArms (·.ben) 3 ∧
    Lens newRoundArms (·.scores) 5 ∧
    Lens newRoundArms (·.liqibang) 6 ∧
    Lens newRoundArms (·.doras) 16 := by
  refine ⟨?_, ?_, ?_, ?_, ?_, ?_⟩ <;> repeat' first
    | exact lens_nil _ _
    | refine lens_other (by decide) (fun _ _ => rfl) ?_
    | refine lens_sets (fun _ _ _ => rfl) ?_
    | refine lens_appends (fun _ _ => rfl) ?_

theorem lens_otherHand {arms : List (Arm NewRound)} {other number : UInt32} {seat : Nat} {i : Nat}
    (differ : other ≠ number) (seats : seat ≠ i) (rest : Lens arms (fun e => e.tiles[i]?) number) :
    Lens (handArm other seat :: arms) (fun e => e.tiles[i]?) number := by
  refine lens_other differ (fun t e => ?_) rest
  simp [seats]

theorem lens_ownHand {arms : List (Arm NewRound)} {number : UInt32} {i : Nat}
    (rest : Lens arms (fun e => e.tiles[i]?) number) :
    Lens (handArm number i :: arms) (fun e => e.tiles[i]?) number := by
  refine lens_updates (fun t before => (· ++ [t]) <$> before) (fun t e => ?_) rest
  simp

/-- Each hand comes from its own field. -/
theorem newRound_hand_lenses :
    Lens newRoundArms (fun e => e.tiles[0]?) 7 ∧
    Lens newRoundArms (fun e => e.tiles[1]?) 8 ∧
    Lens newRoundArms (fun e => e.tiles[2]?) 9 ∧
    Lens newRoundArms (fun e => e.tiles[3]?) 10 := by
  refine ⟨?_, ?_, ?_, ?_⟩ <;> repeat' first
    | exact lens_nil _ _
    | refine lens_other (by decide) (fun _ _ => rfl) ?_
    | refine lens_otherHand (by decide) (by decide) ?_
    | refine lens_ownHand ?_

theorem slot_hand {fields : List Field} {number : UInt32} {seat : Nat} {hand : List String}
    (found : armAt newRoundArms number 2 = some (handArm number seat))
    (start : ({} : NewRound).tiles[seat]? = some []) (spelled : tilesAt fields number hand) :
    Slot newRoundArms {} fields number (fun e => e.tiles[seat]?) (some hand) := by
  obtain ⟨ts, rfl, spelled⟩ := spelled
  refine ⟨_, spelled ▸ readFields_repeated found (fun t _ => readTile_text t) {}, ?_⟩
  have grow : ∀ (ts : List Tile) (e : NewRound) (hand : List String), e.tiles[seat]? = some hand →
      (ts.foldl (fun e t => { e with tiles := e.tiles.modify seat (· ++ [t.mjai]) })
        e).tiles[seat]? = some (hand ++ ts.map Tile.mjai) := by
    intro ts
    induction ts with
    | nil =>
        intro e hand present
        simpa using present
    | cons t rest ih =>
        intro e hand present
        rw [List.foldl_cons, ih _ (hand ++ [t.mjai]) (by simp [present])]
        simp
  simpa using grow ts {} [] start

theorem newRound_four_hands {final : NewRound} {data : Bytes}
    (parsed : parseMessage newRoundArms {} data = .ok final) : final.tiles.length = 4 := by
  refine parseMessage_invariant (P := fun e : NewRound => e.tiles.length = 4) ?_ rfl parsed
  simp [newRoundArms, scoreArms, handArm, varintArm, tileArm, packedArm, arm, Outcome.map_eq_ok]

theorem parseNewRound_spelled {e : NewRound} {buf : Bytes}
    (spelled : SpelledBy NewRoundFields e buf) : parseNewRound buf = .ok e := by
  obtain ⟨fields, written, s⟩ := spelled
  obtain ⟨h₀, h₁, h₂, h₃, dealt, s₀, s₁, s₂, s₃⟩ := s.hands
  have chang : Slot newRoundArms {} fields 1 (·.chang) e.chang :=
    slot_u32 rfl (fun _ _ => rfl) rfl s.chang
  have ju : Slot newRoundArms {} fields 2 (·.ju) e.ju := slot_u32 rfl (fun _ _ => rfl) rfl s.ju
  have ben : Slot newRoundArms {} fields 3 (·.ben) e.ben := slot_u32 rfl (fun _ _ => rfl) rfl s.ben
  have scores : Slot newRoundArms {} fields 5 (·.scores) e.scores :=
    slot_scores rfl rfl (fun _ _ => rfl) rfl s.scores
  have liqibang : Slot newRoundArms {} fields 6 (·.liqibang) e.liqibang :=
    slot_u32 rfl (fun _ _ => rfl) rfl s.liqibang
  have doras : Slot newRoundArms {} fields 16 (·.doras) e.doras :=
    slot_tiles rfl (fun _ _ => rfl) rfl s.doras
  have first := slot_hand rfl rfl s₀
  have second := slot_hand rfl rfl s₁
  have third := slot_hand rfl rfl s₂
  have fourth := slot_hand rfl rfl s₃
  obtain ⟨final, parsed, read⟩ := parseMessage_spelled newRoundArms written {} (by
    simp only [newRoundArms, scoreArms, List.cons_append, List.nil_append, List.forall_mem_cons]
    exact ⟨chang.accepted, ju.accepted, ben.accepted, scores.accepted, scores.accepted,
      liqibang.accepted, first.accepted, second.accepted, third.accepted, fourth.accepted,
      doras.accepted, by simp⟩)
  obtain ⟨l₁, l₂, l₃, l₄, l₅, l₆⟩ := newRound_lenses
  obtain ⟨m₀, m₁, m₂, m₃⟩ := newRound_hand_lenses
  have hands : final.tiles = e.tiles := by
    have four := newRound_four_hands parsed
    have f₀ := first.final m₀ read
    have f₁ := second.final m₁ read
    have f₂ := third.final m₂ read
    have f₃ := fourth.final m₃ read
    obtain ⟨a, b, c, d, tiles⟩ := List.length_eq_four.mp four
    rw [tiles] at f₀ f₁ f₂ f₃ ⊢
    simp only [List.getElem?_cons_zero, List.getElem?_cons_succ, Option.some.injEq]
      at f₀ f₁ f₂ f₃
    rw [dealt, f₀, f₁, f₂, f₃]
  rw [parseNewRound, parsed, Outcome.ok_bind]
  have indicators : final.doras = e.doras := doras.final l₆ read
  have wind : final.chang = e.chang := chang.final l₁ read
  have dealer : final.ju = e.ju := ju.final l₂ read
  have honba : final.ben = e.ben := ben.final l₃ read
  have opening : final.scores = e.scores := scores.final l₄ read
  have sticks : final.liqibang = e.liqibang := liqibang.final l₅ read
  refine congrArg Outcome.ok (NewRound.ext wind dealer honba sticks ?_ indicators opening hands)
  rw [s.marker, ← indicators]

/-! ## Every event -/

def GameEvent.name : GameEvent → String
  | .newRound _ => ".lq.RecordNewRound"
  | .dealTile _ => ".lq.RecordDealTile"
  | .discardTile _ => ".lq.RecordDiscardTile"
  | .chiPengGang _ => ".lq.RecordChiPengGang"
  | .anGangAddGang _ => ".lq.RecordAnGangAddGang"
  | .hule _ => ".lq.RecordHule"
  | .noTile _ => ".lq.RecordNoTile"
  | .liuJu _ => ".lq.RecordLiuJu"
  | .baBei _ => ".lq.RecordBaBei"

/-- The bytes of an event. -/
def GameEvent.Spells : GameEvent → Bytes → Prop
  | .newRound e => SpelledBy NewRoundFields e
  | .dealTile e => SpelledBy DealTileFields e
  | .discardTile e => SpelledBy DiscardTileFields e
  | .chiPengGang e => SpelledBy ChiPengGangFields e
  | .anGangAddGang e => SpelledBy AnGangAddGangFields e
  | .hule e => SpelledBy HuleFields e
  | .noTile e => SpelledBy NoTileFields e
  | .liuJu e => SpelledBy LiuJuFields e
  | .baBei e => SpelledBy BaBeiFields e

/-- **A written event reads back.** -/
theorem parseRecordAction_spelled {event : GameEvent} {data : Bytes}
    (spelled : event.Spells data) : parseRecordAction event.name data = .ok (some event) := by
  cases event with
  | newRound e => simp [parseRecordAction, GameEvent.name, parseNewRound_spelled spelled]
  | dealTile e => simp [parseRecordAction, GameEvent.name, parseDealTile_spelled spelled]
  | discardTile e => simp [parseRecordAction, GameEvent.name, parseDiscardTile_spelled spelled]
  | chiPengGang e => simp [parseRecordAction, GameEvent.name, parseChiPengGang_spelled spelled]
  | anGangAddGang e => simp [parseRecordAction, GameEvent.name, parseAnGangAddGang_spelled spelled]
  | hule e => simp [parseRecordAction, GameEvent.name, parseHule_spelled spelled]
  | noTile e => simp [parseRecordAction, GameEvent.name, parseNoTile_spelled spelled]
  | liuJu e => simp [parseRecordAction, GameEvent.name, parseLiuJu_spelled spelled]
  | baBei e => simp [parseRecordAction, GameEvent.name, parseBaBei_spelled spelled]

end MajsoulManager.Majsoul
