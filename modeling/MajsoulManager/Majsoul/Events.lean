/-
# Majsoul.Events — the events of a hand

`events.rs`: one field table for each `Record*` message, and what each of them
panics on.  The only hazards are tiles and lengths (`parseRecordAction_panics`),
and a concealed kan never carries a tile its expansion would panic on
(`parseRecordAction_safe`).
-/
import MajsoulManager.Majsoul.Proto

namespace MajsoulManager.Majsoul

open MajsoulManager.Theory
open MajsoulManager.Store

set_option autoImplicit false

/-! ## The events -/

@[ext] structure NewRound where
  chang : UInt32 := 0
  ju : UInt32 := 0
  ben : UInt32 := 0
  liqibang : UInt32 := 0
  doraMarker : String := ""
  doras : List String := []
  scores : List Int32 := []
  tiles : List (List String) := [[], [], [], []]
  deriving DecidableEq

@[ext] structure DealTile where
  seat : UInt32 := 0
  tile : String := ""
  doras : List String := []
  deriving DecidableEq

@[ext] structure DiscardTile where
  seat : UInt32 := 0
  tile : String := ""
  isLiqi : Bool := false
  moqie : Bool := false
  isWliqi : Bool := false
  doras : List String := []
  deriving DecidableEq

inductive ChiPengGangType where
  | chi
  | pon
  | daiminkan
  deriving DecidableEq

@[ext] structure ChiPengGang where
  seat : UInt32 := 0
  callType : ChiPengGangType := .chi
  tiles : List String := []
  froms : List UInt32 := []
  deriving DecidableEq

inductive AnGangAddGangType where
  | kakan
  | ankan
  deriving DecidableEq

@[ext] structure AnGangAddGang where
  seat : UInt32 := 0
  gangType : AnGangAddGangType := .ankan
  tiles : String := ""
  doras : List String := []
  deriving DecidableEq

@[ext] structure FanInfo where
  id : UInt32 := 0
  name : String := ""
  val : UInt32 := 0
  deriving DecidableEq

structure Meld where
  kind : String
  tiles : List String
  deriving DecidableEq

@[ext] structure HuleInfo where
  seat : UInt32 := 0
  zimo : Bool := false
  hand : List String := []
  melds : List Meld := []
  huTile : String := ""
  fu : UInt32 := 0
  pointRong : Int32 := 0
  pointZimoQin : Int32 := 0
  pointZimoXian : Int32 := 0
  han : UInt32 := 0
  yiman : Bool := false
  riichi : Bool := false
  doras : List String := []
  uraDoras : List String := []
  yakus : List FanInfo := []
  deriving DecidableEq

@[ext] structure Hule where
  hules : List HuleInfo := []
  deltaScores : List Int32 := []
  scores : List Int32 := []
  doras : List String := []
  deriving DecidableEq

structure NoTile where
  scores : List Int32 := []
  deltaScores : List Int32 := []
  tenpai : List Bool := []
  liujumanguan : Bool := false
  tenpaiHands : List (List String) := []
  deriving DecidableEq

@[ext] structure LiuJu where
  liujuType : UInt32 := 0
  seat : Option UInt32 := none
  tiles : List String := []
  deriving DecidableEq

@[ext] structure BaBei where
  seat : UInt32 := 0
  moqie : Bool := false
  doras : List String := []
  deriving DecidableEq

inductive GameEvent where
  | newRound (e : NewRound)
  | dealTile (e : DealTile)
  | discardTile (e : DiscardTile)
  | chiPengGang (e : ChiPengGang)
  | anGangAddGang (e : AnGangAddGang)
  | hule (e : Hule)
  | noTile (e : NoTile)
  | liuJu (e : LiuJu)
  | baBei (e : BaBei)
  deriving DecidableEq

/-! ## Their field tables -/

/-- Packed, or one value a field: scores come either way. -/
def scoreArms {σ : Type} (number : UInt32) (extend : List Int32 → σ → σ) : List (Arm σ) :=
  [ packedArm number extend
  , varintArm number fun v => extend [asI32 v] ]

def handArm (number : UInt32) (seat : Nat) : Arm NewRound :=
  tileArm number fun t e => { e with tiles := e.tiles.modify seat (· ++ [t]) }

def newRoundArms : List (Arm NewRound) :=
  [ varintArm 1 fun v e => { e with chang := v.toUInt32 }
  , varintArm 2 fun v e => { e with ju := v.toUInt32 }
  , varintArm 3 fun v e => { e with ben := v.toUInt32 } ] ++
  scoreArms 5 (fun more e => { e with scores := e.scores ++ more }) ++
  [ varintArm 6 fun v e => { e with liqibang := v.toUInt32 }
  , handArm 7 0
  , handArm 8 1
  , handArm 9 2
  , handArm 10 3
  , tileArm 16 fun t e => { e with doras := e.doras ++ [t] } ]

def parseNewRound (data : Bytes) : Outcome Error NewRound := do
  let e ← parseMessage newRoundArms {} data
  .ok { e with doraMarker := e.doras.head?.getD "" }

def dealTileArms : List (Arm DealTile) :=
  [ varintArm 1 fun v e => { e with seat := v.toUInt32 }
  , tileArm 2 fun t e => { e with tile := t }
  , tileArm 6 fun t e => { e with doras := e.doras ++ [t] } ]

def parseDealTile (data : Bytes) : Outcome Error DealTile := parseMessage dealTileArms {} data

def discardTileArms : List (Arm DiscardTile) :=
  [ varintArm 1 fun v e => { e with seat := v.toUInt32 }
  , tileArm 2 fun t e => { e with tile := t }
  , varintArm 3 fun v e => { e with isLiqi := v != 0 }
  , varintArm 5 fun v e => { e with moqie := v != 0 }
  , tileArm 8 fun t e => { e with doras := e.doras ++ [t] }
  , varintArm 9 fun v e => { e with isWliqi := v != 0 } ]

def parseDiscardTile (data : Bytes) : Outcome Error DiscardTile :=
  parseMessage discardTileArms {} data

/-- An unknown type reads as a chi. -/
def ChiPengGangType.of (t : UInt32) : ChiPengGangType :=
  if t = 1 then .pon else if t = 2 then .daiminkan else .chi

def chiPengGangArms : List (Arm ChiPengGang) :=
  [ varintArm 1 fun v e => { e with seat := v.toUInt32 }
  , varintArm 2 fun v e => { e with callType := .of v.toUInt32 }
  , tileArm 3 fun t e => { e with tiles := e.tiles ++ [t] } ] ++
  scoreArms 4 (fun more e => { e with froms := e.froms ++ more.map (·.toUInt32) })

def parseChiPengGang (data : Bytes) : Outcome Error ChiPengGang :=
  parseMessage chiPengGangArms {} data

/-- 2 is the added kan and 3 the concealed one, as is anything unknown. -/
def AnGangAddGangType.of (t : UInt32) : AnGangAddGangType :=
  if t = 2 then .kakan else .ankan

def anGangAddGangArms : List (Arm AnGangAddGang) :=
  [ varintArm 1 fun v e => { e with seat := v.toUInt32 }
  , varintArm 2 fun v e => { e with gangType := .of v.toUInt32 }
  , tileArm 3 fun t e => { e with tiles := t }
  , tileArm 6 fun t e => { e with doras := e.doras ++ [t] } ]

def parseAnGangAddGang (data : Bytes) : Outcome Error AnGangAddGang :=
  parseMessage anGangAddGangArms {} data

/-- `kezi(1z,1z,1z)`: the kind, and the text between the brackets. -/
def meldParts (value : String) : Except Error (String × String) :=
  match Text.splitOnce value '(' with
  | none => .error ["meld " ++ value ++ " has no opening bracket"]
  | some (kind, rest) =>
      match Text.stripSuffix rest ')' with
      | none => .error ["meld " ++ value ++ " has no closing bracket"]
      | some tiles => .ok (kind, tiles)

def parseMeld (value : String) : Outcome Error Meld := do
  let (kind, tiles) ← ofExcept (meldParts value)
  let tiles ← (Text.split tiles ',').mapM tileStrToMjai
  .ok ⟨kind, tiles⟩

def fanInfoArms : List (Arm FanInfo) :=
  [ textArm 1 fun name e => { e with name := name }
  , varintArm 2 fun v e => { e with val := v.toUInt32 }
  , varintArm 3 fun v e => { e with id := v.toUInt32 } ]

def parseFanInfo (data : Bytes) : Outcome Error FanInfo := parseMessage fanInfoArms {} data

def huleInfoArms : List (Arm HuleInfo) :=
  [ tileArm 1 fun t e => { e with hand := e.hand ++ [t] }
  , arm 2 2 (fun data => parseMeld (extractString data)) fun meld e =>
      { e with melds := e.melds ++ [meld] }
  , tileArm 3 fun t e => { e with huTile := t }
  , varintArm 4 fun v e => { e with seat := v.toUInt32 }
  , varintArm 5 fun v e => { e with zimo := v != 0 }
  , varintArm 7 fun v e => { e with riichi := v != 0 }
  , tileArm 8 fun t e => { e with doras := e.doras ++ [t] }
  , tileArm 9 fun t e => { e with uraDoras := e.uraDoras ++ [t] }
  , varintArm 10 fun v e => { e with yiman := v != 0 }
  , varintArm 11 fun v e => { e with han := v.toUInt32 }
  , arm 12 2 parseFanInfo fun fan e => { e with yakus := e.yakus ++ [fan] }
  , varintArm 13 fun v e => { e with fu := v.toUInt32 }
  , varintArm 15 fun v e => { e with pointRong := asI32 v }
  , varintArm 16 fun v e => { e with pointZimoQin := asI32 v }
  , varintArm 17 fun v e => { e with pointZimoXian := asI32 v } ]

def parseHuleInfo (data : Bytes) : Outcome Error HuleInfo := parseMessage huleInfoArms {} data

def huleArms : List (Arm Hule) :=
  [ arm 1 2 parseHuleInfo fun hule e => { e with hules := e.hules ++ [hule] } ] ++
  scoreArms 3 (fun more e => { e with deltaScores := e.deltaScores ++ more }) ++
  scoreArms 5 (fun more e => { e with scores := e.scores ++ more }) ++
  [ tileArm 7 fun t e => { e with doras := e.doras ++ [t] } ]

def parseHule (data : Bytes) : Outcome Error Hule := parseMessage huleArms {} data

/-- What a seat showed at an exhaustive draw. -/
@[ext] structure NoTilePlayer where
  tenpai : Bool := false
  hand : List String := []

def noTilePlayerArms : List (Arm NoTilePlayer) :=
  [ varintArm 3 fun v e => { e with tenpai := v != 0 }
  , tileArm 4 fun t e => { e with hand := e.hand ++ [t] } ]

/-- One payment of an exhaustive draw. -/
@[ext] structure Payment where
  old : List Int32 := []
  delta : List Int32 := []

def paymentArms : List (Arm Payment) :=
  scoreArms 2 (fun more e => { e with old := e.old ++ more }) ++
  scoreArms 3 (fun more e => { e with delta := e.delta ++ more })

/-- The totals, padded with zeros to the length of the payment; the sums wrap. -/
def addDeltas : List Int32 → List Int32 → List Int32
  | totals, [] => totals
  | [], one :: more => (0 + one) :: addDeltas [] more
  | total :: totals, one :: more => (total + one) :: addDeltas totals more

/-- Each opening score with its total, a seat without one gaining nothing. -/
def closingScores : List Int32 → List Int32 → List Int32
  | [], _ => []
  | old :: rest, [] => (old + 0) :: closingScores rest []
  | old :: rest, delta :: deltas => (old + delta) :: closingScores rest deltas

/-- The variables of `parse_no_tile`. -/
@[ext] structure NoTileDraft where
  oldScores : List Int32 := []
  deltaScores : List Int32 := []
  tenpai : List Bool := []
  tenpaiHands : List (List String) := []
  liujumanguan : Bool := false

def NoTileDraft.show (player : NoTilePlayer) (e : NoTileDraft) : NoTileDraft :=
  { e with
    tenpai := e.tenpai ++ [player.tenpai]
    tenpaiHands := e.tenpaiHands ++ [player.hand] }

/-- The first opening scores stand; the deltas add up. -/
def NoTileDraft.pay (payment : Payment) (e : NoTileDraft) : NoTileDraft :=
  { e with
    oldScores := if e.oldScores = [] then payment.old else e.oldScores
    deltaScores := addDeltas e.deltaScores payment.delta }

def noTileArms : List (Arm NoTileDraft) :=
  [ varintArm 1 fun v e => { e with liujumanguan := v != 0 }
  , arm 2 2 (parseMessage noTilePlayerArms {}) NoTileDraft.show
  , arm 3 2 (parseMessage paymentArms {}) NoTileDraft.pay ]

def parseNoTile (data : Bytes) : Outcome Error NoTile := do
  let e ← parseMessage noTileArms {} data
  .ok
    { scores := closingScores e.oldScores e.deltaScores
      deltaScores := e.deltaScores
      tenpai := e.tenpai
      liujumanguan := e.liujumanguan
      tenpaiHands := e.tenpaiHands }

def liuJuArms : List (Arm LiuJu) :=
  [ varintArm 1 fun v e => { e with liujuType := v.toUInt32 }
  , varintArm 3 fun v e => { e with seat := some v.toUInt32 }
  , tileArm 4 fun t e => { e with tiles := e.tiles ++ [t] } ]

def parseLiuJu (data : Bytes) : Outcome Error LiuJu := parseMessage liuJuArms {} data

def baBeiArms : List (Arm BaBei) :=
  [ varintArm 1 fun v e => { e with seat := v.toUInt32 }
  , tileArm 6 fun t e => { e with doras := e.doras ++ [t] }
  , varintArm 8 fun v e => { e with moqie := v != 0 } ]

def parseBaBei (data : Bytes) : Outcome Error BaBei := parseMessage baBeiArms {} data

/-- An action of a name the game does not use is no event. -/
def parseRecordAction (name : String) (data : Bytes) : Outcome Error (Option GameEvent) :=
  if name = ".lq.RecordNewRound" then (some ∘ .newRound) <$> parseNewRound data
  else if name = ".lq.RecordDealTile" then (some ∘ .dealTile) <$> parseDealTile data
  else if name = ".lq.RecordDiscardTile" then (some ∘ .discardTile) <$> parseDiscardTile data
  else if name = ".lq.RecordChiPengGang" then (some ∘ .chiPengGang) <$> parseChiPengGang data
  else if name = ".lq.RecordAnGangAddGang" then
    (some ∘ .anGangAddGang) <$> parseAnGangAddGang data
  else if name = ".lq.RecordHule" then (some ∘ .hule) <$> parseHule data
  else if name = ".lq.RecordNoTile" then (some ∘ .noTile) <$> parseNoTile data
  else if name = ".lq.RecordLiuJu" then (some ∘ .liuJu) <$> parseLiuJu data
  else if name = ".lq.RecordBaBei" then (some ∘ .baBei) <$> parseBaBei data
  else .ok none

/-! ## What they panic on -/

/-- A message whose only hazards are the tiles in these fields. -/
def tileHazard {σ : Type} (arms : List (Arm σ)) (numbers : List UInt32) (data : Bytes) : Prop :=
  MessageHazard (Accepts arms) (tileIn numbers) data

theorem parseNewRound_panics (data : Bytes) :
    (parseNewRound data).Panics ↔ tileHazard newRoundArms [7, 8, 9, 10, 16] data := by
  have walk : (parseMessage newRoundArms {} data).Panics ↔
      tileHazard newRoundArms [7, 8, 9, 10, 16] data := by
    refine parseMessage_panics newRoundArms (by decide) (fun field => ?_) {} data
    simp [newRoundArms, scoreArms, handArm]
  rw [parseNewRound, Outcome.bind_panics, walk]
  simp

theorem parseDealTile_panics (data : Bytes) :
    (parseDealTile data).Panics ↔ tileHazard dealTileArms [2, 6] data := by
  refine parseMessage_panics dealTileArms (by decide) (fun field => ?_) {} data
  simp [dealTileArms]

theorem parseDiscardTile_panics (data : Bytes) :
    (parseDiscardTile data).Panics ↔ tileHazard discardTileArms [2, 8] data := by
  refine parseMessage_panics discardTileArms (by decide) (fun field => ?_) {} data
  simp [discardTileArms]

theorem parseChiPengGang_panics (data : Bytes) :
    (parseChiPengGang data).Panics ↔ tileHazard chiPengGangArms [3] data := by
  refine parseMessage_panics chiPengGangArms (by decide) (fun field => ?_) {} data
  simp [chiPengGangArms, scoreArms]

theorem parseAnGangAddGang_panics (data : Bytes) :
    (parseAnGangAddGang data).Panics ↔ tileHazard anGangAddGangArms [3, 6] data := by
  refine parseMessage_panics anGangAddGangArms (by decide) (fun field => ?_) {} data
  simp [anGangAddGangArms]

theorem parseLiuJu_panics (data : Bytes) :
    (parseLiuJu data).Panics ↔ tileHazard liuJuArms [4] data := by
  refine parseMessage_panics liuJuArms (by decide) (fun field => ?_) {} data
  simp [liuJuArms]

theorem parseBaBei_panics (data : Bytes) :
    (parseBaBei data).Panics ↔ tileHazard baBeiArms [6] data := by
  refine parseMessage_panics baBeiArms (by decide) (fun field => ?_) {} data
  simp [baBeiArms]

/-- A meld in brackets with a lone character among its tiles, the tiles before it
converted. -/
def meldHazard (value : String) : Prop :=
  ∃ kind tiles, meldParts value = .ok (kind, tiles) ∧
    firstHazard tileStrToMjai LoneChar (Text.split tiles ',')

theorem parseMeld_panics (value : String) : (parseMeld value).Panics ↔ meldHazard value := by
  unfold parseMeld meldHazard
  rw [Outcome.bind_panics]
  simp only [ofExcept_panics, false_or, ofExcept_eq_ok, Prod.exists, Outcome.bind_panics,
    mapM_panics_first tileStrToMjai_panics, Outcome.ok_panics, and_false, exists_false, or_false]

/-- The walk of a win reaches a lone tile, a meld with one, or a length that wraps. -/
def huleInfoHazard (data : Bytes) : Prop :=
  MessageHazard (Accepts huleInfoArms)
    (fun field => tileIn [1, 3, 8, 9] field ∨ inField 2 (meldHazard ∘ extractString) field ∨
      inField 12 (plainHazard fanInfoArms) field) data

theorem parseHuleInfo_panics (data : Bytes) :
    (parseHuleInfo data).Panics ↔ huleInfoHazard data := by
  have fans : ∀ data, (parseFanInfo data).Panics ↔ plainHazard fanInfoArms data :=
    parseMessage_panics fanInfoArms (by decide) (by simp [fanInfoArms]) {}
  refine parseMessage_panics huleInfoArms (by decide) (fun field => ?_) {} data
  have meldData : ∀ data, (parseMeld (extractString data)).Panics ↔
      (meldHazard ∘ extractString) data := fun data => parseMeld_panics (extractString data)
  simp only [huleInfoArms, armPanics_tile, armPanics_varint, armPanics_arm fans,
    armPanics_arm meldData, armPanics_nil, tileIn_cons, tileIn_nil]
  tauto

/-- The walk of a hand's wins reaches a win that panics, a lone tile, or a length
that wraps. -/
def huleHazard (data : Bytes) : Prop :=
  MessageHazard (Accepts huleArms) (fun field => inField 1 huleInfoHazard field ∨ tileIn [7] field)
    data

theorem parseHule_panics (data : Bytes) : (parseHule data).Panics ↔ huleHazard data := by
  refine parseMessage_panics huleArms (by decide) (fun field => ?_) {} data
  simp [huleArms, scoreArms, armPanics_arm parseHuleInfo_panics]

/-- The walk of a draw, of a seat's hand or of a payment reaches a lone tile or a
length that wraps. -/
def noTileHazard (data : Bytes) : Prop :=
  MessageHazard (Accepts noTileArms)
    (fun field => inField 2 (tileHazard noTilePlayerArms [4]) field ∨
      inField 3 (plainHazard paymentArms) field) data

theorem parseNoTile_panics (data : Bytes) : (parseNoTile data).Panics ↔ noTileHazard data := by
  have players : ∀ data, (parseMessage noTilePlayerArms {} data).Panics ↔
      tileHazard noTilePlayerArms [4] data := by
    refine parseMessage_panics noTilePlayerArms (by decide) (fun field => ?_) {}
    simp [noTilePlayerArms]
  have payments : ∀ data, (parseMessage paymentArms {} data).Panics ↔
      plainHazard paymentArms data :=
    parseMessage_panics paymentArms (by decide) (by simp [paymentArms, scoreArms]) {}
  have walk : (parseMessage noTileArms {} data).Panics ↔ noTileHazard data := by
    refine parseMessage_panics noTileArms (by decide) (fun field => ?_) {} data
    simp [noTileArms, armPanics_arm players, armPanics_arm payments]
  rw [parseNoTile, Outcome.bind_panics, walk]
  simp

/-- What the message of an action's name panics on. -/
def eventHazard (name : String) (data : Bytes) : Prop :=
  if name = ".lq.RecordNewRound" then tileHazard newRoundArms [7, 8, 9, 10, 16] data
  else if name = ".lq.RecordDealTile" then tileHazard dealTileArms [2, 6] data
  else if name = ".lq.RecordDiscardTile" then tileHazard discardTileArms [2, 8] data
  else if name = ".lq.RecordChiPengGang" then tileHazard chiPengGangArms [3] data
  else if name = ".lq.RecordAnGangAddGang" then tileHazard anGangAddGangArms [3, 6] data
  else if name = ".lq.RecordHule" then huleHazard data
  else if name = ".lq.RecordNoTile" then noTileHazard data
  else if name = ".lq.RecordLiuJu" then tileHazard liuJuArms [4] data
  else if name = ".lq.RecordBaBei" then tileHazard baBeiArms [6] data
  else False

/-- **What reading an action panics on.** -/
theorem parseRecordAction_panics (name : String) (data : Bytes) :
    (parseRecordAction name data).Panics ↔ eventHazard name data := by
  unfold parseRecordAction eventHazard
  repeat' split
  · rw [Outcome.map_panics, parseNewRound_panics]
  · rw [Outcome.map_panics, parseDealTile_panics]
  · rw [Outcome.map_panics, parseDiscardTile_panics]
  · rw [Outcome.map_panics, parseChiPengGang_panics]
  · rw [Outcome.map_panics, parseAnGangAddGang_panics]
  · rw [Outcome.map_panics, parseHule_panics]
  · rw [Outcome.map_panics, parseNoTile_panics]
  · rw [Outcome.map_panics, parseLiuJu_panics]
  · rw [Outcome.map_panics, parseBaBei_panics]
  · simp

/-! ## What they never carry -/

/-- No kan of the event is on a tile that its expansion would panic on. -/
def GameEvent.Safe : GameEvent → Prop
  | .anGangAddGang e => ¬ LoneChar e.tiles
  | _ => True

instance (event : GameEvent) : Decidable event.Safe :=
  match event with
  | .anGangAddGang e => inferInstanceAs (Decidable (¬ LoneChar e.tiles))
  | .newRound _ | .dealTile _ | .discardTile _ | .chiPengGang _ | .hule _ | .noTile _ | .liuJu _
  | .baBei _ => isTrue trivial

theorem parseAnGangAddGang_safe {data : Bytes} {e : AnGangAddGang}
    (parsed : parseAnGangAddGang data = .ok e) : ¬ LoneChar e.tiles := by
  refine parseMessage_invariant (P := fun e : AnGangAddGang => ¬ LoneChar e.tiles) ?_
    (by decide) parsed
  have converted : ∀ data t, readTile data = .ok t → ¬ LoneChar t :=
    fun data t read => tileStrToMjai_safe read
  simp only [anGangAddGangArms, List.forall_mem_cons, List.not_mem_nil, false_implies,
    implies_true, and_true]
  refine ⟨?_, ?_, ?_, ?_⟩ <;>
    (intro data change accepted value holds
     simp only [varintArm, tileArm, arm, Outcome.map_eq_ok] at accepted
     obtain ⟨read, got, rfl⟩ := accepted)
  · exact holds
  · exact holds
  · exact converted data read got
  · exact holds

/-- **A parsed kan is always safe to expand.** -/
theorem parseRecordAction_safe {name : String} {data : Bytes} {event : GameEvent}
    (parsed : parseRecordAction name data = .ok (some event)) : event.Safe := by
  cases event with
  | anGangAddGang e =>
      have read : parseAnGangAddGang data = .ok e := by
        unfold parseRecordAction at parsed
        repeat' split at parsed
        all_goals simp [Outcome.map_eq_ok] at parsed
        exact parsed
      exact parseAnGangAddGang_safe read
  | _ => trivial

end MajsoulManager.Majsoul
