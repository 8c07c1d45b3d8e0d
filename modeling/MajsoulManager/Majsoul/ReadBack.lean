/-
# Majsoul.ReadBack — what the converter writes, the ingest path reads

`convert_record_bytes` prints one event a line and compresses the lines; the ingest
path uncompresses them and reads the metadata off the header.  Printing and
compressing are third-party code: what is assumed of them is `Undone`, for the
events of the record at hand only.
-/
import MajsoulManager.Majsoul.RoundTrip
import MajsoulManager.Theory.Utf8

namespace MajsoulManager.Majsoul

open MajsoulManager.Theory
open MajsoulManager.Store
open MajsoulManager.Record

set_option autoImplicit false

/-! ## Lines of JSON -/

/-- A printed object reads back; it opens with a brace, and control characters in it
are escaped. -/
structure ReadsBack (serde : Serde) (value : Value) : Prop where
  inverse : serde.fromStr (serde.print value) = .ok value
  printable : ∀ c ∈ (serde.print value).toList, ' ' ≤ c
  braced : (serde.print value).toList.head? = some '{'

/-- The events of one record read back, and their lines uncompress. -/
structure Undone (output : Output) (gunzip : Bytes → Option Bytes) (events : List Value) :
    Prop where
  reads : ∀ event ∈ events, ReadsBack output.serde event
  gunzips : gunzip (output.gzip (ndjson output.serde events)) = some (ndjson output.serde events)

section Lines

variable {serde : Serde}

theorem ReadsBack.clean {value : Value} (back : ReadsBack serde value) :
    '\n' ∉ (serde.print value).toList ∧ '\r' ∉ (serde.print value).toList :=
  ⟨fun inside => absurd (back.printable _ inside) (by decide),
    fun inside => absurd (back.printable _ inside) (by decide)⟩

theorem ReadsBack.trim_ne {value : Value} (back : ReadsBack serde value) :
    (Text.trim (serde.print value) != "") = true := by
  have first := Text.trim_head back.braced (by decide)
  rw [bne_iff_ne]
  intro empty
  rw [empty] at first
  cases first

theorem mapM_readLine {events : List Value} (reads : ∀ event ∈ events, ReadsBack serde event) :
    (events.map serde.print).mapM (readLine serde) = .ok events := by
  induction events with
  | nil => rfl
  | cons event rest ih =>
      obtain ⟨here, later⟩ := List.forall_mem_cons.mp reads
      have line : readLine serde (serde.print event) = .ok event := by
        rw [readLine, here.inverse]
      rw [List.map_cons, List.mapM_cons, line, ih later]
      rfl

theorem ndjson_eq (events : List Value) :
    ndjson serde events =
      Text.utf8 (String.join ((events.map serde.print).map fun line => line ++ "\n")) := by
  rw [ndjson, Text.toUTF8_toList, List.map_map]
  rfl

/-- **The lines of some objects read back as those objects.** -/
theorem events_ndjson {events : List Value} (some : events ≠ [])
    (objects : ∀ event ∈ events, event.isObject = true)
    (reads : ∀ event ∈ events, ReadsBack serde event) :
    Record.events serde (ndjson serde events) = .ok events := by
  obtain ⟨first, rest, rfl⟩ := List.exists_cons_of_ne_nil some
  set text := String.join (((first :: rest).map serde.print).map fun line => line ++ "\n") with whole
  have opens : text.toList.head? = Option.some '{' := by
    obtain ⟨more, chars⟩ := List.head?_eq_some_iff.mp (reads first (by simp)).braced
    rw [whole, List.map_cons, List.map_cons, String.toList_join]
    simp [chars]
  have head := Text.trim_head opens (by decide)
  have kept : Text.lines text = (first :: rest).map serde.print := by
    refine Text.lines_join fun line member => ?_
    obtain ⟨event, inside, rfl⟩ := List.mem_map.mp member
    exact (reads event inside).clean
  have all : (((first :: rest).map serde.print).filter fun line => Text.trim line != "") =
      (first :: rest).map serde.print := by
    refine List.filter_eq_self.mpr fun line member => ?_
    obtain ⟨event, inside, rfl⟩ := List.mem_map.mp member
    exact (reads event inside).trim_ne
  have filled : Text.trim text ≠ "" := by
    intro empty
    rw [empty] at head
    cases head
  have object : ((first :: rest).isEmpty || (first :: rest).any fun event => !event.isObject) =
      false := by
    simpa using objects
  rw [Record.events, ndjson_eq, Text.fromUtf8_utf8]
  simp only
  rw [if_neg filled, if_neg (by rw [head]; decide), kept, all, mapM_readLine reads]
  simp only [bind, Except.bind, object]
  rfl

end Lines

/-! ## The header -/

/-- The filter token of a game. -/
def ruleToken (metadata : GameMetadata) : String :=
  toString metadata.players.toNat ++ "p-" ++ metadata.room ++ "-" ++ metadata.gameLength

/-- What ingest reads of a record whose header carries `chosen`. -/
structure HeaderOf (record : GameRecord) (chosen : Option GameMetadata) (read : Metadata) :
    Prop where
  players : read.players = record.playerNames.map fun name => Text.takeChars name 128
  uuid : read.majsoulUuid =
    if 1 ≤ (Text.trim record.uuid).utf8ByteSize ∧ (Text.trim record.uuid).utf8ByteSize ≤ 128 then
      some (Text.trim record.uuid)
    else none
  playedAt : ∃ time, read.playedAt = some time ∧ time.secs = record.startTime.toNat ∧ time.nanos = 0
  rule : read.rule = chosen.map ruleToken

theorem isGameUuid_iff (uuid : String) :
    isGameUuid uuid = true ↔ 1 ≤ uuid.utf8ByteSize ∧ uuid.utf8ByteSize ≤ 128 := by
  have empty : uuid ≠ "" ↔ 1 ≤ uuid.utf8ByteSize := by
    rw [Nat.one_le_iff_ne_zero, ne_eq, ne_eq, String.utf8ByteSize_eq_zero_iff]
  simp [isGameUuid, empty]

theorem headerUuid_header (record : GameRecord) (metadata : Option GameMetadata) :
    headerUuid (some (majsoulHeader record metadata)) =
      if 1 ≤ (Text.trim record.uuid).utf8ByteSize ∧ (Text.trim record.uuid).utf8ByteSize ≤ 128 then
        some (Text.trim record.uuid)
      else none := by
  have read : headerUuid (some (majsoulHeader record metadata)) =
      (some (Text.trim record.uuid)).filter isGameUuid := rfl
  rw [read, Option.filter_some]
  simp only [isGameUuid_iff]

/-- A `u32` is an `i64` of the same value. -/
theorem asI64_u32 (n : UInt32) : ∃ seconds, (u32 n).asI64 = some seconds ∧ seconds.toInt = n.toNat := by
  have small : n.toNat < 2 ^ 32 := n.toNat_lt
  have same : n.toUInt64.toNat = n.toNat := UInt32.toNat_toUInt64 n
  refine ⟨n.toUInt64.toInt64, if_pos (by omega), ?_⟩
  change n.toUInt64.toBitVec.toInt = n.toNat
  rw [BitVec.toInt_eq_toNat_of_lt, UInt64.toNat_toBitVec, same]
  rw [UInt64.toNat_toBitVec, same]
  omega

theorem headerPlayedAt_header (record : GameRecord) (metadata : Option GameMetadata) :
    ∃ time, headerPlayedAt (some (majsoulHeader record metadata)) = some time ∧
      time.secs = record.startTime.toNat ∧ time.nanos = 0 := by
  have small : record.startTime.toNat < 2 ^ 32 := record.startTime.toNat_lt
  obtain ⟨seconds, read, value⟩ := asI64_u32 record.startTime
  obtain ⟨time, exists_, secs, nanos⟩ := DateTime.fromTimestamp_u32
    (show 0 ≤ (record.startTime.toNat : Int) by omega) (by omega)
  refine ⟨time, ?_, secs, nanos⟩
  change ((u32 record.startTime).asI64.bind fun seconds =>
    DateTime.fromTimestamp seconds.toInt 0) = some time
  rw [read, Option.bind_some, value, exists_]

theorem headerRule_header (record : GameRecord) (metadata : Option GameMetadata) :
    headerRule (some (majsoulHeader record metadata)) = metadata.map ruleToken := by
  cases metadata with
  | none => rfl
  | some metadata =>
      change some (toString metadata.players.toUInt64.toNat ++ "p-" ++ metadata.room ++ "-" ++
        metadata.gameLength) = _
      rw [UInt8.toNat_toUInt64]
      rfl

/-- What a text is read back as, in a list of names. -/
theorem names_back (names : List String) : (names.map Value.string).filterMap Value.asStr = names := by
  induction names with
  | nil => rfl
  | cons name rest ih => exact congrArg (List.cons name) ih

theorem startEvent_majsoul (record : GameRecord) (metadata : Option GameMetadata)
    (rest : List Value) :
    (startEvent (startGame record metadata :: rest)).get "majsoul" =
      some (majsoulHeader record metadata) := rfl

/-- **The header carries the record's names, uuid, time and rule.** -/
theorem metadataOf_startGame (serde : Serde) (record : GameRecord) (metadata : Option GameMetadata)
    (rest : List Value) :
    HeaderOf record metadata (metadataOf serde (startGame record metadata :: rest)) where
  players := by
    change ((record.playerNames.map Value.string).filterMap Value.asStr).map _ = _
    rw [names_back]
  uuid := by
    simp only [metadataOf, startEvent_majsoul]
    exact headerUuid_header record metadata
  playedAt := by
    simp only [metadataOf, startEvent_majsoul]
    exact headerPlayedAt_header record metadata
  rule := headerRule_header record metadata

/-! ## The whole way -/

/-- **What the converter writes, the ingest path reads back**: exactly the events
that were emitted, and the header of the record, with the players in the order of
their seats.  The count of the events is theirs up to the largest `u32`. -/
theorem convertRecordBytes_readBack (output : Output) (gunzip : Bytes → Option Bytes) (raw : Bytes)
    (metadata : Option GameMetadata) {uuid : String} {compressed : Bytes}
    (converted : convertRecordBytes output raw metadata = .ok (uuid, compressed))
    (undone : ∀ record events, decodeGameRecord raw = .ok record →
      emitEvents record metadata = .ok events → Undone output gunzip events) :
    ∃ record events payload read,
      decodeGameRecord raw = .ok record ∧ emitEvents record metadata = .ok events ∧
      uuid = record.uuid ∧ gunzip compressed = some payload ∧
      Record.events output.serde payload = .ok events ∧
      parseMetadata output.serde payload = .ok read ∧
      record.playerAccounts.Pairwise (fun a b => a.seat ≤ b.seat) ∧
      HeaderOf record (chosenMetadata metadata record) read ∧
      read.eventCount.toNat = min events.length (2 ^ 32 - 1) := by
  unfold convertRecordBytes at converted
  split at converted
  · cases converted
  obtain ⟨record, decoded, converted⟩ := Outcome.bind_eq_ok.mp converted
  obtain ⟨events, emitted, same⟩ := Outcome.bind_eq_ok.mp converted
  cases same
  have decoded := Outcome.mapErr_eq_ok.mp decoded
  obtain ⟨reads, gunzips⟩ := undone record events decoded emitted
  obtain ⟨⟨rest, opens⟩, objects⟩ := emitEvents_ok emitted
  have back := events_ndjson (by simp [opens]) objects reads
  refine ⟨record, events, _, metadataOf output.serde events, decoded, emitted, rfl, gunzips, back,
    ?_, ?_, ?_, ?_⟩
  · rw [parseMetadata, back]
  · obtain ⟨answer, -, decoded⟩ := Outcome.bind_eq_ok.mp decoded
    obtain ⟨records, -, same⟩ := Outcome.bind_eq_ok.mp decoded
    cases same
    exact sortBySeat_pairwise _ _
  · rw [opens]
    exact metadataOf_startGame _ _ _ _
  · exact UInt32.toNat_ofNat_of_lt' (by rw [UInt32.size]; omega)

/-! ## Games of draws -/

/-- A draw of which nothing is written. -/
def blankDraw : RecordAction := ⟨".lq.RecordDealTile", [], none⟩

def blankWrapper : List Field := [textField 1 blankDraw.name]

def blankGameAction : List Field := [bytesField 3 (encodeFields blankWrapper)]

def drawsDetail (n : Nat) : List Field :=
  varintField 2 210715 :: List.replicate n (bytesField 3 (encodeFields blankGameAction))

def drawsBody (n : Nat) : List Field := [bytesField 2 (encodeFields (drawsDetail n))]

def drawsAnswer (n : Nat) : List Field := [bytesField 4 (encodeFields (drawsBody n))]

/-- A record of `n` blank draws, without a head. -/
def draws (n : Nat) : Bytes := encodeFields (drawsAnswer n)

def drawsRecord (n : Nat) : GameRecord := ({} : Head).record (List.replicate n blankDraw)

def blankTsumo : Value := mjai "tsumo" [("actor", u32 0), ("pai", .string "")]

def drawsEvents (n : Nat) : List Value :=
  startGame (drawsRecord n) none :: (List.replicate n blankTsumo ++ [endGame (drawsRecord n)])

theorem varintBytes_length (fuel value : Nat) : (varintBytes fuel value).length ≤ fuel := by
  induction fuel generalizing value with
  | zero => simp [varintBytes]
  | succ fuel ih =>
      have rest := ih (value / 128)
      rw [varintBytes]
      split <;> simp only [List.length_cons, List.length_nil] <;> omega

theorem encodeFields_one_length (number : UInt32) (data : Bytes) :
    data.length ≤ (encodeFields [bytesField number data]).length ∧
      (encodeFields [bytesField number data]).length ≤ data.length + 20 := by
  have tag := varintBytes_length 10 (UInt64.ofNat (8 * number.toNat + (2 : UInt8).toNat)).toNat
  have size := varintBytes_length 10 (UInt64.ofNat data.length).toNat
  simp only [encodeFields, List.flatMap_cons, List.flatMap_nil, List.append_nil, encodeField,
    bytesField, encodeTag, encodeLength, if_true, encodeVarint, List.length_append]
  omega

theorem drawsDetail_length (n : Nat) : (encodeFields (drawsDetail n)).length = 4 + 24 * n := by
  have head : (encodeField (varintField 2 210715)).length = 4 := by decide +kernel
  have each : (encodeField (bytesField 3 (encodeFields blankGameAction))).length = 24 := by
    decide +kernel
  rw [drawsDetail]
  generalize bytesField 3 (encodeFields blankGameAction) = field at each ⊢
  simp only [encodeFields, List.flatMap_cons, List.length_append, head, List.flatMap_replicate,
    List.length_flatten, List.map_replicate, each, List.sum_replicate, smul_eq_mul]
  omega

theorem newActions_replicate {action : RecordAction} {data : Bytes} (spelled : NewAction action data)
    (n : Nat) : NewActions (List.replicate n action) (List.replicate n data) := by
  induction n with
  | zero => exact .nil
  | succ n ih => exact .action spelled ih

theorem blankDraw_spelled : NewAction blankDraw (encodeFields blankGameAction) := by
  refine ⟨encodeFields blankWrapper, ?_, ?_⟩
  · exact ⟨blankWrapper, written_self (by simp [blankWrapper, textField, bytesField_formed])
      (by decide +kernel), .inl rfl, .inr ⟨rfl, by decide +kernel⟩⟩
  · exact ⟨blankGameAction, written_self (by simp [blankGameAction, bytesField_formed])
      (by decide +kernel), by unfold optBytesAt; rfl, by unfold optU32At; rfl⟩

theorem drawsDetail_spelled (n : Nat) :
    GameDetailRecordsFields ⟨210715, [], List.replicate n (encodeFields blankGameAction)⟩
      (drawsDetail n) := by
  refine ⟨.inl ?_, ⟨[], .nil, ?_⟩, ⟨_, List.forall₂_same.mpr fun _ _ => rfl, ?_⟩⟩
  · simp [group, drawsDetail, varintField, bytesField]
  · simp [group, drawsDetail, varintField, bytesField]
  · simp [group, drawsDetail, varintField, bytesField]

/-- Up to the largest count, the record is decoded. -/
theorem decodeGameRecord_draws {n : Nat} (small : n ≤ 2 ^ 32) :
    decodeGameRecord (draws n) = .ok (drawsRecord n) := by
  have inner := drawsDetail_length n
  have body := encodeFields_one_length 2 (encodeFields (drawsDetail n))
  have answer := encodeFields_one_length 4 (encodeFields (drawsBody n))
  have writtenDetail : Written (drawsDetail n) (encodeFields (drawsDetail n)) :=
    written_self (by simp [drawsDetail, varintField_formed, bytesField_formed]) (by omega)
  have writtenBody : Written (drawsBody n) (encodeFields (drawsBody n)) :=
    written_self (by simp [drawsBody, bytesField_formed]) (by rw [drawsBody]; omega)
  have writtenAnswer : Written (drawsAnswer n) (draws n) :=
    written_self (by simp [drawsAnswer, bytesField_formed])
      (by rw [drawsAnswer, drawsBody] at *; omega)
  have spelled : AnswerFields .new {} (List.replicate n blankDraw) (drawsAnswer n) :=
    ⟨.inr ⟨rfl, rfl⟩, .inr ⟨rfl, rfl⟩, .inl ⟨_, ⟨"", _, _, ⟨_, writtenBody, .inr ⟨rfl, rfl⟩, .inl rfl⟩,
      ⟨_, writtenDetail, drawsDetail_spelled n⟩, .inl (UInt32.le_refl _),
      newActions_replicate blankDraw_spelled n⟩, rfl⟩⟩
  have named : ∀ action ∈ List.replicate n blankDraw, action.name ≠ "" := by
    intro action member
    rw [List.eq_of_mem_replicate member]
    decide
  have same : (List.replicate n blankDraw).map Container.new.kept = List.replicate n blankDraw :=
    List.map_id _
  rw [decodeGameRecord_spelled writtenAnswer spelled named, same]
  rfl

theorem parseActions_draws (n : Nat) :
    parseActions (List.replicate n blankDraw) =
      .ok (List.replicate n (none, .dealTile {})) := by
  have blank : timedEvent blankDraw = .ok [(none, .dealTile {})] := by
    have read : parseRecordAction blankDraw.name blankDraw.data = .ok (some (.dealTile {})) := rfl
    rw [timedEvent, read]
    rfl
  have mapped : (List.replicate n blankDraw).mapM timedEvent =
      .ok (List.replicate n [(none, .dealTile {})]) := by
    have each : ∀ action ∈ List.replicate n blankDraw,
        timedEvent action = .ok [(none, .dealTile {})] := by
      intro action member
      rw [List.eq_of_mem_replicate member, blank]
    rw [Outcome.mapM_of_ok each, List.map_replicate]
  rw [parseActions, mapped, Outcome.ok_bind]
  exact congrArg Outcome.ok (by simp)

theorem convertAll_draws (n : Nat) :
    convertAll 0 {} (List.replicate n (none, .dealTile {})) =
      .ok (List.replicate n blankTsumo, {}) := by
  have step : convertTimed 0 {} (none, .dealTile {}) = .ok ([blankTsumo], {}) := rfl
  induction n with
  | zero => rfl
  | succ n ih =>
      rw [List.replicate_succ, convertAll, step]
      simp only [Outcome.ok_bind, ih]
      rfl

theorem emitEvents_draws {n : Nat} (some : 0 < n) :
    emitEvents (drawsRecord n) none = .ok (drawsEvents n) := by
  have records : (drawsRecord n).records = List.replicate n blankDraw := rfl
  have nobody : (drawsRecord n).playerNames.length = 0 := rfl
  have unknown : chosenMetadata none (drawsRecord n) = none := rfl
  rw [emitEvents, if_neg (by rw [records]; simp; omega), records, parseActions_draws,
    Outcome.ok_bind, eventsToMjai, nobody, convertAll_draws, unknown]
  rfl

theorem convertRecordBytes_draws (output : Output) {n : Nat} (some : 0 < n) (small : n ≤ 2 ^ 32) :
    convertRecordBytes output (draws n) none =
      .ok ("", output.gzip (ndjson output.serde (drawsEvents n))) := by
  have inner := drawsDetail_length n
  have body := encodeFields_one_length 2 (encodeFields (drawsDetail n))
  have answer := encodeFields_one_length 4 (encodeFields (drawsBody n))
  have long : ¬ (draws n).length < 20 := by
    rw [draws, drawsAnswer]
    rw [drawsBody] at *
    omega
  rw [convertRecordBytes, if_neg long, decodeGameRecord_draws small]
  simp only [Outcome.mapErr, Outcome.ok_bind, emitEvents_draws some]
  rfl

/-- The lines of these events, as they are printed. -/
def startLine : String :=
  "\x7b\"majsoul\":\x7b\"account_ids\":[],\"end_time\":0,\"level_ids\":[],\"level_scores\":[],\"ranks\":[],\"start_time\":0,\"uuid\":\"\"\x7d,\"names\":[],\"type\":\"start_game\"\x7d"

def tsumoLine : String := "\x7b\"actor\":0,\"pai\":\"\",\"type\":\"tsumo\"\x7d"

def endLine : String := "\x7b\"majsoul_result\":[],\"scores\":[],\"type\":\"end_game\"\x7d"

/-- The printer and the reader, on the events of `draws`. -/
def drawsSerde : Serde where
  print value :=
    let type := (value.get "type").bind Value.asStr
    if type = some "start_game" then startLine
    else if type = some "tsumo" then tsumoLine
    else endLine
  fromStr line :=
    if line = startLine then .ok (startGame (drawsRecord 0) none)
    else if line = tsumoLine then .ok blankTsumo
    else if line = endLine then .ok (endGame (drawsRecord 0))
    else .error "expected value at line 1 column 1"
  fromStrVec _ := .error "expected value at line 1 column 1"

/-- A line by its characters: a literal unfolds to them in one step. -/
theorem plain_ofList {chars : List Char}
    (all : chars.all (fun c => decide (32 ≤ c.toNat)) = true) (first : chars.head? = some '{') :
    (∀ c ∈ (String.ofList chars).toList, ' ' ≤ c) ∧
      (String.ofList chars).toList.head? = some '{' := by
  rw [String.toList_ofList]
  refine ⟨fun c member => ?_, first⟩
  have above := List.all_eq_true.mp all c member
  exact UInt32.le_iff_toNat_le.mpr (of_decide_eq_true above)

set_option maxRecDepth 8000 in
theorem startLine_readsBack (n : Nat) : ReadsBack drawsSerde (startGame (drawsRecord n) none) := by
  have printed : drawsSerde.print (startGame (drawsRecord n) none) = startLine := by
    simp [drawsSerde, startGame, mjai, Value.get, Value.asStr]
  have read : drawsSerde.fromStr startLine = .ok (startGame (drawsRecord 0) none) := by
    simp [drawsSerde]
  obtain ⟨plain, braced⟩ : (∀ c ∈ startLine.toList, ' ' ≤ c) ∧ startLine.toList.head? = some '{' :=
    plain_ofList (by decide +kernel) (by decide +kernel)
  refine ⟨?_, ?_, ?_⟩ <;> rw [printed]
  · exact read
  · exact plain
  · exact braced

set_option maxRecDepth 8000 in
theorem tsumoLine_readsBack : ReadsBack drawsSerde blankTsumo := by
  have printed : drawsSerde.print blankTsumo = tsumoLine := by
    simp [drawsSerde, blankTsumo, mjai, Value.get, Value.asStr]
  have other : tsumoLine ≠ startLine := by simp [tsumoLine, startLine]
  have read : drawsSerde.fromStr tsumoLine = .ok blankTsumo := by simp [drawsSerde, other]
  obtain ⟨plain, braced⟩ : (∀ c ∈ tsumoLine.toList, ' ' ≤ c) ∧ tsumoLine.toList.head? = some '{' :=
    plain_ofList (by decide +kernel) (by decide +kernel)
  refine ⟨?_, ?_, ?_⟩ <;> rw [printed]
  · exact read
  · exact plain
  · exact braced

set_option maxRecDepth 8000 in
theorem endLine_readsBack (n : Nat) : ReadsBack drawsSerde (endGame (drawsRecord n)) := by
  have printed : drawsSerde.print (endGame (drawsRecord n)) = endLine := by
    simp [drawsSerde, endGame, mjai, Value.get, Value.asStr]
  have first : endLine ≠ startLine := by simp [endLine, startLine]
  have second : endLine ≠ tsumoLine := by simp [endLine, tsumoLine]
  have read : drawsSerde.fromStr endLine = .ok (endGame (drawsRecord 0)) := by
    simp [drawsSerde, first, second]
  obtain ⟨plain, braced⟩ : (∀ c ∈ endLine.toList, ' ' ≤ c) ∧ endLine.toList.head? = some '{' :=
    plain_ofList (by decide +kernel) (by decide +kernel)
  refine ⟨?_, ?_, ?_⟩ <;> rw [printed]
  · exact read
  · exact plain
  · exact braced

theorem drawsEvents_readsBack (n : Nat) :
    ∀ event ∈ drawsEvents n, ReadsBack drawsSerde event := by
  intro event member
  simp only [drawsEvents, List.mem_cons, List.mem_append, List.mem_replicate] at member
  rcases member with rfl | ⟨-, rfl⟩ | rfl | none
  · exact startLine_readsBack n
  · exact tsumoLine_readsBack
  · exact endLine_readsBack n
  · cases none

/-- `draws` determines what is decoded and emitted. -/
theorem draws_emits {n : Nat} (some : 0 < n) (small : n ≤ 2 ^ 32) {record : GameRecord}
    {events : List Value} (decoded : decodeGameRecord (draws n) = .ok record)
    (emitted : emitEvents record none = .ok events) : events = drawsEvents n := by
  rw [decodeGameRecord_draws small] at decoded
  injection decoded with same
  rw [← same, emitEvents_draws some] at emitted
  injection emitted with same
  exact same.symm

/-- The lines of one draw, compressed. -/
def oneDrawGzip : Bytes :=
  [
    0x1f, 0x8b, 0x08, 0x00, 0x00, 0x00, 0x00, 0x00, 0x04, 0xff, 0x4d, 0x8e, 0xcb, 0x0a, 0x03,
    0x21, 0x0c, 0x45, 0xf7, 0xfd, 0x8c, 0xbb, 0x76, 0xd1, 0xb5, 0xbf, 0x52, 0x8a, 0x04, 0x95,
    0x62, 0xeb, 0x63, 0xd0, 0x58, 0x28, 0xc3, 0xfc, 0x7b, 0xc7, 0x31, 0x65, 0xba, 0xcb, 0xe3,
    0xdc, 0xe4, 0xac, 0x48, 0xf4, 0x6c, 0xa5, 0x47, 0xe8, 0x15, 0x64, 0x6d, 0xe9, 0x99, 0x4d,
    0x70, 0x0d, 0xfa, 0x76, 0x57, 0xf0, 0xd9, 0x19, 0x0e, 0xc9, 0x43, 0x5f, 0x15, 0xa2, 0x7f,
    0xfb, 0x78, 0xee, 0x66, 0xdb, 0x6c, 0xa9, 0x5e, 0xe8, 0x4a, 0xf9, 0x25, 0x65, 0x63, 0xaa,
    0x7c, 0x46, 0x7b, 0x0f, 0x0e, 0x1a, 0xd8, 0x14, 0x32, 0xa5, 0x1f, 0xcf, 0x9f, 0x65, 0xbf,
    0x8c, 0xc9, 0x3e, 0xf6, 0x39, 0xb6, 0xcb, 0x90, 0xe0, 0x52, 0x8f, 0x87, 0x0b, 0x85, 0x11,
    0x52, 0x10, 0x90, 0x5b, 0x4f, 0xe5, 0x60, 0xc4, 0xd9, 0xec, 0xaf, 0x7b, 0xe4, 0xe9, 0xfa,
    0x6f, 0x22, 0x81, 0xa1, 0x2f, 0x77, 0xbf, 0xcd, 0x51, 0x32, 0xbf, 0xe8, 0x00, 0x00, 0x00]

/-- The compressor, on the lines of one draw. -/
def oneDrawOutput : Output where
  serde := drawsSerde
  gzip bytes := if bytes = ndjson drawsSerde (drawsEvents 1) then oneDrawGzip else []

def oneDrawGunzip (bytes : Bytes) : Option Bytes :=
  if bytes = oneDrawGzip then some (ndjson drawsSerde (drawsEvents 1)) else none

theorem oneDraw_gzip :
    oneDrawOutput.gzip (ndjson oneDrawOutput.serde (drawsEvents 1)) = oneDrawGzip := by
  simp only [oneDrawOutput, if_true]

theorem oneDraw_undone : Undone oneDrawOutput oneDrawGunzip (drawsEvents 1) := by
  refine ⟨drawsEvents_readsBack 1, ?_⟩
  rw [oneDraw_gzip, oneDrawGunzip, if_pos rfl]
  rfl

/-- The way there and back, on one draw. -/
theorem convertRecordBytes_readBack_draw :
    ∃ record events payload read,
      decodeGameRecord (draws 1) = .ok record ∧ emitEvents record none = .ok events ∧
      oneDrawGunzip oneDrawGzip = some payload ∧
      Record.events drawsSerde payload = .ok events ∧
      parseMetadata drawsSerde payload = .ok read ∧
      HeaderOf record (chosenMetadata none record) read ∧
      read.eventCount.toNat = min events.length (2 ^ 32 - 1) := by
  have compressed : convertRecordBytes oneDrawOutput (draws 1) none = .ok ("", oneDrawGzip) := by
    rw [convertRecordBytes_draws oneDrawOutput (by decide) (by decide), oneDraw_gzip]
  obtain ⟨record, events, payload, read, decoded, emitted, -, gunzips, back, parsed, -, header,
    count⟩ := convertRecordBytes_readBack oneDrawOutput oneDrawGunzip (draws 1) none compressed
      fun record events decoded emitted =>
        draws_emits (by decide) (by decide) decoded emitted ▸ oneDraw_undone
  exact ⟨record, events, payload, read, decoded, emitted, gunzips, back, parsed, header, count⟩

theorem draws_undone (n : Nat) : Undone ⟨drawsSerde, id⟩ Option.some (drawsEvents n) :=
  ⟨drawsEvents_readsBack n, rfl⟩

/-- The count of the events, read back as it should be. -/
def CountsEvents (output : Output) (gunzip : Bytes → Option Bytes) (raw : Bytes)
    (metadata : Option GameMetadata) : Prop :=
  ∀ uuid compressed, convertRecordBytes output raw metadata = .ok (uuid, compressed) →
    ∃ record events payload read,
      decodeGameRecord raw = .ok record ∧ emitEvents record metadata = .ok events ∧
      gunzip compressed = some payload ∧ parseMetadata output.serde payload = .ok read ∧
      read.eventCount.toNat = events.length

/-- A count that is right fits in 32 bits. -/
theorem small_of_counts {n : Nat} (some : 0 < n) (small : n ≤ 2 ^ 32)
    (counts : CountsEvents ⟨drawsSerde, id⟩ Option.some (draws n) none) : n + 2 < 2 ^ 32 := by
  obtain ⟨record, events, payload, read, decoded, emitted, -, -, count⟩ :=
    counts _ _ (convertRecordBytes_draws ⟨drawsSerde, id⟩ some small)
  have bound := read.eventCount.toNat_lt
  have length : events.length = n + 2 := by
    rw [draws_emits some small decoded emitted, drawsEvents, List.length_cons, List.length_append,
      List.length_replicate]
    rfl
  omega

/-- Past the largest `u32` the count is not the number of events. -/
theorem eventCount_saturates :
    (∀ record events, decodeGameRecord (draws (2 ^ 32)) = .ok record →
      emitEvents record none = .ok events →
        Undone ⟨drawsSerde, id⟩ Option.some events) ∧
    (convertRecordBytes ⟨drawsSerde, id⟩ (draws (2 ^ 32)) none).Returns ∧
    ¬ CountsEvents ⟨drawsSerde, id⟩ Option.some (draws (2 ^ 32)) none := by
  refine ⟨fun record events decoded emitted => ?_, ?_, fun counts => ?_⟩
  · rw [draws_emits (Nat.two_pow_pos 32) (Nat.le_refl _) decoded emitted]
    exact draws_undone _
  · exact ⟨_, convertRecordBytes_draws _ (Nat.two_pow_pos 32) (Nat.le_refl _)⟩
  · exact absurd (small_of_counts (Nat.two_pow_pos 32) (Nat.le_refl _) counts) (by omega)

end MajsoulManager.Majsoul
