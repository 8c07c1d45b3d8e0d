/-
# Index.Reconvert — what a re-conversion puts in a record's place

`reconverted` converts a protobuf under the metadata of the stored header and
decides whether the result may stand for the stored record.  The compressor and
the JSON crate are assumed to be undone on the events at hand (`Undone`), so the
text it looks at is the text the converter emitted.

* `reconverted_eq_ok`: what is returned is the same game, with as many hands.
* `reconverted_safe_iff`: it is safe but for a protobuf the converter panics on, and
  for a stored record the fresh one goes on from, hands included.
* `reconverted_rule_iff`: the rule survives exactly when the header spells one of
  the ranked modes.

Poles: `abortGame` holds one hand, and is stored up to its first line, or whole but
without its mode.
-/
import MajsoulManager.Index.Passes
import MajsoulManager.Majsoul.Hazard
import MajsoulManager.Majsoul.ReadBack

namespace MajsoulManager.Index

open MajsoulManager.Theory
open MajsoulManager.Record
open MajsoulManager.Store

set_option autoImplicit false

/-! ## What the converter emits -/

/-- The events of a protobuf, converted under the metadata of the stored header. -/
def Emits (pb : Bytes) (metadata : Majsoul.GameMetadata) (uuid : String) (fresh : List Value) :
    Prop :=
  20 ≤ pb.length ∧ ∃ record, Majsoul.decodeGameRecord pb = .ok record ∧ record.uuid = uuid ∧
    Majsoul.emitEvents record (some metadata) = .ok fresh

theorem Emits.unique {pb : Bytes} {metadata : Majsoul.GameMetadata} {uuid uuid' : String}
    {fresh fresh' : List Value} (emits : Emits pb metadata uuid fresh)
    (emits' : Emits pb metadata uuid' fresh') : uuid = uuid' ∧ fresh = fresh' := by
  obtain ⟨-, record, decoded, rfl, emitted⟩ := emits
  obtain ⟨-, record', decoded', rfl, emitted'⟩ := emits'
  rw [decoded, Outcome.ok.injEq] at decoded'
  subst decoded'
  rw [emitted, Outcome.ok.injEq] at emitted'
  exact ⟨rfl, emitted'⟩

/-- The first event is the header of the game. -/
theorem Emits.opens {pb : Bytes} {metadata : Majsoul.GameMetadata} {uuid : String}
    {fresh : List Value} (emits : Emits pb metadata uuid fresh) :
    ∃ record rest, record.uuid = uuid ∧
      fresh = Majsoul.startGame record (some metadata) :: rest := by
  obtain ⟨-, record, -, same, emitted⟩ := emits
  obtain ⟨⟨rest, opens⟩, -⟩ := Majsoul.emitEvents_ok emitted
  exact ⟨record, rest, same, opens⟩

/-- The last event closes the game: a conversion that returns is a whole one. -/
theorem Emits.closed {pb : Bytes} {metadata : Majsoul.GameMetadata} {uuid : String}
    {fresh : List Value} (emits : Emits pb metadata uuid fresh) :
    fresh.getLast?.map kindOf = some "end_game" := by
  obtain ⟨-, record, -, -, emitted⟩ := emits
  unfold Majsoul.emitEvents at emitted
  split at emitted
  · cases emitted
  · obtain ⟨timed, -, emitted⟩ := Outcome.bind_eq_ok.mp emitted
    obtain ⟨⟨body, last⟩, -, same⟩ := Outcome.bind_eq_ok.mp emitted
    cases same
    rw [List.getLast?_cons, List.getLast?_append]
    rfl

theorem convertRecordBytes_eq_ok {output : Majsoul.Output} {pb : Bytes}
    {metadata : Majsoul.GameMetadata} {uuid : String} {compressed : Bytes} :
    Majsoul.convertRecordBytes output pb (some metadata) = .ok (uuid, compressed) ↔
      ∃ fresh, Emits pb metadata uuid fresh ∧
        output.gzip (Majsoul.ndjson output.serde fresh) = compressed := by
  unfold Majsoul.convertRecordBytes Emits
  split
  · rename_i short
    constructor
    · intro impossible
      cases impossible
    · rintro ⟨fresh, ⟨long, -⟩, -⟩
      omega
  · rename_i long
    simp only [Outcome.bind_eq_ok, Outcome.mapErr_eq_ok, Outcome.ok.injEq, Prod.mk.injEq]
    constructor
    · rintro ⟨record, decoded, fresh, emitted, same, pressed⟩
      exact ⟨fresh, ⟨by omega, record, decoded, same, emitted⟩, pressed⟩
    · rintro ⟨fresh, ⟨-, record, decoded, same, emitted⟩, pressed⟩
      exact ⟨record, decoded, fresh, emitted, same, pressed⟩

/-! ## What is compared -/

/-- The stored events end before the fresh ones do, and differ from none of them. -/
def CutShort (converting : Converting) (before fresh : List Value) : Prop :=
  before.length < fresh.length ∧
    ∀ pair ∈ fresh.zip before, converting.same pair.1 pair.2 = true

/-- **The text of a refusal panics when the stored record is cut short.** -/
theorem truncated_panics {converting : Converting} {fresh before : List Value} :
    (truncated converting fresh before).Panics ↔ CutShort converting before fresh := by
  unfold truncated CutShort
  by_cases differ : ((fresh.zip before).any fun pair => !converting.same pair.1 pair.2) = true
  · rw [if_pos differ]
    obtain ⟨pair, member, unlike⟩ := List.any_eq_true.mp differ
    constructor
    · intro impossible
      exact absurd impossible (Outcome.err_panics _)
    · rintro ⟨-, alike⟩
      simp [alike pair member] at unlike
  · rw [if_neg differ]
    have alike : ∀ pair ∈ fresh.zip before, converting.same pair.1 pair.2 = true := by
      simpa using differ
    unfold Outcome.slice
    by_cases room : fresh.length ≤ before.length
    · rw [if_pos ⟨room, Nat.le_refl _⟩]
      simp only [Outcome.ok_bind, Outcome.err_panics, false_iff]
      rintro ⟨shorter, -⟩
      omega
    · rw [if_neg fun both => room both.1]
      simp only [Outcome.panic_bind, Outcome.panic_panics, true_iff]
      exact ⟨by omega, alike⟩

theorem truncated_ne_ok {converting : Converting} {fresh before : List Value} {mjai : Bytes} :
    truncated converting fresh before ≠ .ok mjai := by
  unfold truncated
  split
  · simp
  · intro made
    obtain ⟨-, -, impossible⟩ := Outcome.bind_eq_ok.mp made
    cases impossible

section Guard

variable {converting : Converting} {serde : Serde} {pb : Bytes} {metadata : Majsoul.GameMetadata}
  {stored : Bytes} {expectedUuid : String}

/-- What the text reads as is what was emitted. -/
theorem Emits.reads {uuid : String} {fresh : List Value} (emits : Emits pb metadata uuid fresh)
    (undone : Majsoul.Undone ⟨serde, converting.gzip⟩ converting.gunzip fresh) :
    events serde (Majsoul.ndjson serde fresh) = .ok fresh := by
  obtain ⟨-, record, -, -, emitted⟩ := emits
  obtain ⟨⟨rest, opens⟩, objects⟩ := Majsoul.emitEvents_ok emitted
  exact Majsoul.events_ndjson (by simp [opens]) objects undone.reads

/-- **What a conversion that returned comes to**: the game has to be the one asked
for, and to have as many hands. -/
theorem reconverted_of_emits {uuid : String} {fresh : List Value}
    (emits : Emits pb metadata uuid fresh)
    (undone : Majsoul.Undone ⟨serde, converting.gzip⟩ converting.gunzip fresh) :
    reconverted converting serde pb metadata stored expectedUuid =
      if uuid ≠ expectedUuid then .err .wrongGame
      else
        match events serde stored with
        | .ok before =>
            if hands fresh ≠ hands before then truncated converting fresh before
            else .ok (Majsoul.ndjson serde fresh)
        | .error _ => .err .convertFailed := by
  have converted : Majsoul.convertRecordBytes ⟨serde, converting.gzip⟩ pb (some metadata) =
      .ok (uuid, converting.gzip (Majsoul.ndjson serde fresh)) :=
    convertRecordBytes_eq_ok.mpr ⟨fresh, emits, rfl⟩
  have pressed : converting.gunzip (converting.gzip (Majsoul.ndjson serde fresh)) =
      some (Majsoul.ndjson serde fresh) := undone.gunzips
  simp only [reconverted, converted, pressed, emits.reads undone]
  cases events serde stored with
  | error _ => rfl
  | ok before => simp only [emits.closed, ne_eq, not_true_eq_false, or_false]

/-- The crates undo each other on whatever this protobuf converts to. -/
def Undoes (converting : Converting) (serde : Serde) (pb : Bytes)
    (metadata : Majsoul.GameMetadata) : Prop :=
  ∀ uuid fresh, Emits pb metadata uuid fresh →
    Majsoul.Undone ⟨serde, converting.gzip⟩ converting.gunzip fresh

/-- **What is returned**: the events of the game that was asked for, with as many
hands as the stored record has. -/
theorem reconverted_eq_ok (undoes : Undoes converting serde pb metadata) {mjai : Bytes} :
    reconverted converting serde pb metadata stored expectedUuid = .ok mjai ↔
      ∃ fresh before, Emits pb metadata expectedUuid fresh ∧ events serde stored = .ok before ∧
        hands fresh = hands before ∧ Majsoul.ndjson serde fresh = mjai := by
  constructor
  · intro done
    cases converted : Majsoul.convertRecordBytes ⟨serde, converting.gzip⟩ pb (some metadata) with
    | panic => simp [reconverted, converted] at done
    | err _ => simp [reconverted, converted] at done
    | ok result =>
        obtain ⟨uuid, compressed⟩ := result
        obtain ⟨fresh, emits, -⟩ := convertRecordBytes_eq_ok.mp converted
        rw [reconverted_of_emits emits (undoes uuid fresh emits)] at done
        by_cases other : uuid ≠ expectedUuid
        · rw [if_pos other] at done
          cases done
        · rw [if_neg other] at done
          have same : uuid = expectedUuid := not_not.mp other
          subst same
          cases read : events serde stored with
          | error _ => simp [read] at done
          | ok before =>
              simp only [read] at done
              split at done
              · exact absurd done truncated_ne_ok
              · rename_i equal
                exact ⟨fresh, before, emits, rfl, not_not.mp equal, Outcome.ok.inj done⟩
  · rintro ⟨fresh, before, emits, read, equal, rfl⟩
    rw [reconverted_of_emits emits (undoes _ fresh emits)]
    simp [read, equal]

/-- **When it panics**: with the converter, or over the text of a refusal. -/
theorem reconverted_panics (undoes : Undoes converting serde pb metadata) :
    (reconverted converting serde pb metadata stored expectedUuid).Panics ↔
      Majsoul.ConvertHazard pb ∨
        ∃ fresh before, Emits pb metadata expectedUuid fresh ∧ events serde stored = .ok before ∧
          hands fresh ≠ hands before ∧ CutShort converting before fresh := by
  have hazard := Majsoul.convertRecordBytes_panics ⟨serde, converting.gzip⟩ pb (some metadata)
  rw [← hazard]
  cases converted : Majsoul.convertRecordBytes ⟨serde, converting.gzip⟩ pb (some metadata) with
  | panic => simp [reconverted, converted]
  | err e =>
      have none : ∀ fresh, ¬ Emits pb metadata expectedUuid fresh := by
        intro fresh emits
        have returned : Majsoul.convertRecordBytes ⟨serde, converting.gzip⟩ pb (some metadata) = _ :=
          convertRecordBytes_eq_ok.mpr ⟨fresh, emits, rfl⟩
        rw [converted] at returned
        cases returned
      simp [reconverted, converted, none]
  | ok result =>
      obtain ⟨uuid, compressed⟩ := result
      obtain ⟨fresh, emits, -⟩ := convertRecordBytes_eq_ok.mp converted
      rw [reconverted_of_emits emits (undoes uuid fresh emits)]
      simp only [Outcome.ok_panics, false_or]
      constructor
      · intro panics
        by_cases other : uuid ≠ expectedUuid
        · rw [if_pos other] at panics
          exact absurd panics (Outcome.err_panics _)
        · rw [if_neg other] at panics
          have same : uuid = expectedUuid := not_not.mp other
          subst same
          cases read : events serde stored with
          | error _ => simp [read] at panics
          | ok before =>
              simp only [read] at panics
              split at panics
              · rename_i unequal
                exact ⟨fresh, before, emits, rfl, unequal, truncated_panics.mp panics⟩
              · exact absurd panics (Outcome.ok_panics _)
      · rintro ⟨fresh', before, emits', read, unequal, short⟩
        obtain ⟨rfl, rfl⟩ := emits.unique emits'
        rw [if_neg (not_not.mpr rfl)]
        simp only [read, if_pos unequal]
        exact truncated_panics.mpr short

/-! ## What may be put in its place -/

/-- A text that may stand for the stored one. -/
structure Replacement (serde : Serde) (stored : Bytes) (expectedUuid : String) (mjai : Bytes) :
    Prop where
  sameGame : ∃ header, majsoulHeader serde mjai = some (expectedUuid, header)
  wholeGame : ∃ before fresh, events serde stored = .ok before ∧ events serde mjai = .ok fresh ∧
    hands fresh = hands before ∧ fresh.getLast?.map kindOf = some "end_game"

/-- No panic, and nothing returned that may not stand for the stored text. -/
def ReconvertsSafely (converting : Converting) (serde : Serde) (pb : Bytes)
    (metadata : Majsoul.GameMetadata) (stored : Bytes) (expectedUuid : String) : Prop :=
  ¬ (reconverted converting serde pb metadata stored expectedUuid).Panics ∧
    ∀ mjai, reconverted converting serde pb metadata stored expectedUuid = .ok mjai →
      Replacement serde stored expectedUuid mjai

/-- The stored record ends before the fresh one does, differs from it nowhere, and
lacks some of its hands. -/
def LacksHands (converting : Converting) (serde : Serde) (pb : Bytes)
    (metadata : Majsoul.GameMetadata) (stored : Bytes) (expectedUuid : String) : Prop :=
  ∃ fresh before, Emits pb metadata expectedUuid fresh ∧ events serde stored = .ok before ∧
    hands fresh ≠ hands before ∧ CutShort converting before fresh

/-- The header of the text is the header that was emitted. -/
theorem Emits.header {uuid : String} {fresh : List Value} (emits : Emits pb metadata uuid fresh)
    (undone : Majsoul.Undone ⟨serde, converting.gzip⟩ converting.gunzip fresh) :
    ∃ header, majsoulHeader serde (Majsoul.ndjson serde fresh) = some (uuid, header) := by
  have reads := emits.reads undone
  obtain ⟨record, rest, rfl, rfl⟩ := emits.opens
  rw [majsoulHeader, reads]
  exact ⟨_, rfl⟩

theorem replacement_of_ok (undoes : Undoes converting serde pb metadata) {mjai : Bytes}
    (done : reconverted converting serde pb metadata stored expectedUuid = .ok mjai) :
    Replacement serde stored expectedUuid mjai := by
  obtain ⟨fresh, before, emits, read, equal, rfl⟩ := (reconverted_eq_ok undoes).mp done
  have undone := undoes _ fresh emits
  constructor
  · exact emits.header undone
  · exact ⟨before, fresh, read, emits.reads undone, equal, emits.closed⟩

end Guard

/-- **A re-conversion is safe** exactly when the protobuf does not panic the
converter and the stored record does not stop short of the fresh one, hands and all. -/
theorem reconverted_safe_iff (converting : Converting) (serde : Serde) (pb : Bytes)
    (metadata : Majsoul.GameMetadata) (stored : Bytes) (expectedUuid : String)
    (undoes : Undoes converting serde pb metadata) :
    ReconvertsSafely converting serde pb metadata stored expectedUuid ↔
      ¬ Majsoul.ConvertHazard pb ∧
        ¬ LacksHands converting serde pb metadata stored expectedUuid := by
  unfold ReconvertsSafely LacksHands
  rw [reconverted_panics undoes, not_or]
  constructor
  · rintro ⟨calm, -⟩
    exact calm
  · intro calm
    exact ⟨calm, fun mjai done => replacement_of_ok undoes done⟩

/-! ## The rule -/

/-- The filter tokens of the twelve ranked modes. -/
def rankedRules : List String :=
  [ "4p-gold-east", "4p-gold-south", "4p-jade-east", "4p-jade-south"
  , "4p-throne-east", "4p-throne-south", "3p-gold-east", "3p-gold-south"
  , "3p-jade-east", "3p-jade-south", "3p-throne-east", "3p-throne-south" ]

/-- They are the tokens of the modes the converter knows. -/
example : rankedRules = [8, 9, 11, 12, 15, 16, 21, 22, 23, 24, 25, 26].filterMap fun mode =>
    (Majsoul.modeMetadata mode).map fun (room, length, players) =>
      toString players.toNat ++ "p-" ++ room ++ "-" ++ length := by decide +kernel

/-- A ranked table seats three or four: the number before the first `p` says so. -/
theorem players_of_ranked {players : Nat} {rest : String}
    (ranked : toString players ++ "p-" ++ rest ∈ rankedRules) : players = 3 ∨ players = 4 := by
  have listed : ∀ rule ∈ rankedRules,
      ((Text.splitOnce rule 'p').map (·.1)) = some "3" ∨
        ((Text.splitOnce rule 'p').map (·.1)) = some "4" := by decide +kernel
  have digits : 'p' ∉ Nat.toDigits 10 players := by
    intro member
    exact absurd (Text.isDigit_of_mem_toDigits member) (by decide)
  have spelled : toString players ++ "p-" ++ rest =
      String.ofList (Nat.toDigits 10 players ++ 'p' :: ('-' :: rest.toList)) := by
    apply String.toList_injective
    simp [Nat.repr]
  have front : (Text.splitOnce (toString players ++ "p-" ++ rest) 'p').map (·.1) =
      some (String.ofList (Nat.toDigits 10 players)) := by
    rw [spelled, Text.splitOnce_append digits]
    rfl
  have value := Text.digitsValue_toDigits players
  rcases listed _ ranked with three | four
  · left
    rw [front, Option.some.injEq] at three
    have read : Nat.toDigits 10 players = ['3'] := by simpa using congrArg String.toList three
    rw [read] at value
    exact (Option.some.inj value).symm
  · right
    rw [front, Option.some.injEq] at four
    have read : Nat.toDigits 10 players = ['4'] := by simpa using congrArg String.toList four
    rw [read] at value
    exact (Option.some.inj value).symm

/-- The rule of the header a record is stored with. -/
def storedRule (serde : Serde) (stored : Bytes) : Option String := do
  let events ← (events serde stored).toOption
  let start ← events.find? isStartGame
  headerRule (start.get "majsoul")

/-- What is read off the text is the rule of the stored header, and one that can be
filtered for. -/
def KeepsRule (serde : Serde) (stored mjai : Bytes) : Prop :=
  ∃ read, parseMetadata serde mjai = .ok read ∧ read.rule = storedRule serde stored ∧
    ∀ rule, read.rule = some rule → rule ∈ rankedRules

/-- The metadata of a ranked header spells the rule of that header.  A header that
is not ranked is filled up with blanks, or its players are cut to eight bits. -/
theorem ruleToken_of_ranked {serde : Serde} {stored : Bytes} {uuid rule : String}
    {metadata : Majsoul.GameMetadata} (header : majsoulHeader serde stored = some (uuid, metadata))
    (kept : storedRule serde stored = some rule) (ranked : rule ∈ rankedRules) :
    Majsoul.ruleToken metadata = rule := by
  simp only [majsoulHeader, storedRule, headerRule, Option.bind_eq_bind, Option.bind_eq_some_iff,
    Option.some.injEq, Prod.mk.injEq] at header kept
  obtain ⟨list, read, start, found, majsoul, there, -, -, -, -, -, rfl⟩ := header
  obtain ⟨list', read', start', found', majsoul', there', number, sized, players, counted, text,
    named, room, texted, text', timed, length, lasted, rfl⟩ := kept
  rw [read, Option.some.injEq] at read'
  subst read'
  rw [found, Option.some.injEq] at found'
  subst found'
  rw [there, Option.some.injEq] at there'
  subst there'
  have few : players.toNat = 3 ∨ players.toNat = 4 := by
    have whole : toString players.toNat ++ "p-" ++ (room ++ "-" ++ length) ∈ rankedRules := by
      simpa [String.append_assoc] using ranked
    exact players_of_ranked whole
  have same : players.toUInt8.toNat = players.toNat := by
    rw [UInt64.toNat_toUInt8]
    omega
  simp only [Majsoul.ruleToken, sized, counted, named, texted, timed, lasted, Option.bind_some,
    Option.getD_some, same]

/-- **The rule survives a re-conversion** exactly when the stored header spells one of
the ranked modes. -/
theorem reconverted_rule_iff (converting : Converting) (serde : Serde) (pb stored : Bytes)
    {uuid : String} {metadata : Majsoul.GameMetadata} {mjai : Bytes}
    (header : majsoulHeader serde stored = some (uuid, metadata))
    (undoes : Undoes converting serde pb metadata)
    (done : reconverted converting serde pb metadata stored uuid = .ok mjai) :
    KeepsRule serde stored mjai ↔ ∃ rule ∈ rankedRules, storedRule serde stored = some rule := by
  obtain ⟨fresh, before, emits, read, equal, rfl⟩ := (reconverted_eq_ok undoes).mp done
  have reads := emits.reads (undoes _ fresh emits)
  obtain ⟨record, rest, rfl, opens⟩ := emits.opens
  have parsed : parseMetadata serde (Majsoul.ndjson serde fresh) = .ok (metadataOf serde fresh) := by
    rw [parseMetadata, reads]
  have token : (metadataOf serde fresh).rule = some (Majsoul.ruleToken metadata) := by
    rw [opens]
    exact (Majsoul.metadataOf_startGame serde record (some metadata) rest).rule
  constructor
  · rintro ⟨found, same, kept, known⟩
    rw [parsed, Except.ok.injEq] at same
    subst same
    exact ⟨Majsoul.ruleToken metadata, known _ token, by rw [← kept, token]⟩
  · rintro ⟨rule, ranked, kept⟩
    have same := ruleToken_of_ranked header kept ranked
    refine ⟨_, parsed, by rw [token, same, kept], ?_⟩
    intro other named
    rw [token, same, Option.some.injEq] at named
    exact named ▸ ranked

/-! ## A game of one hand -/

/-- Four players discard the same wind. -/
def abortAction : Majsoul.RecordAction := ⟨".lq.RecordLiuJu", [0x08, 0x02], none⟩

def abortWrapper : Bytes :=
  Majsoul.encodeFields
    [Majsoul.textField 1 abortAction.name, Majsoul.bytesField 2 abortAction.data]

def abortDetail : Bytes :=
  Majsoul.encodeFields
    [ Majsoul.varintField 2 210715
    , Majsoul.bytesField 3 (Majsoul.encodeFields [Majsoul.bytesField 3 abortWrapper]) ]

/-- One hand, aborted, of a game without accounts. -/
def abortGame : Bytes :=
  Majsoul.encodeFields
    [ Majsoul.bytesField 3 (Majsoul.encodeFields [Majsoul.textField 1 "250101-a"])
    , Majsoul.bytesField 4 (Majsoul.encodeFields [Majsoul.bytesField 2 abortDetail]) ]

def abortRecord : Majsoul.GameRecord := ⟨"250101-a", 0, 0, 0, [], [], [abortAction]⟩

def abortRest : List Value :=
  [Majsoul.abortEvent ⟨2, none, []⟩, Majsoul.endKyoku, Majsoul.endGame abortRecord]

def abortEvents (metadata : Option Majsoul.GameMetadata) : List Value :=
  Majsoul.startGame abortRecord metadata :: abortRest

def rankedMetadata : Majsoul.GameMetadata := ⟨8, "gold", "east", 4, 2025⟩

/-- What is made of a header that does not say its mode. -/
def blankMetadata : Majsoul.GameMetadata := ⟨0, "", "", 0, 0⟩

def rankedLine : String :=
  "\x7b\"majsoul\":\x7b\"account_ids\":[],\"end_time\":0,\"game_length\":\"east\",\"level_ids\":[],\"level_scores\":[],\"mode_id\":8,\"players\":4,\"ranks\":[],\"room\":\"gold\",\"start_time\":0,\"uuid\":\"250101-a\",\"year\":2025\x7d,\"names\":[],\"type\":\"start_game\"\x7d"

def blankLine : String :=
  "\x7b\"majsoul\":\x7b\"account_ids\":[],\"end_time\":0,\"game_length\":\"\",\"level_ids\":[],\"level_scores\":[],\"mode_id\":0,\"players\":0,\"ranks\":[],\"room\":\"\",\"start_time\":0,\"uuid\":\"250101-a\",\"year\":0\x7d,\"names\":[],\"type\":\"start_game\"\x7d"

def bareLine : String :=
  "\x7b\"majsoul\":\x7b\"account_ids\":[],\"end_time\":0,\"level_ids\":[],\"level_scores\":[],\"ranks\":[],\"start_time\":0,\"uuid\":\"250101-a\"\x7d,\"names\":[],\"type\":\"start_game\"\x7d"

def abortLine : String := "\x7b\"actor\":null,\"reason\":\"kaze4\",\"tehai\":[],\"type\":\"ryukyoku\"\x7d"

def kyokuLine : String := "\x7b\"type\":\"end_kyoku\"\x7d"

def gameLine : String := "\x7b\"majsoul_result\":[],\"scores\":[],\"type\":\"end_game\"\x7d"

/-- The lines of the game and what they read as. -/
def abortLines : List (String × Value) :=
  [ (rankedLine, Majsoul.startGame abortRecord (some rankedMetadata))
  , (blankLine, Majsoul.startGame abortRecord (some blankMetadata))
  , (bareLine, Majsoul.startGame abortRecord none)
  , (abortLine, Majsoul.abortEvent ⟨2, none, []⟩)
  , (kyokuLine, Majsoul.endKyoku)
  , (gameLine, Majsoul.endGame abortRecord) ]

/-- The printer and the reader, on these lines. -/
def abortSerde : Serde where
  print value :=
    let type := (value.get "type").bind Value.asStr
    if type = some "start_game" then
      match ((value.get "majsoul").bind (·.get "room")).bind Value.asStr with
      | none => bareLine
      | some room => if room = "gold" then rankedLine else blankLine
    else if type = some "ryukyoku" then abortLine
    else if type = some "end_kyoku" then kyokuLine
    else gameLine
  fromStr line :=
    match abortLines.lookup line with
    | some value => .ok value
    | none => .error "expected value at line 1 column 1"
  fromStrVec _ := .error "expected value at line 1 column 1"

def rankedText : Bytes := Majsoul.ndjson abortSerde (abortEvents (some rankedMetadata))

def blankText : Bytes := Majsoul.ndjson abortSerde (abortEvents (some blankMetadata))

/-- The two texts, compressed. -/
def rankedGzip : Bytes :=
  [
    0x1f, 0x8b, 0x08, 0x00, 0x00, 0x00, 0x00, 0x00, 0x04, 0xff, 0x4d, 0x90, 0xd1, 0x6a, 0xc3,
    0x30, 0x0c, 0x45, 0xdf, 0xf7, 0x19, 0x7a, 0xf6, 0x20, 0x0d, 0x2d, 0x14, 0xff, 0xca, 0x18,
    0x41, 0x24, 0x22, 0xcd, 0x22, 0x5b, 0xc5, 0x96, 0x07, 0x5e, 0xe9, 0xbf, 0x4f, 0x69, 0x0c,
    0xe9, 0xa3, 0xe5, 0x7b, 0xae, 0xee, 0xd5, 0x03, 0x02, 0xfe, 0x64, 0x29, 0x0c, 0xfe, 0x01,
    0x38, 0x8e, 0x52, 0xa2, 0x0e, 0xcb, 0x94, 0xc1, 0x7f, 0x7d, 0x3b, 0xa0, 0x38, 0x0d, 0xba,
    0x04, 0x02, 0xdf, 0x39, 0x98, 0x31, 0xd0, 0xc0, 0x14, 0x67, 0xbd, 0x81, 0x07, 0xc2, 0xac,
    0xe0, 0x80, 0xe9, 0x97, 0xf8, 0x00, 0xf6, 0x67, 0x1e, 0x25, 0x51, 0xb3, 0x08, 0x32, 0x91,
    0xfd, 0x83, 0xbf, 0x3a, 0xb8, 0x33, 0x56, 0x4a, 0xf6, 0x71, 0x76, 0x90, 0x30, 0xae, 0x4d,
    0x92, 0x44, 0x82, 0x39, 0xce, 0xc2, 0x93, 0x39, 0x66, 0xc5, 0xa4, 0xc7, 0xd6, 0x52, 0x36,
    0x18, 0xfa, 0x4b, 0x77, 0xea, 0x4e, 0x9f, 0x68, 0x82, 0x4a, 0x98, 0xc0, 0xf7, 0x5d, 0x7f,
    0x79, 0x3a, 0x88, 0x16, 0xaa, 0xd9, 0x68, 0xbd, 0x5b, 0xd0, 0xc6, 0x6f, 0x61, 0xe1, 0xf9,
    0xb1, 0x75, 0x52, 0x31, 0x79, 0x2c, 0xcc, 0xb6, 0xd4, 0x52, 0x4b, 0x34, 0xd1, 0x8a, 0x7f,
    0x74, 0x36, 0x2f, 0xa5, 0x1b, 0x2e, 0x7b, 0xd7, 0x86, 0xa7, 0x5a, 0xd6, 0x2a, 0x6b, 0x79,
    0xc1, 0x6d, 0xb6, 0x9d, 0xe1, 0x18, 0xb6, 0x83, 0x0d, 0x56, 0xb1, 0xb0, 0xee, 0xf0, 0x7b,
    0xe3, 0x37, 0xa8, 0xa5, 0xf8, 0x07, 0x59, 0x7a, 0x0b, 0x03, 0x65, 0x01, 0x00, 0x00]

def blankGzip : Bytes :=
  [
    0x1f, 0x8b, 0x08, 0x00, 0x00, 0x00, 0x00, 0x00, 0x04, 0xff, 0x4d, 0x90, 0xd1, 0x0a, 0xc2,
    0x30, 0x0c, 0x45, 0xdf, 0xfd, 0x8c, 0x3c, 0x4f, 0x98, 0xa2, 0x2f, 0xfb, 0x15, 0x91, 0x11,
    0xb6, 0xe0, 0xe6, 0xda, 0x46, 0xda, 0x54, 0xa8, 0xc3, 0x7f, 0x37, 0x5d, 0x0b, 0xf3, 0xb1,
    0xc9, 0x3d, 0x37, 0xf7, 0x76, 0x05, 0x8b, 0xcf, 0xc0, 0xd1, 0x40, 0xb7, 0x02, 0x0e, 0x03,
    0x47, 0x27, 0xfd, 0x3c, 0x06, 0xe8, 0x6e, 0xf7, 0x06, 0xc8, 0x8d, 0xbd, 0xcc, 0x96, 0xa0,
    0x6b, 0x1b, 0x78, 0xa0, 0xa5, 0xde, 0x90, 0x7b, 0xc8, 0x04, 0x1d, 0x40, 0x03, 0x86, 0xde,
    0x64, 0x76, 0x71, 0x79, 0x86, 0x81, 0x3d, 0x55, 0xdc, 0xf2, 0x48, 0xba, 0xdf, 0xe8, 0x97,
    0xc1, 0x44, 0x5e, 0x17, 0xea, 0xe4, 0xd1, 0x2d, 0x55, 0xe2, 0x99, 0x6d, 0x71, 0x0b, 0x82,
    0x5e, 0xf6, 0x6b, 0x31, 0x66, 0x10, 0xce, 0xd7, 0xf6, 0xd4, 0x9e, 0x8e, 0xa8, 0xe7, 0x12,
    0xa1, 0x57, 0xfc, 0xdb, 0x80, 0xd3, 0x24, 0x95, 0x97, 0xf4, 0xd2, 0x74, 0x50, 0xe0, 0x9c,
    0x10, 0xbe, 0x87, 0x5c, 0x44, 0x58, 0xb5, 0x2e, 0x1a, 0xa3, 0xd7, 0x08, 0x03, 0x3b, 0x15,
    0x2d, 0xf8, 0xa1, 0x8b, 0x1a, 0x09, 0x4d, 0x38, 0x97, 0x82, 0x15, 0xf7, 0x29, 0x2e, 0x89,
    0x97, 0xb8, 0xc1, 0x75, 0x96, 0xbb, 0xef, 0xc3, 0xfa, 0x4b, 0xbd, 0x76, 0x8b, 0x46, 0x0a,
    0xfc, 0x5f, 0xf5, 0x0f, 0xaa, 0x29, 0x7e, 0xdd, 0xdb, 0xdc, 0x37, 0x5a, 0x01, 0x00, 0x00]

/-- The crates, on the two texts. -/
def abortConverting : Converting where
  gzip bytes :=
    if bytes = rankedText then rankedGzip else if bytes = blankText then blankGzip else []
  gunzip bytes :=
    if bytes = rankedGzip then some rankedText
    else if bytes = blankGzip then some blankText
    else none
  same a b := abortSerde.print a == abortSerde.print b

theorem decodeGameRecord_abort : Majsoul.decodeGameRecord abortGame = .ok abortRecord := by
  have decoded : (Majsoul.decodeGameRecord abortGame).Yields fun record =>
      record.uuid = "250101-a" ∧ record.startTime = 0 ∧ record.endTime = 0 ∧ record.modeId = 0 ∧
        record.playerAccounts = [] ∧ record.result = [] ∧ record.records = [abortAction] := by
    decide +kernel
  obtain ⟨record, decoded, uuid, started, ended, mode, accounts, results, records⟩ := decoded
  rw [decoded]
  cases record
  simp only at uuid started ended mode accounts results records
  rw [uuid, started, ended, mode, accounts, results, records]
  rfl

theorem emits_abort (metadata : Majsoul.GameMetadata) :
    Emits abortGame metadata "250101-a" (abortEvents (some metadata)) := by
  have parsed : Majsoul.parseActions [abortAction] = .ok [(none, .liuJu ⟨2, none, []⟩)] := by
    decide +kernel
  refine ⟨by decide +kernel, abortRecord, decodeGameRecord_abort, rfl, ?_⟩
  have listed : abortRecord.records = [abortAction] := rfl
  rw [Majsoul.emitEvents, if_neg (by rw [listed]; simp), listed, parsed]
  rfl

theorem lookup_of_mem {entries : List (String × Value)} (distinct : (entries.map (·.1)).Nodup)
    {entry : String × Value} (member : entry ∈ entries) :
    entries.lookup entry.1 = some entry.2 := by
  induction entries with
  | nil => cases member
  | cons first rest ih =>
      rw [List.map_cons, List.nodup_cons] at distinct
      rcases List.mem_cons.mp member with rfl | later
      · exact List.lookup_cons_self
      · have other : entry.1 ≠ first.1 := by
          intro same
          exact distinct.1 (same ▸ List.mem_map_of_mem later)
        rw [List.lookup_cons, beq_false_of_ne other]
        exact ih distinct.2 later

-- a literal is unfolded to its characters in one step, not one character after the other
set_option maxRecDepth 8000 in
theorem abortLines_plain : ∀ line ∈ abortLines.map (·.1),
    (∀ c ∈ line.toList, ' ' ≤ c) ∧ line.toList.head? = some '{' := by
  simp only [abortLines, List.map_cons, List.map_nil, List.forall_mem_cons]
  refine ⟨?_, ?_, ?_, ?_, ?_, ?_, by simp⟩ <;>
  exact Majsoul.plain_ofList (by decide +kernel) (by decide +kernel)

/-- A line of the game reads back, if it is what its value prints as. -/
theorem readsBack_line (line : String) {value : Value} (listed : (line, value) ∈ abortLines)
    (printed : abortSerde.print value = line) : Majsoul.ReadsBack abortSerde value := by
  have distinct : (abortLines.map (·.1)).Nodup := by decide +kernel
  obtain ⟨plain, braced⟩ := abortLines_plain line (List.mem_map_of_mem listed)
  constructor
  · have found := lookup_of_mem distinct listed
    rw [printed]
    simp only [abortSerde, found]
  · rw [printed]
    exact plain
  · rw [printed, braced]

theorem readsBack_start :
    Majsoul.ReadsBack abortSerde (Majsoul.startGame abortRecord (some rankedMetadata)) ∧
      Majsoul.ReadsBack abortSerde (Majsoul.startGame abortRecord (some blankMetadata)) ∧
      Majsoul.ReadsBack abortSerde (Majsoul.startGame abortRecord none) := by
  refine ⟨readsBack_line rankedLine (by simp [abortLines]) ?_,
    readsBack_line blankLine (by simp [abortLines]) ?_,
    readsBack_line bareLine (by simp [abortLines]) ?_⟩ <;>
  simp [abortSerde, Majsoul.startGame, Majsoul.mjai, Majsoul.majsoulHeader, Majsoul.metadataFields,
    rankedMetadata, blankMetadata, Value.get, Value.asStr, List.lookup]

theorem readsBack_rest : ∀ event ∈ abortRest, Majsoul.ReadsBack abortSerde event := by
  intro event member
  simp only [abortRest, List.mem_cons, List.not_mem_nil, or_false] at member
  rcases member with rfl | rfl | rfl
  · apply readsBack_line abortLine (by simp [abortLines])
    simp [abortSerde, Majsoul.abortEvent, Majsoul.mjai, Value.get, Value.asStr]
  · apply readsBack_line kyokuLine (by simp [abortLines])
    simp [abortSerde, Majsoul.endKyoku, Majsoul.mjai, Value.get, Value.asStr]
  · apply readsBack_line gameLine (by simp [abortLines])
    simp [abortSerde, Majsoul.endGame, Majsoul.mjai, Value.get, Value.asStr]

theorem readsBack_events {metadata : Option Majsoul.GameMetadata}
    (start : Majsoul.ReadsBack abortSerde (Majsoul.startGame abortRecord metadata)) :
    ∀ event ∈ abortEvents metadata, Majsoul.ReadsBack abortSerde event := by
  intro event member
  rcases List.mem_cons.mp member with rfl | later
  · exact start
  · exact readsBack_rest event later

theorem events_abort {metadata : Option Majsoul.GameMetadata}
    (start : Majsoul.ReadsBack abortSerde (Majsoul.startGame abortRecord metadata)) :
    events abortSerde (Majsoul.ndjson abortSerde (abortEvents metadata)) =
      .ok (abortEvents metadata) := by
  apply Majsoul.events_ndjson
  · simp [abortEvents]
  · simp [abortEvents, abortRest, Majsoul.startGame, Majsoul.abortEvent, Majsoul.endKyoku,
      Majsoul.endGame, Majsoul.mjai, Value.isObject]
  · exact readsBack_events start

theorem undone_ranked : Majsoul.Undone ⟨abortSerde, abortConverting.gzip⟩ abortConverting.gunzip
    (abortEvents (some rankedMetadata)) where
  reads := readsBack_events readsBack_start.1
  gunzips := by
    rw [← rankedText]
    simp only [abortConverting, if_true]

theorem undone_blank : Majsoul.Undone ⟨abortSerde, abortConverting.gzip⟩ abortConverting.gunzip
    (abortEvents (some blankMetadata)) where
  reads := readsBack_events readsBack_start.2.1
  gunzips := by
    have texts : blankText ≠ rankedText := by
      intro same
      have blank := events_abort readsBack_start.2.1
      rw [← blankText, same, rankedText, events_abort readsBack_start.1, Except.ok.injEq] at blank
      exact absurd (congrArg (fun read => (metadataOf abortSerde read).rule) blank) (by decide)
    have presses : blankGzip ≠ rankedGzip := by decide +kernel
    rw [← blankText]
    simp only [abortConverting, if_neg texts, if_neg presses, if_true]

theorem undoes_ranked : Undoes abortConverting abortSerde abortGame rankedMetadata := by
  intro uuid fresh emits
  obtain ⟨-, rfl⟩ := emits.unique (emits_abort rankedMetadata)
  exact undone_ranked

theorem undoes_blank : Undoes abortConverting abortSerde abortGame blankMetadata := by
  intro uuid fresh emits
  obtain ⟨-, rfl⟩ := emits.unique (emits_abort blankMetadata)
  exact undone_blank

/-- The record as it was cut off: its first line alone. -/
def firstLine : Bytes :=
  Majsoul.ndjson abortSerde [Majsoul.startGame abortRecord (some rankedMetadata)]

theorem events_firstLine : events abortSerde firstLine =
    .ok [Majsoul.startGame abortRecord (some rankedMetadata)] := by
  apply Majsoul.events_ndjson
  · simp
  · simp [Majsoul.startGame, Majsoul.mjai, Value.isObject]
  · intro event member
    rw [List.mem_singleton] at member
    exact member ▸ readsBack_start.1

/-- **The whole record is replaced safely.** -/
theorem reconverted_safe_on_whole :
    ReconvertsSafely abortConverting abortSerde abortGame rankedMetadata rankedText "250101-a" := by
  refine (reconverted_safe_iff abortConverting abortSerde abortGame rankedMetadata rankedText
    "250101-a" undoes_ranked).mpr ⟨?_, ?_⟩
  · rw [← Majsoul.convertRecordBytes_panics ⟨abortSerde, abortConverting.gzip⟩ abortGame
      (some rankedMetadata), convertRecordBytes_eq_ok.mpr ⟨_, emits_abort rankedMetadata, rfl⟩]
    exact Outcome.ok_panics _
  · rintro ⟨fresh, before, emits, read, unequal, -⟩
    obtain ⟨-, rfl⟩ := emits.unique (emits_abort rankedMetadata)
    rw [rankedText, events_abort readsBack_start.1, Except.ok.injEq] at read
    exact unequal (congrArg hands read)

/-- **A record of which the first line is left panics the re-conversion.** -/
theorem reconverted_panics_on_first_line :
    majsoulHeader abortSerde firstLine = some ("250101-a", rankedMetadata) ∧
      ¬ ReconvertsSafely abortConverting abortSerde abortGame rankedMetadata firstLine
        "250101-a" := by
  constructor
  · rw [majsoulHeader, events_firstLine]
    rfl
  · rintro ⟨calm, -⟩
    refine calm ((reconverted_panics undoes_ranked).mpr (.inr ?_))
    refine ⟨_, _, emits_abort rankedMetadata, events_firstLine, by decide +kernel, by decide, ?_⟩
    intro pair member
    simp only [abortEvents, List.zip_cons_cons, List.zip_nil_right, List.mem_singleton] at member
    simp [member, abortConverting]

/-- **A ranked record keeps its rule.** -/
theorem reconverted_keeps_rule : KeepsRule abortSerde rankedText rankedText := by
  have read := events_abort readsBack_start.1
  have header : majsoulHeader abortSerde rankedText = some ("250101-a", rankedMetadata) := by
    rw [majsoulHeader, rankedText, read]
    rfl
  refine (reconverted_rule_iff abortConverting abortSerde abortGame rankedText header undoes_ranked
    ((reconverted_eq_ok undoes_ranked).mpr
      ⟨_, _, emits_abort rankedMetadata, read, rfl, rfl⟩)).mpr ?_
  refine ⟨"4p-gold-east", by decide +kernel, ?_⟩
  rw [storedRule, rankedText, read]
  rfl

/-- The record without its mode. -/
def bareText : Bytes := Majsoul.ndjson abortSerde (abortEvents none)

/-- **A header without its mode comes back with a thirteenth token.** -/
theorem reconverted_spoils_rule :
    majsoulHeader abortSerde bareText = some ("250101-a", blankMetadata) ∧
      reconverted abortConverting abortSerde abortGame blankMetadata bareText "250101-a" =
        .ok blankText ∧
      storedRule abortSerde bareText = none ∧ ¬ KeepsRule abortSerde bareText blankText := by
  have read := events_abort readsBack_start.2.2
  have fresh := events_abort readsBack_start.2.1
  have silent : storedRule abortSerde bareText = none := by
    rw [storedRule, bareText, read]
    rfl
  refine ⟨?_, ?_, silent, ?_⟩
  · rw [majsoulHeader, bareText, read]
    rfl
  · exact (reconverted_eq_ok undoes_blank).mpr
      ⟨_, _, emits_abort blankMetadata, read, rfl, rfl⟩
  · rintro ⟨found, parsed, kept, -⟩
    rw [parseMetadata, blankText, fresh, Except.ok.injEq] at parsed
    have token : found.rule = some "0p--" := by
      rw [← parsed]
      rfl
    rw [silent, token] at kept
    cases kept

end MajsoulManager.Index
