/-
# Record.Mjai — the event stream of a record and the metadata read off its header

`mjai.rs`.  A record is an NDJSON stream or one JSON array; either way every
event is an object.  `parseMetadata` is the only check of a record's content
before the API acknowledges it.
-/
import MajsoulManager.Record.Json

namespace MajsoulManager.Record

open MajsoulManager.Theory

set_option autoImplicit false

structure Metadata where
  players : List String
  rule : Option String
  eventCount : UInt32
  playedAt : Option DateTime
  majsoulUuid : Option String
  deriving DecidableEq, Repr

inductive ParseError where
  | utf8
  | empty
  | json (message : String)
  | notEvents
  deriving DecidableEq, Repr

variable (serde : Serde)

def readLine (line : String) : Except ParseError Value :=
  match serde.fromStr line with
  | .ok value => .ok value
  | .error message => .error (.json message)

/-- The record's events.  A text that starts with a bracket is one array, any
other text is one value a line. -/
def events (payload : List UInt8) : Except ParseError (List Value) :=
  match Text.fromUtf8 payload with
  | none => .error .utf8
  | some text =>
      let trimmed := Text.trim text
      if trimmed = "" then .error .empty
      else do
        let events ←
          if trimmed.toList.head? = some '[' then
            match serde.fromStrVec trimmed with
            | .ok items => .ok items
            | .error message => .error (.json message)
          else
            ((Text.lines text).filter fun line => Text.trim line != "").mapM (readLine serde)
        if events.isEmpty || events.any fun event => !event.isObject then .error .notEvents
        else .ok events

def isStartGame (event : Value) : Bool :=
  (event.get "type").bind Value.asStr == some "start_game"

/-- `{players}p-{room}-{game_length}` off the majsoul header. -/
def headerRule (majsoul : Option Value) : Option String := do
  let header ← majsoul
  let players ← (← header.get "players").asU64
  let room ← (← header.get "room").asStr
  let length ← (← header.get "game_length").asStr
  some (toString players.toNat ++ "p-" ++ room ++ "-" ++ length)

def ruleText : Value → String
  | .string value => Text.takeChars value 256
  | other => serde.print other

/-- A uuid is dropped, never cut, when it is empty or longer than 128 bytes. -/
def isGameUuid (uuid : String) : Bool :=
  uuid != "" && uuid.utf8ByteSize ≤ 128

def headerUuid (majsoul : Option Value) : Option String :=
  (((majsoul.bind (·.get "uuid")).bind Value.asStr).map Text.trim).filter isGameUuid

def headerPlayedAt (majsoul : Option Value) : Option DateTime :=
  ((majsoul.bind (·.get "start_time")).bind Value.asI64).bind fun seconds =>
    DateTime.fromTimestamp seconds.toInt 0

/-- The event the metadata is read off. -/
def startEvent (events : List Value) : Value :=
  (events.find? isStartGame).getD (events.head?.getD .null)

/-- What the metadata says of a list of events. -/
def metadataOf (events : List Value) : Metadata :=
  let start := startEvent events
  let majsoul := start.get "majsoul"
  { players := (((start.get "names").bind Value.asArray).map fun names =>
      (names.filterMap Value.asStr).map fun name => Text.takeChars name 128).getD []
    rule := ((start.get "rule").map (ruleText serde)).or (headerRule majsoul)
    eventCount := UInt32.ofNat (min events.length (2 ^ 32 - 1))
    playedAt := headerPlayedAt majsoul
    majsoulUuid := headerUuid majsoul }

/-- The source repeats the reading of `events` here, line for line. -/
def parseMetadata (payload : List UInt8) : Except ParseError Metadata :=
  match events serde payload with
  | .error e => .error e
  | .ok events => .ok (metadataOf serde events)

variable {serde}

theorem parseMetadata_eq_ok {payload : List UInt8} {metadata : Metadata} :
    parseMetadata serde payload = .ok metadata ↔
      ∃ read, events serde payload = .ok read ∧ metadataOf serde read = metadata := by
  unfold parseMetadata
  cases events serde payload <;> simp

/-- A uuid that ingest deduplicates on is never empty and at most 128 bytes. -/
theorem parseMetadata_uuid {payload : List UInt8} {metadata : Metadata} {uuid : String}
    (parsed : parseMetadata serde payload = .ok metadata)
    (carried : metadata.majsoulUuid = some uuid) : isGameUuid uuid = true := by
  obtain ⟨read, -, rfl⟩ := parseMetadata_eq_ok.mp parsed
  exact (Option.filter_eq_some_iff.mp carried).2

end MajsoulManager.Record
