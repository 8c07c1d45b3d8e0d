/-
# Ingest.Keys — what a record is a duplicate of

A record that carries a game uuid is claimed under the game's own key, any other
under the source and key its caller named.  Both are one string, joined with a
NUL, and hashed into one table.

`scopedKey_eq_gameScopeKey_iff` says when a claim is made under a game's key: a
record with a uuid takes exactly its own game's, and one without takes a game's
exactly when its caller spells out the game scope, the live collector's own
source and key.
-/
import MajsoulManager.Indexer.WorkerInvariant

namespace MajsoulManager.Ingest

open MajsoulManager.Theory
open MajsoulManager.Record
open MajsoulManager.Store

set_option autoImplicit false

/-- The live collector's source name, which its claims are already stored under. -/
def majsoulGameScope : String := "majsoul-watch"

def gameScopeKey (majsoulUuid : String) : String := majsoulGameScope ++ "\x00" ++ majsoulUuid

def callerKey (source key : String) : String := source ++ "\x00" ++ key

inductive KeyScope where
  | game
  | caller
  deriving DecidableEq, Repr

/-- Only a caller's key promises anything about content. -/
def KeyScope.contentMustMatch : KeyScope → Bool
  | .game => false
  | .caller => true

def KeyScope.expires : KeyScope → Bool
  | .game => false
  | .caller => true

/-- The key a record is claimed under, and where it came from. -/
def scopedKey (metadata : Metadata) (source key : String) : String × KeyScope :=
  match metadata.majsoulUuid with
  | some uuid => (gameScopeKey uuid, .game)
  | none => (callerKey source key, .caller)

/-! ## What the API admits -/

/-- What `HeaderValue::to_str` reads: visible ASCII, blanks and tabs. -/
def isHeaderText (text : String) : Bool :=
  text != "" && text.toList.all fun c => c == '\t' || (32 ≤ c.toNat && c.toNat ≤ 126)

/-- A source header the API admits. -/
structure Source where
  text : String
  header : isHeaderText text = true
  short : text.utf8ByteSize ≤ 128

/-- A single record's key header, or a batch's with the path of a tar member. -/
inductive CallerKey where
  | single (header : String) (admitted : isHeaderText header = true)
      (short : header.utf8ByteSize ≤ 256)
  | member (batchKey : String) (admitted : isHeaderText batchKey = true)
      (short : batchKey.utf8ByteSize ≤ 256) (path : String)

def CallerKey.text : CallerKey → String
  | single header _ _ => header
  | member batchKey _ _ path => batchKey ++ "/" ++ path

theorem Source.noNul (source : Source) : '\x00' ∉ source.text.toList := by
  intro nul
  have header := source.header
  simp only [isHeaderText, Bool.and_eq_true, List.all_eq_true] at header
  exact absurd (header.2 _ nul) (by decide)

/-! ## Splitting a key -/

/-- Two texts without a NUL before it split at it the same way. -/
theorem append_nul_inj {first second after other : List Char} (left : '\x00' ∉ first)
    (right : '\x00' ∉ second)
    (same : first ++ '\x00' :: after = second ++ '\x00' :: other) :
    first = second ∧ after = other := by
  induction first generalizing second with
  | nil =>
      cases second with
      | nil => simpa using same
      | cons c rest =>
          simp only [List.nil_append, List.cons_append, List.cons.injEq] at same
          exact absurd (same.1 ▸ List.mem_cons_self) right
  | cons c rest ih =>
      cases second with
      | nil =>
          simp only [List.nil_append, List.cons_append, List.cons.injEq] at same
          exact absurd (same.1 ▸ List.mem_cons_self) left
      | cons d more =>
          simp only [List.cons_append, List.cons.injEq] at same
          obtain ⟨rfl, same⟩ := same
          obtain ⟨rfl, rfl⟩ := ih (fun nul => left (List.mem_cons_of_mem _ nul))
            (fun nul => right (List.mem_cons_of_mem _ nul)) same
          exact ⟨rfl, rfl⟩

theorem callerKey_inj {source other key rest : String} (left : '\x00' ∉ source.toList)
    (right : '\x00' ∉ other.toList) :
    callerKey source key = callerKey other rest ↔ source = other ∧ key = rest := by
  constructor
  · intro same
    have chars := congrArg String.toList same
    simp only [callerKey, String.toList_append] at chars
    have parts := append_nul_inj left right (by simpa using chars)
    exact ⟨String.toList_injective parts.1, String.toList_injective parts.2⟩
  · rintro ⟨rfl, rfl⟩
    rfl

/-- Distinct games have distinct keys. -/
theorem gameScopeKey_inj {uuid other : String} :
    gameScopeKey uuid = gameScopeKey other ↔ uuid = other := by
  simp [gameScopeKey]

/-- **When a claim is made under a game's key.** -/
theorem scopedKey_eq_gameScopeKey_iff (metadata : Metadata) (source : Source) (key : CallerKey)
    (uuid : String) :
    (scopedKey metadata source.text key.text).1 = gameScopeKey uuid ↔
      match metadata.majsoulUuid with
      | some own => own = uuid
      | none => source.text = majsoulGameScope ∧ key.text = uuid := by
  cases carried : metadata.majsoulUuid with
  | some own => simp [scopedKey, carried, gameScopeKey_inj]
  | none =>
      simp only [scopedKey, carried]
      exact callerKey_inj source.noNul (by decide)

/-- A record without a game identity, uploaded under the live collector's source
with a game's uuid for a key, is claimed under that game's key. -/
theorem scopes_meet_at_the_collector :
    isHeaderText "majsoul-watch" = true ∧ isHeaderText "260716-4c9a" = true ∧
      isGameUuid "260716-4c9a" = true ∧ Text.trim "260716-4c9a" = "260716-4c9a" ∧
      (scopedKey ⟨[], none, 1, none, none⟩ "majsoul-watch" "260716-4c9a").1 =
        gameScopeKey "260716-4c9a" := by
  decide

end MajsoulManager.Ingest
