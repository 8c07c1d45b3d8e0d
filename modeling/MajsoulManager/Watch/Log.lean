/-
# Watch.Log — what the console's log shows of a secret

`register_secret` keeps the passwords and proxy credentials that a module's stderr
can echo, in the order they come, and `append` replaces them in a message one after
another before it is cut and stored.

`append_redacts_iff`: every message is stored with each stretch of registered
secrets as one mark exactly when the secrets are closed: whatever text two of them
make when they overlap is registered too, and before both.
-/
import MajsoulManager.Theory.Redaction
import MajsoulManager.Theory.Text
import MajsoulManager.Theory.Time

namespace MajsoulManager.Watch

open MajsoulManager.Theory

set_option autoImplicit false

/-! ## The buffer -/

inductive WatchLogLevel where
  | debug
  | info
  | warn
  | error
  deriving DecidableEq

structure WatchLogEntry where
  seq : UInt64
  timestamp : DateTime
  level : WatchLogLevel
  source : String
  message : String
  deriving DecidableEq

structure WatchLogBuffer where
  entries : List WatchLogEntry
  nextSeq : UInt64
  secrets : List String

def watchLogCapacity : Nat := 500

def maxMessageChars : Nat := 2048

def minSecretChars : Nat := 4

def WatchLogBuffer.new : WatchLogBuffer := ⟨[], 1, []⟩

/-- Too short a secret would tear ordinary text apart. -/
def WatchLogBuffer.registerSecret (buffer : WatchLogBuffer) (secret : String) : WatchLogBuffer :=
  if secret.length < minSecretChars then buffer
  else if buffer.secrets.any (· == secret) then buffer
  else { buffer with secrets := buffer.secrets ++ [secret] }

/-- `***`. -/
def mark : List Char := ['*', '*', '*']

/-- `str::replace`, character by character. -/
def replaced (secret message : List Char) : List Char :=
  if secret <:+: message then Redaction.replace secret mark message else message

def redacted (secrets : List String) (message : String) : String :=
  String.ofList (secrets.foldl (fun message secret => replaced secret.toList message) message.toList)

def WatchLogBuffer.append (buffer : WatchLogBuffer) (now : DateTime) (level : WatchLogLevel)
    (source message : String) : WatchLogBuffer :=
  let message := Text.takeChars (redacted buffer.secrets message) maxMessageChars
  let entries := if buffer.entries.length = watchLogCapacity then buffer.entries.drop 1
    else buffer.entries
  { buffer with
    entries := entries ++ [⟨buffer.nextSeq, now, level, source, message⟩]
    nextSeq := buffer.nextSeq + 1 }

/-- What is called on the buffer, in any order. -/
inductive LogCall where
  | registerSecret (secret : String)
  | append (now : DateTime) (level : WatchLogLevel) (source message : String)

def LogCall.apply (buffer : WatchLogBuffer) : LogCall → WatchLogBuffer
  | registerSecret secret => buffer.registerSecret secret
  | append now level source message => buffer.append now level source message

def bufferAfter (calls : List LogCall) : WatchLogBuffer := calls.foldl LogCall.apply .new

def epoch : DateTime := .ofParts 0 0 rfl

/-- What `append` stores of a message. -/
def WatchLogBuffer.stored (buffer : WatchLogBuffer) (now : DateTime) (level : WatchLogLevel)
    (source message : String) : Option String :=
  (buffer.append now level source message).entries.getLast?.map (·.message)

/-! ## Redaction -/

def WatchLogBuffer.words (buffer : WatchLogBuffer) : List (List Char) :=
  buffer.secrets.map String.toList

/-- The message with every stretch that registered secrets cover as one mark. -/
def WatchLogBuffer.masked (buffer : WatchLogBuffer) (message : String) : String :=
  String.ofList (Redaction.masked buffer.words mark message.toList)

/-- No character of any occurrence of a registered secret is stored, and two messages
that differ in registered secrets only are stored alike. -/
structure Redacts (buffer : WatchLogBuffer) : Prop where
  hidden : ∀ now level source message, buffer.stored now level source message =
    some (Text.takeChars (buffer.masked message) maxMessageChars)
  same : ∀ now level source message other, buffer.masked message = buffer.masked other →
    buffer.stored now level source message = buffer.stored now level source other

/-- The secret cannot lie over a mark: it does not begin or end with one of its
characters, and does not hold a whole one. -/
def Unmarked (secret : String) : Prop :=
  secret.toList.head? ≠ some '*' ∧ secret.toList.getLast? ≠ some '*' ∧ ¬ mark <:+: secret.toList

instance (secret : String) : Decidable (Unmarked secret) :=
  inferInstanceAs (Decidable (_ ∧ _ ∧ _))

/-- What is registered is long enough, and once. -/
structure Registered (secrets : List String) : Prop where
  long : ∀ secret ∈ secrets, minSecretChars ≤ secret.length
  distinct : secrets.Nodup

theorem bufferAfter_registered (calls : List LogCall) : Registered (bufferAfter calls).secrets := by
  have step : ∀ (buffer : WatchLogBuffer) (call : LogCall), Registered buffer.secrets →
      Registered (call.apply buffer).secrets := by
    intro buffer call before
    cases call with
    | append now level source message => exact before
    | registerSecret secret =>
        simp only [LogCall.apply, WatchLogBuffer.registerSecret]
        split
        · exact before
        · rename_i long
          split
          · exact before
          · rename_i fresh
            have new : secret ∉ buffer.secrets := by simpa using fresh
            constructor
            · intro known member
              rcases List.mem_append.mp member with old | last
              · exact before.long known old
              · rw [List.mem_singleton.mp last]
                omega
            · rw [← List.concat_eq_append]
              exact before.distinct.concat new
  have run : ∀ (calls : List LogCall) (buffer : WatchLogBuffer), Registered buffer.secrets →
      Registered (calls.foldl LogCall.apply buffer).secrets := by
    intro calls
    induction calls with
    | nil => exact fun buffer before => before
    | cons call rest ih => exact fun buffer before => ih _ (step buffer call before)
  exact run calls .new ⟨by simp [WatchLogBuffer.new], by simp [WatchLogBuffer.new]⟩

theorem mark_getElem? {e : Nat} (inside : e < mark.length) : mark[e]? = some '*' := by
  have : e = 0 ∨ e = 1 ∨ e = 2 := by
    simp only [mark, List.length_cons, List.length_nil] at inside
    omega
  rcases this with rfl | rfl | rfl <;> rfl

/-- An occurrence, one place at a time. -/
theorem getElem?_of_prefix_drop {word text : List Char} {d e : Nat} (here : word <+: text.drop d)
    (inside : e < word.length) : text[d + e]? = word[e]? := by
  obtain ⟨rest, same⟩ := here
  rw [← List.getElem?_drop, ← same, List.getElem?_append_left inside]

theorem Unmarked.apart {secret : String} (unmarked : Unmarked secret)
    (long : minSecretChars ≤ secret.length) : Redaction.Apart secret.toList mark := by
  obtain ⟨begins, ends, holds⟩ := unmarked
  have sized : 4 ≤ secret.toList.length := by
    rw [String.length_toList]
    exact long
  have three : mark.length = 3 := rfl
  intro text
  constructor
  · rintro ⟨d, inside, here, there, -⟩
    by_cases within : d + mark.length ≤ secret.toList.length
    · -- the mark lies inside the secret
      obtain ⟨rest, rfl⟩ := here
      rw [List.drop_append_of_le_length inside.le] at there
      have front : mark <+: secret.toList.drop d :=
        List.prefix_of_prefix_length_le there (List.prefix_append _ _) (by simp; omega)
      exact holds (front.isInfix.trans (List.drop_suffix d _).isInfix)
    · -- the secret ends inside the mark
      have last := getElem?_of_prefix_drop there
        (show secret.toList.length - 1 - d < mark.length by omega)
      rw [mark_getElem? (by omega), show d + (secret.toList.length - 1 - d) =
        0 + (secret.toList.length - 1) by omega,
        getElem?_of_prefix_drop (by simpa using here) (by omega)] at last
      exact ends (by rw [List.getLast?_eq_getElem?]; exact last)
  · rintro ⟨d, inside, here, there, -⟩
    have first := getElem?_of_prefix_drop there (show 0 < secret.toList.length by omega)
    rw [show d + 0 = 0 + d by omega, getElem?_of_prefix_drop (by simpa using here) inside,
      mark_getElem? inside] at first
    exact begins (by rw [List.head?_eq_getElem?]; exact first.symm)

theorem redacted_eq (secrets : List String) (message : String) :
    redacted secrets message =
      String.ofList (Redaction.redact (secrets.map String.toList) mark message.toList) := by
  have once : ∀ secret message, replaced secret message = Redaction.replace secret mark message := by
    intro secret message
    unfold replaced
    split
    · rfl
    · rename_i absent
      exact (Redaction.replace_of_not_infix absent).symm
  simp only [redacted, Redaction.redact, List.foldl_map, once]

theorem stored_eq (buffer : WatchLogBuffer) (now : DateTime) (level : WatchLogLevel)
    (source message : String) :
    buffer.stored now level source message =
      some (Text.takeChars (redacted buffer.secrets message) maxMessageChars) := by
  simp [WatchLogBuffer.stored, WatchLogBuffer.append]

section Words

variable {buffer : WatchLogBuffer}

theorem words_nonempty (registered : Registered buffer.secrets) :
    ∀ word ∈ buffer.words, word ≠ [] := by
  intro word member nothing
  obtain ⟨secret, known, rfl⟩ := List.mem_map.mp member
  have long := registered.long secret known
  rw [← String.length_toList, nothing] at long
  simp [minSecretChars] at long

theorem words_distinct (registered : Registered buffer.secrets) : buffer.words.Nodup :=
  registered.distinct.map fun _ _ same => String.toList_inj.mp same

theorem words_apart (registered : Registered buffer.secrets)
    (unmarked : ∀ secret ∈ buffer.secrets.tail, Unmarked secret) :
    ∀ word ∈ buffer.words.tail, Redaction.Apart word mark := by
  intro word member
  rw [WatchLogBuffer.words, ← List.map_tail] at member
  obtain ⟨secret, later, rfl⟩ := List.mem_map.mp member
  exact (unmarked secret later).apart (registered.long secret (List.mem_of_mem_tail later))

/-- A text that is stored as a bare mark came out of the replacements as one. -/
theorem redact_of_stored {message : String}
    (bare : Text.takeChars (redacted buffer.secrets message) maxMessageChars = String.ofList mark) :
    Redaction.redact buffer.words mark message.toList = mark := by
  rw [redacted_eq, Text.takeChars, String.toList_ofList] at bare
  have cut : (Redaction.redact buffer.words mark message.toList).take maxMessageChars = mark := by
    simpa [WatchLogBuffer.words] using congrArg String.toList bare
  have sized := congrArg List.length cut
  rw [List.length_take] at sized
  rwa [List.take_of_length_le] at cut
  simp only [mark, maxMessageChars, List.length_cons, List.length_nil] at sized ⊢
  omega

end Words

/-- **Redaction.**  After any calls, where no secret but the first can lie over a
mark: every message is stored without any of its registered secrets exactly when the
secrets are closed. -/
theorem append_redacts_iff (calls : List LogCall)
    (unmarked : ∀ secret ∈ (bufferAfter calls).secrets.tail, Unmarked secret) :
    Redacts (bufferAfter calls) ↔ Redaction.Closed (bufferAfter calls).words := by
  have registered := bufferAfter_registered calls
  have apart := words_apart registered unmarked
  have nonempty := words_nonempty registered
  generalize bufferAfter calls = buffer at *
  constructor
  · intro redacts
    apply Redaction.closed_of_redact (by simp [mark]) nonempty apart
    intro first member second alsoMember text made
    -- the two together are one stretch, which is stored as a bare mark
    have one : buffer.masked (String.ofList text) = String.ofList mark := by
      rw [WatchLogBuffer.masked, String.toList_ofList, Redaction.masked_eq_swept,
        Redaction.swept_superposed nonempty member alsoMember made]
    have stored := redacts.hidden epoch .info "" (String.ofList text)
    rw [stored_eq, one, Option.some.injEq] at stored
    have bare := redact_of_stored (stored.trans (by simp [Text.takeChars, mark, maxMessageChars]))
    rwa [String.toList_ofList] at bare
  · intro closed
    have whole : ∀ message, redacted buffer.secrets message = buffer.masked message := by
      intro message
      rw [redacted_eq, WatchLogBuffer.masked]
      exact congrArg String.ofList
        (Redaction.redact_eq_masked closed (words_distinct registered) nonempty apart _)
    constructor
    · intro now level source message
      rw [stored_eq, whole]
    · intro now level source message other same
      rw [stored_eq, stored_eq, whole, whole, same]

/-- Words that share no character with the start of another are closed. -/
theorem closed_of_heads {words : List (List Char)}
    (heads : ∀ i < words.length, ∀ j < words.length, ∀ d < (words[i]?.getD []).length,
      (words[i]?.getD [])[d]? = (words[j]?.getD []).head? → i = j ∧ d = 0)
    (nonempty : ∀ word ∈ words, word ≠ []) : Redaction.Closed words := by
  rintro i j first second text here there ⟨d, inside, front, behind, sized⟩
  have known := (List.getElem?_eq_some_iff.mp here).1
  have alsoKnown := (List.getElem?_eq_some_iff.mp there).1
  have positive := List.length_pos_iff.mpr (nonempty second (List.mem_of_getElem? there))
  have meets : first[d]? = second.head? := by
    rw [List.head?_eq_getElem?, ← getElem?_of_prefix_drop behind positive, Nat.add_comm d 0,
      getElem?_of_prefix_drop (by simpa using front) inside]
  obtain ⟨rfl, rfl⟩ := heads i known j alsoKnown d (by simpa [here] using inside)
    (by simpa [here, there] using meets)
  rw [here] at there
  cases there
  exact ⟨i, le_rfl, le_rfl, (front.eq_of_length (by omega)) ▸ here⟩

/-- A password and the account it is for. -/
def loginCalls : List LogCall :=
  [.registerSecret "p@ssw0rd!", .registerSecret "abc", .registerSecret "tenhou-7"]

theorem append_redacts_login :
    (bufferAfter loginCalls).secrets = ["p@ssw0rd!", "tenhou-7"] ∧ Redacts (bufferAfter loginCalls) := by
  refine ⟨by decide +kernel, (append_redacts_iff loginCalls (by decide +kernel)).mpr ?_⟩
  exact closed_of_heads (by decide +kernel) (words_nonempty (bufferAfter_registered loginCalls))

/-- A password, and then another that starts with it. -/
def extendedCalls : List LogCall := [.registerSecret "abcd", .registerSecret "abcdef"]

/-- The end of the longer one is stored, and telling the two apart is easy. -/
theorem append_leaks_extension :
    ¬ Redacts (bufferAfter extendedCalls) ∧
      (bufferAfter extendedCalls).stored epoch .info "module" "login abcdef" =
        some "login ***ef" ∧
      (bufferAfter extendedCalls).stored epoch .info "module" "login abcd" = some "login ***" := by
  refine ⟨fun redacts => ?_, by decide +kernel, by decide +kernel⟩
  have hidden := redacts.hidden epoch .info "module" "login abcdef"
  exact absurd hidden (by decide +kernel)

end MajsoulManager.Watch
