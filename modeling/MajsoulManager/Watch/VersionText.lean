/-
# Watch.VersionText — client versions as numbers

`parse_version` and `format_version` of `managed_watch.rs`: `0.<minor>.<patch>` is one
`u32`, a thousand for each minor version and the patch below it.  A version is compared and
searched for as that number, so the number has to be the version: it is, until
`minor * 1000` passes the top of the word, and from there the number belongs to another
version.
-/
import MajsoulManager.Theory.Text
import Mathlib.Data.Prod.Lex
import Mathlib.Data.Set.Basic

namespace MajsoulManager.Watch

open MajsoulManager.Theory

set_option autoImplicit false

/-- The product and the sum are those of a `u32`: a release build does not check them. -/
def parseVersion (version : String) : Option UInt32 :=
  match Text.splitChars '.' version.toList with
  | [zero, minor, patch] =>
      if zero ≠ ['0'] then none
      else
        match Text.parseUnsigned 32 minor, Text.parseUnsigned 32 patch with
        | some minor, some patch =>
            if 1000 ≤ patch then none
            else some (UInt32.ofNat minor * 1000 + UInt32.ofNat patch)
        | _, _ => none
  | _ => none

def formatVersion (value : UInt32) : String :=
  s!"0.{value / 1000}.{value % 1000}"

/-! ## Versions -/

/-- A version, whatever its spelling. -/
@[ext] structure Version where
  minor : Nat
  patch : Nat
  word : minor < 2 ^ 32
  small : patch < 1000

namespace Version

/-- Versions are ordered by the minor version first. -/
instance : LinearOrder Version :=
  LinearOrder.lift' (fun version => toLex (version.minor, version.patch)) fun a b same => by
    have parts := Prod.mk.inj (toLex.injective same)
    exact Version.ext parts.1 parts.2

theorem lt_iff {a b : Version} :
    a < b ↔ a.minor < b.minor ∨ a.minor = b.minor ∧ a.patch < b.patch :=
  Prod.Lex.toLex_lt_toLex

/-- The number a version stands for. -/
def number (version : Version) : Nat := version.minor * 1000 + version.patch

theorem number_strictMono : StrictMono number := by
  intro a b less
  have small := a.small
  rcases lt_iff.mp less with minor | ⟨minor, patch⟩
  · unfold number
    omega
  · unfold number
    omega

/-- The number as the code computes it. -/
def wrapped (version : Version) : UInt32 :=
  UInt32.ofNat version.minor * 1000 + UInt32.ofNat version.patch

theorem toNat_wrapped (version : Version) : version.wrapped.toNat = version.number % 2 ^ 32 := by
  simp [wrapped, number, UInt32.toNat_add, UInt32.toNat_mul]

theorem toNat_wrapped_eq_iff (version : Version) :
    version.wrapped.toNat = version.number ↔ version.number < 2 ^ 32 := by
  rw [toNat_wrapped]
  constructor
  · intro same
    rw [← same]
    exact Nat.mod_lt _ (by decide)
  · exact Nat.mod_eq_of_lt

/-- The version with a given number. -/
def ofNumber (n : Nat) (fits : n < 2 ^ 32) : Version where
  minor := n / 1000
  patch := n % 1000
  word := lt_of_le_of_lt (Nat.div_le_self _ _) fits
  small := Nat.mod_lt _ (by decide)

@[simp] theorem number_ofNumber {n : Nat} (fits : n < 2 ^ 32) : (ofNumber n fits).number = n := by
  rw [number, ofNumber, Nat.mul_comm]
  exact Nat.div_add_mod n 1000

/-- The texts that name a version: a number may carry a plus sign and leading zeros. -/
def Names (text : String) (version : Version) : Prop :=
  ∃ minor patch, text.toList = '0' :: '.' :: (minor ++ '.' :: patch) ∧
    Text.unsignedValue minor = some version.minor ∧ Text.unsignedValue patch = some version.patch

end Version

/-! ## What the parser accepts -/

theorem splitChars_version {minor patch : List Char} (minorPlain : '.' ∉ minor)
    (patchPlain : '.' ∉ patch) :
    Text.splitChars '.' ('0' :: '.' :: (minor ++ '.' :: patch)) = [['0'], minor, patch] := by
  have zero : '.' ∉ ['0'] := by decide
  rw [show '0' :: '.' :: (minor ++ '.' :: patch) = ['0'] ++ '.' :: (minor ++ '.' :: patch) from rfl,
    Text.splitChars_append zero, Text.splitChars_append minorPlain, Text.splitChars_piece patchPlain]

theorem parseVersion_of_names {text : String} {version : Version}
    (named : version.Names text) : parseVersion text = some version.wrapped := by
  obtain ⟨minor, patch, spelled, minorValue, patchValue⟩ := named
  have word := version.word
  have small := version.small
  have minorParsed : Text.parseUnsigned 32 minor = some version.minor :=
    Text.parseUnsigned_eq_some.mpr ⟨minorValue, word⟩
  have patchParsed : Text.parseUnsigned 32 patch = some version.patch :=
    Text.parseUnsigned_eq_some.mpr ⟨patchValue, by omega⟩
  rw [parseVersion, spelled, splitChars_version (Text.dot_not_mem_of_unsignedValue minorValue)
    (Text.dot_not_mem_of_unsignedValue patchValue)]
  simp only [ne_eq, not_true_eq_false, if_false, minorParsed, patchParsed]
  rw [if_neg (by omega)]
  rfl

theorem names_of_parseVersion {text : String} {value : UInt32}
    (parsed : parseVersion text = some value) :
    ∃ version : Version, version.Names text ∧ value = version.wrapped := by
  unfold parseVersion at parsed
  split at parsed
  · rename_i zero minor patch pieces
    split at parsed
    · cases parsed
    · rename_i zeroed
      split at parsed
      · rename_i m p minorParsed patchParsed
        split at parsed
        · cases parsed
        · rename_i small
          obtain ⟨minorValue, word⟩ := Text.parseUnsigned_eq_some.mp minorParsed
          obtain ⟨patchValue, -⟩ := Text.parseUnsigned_eq_some.mp patchParsed
          refine ⟨⟨m, p, word, by omega⟩, ⟨minor, patch, ?_, minorValue, patchValue⟩,
            (Option.some.inj parsed).symm⟩
          -- The text is what its three pieces join to.
          rw [← Text.joinWith_splitChars '.' text.toList, pieces, not_not.mp zeroed]
          rfl
      · cases parsed
  · cases parsed

/-- A text names one version at most. -/
theorem names_unique {text : String} {a b : Version} (first : a.Names text)
    (second : b.Names text) : a = b := by
  obtain ⟨minor, patch, spelled, minorValue, patchValue⟩ := first
  obtain ⟨minor', patch', spelled', minorValue', patchValue'⟩ := second
  have pieces := splitChars_version (Text.dot_not_mem_of_unsignedValue minorValue)
    (Text.dot_not_mem_of_unsignedValue patchValue)
  rw [← spelled, spelled', splitChars_version (Text.dot_not_mem_of_unsignedValue minorValue')
    (Text.dot_not_mem_of_unsignedValue patchValue')] at pieces
  obtain ⟨-, rfl, rfl⟩ : True ∧ minor' = minor ∧ patch' = patch := by simpa using pieces
  exact Version.ext (Option.some.inj (minorValue.symm.trans minorValue'))
    (Option.some.inj (patchValue.symm.trans patchValue'))

/-! ## Printing and reading back -/

theorem formatVersion_toList (value : UInt32) :
    (formatVersion value).toList =
      '0' :: '.' :: (Nat.toDigits 10 (value.toNat / 1000) ++ '.' ::
        Nat.toDigits 10 (value.toNat % 1000)) := by
  have printed : formatVersion value =
      "0." ++ Nat.repr (value.toNat / 1000) ++ "." ++ Nat.repr (value.toNat % 1000) := rfl
  rw [printed]
  simp [String.toList_append, Nat.toList_repr]

theorem names_formatVersion (value : UInt32) :
    (Version.ofNumber value.toNat value.toNat_lt).Names (formatVersion value) :=
  ⟨_, _, formatVersion_toList value, Text.unsignedValue_toDigits _, Text.unsignedValue_toDigits _⟩

theorem parseVersion_formatVersion (value : UInt32) :
    parseVersion (formatVersion value) = some value := by
  rw [parseVersion_of_names (names_formatVersion value)]
  congr 1
  apply UInt32.toNat_inj.mp
  rw [Version.toNat_wrapped, Version.number_ofNumber]
  exact Nat.mod_eq_of_lt value.toNat_lt

/-! ## Numbers in place of versions -/

/-- On these texts the numbers stand for the versions: each is its version's number, they
are ordered as the versions are, and no two versions share one. -/
structure Stands (texts : Set String) : Prop where
  exact : ∀ text ∈ texts, ∀ value, parseVersion text = some value →
    ∃ version : Version, version.Names text ∧ value.toNat = version.minor * 1000 + version.patch
  ordered : ∀ text ∈ texts, ∀ other ∈ texts, ∀ value value' (version version' : Version),
    parseVersion text = some value → parseVersion other = some value' →
      version.Names text → version'.Names other → (value < value' ↔ version < version')
  distinct : ∀ text ∈ texts, ∀ other ∈ texts, ∀ value (version version' : Version),
    parseVersion text = some value → parseVersion other = some value →
      version.Names text → version'.Names other → version = version'

/-- **The codec of versions**: every number reads back from its text, and on a set of texts
the numbers stand for the versions exactly when no version named there passes the word. -/
theorem versions_stand_iff (texts : Set String) :
    (∀ value, parseVersion (formatVersion value) = some value) ∧
      (Stands texts ↔ ∀ text ∈ texts, ∀ version : Version, version.Names text →
        version.minor * 1000 + version.patch < 2 ^ 32) := by
  refine ⟨parseVersion_formatVersion, fun stands text member version named => ?_, fun fits => ?_⟩
  · obtain ⟨named', names', exact⟩ :=
      stands.exact text member _ (parseVersion_of_names named)
    obtain rfl := names_unique named names'
    exact version.toNat_wrapped_eq_iff.mp exact
  · have value_eq : ∀ text ∈ texts, ∀ value (version : Version),
        parseVersion text = some value → version.Names text → value.toNat = version.number := by
      intro text member value version parsed named
      obtain rfl := Option.some.inj ((parseVersion_of_names named).symm.trans parsed)
      exact version.toNat_wrapped_eq_iff.mpr (fits text member version named)
    constructor
    · intro text member value parsed
      obtain ⟨version, named, -⟩ := names_of_parseVersion parsed
      exact ⟨version, named, value_eq text member value version parsed named⟩
    · intro text member other member' value value' version version' parsed parsed' named named'
      rw [UInt32.lt_iff_toNat_lt, value_eq text member value version parsed named,
        value_eq other member' value' version' parsed' named']
      exact Version.number_strictMono.lt_iff_lt
    · intro text member other member' value version version' parsed parsed' named named'
      apply Version.number_strictMono.injective
      rw [← value_eq text member value version parsed named,
        value_eq other member' value version' parsed' named']

/-- `0.4294968.0` is the number of `0.0.704`. -/
theorem highVersion_wraps :
    parseVersion "0.4294968.0" = some 704 ∧ parseVersion "0.0.704" = some 704 ∧
      ¬ Stands Set.univ := by
  refine ⟨by decide +kernel, by decide +kernel, fun stands => ?_⟩
  have high : Version.Names "0.4294968.0" ⟨4294968, 0, by decide, by decide⟩ :=
    ⟨"4294968".toList, "0".toList, by decide +kernel, by decide +kernel, by decide +kernel⟩
  have low : Version.Names "0.0.704" ⟨0, 704, by decide, by decide⟩ :=
    ⟨"0".toList, "704".toList, by decide +kernel, by decide +kernel, by decide +kernel⟩
  have same := stands.distinct "0.4294968.0" trivial "0.0.704" trivial 704 _ _
    (by decide +kernel) (by decide +kernel) high low
  cases congrArg Version.minor same

end MajsoulManager.Watch
