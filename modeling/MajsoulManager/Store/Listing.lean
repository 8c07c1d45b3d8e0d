/-
# Store.Listing — a bucket listing, page by page

`list`, `parse_list_page`, `element` and `unescape` of `objects.rs`.  A page is read by
searching it: nothing is parsed that is not asked for.  The collector deletes what the
listing shows and the index does not, and everything the index does not know of what the
listing misses is left for good.

What a bucket answers with is `PageOf`: any document of tags and text in which the blocks do
not nest, the elements that are read stand once in each block, and text is written with the
five entities.  A page that is so written is read back exactly (`PageOf.parse`), and the
listing is that of all the pages (`Pages.list`).

The RFC 3339 reader is the third-party one; what a request is answered with is a parameter.
-/
import MajsoulManager.Store.Gc
import MajsoulManager.Store.Reference
import MajsoulManager.Theory.Markup
import MajsoulManager.Theory.Trim

namespace MajsoulManager.Store

open MajsoulManager.Theory
open MajsoulManager.Theory.Markup (cut splitOn tag render Item Escaped)

set_option autoImplicit false

/-! ## The reader -/

inductive Malformed where
  | noKey
  | noSize (key : String)
  | noLastModified (key : String)
  | noToken
  | unsupportedEntity (text : String)
  | repeatedToken
  deriving DecidableEq, Repr

inductive ObjectError where
  | transport
  | server (status : Nat) (body : String)
  | malformed (reason : Malformed)
  deriving DecidableEq, Repr

/-- The entities of `unescape`, in its order. -/
def entities : List (List Char × Char) :=
  [(['&', 'a', 'm', 'p', ';'], '&'), (['&', 'l', 't', ';'], '<'), (['&', 'g', 't', ';'], '>'),
    (['&', 'q', 'u', 'o', 't', ';'], '"'), (['&', 'a', 'p', 'o', 's', ';'], '\'')]

/-- The loop of `unescape`; an entity is passed over once it is read. -/
def unescapeFrom (text : List Char) : Nat → List Char → Except ObjectError (List Char)
  | _, [] => .ok []
  | skip + 1, _ :: rest => unescapeFrom text skip rest
  | 0, c :: rest =>
      if c = '&' then
        match entities.find? fun entry => entry.1.isPrefixOf (c :: rest) with
        | some entry => (unescapeFrom text (entry.1.length - 1) rest).map (entry.2 :: ·)
        | none => .error (.malformed (.unsupportedEntity (String.ofList text)))
      else (unescapeFrom text 0 rest).map (c :: ·)

def unescape (text : List Char) : Except ObjectError String :=
  if text.contains '&' then (unescapeFrom text 0 text).map String.ofList
  else .ok (String.ofList text)

/-- The text of the first element of that name. -/
def element (xml : List Char) (name : String) : Option (List Char) :=
  (cut (tag name.toList) xml).bind fun found =>
    (cut (tag ('/' :: name.toList)) found.2).map (·.1)

def parseSize (text : List Char) : Option Nat :=
  Text.parseUnsigned 64 (Text.trim (String.ofList text)).toList

/-- Nanoseconds since the epoch. -/
def instant (t : DateTime) : Int := t.secs * 1000000000 + t.nanos

section Reader

variable (rfc3339 : Rfc3339)

def parseStamp (text : List Char) : Option Int :=
  (rfc3339.parse (Text.trim (String.ofList text))).map instant

/-- The body of the loop of `parse_list_page`. -/
def parseBlock (block : List Char) : Except ObjectError ObjectEntry :=
  let block := (cut (tag "/Contents".toList) block).elim block (·.1)
  match element block "Key" with
  | none => .error (.malformed .noKey)
  | some text =>
      match unescape text with
      | .error error => .error error
      | .ok key =>
          match (element block "Size").bind parseSize with
          | none => .error (.malformed (.noSize key))
          | some size =>
              match (element block "LastModified").bind (parseStamp rfc3339) with
              | none => .error (.malformed (.noLastModified key))
              | some stamp => .ok ⟨key, size, stamp⟩

def parseBlocks : List (List Char) → Except ObjectError (List ObjectEntry)
  | [] => .ok []
  | block :: rest =>
      match parseBlock rfc3339 block with
      | .error error => .error error
      | .ok entry => (parseBlocks rest).map (entry :: ·)

/-- `eq_ignore_ascii_case("true")` of what is trimmed. -/
def isTrue (flag : List Char) : Bool :=
  (Text.trim (String.ofList flag)).toList.map Char.toLower == "true".toList

def parseListPage (xml : List Char) : Except ObjectError (List ObjectEntry × Option String) :=
  match parseBlocks rfc3339 ((splitOn (tag "Contents".toList) xml).drop 1) with
  | .error error => .error error
  | .ok entries =>
      if (element xml "IsTruncated").any isTrue then
        match element xml "NextContinuationToken" with
        | none => .error (.malformed .noToken)
        | some next => (unescape next).map fun next => (entries, some next)
      else .ok (entries, none)

/-- The loop of `list`.  `answer` is what a request with a token is answered with; `none` is
that the fuel does not suffice. -/
def listFrom (answer : Option String → Except ObjectError String) :
    Nat → Option String → List ObjectEntry → Option (Except ObjectError (List ObjectEntry))
  | 0, _, _ => none
  | fuel + 1, token, entries =>
      match answer token with
      | .error error => some (.error error)
      | .ok body =>
          match parseListPage rfc3339 body.toList with
          | .error error => some (.error error)
          | .ok (page, some next) =>
              if some next = token then some (.error (.malformed .repeatedToken))
              else listFrom answer fuel (some next) (entries ++ page)
          | .ok (page, none) => some (.ok (entries ++ page))

def list (answer : Option String → Except ObjectError String) (fuel : Nat) :
    Option (Except ObjectError (List ObjectEntry)) := listFrom rfc3339 answer fuel none []

end Reader

/-! ## Text -/

/-- What may not stand in text as itself. -/
def Marked (c : Char) : Prop := c = '&' ∨ c = '<'

/-- A text of a document, with the five entities. -/
abbrev Writes (text written : List Char) : Prop := Escaped entities Marked text written

/-- The escape that writes all five. -/
def escape (text : List Char) : List Char :=
  text.flatMap fun c => ((entities.find? fun entry => entry.2 == c).map (·.1)).getD [c]

theorem unescapeFrom_eq_drop (whole : List Char) (skip : Nat) (text : List Char) :
    unescapeFrom whole skip text = unescapeFrom whole 0 (text.drop skip) := by
  induction text generalizing skip with
  | nil => cases skip <;> simp [unescapeFrom]
  | cons c rest ih =>
      cases skip with
      | zero => rfl
      | succ skip => simpa [unescapeFrom] using ih skip

theorem unescapeFrom_plain (whole : List Char) {c : Char} (free : c ≠ '&') (rest : List Char) :
    unescapeFrom whole 0 (c :: rest) = (unescapeFrom whole 0 rest).map (c :: ·) := by
  simp [unescapeFrom, free]

/-- No entity begins another. -/
theorem find_entity {entry : List Char × Char} (known : entry ∈ entities) (rest : List Char) :
    entities.find? (fun other => other.1.isPrefixOf (entry.1 ++ rest)) = some entry := by
  simp only [entities, List.mem_cons, List.not_mem_nil, or_false] at known
  rcases known with rfl | rfl | rfl | rfl | rfl <;> rfl

theorem entity_head {entry : List Char × Char} (known : entry ∈ entities) :
    ∃ tail, entry.1 = '&' :: tail := by
  simp only [entities, List.mem_cons, List.not_mem_nil, or_false] at known
  rcases known with rfl | rfl | rfl | rfl | rfl <;> exact ⟨_, rfl⟩

theorem unescapeFrom_entity (whole : List Char) {entry : List Char × Char}
    (known : entry ∈ entities) (rest : List Char) :
    unescapeFrom whole 0 (entry.1 ++ rest) = (unescapeFrom whole 0 rest).map (entry.2 :: ·) := by
  obtain ⟨tail, text⟩ := entity_head known
  have found := find_entity known rest
  rw [text, List.cons_append] at found ⊢
  rw [unescapeFrom, if_pos rfl, found]
  simp only [text, List.length_cons, Nat.add_sub_cancel]
  rw [unescapeFrom_eq_drop, List.drop_left]

theorem unescapeFrom_writes (whole : List Char) {text written : List Char}
    (writes : Writes text written) : unescapeFrom whole 0 written = .ok text := by
  induction writes with
  | nil => rfl
  | plain free rest ih =>
      rw [unescapeFrom_plain whole fun same => free (.inl same), ih]
      rfl
  | entity known rest ih =>
      rw [unescapeFrom_entity whole known, ih]
      rfl

theorem unescapeFrom_of_not_mem (whole : List Char) {text : List Char} (free : '&' ∉ text) :
    unescapeFrom whole 0 text = .ok text := by
  induction text with
  | nil => rfl
  | cons c rest ih =>
      have apart : c ≠ '&' := fun same => free (same ▸ List.mem_cons_self)
      rw [unescapeFrom_plain whole apart, ih fun member => free (List.mem_cons_of_mem _ member)]
      rfl

theorem unescape_writes {text : String} {written : List Char}
    (writes : Writes text.toList written) : unescape written = .ok text := by
  have read := unescapeFrom_writes written writes
  unfold unescape
  split
  next => rw [read, Except.map, String.ofList_toList]
  next free =>
      have plain := unescapeFrom_of_not_mem written (by simpa using free)
      rw [Except.ok.inj (plain.symm.trans read), String.ofList_toList]

theorem writes_escape (text : List Char) : Writes text (escape text) := by
  induction text with
  | nil => exact .nil
  | cons c rest ih =>
      rw [escape, List.flatMap_cons, ← escape]
      cases found : entities.find? fun entry => entry.2 == c with
      | none =>
          refine .plain ?_ ih
          have absent := List.find?_eq_none.mp found
          rintro (rfl | rfl)
          · exact absent _ (List.mem_cons_self) (by simp)
          · exact absent _ (List.mem_cons_of_mem _ List.mem_cons_self) (by simp)
      | some entry =>
          have same : entry.2 = c := by simpa using List.find?_some found
          subst same
          exact .entity (List.mem_of_find?_eq_some found) ih

theorem solid_of_isDigit {c : Char} (digit : c.isDigit = true) : Text.isWhitespace c = false := by
  obtain ⟨low, high⟩ : 48 ≤ c.toNat ∧ c.toNat ≤ 57 := by
    simpa [Char.isDigit, UInt32.le_iff_toNat_le] using digit
  simp only [Text.isWhitespace, Bool.or_eq_false_iff, Bool.and_eq_false_iff, decide_eq_false_iff_not,
    beq_eq_false_iff_ne]
  omega

theorem parseSize_digits {size : Nat} (fits : size < 2 ^ 64) :
    parseSize (Nat.toDigits 10 size) = some size := by
  have solid : ∀ c ∈ (String.ofList (Nat.toDigits 10 size)).toList, Text.isWhitespace c = false := by
    intro c member
    rw [String.toList_ofList] at member
    exact solid_of_isDigit (Text.isDigit_of_mem_toDigits member)
  rw [parseSize, Text.trim_solid solid, String.toList_ofList]
  exact Text.parseUnsigned_toDigits fits

/-! ## Pages -/

/-- The document says `value` under that name, in its first element so called. -/
def Conveys (items : List Item) (name : String) (value : List Char) : Prop :=
  ∃ front back, items =
      front ++ .mark name.toList :: .text value :: .mark ('/' :: name.toList) :: back ∧
    .mark name.toList ∉ front

theorem element_of_conveys {items : List Item} {name : String} {value : List Char}
    (wellFormed : Markup.WellFormed items) (conveys : Conveys items name value) :
    element (render items) name = some value := by
  obtain ⟨front, back, rfl, absent⟩ := conveys
  have before : Markup.WellFormed front := fun item member =>
    wellFormed item (List.mem_append_left _ member)
  have opening := wellFormed (.mark name.toList) (by simp)
  have text : Markup.WellFormed [.text value] := fun item member =>
    wellFormed item (by simp [List.mem_singleton.mp member])
  have closing := wellFormed (.mark ('/' :: name.toList)) (by simp)
  rw [element, Markup.cut_render opening.2 before absent, Option.bind_some]
  rw [show Item.text value :: .mark ('/' :: name.toList) :: back =
      [.text value] ++ .mark ('/' :: name.toList) :: back from rfl]
  rw [Markup.cut_render closing.2 text (by simp)]
  simp [Item.render]

theorem element_of_not_mem {items : List Item} {name : String}
    (wellFormed : Markup.WellFormed items) (closed : '>' ∉ name.toList)
    (absent : .mark name.toList ∉ items) : element (render items) name = none := by
  rw [element, Markup.cut_render_none closed wellFormed absent, Option.bind_none]

section Pages

variable (rfc3339 : Rfc3339)

/-- What a block says of an object, among whatever else it says. -/
structure BlockOf (entry : ObjectEntry) (items : List Item) : Prop where
  opened : .mark "Contents".toList ∉ items
  closed : .mark "/Contents".toList ∉ items
  key : ∃ written, Writes entry.key.toList written ∧ Conveys items "Key" written
  fits : entry.size < 2 ^ 64
  size : Conveys items "Size" (Nat.toDigits 10 entry.size)
  time : ∃ stamp, parseStamp rfc3339 stamp = some entry.lastModified ∧
    Conveys items "LastModified" stamp

/-- A block for every object, and anything else between them. -/
inductive BlocksOf : List ObjectEntry → List Item → Prop where
  | none {gap : List Item} (free : .mark "Contents".toList ∉ gap) : BlocksOf [] gap
  | block {entry : ObjectEntry} {entries : List ObjectEntry} {gap block rest : List Item}
      (free : .mark "Contents".toList ∉ gap) (block_ : BlockOf rfc3339 entry block)
      (others : BlocksOf entries rest) :
      BlocksOf (entry :: entries)
        (gap ++ .mark "Contents".toList :: (block ++ .mark "/Contents".toList :: rest))

/-- A page of a listing: its objects, and the token that continues it. -/
structure PageOf (entries : List ObjectEntry) (next : Option String) (items : List Item) : Prop where
  wellFormed : Markup.WellFormed items
  blocks : BlocksOf rfc3339 entries items
  last : next = none → (∃ flag, isTrue flag = false ∧ Conveys items "IsTruncated" flag) ∨
    .mark "IsTruncated".toList ∉ items
  more : ∀ token, next = some token →
    (∃ flag, isTrue flag = true ∧ Conveys items "IsTruncated" flag) ∧
      ∃ written, Writes token.toList written ∧ Conveys items "NextContinuationToken" written

end Pages

variable {rfc3339 : Rfc3339}

theorem BlockOf.parse {entry : ObjectEntry} {block : List Item}
    (written : BlockOf rfc3339 entry block) (wellFormed : Markup.WellFormed block)
    (after : List Char) :
    parseBlock rfc3339 (render block ++ (tag "/Contents".toList ++ after)) = .ok entry := by
  have inside : cut (tag "/Contents".toList) (render block ++ (tag "/Contents".toList ++ after)) =
      some (render block, after) := by
    rw [Markup.cut_front (by decide) wellFormed written.closed,
      Markup.cut_here (Markup.tag_ne_nil _)]
    simp
  obtain ⟨key, writes, keyed⟩ := written.key
  obtain ⟨stamp, parsed, stamped⟩ := written.time
  simp only [parseBlock, inside, Option.elim_some, element_of_conveys wellFormed keyed,
    unescape_writes writes, element_of_conveys wellFormed written.size, Option.bind_some,
    parseSize_digits written.fits, element_of_conveys wellFormed stamped, parsed]

/-- Text before the first mark goes to the first piece. -/
theorem splitOn_front {name : List Char} {front : List Item} (closed : '>' ∉ name)
    (wellFormed : Markup.WellFormed front) (absent : .mark name ∉ front) {text piece : List Char}
    {pieces : List (List Char)} (split_ : splitOn (tag name) text = piece :: pieces) :
    splitOn (tag name) (render front ++ text) = (render front ++ piece) :: pieces := by
  have passed := Markup.cut_front closed wellFormed absent text
  cases found : cut (tag name) text with
  | none =>
      rw [found] at passed
      rw [Markup.splitOn_of_cut_none found] at split_
      obtain ⟨rfl, rfl⟩ := List.cons.inj split_
      exact Markup.splitOn_of_cut_none passed
  | some parts =>
      rw [found] at passed
      rw [Markup.splitOn_of_cut (Markup.tag_ne_nil name) found] at split_
      obtain ⟨rfl, rfl⟩ := List.cons.inj split_
      exact Markup.splitOn_of_cut (Markup.tag_ne_nil name) passed

theorem wellFormed_append {front back : List Item} :
    Markup.WellFormed (front ++ back) ↔ Markup.WellFormed front ∧ Markup.WellFormed back :=
  List.forall_mem_append

/-- Each piece behind a mark that opens a block is read as the block's object. -/
theorem BlocksOf.parse {entries : List ObjectEntry} {items : List Item}
    (blocks : BlocksOf rfc3339 entries items) (wellFormed : Markup.WellFormed items) :
    ∃ first pieces, splitOn (tag "Contents".toList) (render items) = first :: pieces ∧
      parseBlocks rfc3339 pieces = .ok entries := by
  induction blocks with
  | none free =>
      exact ⟨_, [], Markup.splitOn_of_cut_none
        (Markup.cut_render_none (by decide) wellFormed free), rfl⟩
  | @block entry entries gap block rest free written others ih =>
      obtain ⟨before, behind⟩ := wellFormed_append.mp wellFormed
      obtain ⟨-, later⟩ := List.forall_mem_cons.mp behind
      obtain ⟨inside, closing⟩ := wellFormed_append.mp later
      obtain ⟨closes, after⟩ := List.forall_mem_cons.mp closing
      obtain ⟨first, pieces, divided, parsed⟩ := ih after
      have whole : Markup.WellFormed (block ++ [.mark "/Contents".toList]) :=
        wellFormed_append.mpr ⟨inside, by simpa [Markup.WellFormed] using closes⟩
      have unopened : .mark "Contents".toList ∉ block ++ [.mark "/Contents".toList] := by
        intro member
        rcases List.mem_append.mp member with early | late
        · exact written.opened early
        · exact absurd (Item.mark.inj (List.mem_singleton.mp late)) (by decide)
      have piece := splitOn_front (by decide) whole unopened divided
      simp only [Markup.render_append, Markup.render_cons, Markup.render_nil, Item.render,
        List.append_assoc, List.append_nil] at piece
      have pieces_ : splitOn (tag "Contents".toList)
          (render (gap ++ .mark "Contents".toList :: (block ++ .mark "/Contents".toList :: rest))) =
          render gap :: (render block ++ (tag "/Contents".toList ++ first)) :: pieces := by
        rw [Markup.splitOn_of_cut (Markup.tag_ne_nil _)
          (Markup.cut_render (by decide) before free _)]
        simp only [Markup.render_append, Markup.render_cons, Item.render]
        rw [piece]
      refine ⟨_, _, pieces_, ?_⟩
      rw [parseBlocks, written.parse inside first, parsed]
      rfl

/-- **A page is read back**: every object with its key, size and time, and the token. -/
theorem PageOf.parse {entries : List ObjectEntry} {next : Option String} {items : List Item}
    (page : PageOf rfc3339 entries next items) :
    parseListPage rfc3339 (render items) = .ok (entries, next) := by
  obtain ⟨first, pieces, divided, parsed⟩ := page.blocks.parse page.wellFormed
  rw [parseListPage, divided, List.drop_one, List.tail_cons, parsed]
  cases next with
  | none =>
      rcases page.last rfl with ⟨flag, untrue, conveys⟩ | absent
      · simp [element_of_conveys page.wellFormed conveys, untrue]
      · simp [element_of_not_mem page.wellFormed (by decide) absent]
  | some token =>
      obtain ⟨⟨flag, true_, conveys⟩, written, writes, carried⟩ := page.more token rfl
      simp [element_of_conveys page.wellFormed conveys, true_,
        element_of_conveys page.wellFormed carried, unescape_writes writes, Except.map]

theorem parseBlocks_length {pieces : List (List Char)} {entries : List ObjectEntry}
    (parsed : parseBlocks rfc3339 pieces = .ok entries) : entries.length = pieces.length := by
  induction pieces generalizing entries with
  | nil =>
      obtain rfl := Except.ok.inj parsed
      rfl
  | cons piece rest ih =>
      unfold parseBlocks at parsed
      split at parsed
      · cases parsed
      · cases others : parseBlocks rfc3339 rest with
        | error error => rw [others] at parsed; cases parsed
        | ok later =>
            rw [others] at parsed
            obtain rfl := Except.ok.inj parsed
            rw [List.length_cons, List.length_cons, ih others]

/-- Nothing is dropped of any text that is read: there is an entry for each tag that opens a
block. -/
theorem parseListPage_length {xml : List Char} {entries : List ObjectEntry} {next : Option String}
    (parsed : parseListPage rfc3339 xml = .ok (entries, next)) :
    entries.length + 1 = (splitOn (tag "Contents".toList) xml).length := by
  unfold parseListPage at parsed
  split at parsed
  next => cases parsed
  next read found =>
      have same : read = entries := by
        split at parsed
        · split at parsed
          · cases parsed
          · next written _ =>
              cases token : unescape written with
              | error error => rw [token] at parsed; cases parsed
              | ok next => rw [token] at parsed; exact (Prod.mk.inj (Except.ok.inj parsed)).1
        · exact (Prod.mk.inj (Except.ok.inj parsed)).1
      have pieces : 0 < (splitOn (tag "Contents".toList) xml).length :=
        List.length_pos_of_ne_nil (Markup.splitOn_ne_nil xml)
      rw [← same, parseBlocks_length found, List.length_drop]
      omega

/-! ## The listing -/

/-- The pages a bucket answers with, each under the token of the one before. -/
inductive Pages (rfc3339 : Rfc3339) (answer : Option String → Except ObjectError String) :
    Option String → List (List ObjectEntry) → Prop where
  | last {token : Option String} {page : List ObjectEntry} {items : List Item}
      (written : PageOf rfc3339 page none items)
      (answered : answer token = .ok (String.ofList (render items))) : Pages rfc3339 answer token [page]
  | more {token : Option String} {next : String} {page : List ObjectEntry} {items : List Item}
      {pages : List (List ObjectEntry)} (written : PageOf rfc3339 page (some next) items)
      (answered : answer token = .ok (String.ofList (render items)))
      (others : Pages rfc3339 answer (some next) pages) : Pages rfc3339 answer token (page :: pages)

namespace Pages

variable {answer : Option String → Except ObjectError String} {token : Option String}
  {pages : List (List ObjectEntry)}

/-- There is one way the pages of a bucket follow each other. -/
theorem unique (first : Pages rfc3339 answer token pages) {others : List (List ObjectEntry)}
    (second : Pages rfc3339 answer token others) : pages = others := by
  have same {page other : List ObjectEntry} {next after : Option String} {items rest : List Item}
      {token : Option String} (written : PageOf rfc3339 page next items)
      (rewritten : PageOf rfc3339 other after rest)
      (answered : answer token = .ok (String.ofList (render items)))
      (again : answer token = .ok (String.ofList (render rest))) : page = other ∧ next = after := by
    have body := congrArg String.toList (Except.ok.inj (answered.symm.trans again))
    rw [String.toList_ofList, String.toList_ofList] at body
    have read := written.parse
    rw [body, rewritten.parse] at read
    exact (Prod.mk.inj (Except.ok.inj read)).imp Eq.symm Eq.symm
  induction first generalizing others with
  | last written answered =>
      cases second with
      | last rewritten again => rw [(same written rewritten answered again).1]
      | more rewritten again _ => cases (same written rewritten answered again).2
  | more written answered _ ih =>
      cases second with
      | last rewritten again => cases (same written rewritten answered again).2
      | more rewritten again later =>
          obtain ⟨rfl, ⟨⟩⟩ := same written rewritten answered again
          rw [ih later]

/-- The loop goes from page to page; a token that came again would never have led on. -/
theorem listFrom (listed : Pages rfc3339 answer token pages) {fuel : Nat}
    (enough : pages.length ≤ fuel) (entries : List ObjectEntry) :
    Store.listFrom rfc3339 answer fuel token entries = some (.ok (entries ++ pages.flatten)) := by
  induction listed generalizing fuel entries with
  | last written answered =>
      obtain ⟨fuel, rfl⟩ := Nat.exists_eq_succ_of_ne_zero (Nat.ne_of_gt enough)
      simp [Store.listFrom, answered, written.parse]
  | @more token next page items pages written answered others ih =>
      obtain ⟨fuel, rfl⟩ := Nat.exists_eq_succ_of_ne_zero
        (Nat.ne_of_gt (Nat.lt_of_lt_of_le (Nat.succ_pos _) enough))
      have onward : some next ≠ token := by
        rintro rfl
        have again := (Pages.more written answered others).unique others
        exact absurd (congrArg List.length again) (by simp)
      simp only [Store.listFrom, answered, String.toList_ofList, written.parse, onward, if_false]
      rw [ih (Nat.le_of_succ_le_succ enough), List.flatten_cons, List.append_assoc]

end Pages

/-- **The listing is complete.**  A page is read back exactly, whatever its keys; no text is
read with a block left out; `list` returns the objects of all the pages a bucket answers
with; and what was escaped is read as it was. -/
theorem listing_complete (rfc3339 : Rfc3339) :
    (∀ entries next items, PageOf rfc3339 entries next items →
      parseListPage rfc3339 (render items) = .ok (entries, next)) ∧
    (∀ xml entries next, parseListPage rfc3339 xml = .ok (entries, next) →
      entries.length + 1 = (splitOn (tag "Contents".toList) xml).length) ∧
    (∀ answer pages, Pages rfc3339 answer none pages → ∀ fuel, pages.length ≤ fuel →
      list rfc3339 answer fuel = some (.ok pages.flatten)) ∧
    (∀ text : String, unescape (escape text.toList) = .ok text) ∧
    ∀ (text : String) (written : List Char), Writes text.toList written →
      unescape written = .ok text :=
  ⟨fun _ _ _ page => page.parse, fun _ _ _ parsed => parseListPage_length parsed,
    fun _ _ pages _ enough => pages.listFrom enough [],
    fun text => unescape_writes (writes_escape text.toList), fun _ _ writes => unescape_writes writes⟩

/-- A block as a bucket writes it. -/
def written (key size : String) : List Item :=
  [.mark "Key".toList, .text (escape key.toList), .mark "/Key".toList,
    .mark "LastModified".toList, .text "2026-07-27T10:11:12.500+00:00".toList,
    .mark "/LastModified".toList, .mark "Size".toList, .text size.toList, .mark "/Size".toList]

theorem written_block (key : String) {size : Nat} {digits : String} (fits : size < 2 ^ 64)
    (decimal : digits.toList = Nat.toDigits 10 size) :
    BlockOf Store.rfc3339 ⟨key, size, 1785147072500000000⟩ (written key digits) where
  opened := by simp [written]
  closed := by simp [written]
  key := ⟨_, writes_escape key.toList, [], _, rfl, List.not_mem_nil⟩
  fits := fits
  size := by
    rw [← decimal]
    exact ⟨[_, _, _, _, _, _], [], rfl, by simp⟩
  time := by
    have read : parseStamp Store.rfc3339 "2026-07-27T10:11:12.500+00:00".toList =
        some 1785147072500000000 := by decide +kernel
    exact ⟨_, read, [_, _, _], _, rfl, by simp⟩

def pageWith (marks : List Item) (key size : String) : List Item :=
  marks ++ .mark "Contents".toList :: (written key size ++ [.mark "/Contents".toList])

/-- Two pages: the key of the first reads like markup, and its token has to be escaped. -/
theorem listing_complete_two :
    list Store.rfc3339
      (fun token => .ok (String.ofList (render (
        if token = none then
          pageWith [.mark "IsTruncated".toList, .text "true".toList, .mark "/IsTruncated".toList,
            .mark "NextContinuationToken".toList, .text "a&amp;b".toList,
            .mark "/NextContinuationToken".toList] "</Key>&amp;" "18446744073709551615"
        else pageWith [] "packs/0.mjpack" "7")))) 2 =
    some (.ok [⟨"</Key>&amp;", 18446744073709551615, 1785147072500000000⟩,
      ⟨"packs/0.mjpack", 7, 1785147072500000000⟩]) := by
  refine (listing_complete Store.rfc3339).2.2.1 _ [[_], [_]]
    (@Pages.more _ _ _ "a&b" _ (pageWith _ _ _) _ ?_ rfl
      (@Pages.last _ _ _ _ (pageWith _ _ _) ?_ rfl)) 2 (Nat.le_refl _)
  · refine ⟨by decide +kernel, ?_, by simp, ?_⟩
    · exact .block (by decide +kernel)
        (written_block _ (by decide) (by decide +kernel)) (.none (by simp))
    · rintro _ ⟨⟩
      refine ⟨⟨"true".toList, by decide +kernel, [], _, rfl, List.not_mem_nil⟩,
        "a&amp;b".toList, writes_escape "a&b".toList, [_, _, _], _, rfl, by simp⟩
  · refine ⟨by decide +kernel, ?_, fun _ => .inr (by decide +kernel), by simp⟩
    exact @BlocksOf.block _ _ _ [] _ _ (by simp)
      (written_block _ (by decide) (by decide +kernel)) (.none (by simp))

end MajsoulManager.Store
