import RangeIndex.Proofs.WrittenDocument

/-! Document types in front of a document. The reader passes over one without an event: it counts
square brackets and goes on behind the first `>` outside them. It does not know of quotes, and so
the marks in literals, comments and instructions count as if they belonged to the declaration
itself. Where they do not disturb the count the whole declaration is passed over; where they do, a
part of it is read as the document, or a part of the document as the declaration. -/
namespace RangeIndex.DocumentTypes
open Text Markup WrittenDocument

section Definitions

/-- A name, by its bytes. -/
structure NameBytes where
  first : UInt8
  others : List UInt8
  starts : isNameStart first = true
  goesOn : ∀ b ∈ others, isNameByte b = true

def NameBytes.bytes (name : NameBytes) : List UInt8 := name.first :: name.others

/-- White space that keeps two words apart. -/
structure Space where
  bytes : List UInt8
  blank : IsGap bytes
  apart : bytes ≠ []

/-- Any bytes between two quotes of a kind that is not among them. -/
structure Literal where
  quote : Char
  content : List UInt8
  quotes : quote = '"' ∨ quote = '\''
  clear : byteOf quote ∉ content

def Literal.bytes (literal : Literal) : List UInt8 :=
  byteOf literal.quote :: (literal.content ++ [byteOf literal.quote])

/-- Where a document type is defined. -/
inductive External where
  | located (space : Space) (location : Literal)
  | registered (space : Space) (identifier : Literal) (between : Space) (location : Literal)

namespace External

def bytes : External → List UInt8
  | .located space location => bytesOf "SYSTEM" ++ (space.bytes ++ location.bytes)
  | .registered space identifier between location =>
    bytesOf "PUBLIC" ++ (space.bytes ++ (identifier.bytes ++ (between.bytes ++ location.bytes)))

def literals : External → List Literal
  | .located _ location => [location]
  | .registered _ identifier _ location => [identifier, location]

end External

/-- A byte that is no quote and no bracket, square or pointed. -/
def isPlain (b : UInt8) : Bool := !(bytesOf "\"'<>[]").contains b

/-- A part of a markup declaration. -/
inductive Piece where
  | plain (b : UInt8) (is : isPlain b = true)
  | quoted (literal : Literal)

namespace Piece

def bytes : Piece → List UInt8
  | .plain b _ => [b]
  | .quoted literal => literal.bytes

def texts : Piece → List (List UInt8)
  | .plain _ _ => []
  | .quoted literal => [literal.content]

end Piece

/-- A part of an internal subset: a markup declaration, a comment, an instruction, or a byte between
them. -/
inductive Item where
  | plain (b : UInt8) (is : isPlain b = true)
  | declaration (keyword : NameBytes) (pieces : List Piece)
  | comment (body : List UInt8) (clear : ¬ bytesOf "--" <:+: body)
  | instruction (body : List UInt8) (clear : ¬ bytesOf "?>" <:+: body)

namespace Item

def bytes : Item → List UInt8
  | .plain b _ => [b]
  | .declaration keyword pieces =>
    bytesOf "<!" ++ (keyword.bytes ++ (pieces.flatMap Piece.bytes ++ bytesOf ">"))
  | .comment body _ => bytesOf "<!--" ++ (body ++ bytesOf "-->")
  | .instruction body _ => bytesOf "<?" ++ (body ++ bytesOf "?>")

/-- What stands in literals, and in comments and instructions. -/
def texts : Item → List (List UInt8)
  | .plain _ _ => []
  | .declaration _ pieces => pieces.flatMap Piece.texts
  | .comment body _ => [body]
  | .instruction body _ => [body]

end Item

/-- The declaration of a document type. -/
structure Doctype where
  before : Space
  name : NameBytes
  external : Option (Space × External)
  gap : List UInt8
  blank : IsGap gap
  subset : Option (List Item × { last : List UInt8 // IsGap last })

namespace Doctype

/-- Where the document type is defined, with the space in front. -/
def externalBytes (d : Doctype) : List UInt8 :=
  match d.external with
  | none => []
  | some (space, external) => space.bytes ++ external.bytes

/-- The internal subset between its brackets, with the space behind. -/
def subsetBytes (d : Doctype) : List UInt8 :=
  match d.subset with
  | none => []
  | some (items, last) => byteOf '[' :: (items.flatMap Item.bytes ++ byteOf ']' :: last.val)

/-- The declaration from its keyword up to the internal subset. -/
def outsideBytes (d : Doctype) : List UInt8 :=
  bytesOf "DOCTYPE" ++ (d.before.bytes ++ (d.name.bytes ++ (d.externalBytes ++ d.gap)))

/-- The declaration between its first two bytes and the last. -/
def inside (d : Doctype) : List UInt8 := d.outsideBytes ++ d.subsetBytes

def bytes (d : Doctype) : List UInt8 := byteOf '<' :: byteOf '!' :: (d.inside ++ [byteOf '>'])

/-- The literals outside the internal subset. -/
def identifiers (d : Doctype) : List Literal :=
  match d.external with
  | none => []
  | some (_, external) => external.literals

/-- What stands in literals, comments and instructions of the internal subset. -/
def texts (d : Doctype) : List (List UInt8) :=
  match d.subset with
  | none => []
  | some (items, _) => items.flatMap Item.texts

end Doctype

/-- How many square brackets are open after bytes, unless a `>` stands outside them. -/
def level? : Nat → List UInt8 → Option Nat
  | level, [] => some level
  | level, b :: rest =>
    if b = byteOf '[' then level? (level + 1) rest
    else if b = byteOf ']' then level? (level - 1) rest
    else if b = byteOf '>' ∧ level = 0 then none
    else level? level rest

/-- Without square brackets. -/
def Unbracketed (bytes : List UInt8) : Prop := byteOf '[' ∉ bytes ∧ byteOf ']' ∉ bytes

instance (bytes : List UInt8) : Decidable (Unbracketed bytes) :=
  inferInstanceAs (Decidable (byteOf '[' ∉ bytes ∧ byteOf ']' ∉ bytes))

/-- Without square brackets and without a `>`. -/
def Markless (bytes : List UInt8) : Prop := Unbracketed bytes ∧ byteOf '>' ∉ bytes

instance (bytes : List UInt8) : Decidable (Markless bytes) :=
  inferInstanceAs (Decidable (Unbracketed bytes ∧ byteOf '>' ∉ bytes))

/-- Without a mark in a text that would be taken for one of the declaration. -/
def Doctype.Unmarked (d : Doctype) : Prop :=
  (∀ text ∈ d.texts, Unbracketed text) ∧ ∀ literal ∈ d.identifiers, Markless literal.content

end Definitions

section Skipping
variable {level depth : Nat} {run rest : List UInt8}

theorem skip_cons (level : Nat) (b : UInt8) (rest : List UInt8) :
    skipDeclaration level (b :: rest) =
      if b = byteOf '[' then skipDeclaration (level + 1) rest
      else if b = byteOf ']' then skipDeclaration (level - 1) rest
      else if b = byteOf '>' ∧ level = 0 then rest
      else skipDeclaration level rest := rfl

theorem level_append (level : Nat) (before later : List UInt8) :
    level? level (before ++ later) = (level? level before).bind (level? · later) := by
  fun_induction level? level before <;> simp_all [level?]

/-- Bytes without a `>` outside brackets are passed over. -/
theorem skip_passed (passed : level? level run = some depth) (rest : List UInt8) :
    skipDeclaration level (run ++ rest) = skipDeclaration depth rest := by
  fun_induction level? level run with
  | case1 level =>
    cases passed
    rfl
  | case2 level run ih =>
    rw [List.cons_append, skip_cons, if_pos rfl]
    exact ih passed
  | case3 level run other ih =>
    rw [List.cons_append, skip_cons, if_neg other, if_pos rfl]
    exact ih passed
  | case4 => cases passed
  | case5 level b run noOpening noClosing noEnd ih =>
    rw [List.cons_append, skip_cons, if_neg noOpening, if_neg noClosing, if_neg noEnd]
    exact ih passed

/-- At a `>` outside brackets the declaration is taken to end. -/
theorem skip_ended (rest : List UInt8) : skipDeclaration 0 (byteOf '>' :: rest) = rest := by
  rw [skip_cons, if_neg (by decide), if_neg (by decide), if_pos ⟨rfl, rfl⟩]

/-- A `>` inside brackets is passed over. -/
theorem skip_unended (depth : Nat) (rest : List UInt8) :
    skipDeclaration (depth + 1) (byteOf '>' :: rest) = skipDeclaration (depth + 1) rest := by
  rw [skip_cons, if_neg (by decide), if_neg (by decide), if_neg (by simp)]

/-- Where bytes are not passed over there is a first `>` outside brackets. -/
theorem cut_of_not_passed (cut : level? level run = none) :
    ∃ before tail, run = before ++ byteOf '>' :: tail ∧ level? level before = some 0 := by
  fun_induction level? level run with
  | case1 => cases cut
  | case2 level run ih =>
    obtain ⟨before, tail, rfl, passed⟩ := ih cut
    exact ⟨byteOf '[' :: before, tail, rfl, by rw [level?, if_pos rfl, passed]⟩
  | case3 level run other ih =>
    obtain ⟨before, tail, rfl, passed⟩ := ih cut
    exact ⟨byteOf ']' :: before, tail, rfl, by rw [level?, if_neg other, if_pos rfl, passed]⟩
  | case4 level b run noOpening noClosing ends =>
    obtain ⟨rfl, rfl⟩ := ends
    exact ⟨[], run, rfl, rfl⟩
  | case5 level b run noOpening noClosing noEnd ih =>
    obtain ⟨before, tail, rfl, passed⟩ := ih cut
    refine ⟨b :: before, tail, rfl, ?_⟩
    rw [level?, if_neg noOpening, if_neg noClosing, if_neg noEnd, passed]

/-- Bytes without marks leave the count of brackets as it is. -/
theorem level_unmarked (clear : Unbracketed run) (covered : byteOf '>' ∉ run ∨ 0 < level) :
    level? level run = some level := by
  induction run with
  | nil => rfl
  | cons b run ih =>
    obtain ⟨noOpening, noClosing⟩ := clear
    rw [List.mem_cons, not_or] at noOpening noClosing
    have noEnd : ¬ (b = byteOf '>' ∧ level = 0) := by
      rintro ⟨rfl, rfl⟩
      simp at covered
    have later : byteOf '>' ∉ run ∨ 0 < level := covered.imp_left List.not_mem_of_not_mem_cons
    rw [level?, if_neg (Ne.symm noOpening.1), if_neg (Ne.symm noClosing.1), if_neg noEnd]
    exact ih ⟨noOpening.2, noClosing.2⟩ later

end Skipping

section Unmarked
variable {bytes before later : List UInt8}

theorem unbracketed_append :
    Unbracketed (before ++ later) ↔ Unbracketed before ∧ Unbracketed later := by
  simp only [Unbracketed, List.mem_append, not_or]
  exact ⟨fun ⟨⟨a, b⟩, c, d⟩ => ⟨⟨a, c⟩, b, d⟩, fun ⟨⟨a, c⟩, b, d⟩ => ⟨⟨a, b⟩, c, d⟩⟩

theorem unbracketed_flatMap {α : Type} {items : List α} {bytes : α → List UInt8} :
    Unbracketed (items.flatMap bytes) ↔ ∀ item ∈ items, Unbracketed (bytes item) := by
  simp only [Unbracketed, List.mem_flatMap, not_exists, not_and]
  exact ⟨fun ⟨a, b⟩ item member => ⟨a item member, b item member⟩,
    fun each => ⟨fun item member => (each item member).1, fun item member => (each item member).2⟩⟩

theorem markless_append : Markless (before ++ later) ↔ Markless before ∧ Markless later := by
  simp only [Markless, unbracketed_append, List.mem_append, not_or]
  exact ⟨fun ⟨⟨a, b⟩, c, d⟩ => ⟨⟨a, c⟩, b, d⟩, fun ⟨⟨a, c⟩, b, d⟩ => ⟨⟨a, b⟩, c, d⟩⟩

theorem markless_of_class {belongs : UInt8 → Bool} (all : ∀ b ∈ bytes, belongs b = true)
    (marks : belongs (byteOf '[') = false ∧ belongs (byteOf ']') = false ∧
      belongs (byteOf '>') = false) : Markless bytes := by
  have clear {mark : UInt8} (other : belongs mark = false) : mark ∉ bytes := fun member => by
    rw [all mark member] at other
    cases other
  exact ⟨⟨clear marks.1, clear marks.2.1⟩, clear marks.2.2⟩

theorem space_markless (space : Space) : Markless space.bytes :=
  markless_of_class space.blank (by decide)

theorem name_markless (name : NameBytes) : Markless name.bytes := by
  have all : ∀ b ∈ name.bytes, isNameByte b = true := by
    intro b member
    rcases List.mem_cons.mp member with rfl | other
    · simp [isNameByte, name.starts]
    · exact name.goesOn b other
  exact markless_of_class all (by decide)

/-- The quotes of a literal are no marks. -/
theorem literal_unbracketed {literal : Literal} (clear : Unbracketed literal.content) :
    Unbracketed literal.bytes := by
  have quote : Unbracketed [byteOf literal.quote] := by
    rcases literal.quotes with same | same <;> rw [same] <;> decide
  rw [Literal.bytes, ← List.singleton_append]
  exact unbracketed_append.mpr ⟨quote, unbracketed_append.mpr ⟨clear, quote⟩⟩

theorem literal_markless {literal : Literal} (clear : Markless literal.content) :
    Markless literal.bytes := by
  have quote : Markless [byteOf literal.quote] := by
    rcases literal.quotes with same | same <;> rw [same] <;> decide
  rw [Literal.bytes, ← List.singleton_append]
  exact markless_append.mpr ⟨quote, markless_append.mpr ⟨clear, quote⟩⟩

theorem plain_unbracketed {b : UInt8} (plain : isPlain b = true) : Unbracketed [b] := by
  have all : ∀ c ∈ [b], isPlain c = true := List.forall_mem_singleton.mpr plain
  exact (markless_of_class all (by decide)).1

/-- A part of an internal subset has no square brackets but those in its texts. -/
theorem item_unbracketed {item : Item} (clear : ∀ text ∈ item.texts, Unbracketed text) :
    Unbracketed item.bytes := by
  cases item with
  | plain b is => exact plain_unbracketed is
  | declaration keyword pieces =>
    have inner : Unbracketed (pieces.flatMap Piece.bytes) := by
      refine unbracketed_flatMap.mpr fun piece member => ?_
      cases piece with
      | plain b is => exact plain_unbracketed is
      | quoted own =>
        have listed : own.content ∈ pieces.flatMap Piece.texts :=
          List.mem_flatMap.mpr ⟨_, member, List.mem_singleton_self _⟩
        exact literal_unbracketed (clear own.content listed)
    have last := unbracketed_append.mpr ⟨inner, show Unbracketed (bytesOf ">") by decide⟩
    have named := unbracketed_append.mpr ⟨(name_markless keyword).1, last⟩
    exact unbracketed_append.mpr ⟨by decide, named⟩
  | comment body _ =>
    have own := clear body (List.mem_singleton_self _)
    exact unbracketed_append.mpr ⟨by decide, unbracketed_append.mpr ⟨own, by decide⟩⟩
  | instruction body _ =>
    have own := clear body (List.mem_singleton_self _)
    exact unbracketed_append.mpr ⟨by decide, unbracketed_append.mpr ⟨own, by decide⟩⟩

theorem external_markless {external : External}
    (clear : ∀ literal ∈ external.literals, Markless literal.content) :
    Markless external.bytes := by
  cases external with
  | located space location =>
    have own := literal_markless (clear location (List.mem_singleton_self _))
    exact markless_append.mpr ⟨by decide, markless_append.mpr ⟨space_markless space, own⟩⟩
  | registered space identifier between location =>
    have first := literal_markless (clear identifier List.mem_cons_self)
    have second := literal_markless
      (clear location (List.mem_cons_of_mem _ (List.mem_singleton_self _)))
    have later := markless_append.mpr ⟨space_markless between, second⟩
    have front := markless_append.mpr ⟨space_markless space, markless_append.mpr ⟨first, later⟩⟩
    exact markless_append.mpr ⟨by decide, front⟩

theorem outside_markless {d : Doctype}
    (clear : ∀ literal ∈ d.identifiers, Markless literal.content) : Markless d.outsideBytes := by
  have external : Markless d.externalBytes := by
    unfold Doctype.externalBytes Doctype.identifiers at *
    cases found : d.external with
    | none => decide
    | some pair =>
      rw [found] at clear
      exact markless_append.mpr ⟨space_markless pair.1, external_markless clear⟩
  have gap : Markless d.gap := markless_of_class d.blank (by decide)
  have named := markless_append.mpr ⟨name_markless d.name, markless_append.mpr ⟨external, gap⟩⟩
  exact markless_append.mpr ⟨by decide, markless_append.mpr ⟨space_markless d.before, named⟩⟩

/-- An internal subset with no brackets in its texts opens one bracket and closes it. -/
theorem subset_passed {d : Doctype} (clear : ∀ text ∈ d.texts, Unbracketed text) :
    level? 0 d.subsetBytes = some 0 := by
  unfold Doctype.subsetBytes Doctype.texts at *
  cases found : d.subset with
  | none => rfl
  | some pair =>
    obtain ⟨items, last⟩ := pair
    rw [found] at clear
    have inner : Unbracketed (items.flatMap Item.bytes) := by
      refine unbracketed_flatMap.mpr fun item member => item_unbracketed fun text own => ?_
      exact clear text (List.mem_flatMap.mpr ⟨item, member, own⟩)
    have blank : Markless last.val := markless_of_class last.property (by decide)
    have open' : level? 1 (items.flatMap Item.bytes) = some 1 :=
      level_unmarked inner (.inr Nat.one_pos)
    have closed : level? 0 last.val = some 0 := level_unmarked blank.1 (.inl blank.2)
    dsimp only
    rw [level?, if_pos rfl, level_append, open', Option.bind_some, level?, if_neg (by decide),
      if_pos rfl, closed]

/-- Where no text is taken for marks the whole declaration is passed over. -/
theorem unmarked_passed {d : Doctype} (unmarked : d.Unmarked) : level? 0 d.inside = some 0 := by
  have outside := outside_markless unmarked.2
  rw [Doctype.inside, level_append, level_unmarked outside.1 (.inl outside.2), Option.bind_some,
    subset_passed unmarked.1]

end Unmarked

section Reading
variable {later : List UInt8}

/-- The reader goes on where it takes the declaration to end. -/
theorem doctype_events (d : Doctype) (later : List UInt8) :
    events (d.bytes ++ later) = events (skipDeclaration 0 (d.inside ++ byteOf '>' :: later)) := by
  have whole : d.bytes ++ later = 0x3C :: 0x21 :: (d.inside ++ byteOf '>' :: later) := by
    simp [Doctype.bytes]
    exact ⟨rfl, rfl⟩
  obtain ⟨rest, front⟩ : ∃ rest, d.inside ++ byteOf '>' :: later = byteOf 'D' :: rest := ⟨_, rfl⟩
  have noComment : ¬ (bytesOf "--").isPrefixOf (byteOf 'D' :: rest) = true := nofun
  have noSection : ¬ (bytesOf "[CDATA[").isPrefixOf (byteOf 'D' :: rest) = true := nofun
  rw [whole, events, if_pos rfl, markup_bang, front, takeBang, if_neg noComment, if_neg noSection]
  rfl

/-- A character is read as text. -/
theorem letter_read : events (bytesOf "x") ≠ [] := by
  have letter : bytesOf "x" = [0x78] := rfl
  rw [letter, events, if_neg (by decide)]
  exact List.cons_ne_nil _ _

/-- What is passed over with a bracket open takes the document with it. -/
theorem unclosed_loses {d : Doctype} {depth : Nat} (open' : level? 0 d.inside = some (depth + 1)) :
    events (d.bytes ++ bytesOf "x") = [] := by
  have letter : skipDeclaration (depth + 1) (bytesOf "x") = [] := by
    change skipDeclaration (depth + 1) [byteOf 'x'] = []
    rw [skip_cons, if_neg (by decide), if_neg (by decide), if_neg (by simp), skipDeclaration]
  rw [doctype_events, skip_passed open', skip_unended, letter, events]

end Reading

/-- A document type in front of any document is passed over without an event exactly if, with the
brackets in literals, comments and instructions counted too, its last byte is the first `>` outside
brackets, or if by chance the reader, having stopped at an earlier one, has nothing to report of
what is left of the declaration. It is enough that there are no square brackets in these texts and
no `>` in the literals outside the internal subset. -/
theorem doctype_silent_iff (d : Doctype) :
    ((∀ later, events (d.bytes ++ later) = events later) ↔
      level? 0 d.inside = some 0 ∨
        ∃ before tail, d.inside = before ++ byteOf '>' :: tail ∧ level? 0 before = some 0 ∧
          ∀ later, events (tail ++ byteOf '>' :: later) = events later) ∧
      (d.Unmarked → level? 0 d.inside = some 0) := by
  refine ⟨⟨fun silent => ?_, ?_⟩, unmarked_passed⟩
  · cases passed : level? 0 d.inside with
    | none =>
      obtain ⟨before, tail, same, open'⟩ := cut_of_not_passed passed
      refine .inr ⟨before, tail, same, open', fun later => ?_⟩
      rw [← silent later, doctype_events, same, List.append_assoc, skip_passed open',
        List.cons_append, skip_ended]
    | some depth =>
      cases depth with
      | zero => exact .inl rfl
      | succ depth =>
        have lost := (silent (bytesOf "x")).symm.trans (unclosed_loses passed)
        exact absurd lost letter_read
  · rintro (passed | ⟨before, tail, same, open', silent⟩) later
    · rw [doctype_events, skip_passed passed, skip_ended]
    · rw [doctype_events, same, List.append_assoc, skip_passed open', List.cons_append, skip_ended]
      exact silent later

section Sample

/-- `<!DOCTYPE a SYSTEM "x>y">` -/
def pointedDoctype : Doctype where
  before := ⟨[byteOf ' '], blank_gap, by simp⟩
  name := ⟨byteOf 'a', [], rfl, List.forall_mem_nil _⟩
  external := some (⟨[byteOf ' '], blank_gap, by simp⟩,
    .located ⟨[byteOf ' '], blank_gap, by simp⟩ ⟨'"', bytesOf "x>y", .inl rfl, by decide⟩)
  gap := []
  blank := nothing_gap
  subset := none

/-- The declaration is taken to end inside the literal, and the rest of it is read as text. -/
theorem pointed_literal_read :
    pointedDoctype.bytes = bytesOf "<!DOCTYPE a SYSTEM \"x>y\">" ∧
      events (pointedDoctype.bytes ++ bytesOf "<a/>") = [.characters "y\">", .opened "a" [] true] ∧
      events (bytesOf "<a/>") = [.opened "a" [] true] := by
  refine ⟨by decide, ?_, ?_⟩
  · with_unfolding_all decide
  · with_unfolding_all decide

end Sample

end RangeIndex.DocumentTypes
