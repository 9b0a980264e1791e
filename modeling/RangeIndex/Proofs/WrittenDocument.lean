import RangeIndex.Proofs.DocumentForest
import RangeIndex.Proofs.WrittenText

/-! Documents as they are written, and read back. A forest may be written in many ways: values in
either quotes, texts with references or as sections of plain characters, blanks where a tag allows
them, childless elements as one tag or two. Whichever is chosen, the reader stops at the end of each
part just where the next one begins, and reports the forest. -/
namespace RangeIndex.WrittenDocument
open Text Markup EncodedText WrittenText DocumentForest

section Definitions

/-- White space, possibly none. -/
def IsGap (bytes : List UInt8) : Prop := ∀ b ∈ bytes, isBlankByte b = true

/-- An attribute, with its value between quotes of either kind and blanks around the equals sign. -/
inductive WrittenAttribute (a : Attribute) : List UInt8 → Prop where
  | quoted {quote : Char} {before after value : List UInt8} (quotes : quote = '"' ∨ quote = '\'')
      (gap : IsGap before) (gapAfter : IsGap after)
      (escaped : Escaped ['&', quote] a.value.toList value) :
      WrittenAttribute a (Utf8.encode a.name.toList ++ (before ++ byteOf '=' ::
        (after ++ byteOf quote :: (value ++ [byteOf quote]))))

/-- The attributes of a tag, each behind blanks, and the blanks before the end of the tag. -/
inductive WrittenAttributes : List Attribute → List UInt8 → Prop where
  | none {gap : List UInt8} (blank : IsGap gap) : WrittenAttributes [] gap
  | more {gap own later : List UInt8} {a : Attribute} {rest : List Attribute} (blank : IsGap gap)
      (apart : gap ≠ []) (first : WrittenAttribute a own) (others : WrittenAttributes rest later) :
      WrittenAttributes (a :: rest) (gap ++ (own ++ later))

/-- The end of a start tag. -/
def tagEnd (short : Bool) : List UInt8 := if short then [byteOf '/', byteOf '>'] else [byteOf '>']

/-- A start tag, with its attributes as they are written. -/
def startTag (name : String) (attributes : List UInt8) (short : Bool) : List UInt8 :=
  byteOf '<' :: (Utf8.encode name.toList ++ (attributes ++ tagEnd short))

/-- An end tag, with blanks after its name. -/
def endTag (name : String) (gap : List UInt8) : List UInt8 :=
  byteOf '<' :: byteOf '/' :: (Utf8.encode name.toList ++ (gap ++ [byteOf '>']))

/-- A section of plain characters. -/
def plainSection (content : List Char) : List UInt8 :=
  bytesOf "<![CDATA[" ++ (Utf8.encode content ++ Utf8.encode sectionEnd)

/-- A text with references, or as a section if it does not contain the mark that ends one. -/
inductive WrittenContent (content : String) : List UInt8 → Prop where
  | escaped {bytes : List UInt8} (escaped : Escaped ['&', '<'] content.toList bytes) :
      WrittenContent content bytes
  | plain (free : ¬ sectionEnd <:+: content.toList) :
      WrittenContent content (plainSection content.toList)

/-- A forest and bytes it may be written as. -/
inductive Written : Forest → List UInt8 → Prop where
  | empty : Written .empty []
  | text {content : String} {rest : Forest} {own later : List UInt8}
      (first : WrittenContent content own) (others : Written rest later) :
      Written (.text content rest) (own ++ later)
  | short {name : String} {attributes : List Attribute} {rest : Forest} {inner later : List UInt8}
      (tag : WrittenAttributes attributes inner) (others : Written rest later) :
      Written (.element name attributes true .empty rest) (startTag name inner true ++ later)
  | long {name : String} {attributes : List Attribute} {short : Bool} {children rest : Forest}
      {inner content gap later : List UInt8} (open' : (short && children.isEmpty) = false)
      (tag : WrittenAttributes attributes inner) (inside : Written children content)
      (blank : IsGap gap) (others : Written rest later) :
      Written (.element name attributes short children rest)
        (startTag name inner false ++ (content ++ (endTag name gap ++ later)))

def beginsWithText : Forest → Bool
  | .text _ _ => true
  | _ => false

/-- A forest of which nothing is lost or joined in writing: all names are names, no text is empty
and none follows another. -/
inductive Proper : Forest → Prop where
  | empty : Proper .empty
  | text {content : String} {rest : Forest} (nonempty : content ≠ "")
      (apart : beginsWithText rest = false) (others : Proper rest) : Proper (.text content rest)
  | element {name : String} {attributes : List Attribute} {short : Bool} {children rest : Forest}
      (named : IsName name) (attributed : ∀ a ∈ attributes, IsName a.name)
      (inside : Proper children) (others : Proper rest) :
      Proper (.element name attributes short children rest)

/-- There is nothing ahead but markup. -/
def AtMarkup (bytes : List UInt8) : Prop := ∀ b, bytes.head? = some b → b = byteOf '<'

end Definitions

section Blanks
variable {gap rest : List UInt8}

theorem blank_no_name {b : UInt8} (blank : isBlankByte b = true) : isNameByte b = false := by
  have all : b = 0x20 ∨ b = 0x09 ∨ b = 0x0A ∨ b = 0x0D := by
    simpa [isBlankByte, or_assoc] using blank
  rcases all with rfl | rfl | rfl | rfl <;> rfl

theorem start_no_blank {b : UInt8} (starts : isNameStart b = true) : isBlankByte b = false := by
  cases blank : isBlankByte b with
  | false => rfl
  | true =>
    have other := blank_no_name blank
    simp [isNameByte, starts] at other

theorem nothing_gap : IsGap [] := List.forall_mem_nil _

theorem blank_gap : IsGap [byteOf ' '] := List.forall_mem_singleton.mpr rfl

/-- Blanks are passed over up to the first other byte. -/
theorem skip_gap (is : IsGap gap) (ends : ∀ b, rest.head? = some b → isBlankByte b = false) :
    skipBlanks (gap ++ rest) = rest :=
  dropWhile_run is ends

/-- A name ends at blanks, or where a byte follows that no name has. -/
theorem gap_ends_name (is : IsGap gap) (ends : ∀ b, rest.head? = some b → isNameByte b = false) :
    ∀ b, (gap ++ rest).head? = some b → isNameByte b = false := by
  cases gap with
  | nil => exact ends
  | cons first others =>
    intro b front
    obtain rfl := Option.some.inj front
    exact blank_no_name (is first List.mem_cons_self)

end Blanks

section Attributes
variable {a : Attribute} {bytes rest : List UInt8}

theorem head_cons (b : UInt8) (rest : List UInt8) {test : UInt8 → Bool} (passes : test b = false) :
    ∀ x, (b :: rest).head? = some x → test x = false := by
  intro x front
  obtain rfl := Option.some.inj front
  exact passes

theorem quoted_taken {quote : Char} {value : List UInt8} (quotes : quote = '"' ∨ quote = '\'')
    (inside : byteOf quote ∉ value) (rest : List UInt8) :
    takeQuoted (byteOf quote :: (value ++ byteOf quote :: rest)) = some (value, rest) := by
  have either : byteOf quote = 0x22 ∨ byteOf quote = 0x27 := by
    rcases quotes with rfl | rfl
    · exact .inl rfl
    · exact .inr rfl
  rw [takeQuoted, if_pos either, break_at_mark inside]
  rfl

theorem value_taken {quote : Char} {before after value : List UInt8}
    (quotes : quote = '"' ∨ quote = '\'') (gap : IsGap before) (gapAfter : IsGap after)
    (inside : byteOf quote ∉ value) (rest : List UInt8) :
    takeValue (before ++ byteOf '=' :: (after ++ byteOf quote :: (value ++ byteOf quote :: rest))) =
      (some value, rest) := by
  have noBlank : isBlankByte (byteOf quote) = false := by rcases quotes with rfl | rfl <;> rfl
  have equals : skipBlanks (before ++ byteOf '=' :: _) = 0x3D :: _ :=
    skip_gap gap (head_cons _ (after ++ byteOf quote :: (value ++ byteOf quote :: rest)) rfl)
  have quoted := skip_gap gapAfter (head_cons _ (value ++ byteOf quote :: rest) noBlank)
  rw [takeValue, equals]
  simp only [quoted, quoted_taken quotes inside]

/-- A written attribute is read as itself. -/
theorem attribute_taken (named : IsName a.name) (written : WrittenAttribute a bytes)
    (rest : List UInt8) : takeAttribute (bytes ++ rest) = (some a, rest) := by
  cases written with
  | @quoted quote before after value quotes gap gapAfter escaped =>
    have low : Low quote := by rcases quotes with rfl | rfl <;> decide
    have other : ∀ pair ∈ references, byteOf quote ∉ referenceBytes pair.2 := by
      rcases quotes with rfl | rfl <;> decide
    have inside := barred_not_written low (List.mem_cons_of_mem _ (List.mem_singleton_self _)) other
      escaped
    have ends := gap_ends_name gap
      (head_cons (byteOf '=') (after ++ byteOf quote :: (value ++ byteOf quote :: rest)) rfl)
    have name := name_taken named ends
    have taken := value_taken quotes gap gapAfter inside rest
    have text := reference_text_escaped (List.mem_cons_self) escaped
    simp only [List.append_assoc, List.cons_append, List.nil_append]
    rw [takeAttribute, name]
    dsimp only
    rw [taken, Option.map_some, plain_text_encoded, text]

/-- A start tag goes on with the next attribute. -/
theorem attributes_more {b : UInt8} (front : skipBlanks bytes = b :: rest)
    (starts : isNameStart b = true) :
    takeAttributes bytes =
      ((takeAttribute (b :: rest)).1.toList ++ (takeAttributes (takeAttribute (b :: rest)).2).1,
        (takeAttributes (takeAttribute (b :: rest)).2).2) := by
  have noEnd : b ≠ 0x3E := by rintro rfl; exact absurd starts (by decide)
  have noSlash : b ≠ 0x2F := by rintro rfl; exact absurd starts (by decide)
  rw [takeAttributes]
  split
  · rename_i none
    rw [front] at none
    cases none
  · rename_i first others same
    obtain ⟨rfl, rfl⟩ := List.cons.inj (front.symm.trans same)
    simp [noEnd, noSlash, starts]

/-- A start tag ends, and with a slash it is an end tag too. -/
theorem attributes_end {short : Bool} (front : skipBlanks bytes = tagEnd short ++ rest) :
    takeAttributes bytes = ([], short, rest) := by
  rw [takeAttributes]
  split
  · rename_i none
    rw [front] at none
    cases short <;> cases none
  · rename_i first others same
    rw [front] at same
    cases short with
    | false =>
      obtain ⟨rfl, rfl⟩ := List.cons.inj same
      exact if_pos rfl
    | true =>
      obtain ⟨rfl, rfl⟩ := List.cons.inj same
      rfl

theorem tag_end_no_name (short : Bool) (rest : List UInt8) :
    ∀ b, (tagEnd short ++ rest).head? = some b → isNameByte b = false := by
  cases short <;> exact head_cons _ _ rfl

theorem tag_end_no_blank (short : Bool) (rest : List UInt8) :
    ∀ b, (tagEnd short ++ rest).head? = some b → isBlankByte b = false := by
  cases short <;> exact head_cons _ _ rfl

/-- Written attributes are read in order, up to the end of the tag. -/
theorem attributes_taken {attributes : List Attribute} (named : ∀ a ∈ attributes, IsName a.name)
    (written : WrittenAttributes attributes bytes) (short : Bool) (rest : List UInt8) :
    takeAttributes (bytes ++ (tagEnd short ++ rest)) = (attributes, short, rest) := by
  induction written with
  | none blank => exact attributes_end (skip_gap blank (tag_end_no_blank short rest))
  | @more gap own later a others blank apart first written ih =>
    obtain ⟨namedFirst, namedOthers⟩ := List.forall_mem_cons.mp named
    obtain ⟨b, inner, bytes, starts, _⟩ := id namedFirst
    have taken := attribute_taken namedFirst first (later ++ (tagEnd short ++ rest))
    have begins : ∃ tail, own ++ (later ++ (tagEnd short ++ rest)) = b :: tail := by
      cases first
      exact ⟨_, by rw [bytes]; rfl⟩
    obtain ⟨tail, begins⟩ := begins
    have front : skipBlanks (gap ++ (own ++ later) ++ (tagEnd short ++ rest)) = b :: tail := by
      rw [List.append_assoc, List.append_assoc, begins]
      exact skip_gap blank (head_cons b tail (start_no_blank starts))
    rw [attributes_more front starts, ← begins, taken]
    dsimp only
    rw [ih namedOthers]
    rfl

/-- The name of a tag ends before its attributes and before its end. -/
theorem attributes_end_name {attributes : List Attribute}
    (written : WrittenAttributes attributes bytes) (short : Bool) (rest : List UInt8) :
    ∀ b, (bytes ++ (tagEnd short ++ rest)).head? = some b → isNameByte b = false := by
  cases written with
  | none blank => exact gap_ends_name blank (tag_end_no_name short rest)
  | @more gap own later a others blank apart first written =>
    obtain ⟨b, gap, rfl⟩ := List.exists_cons_of_ne_nil apart
    exact head_cons b _ (blank_no_name (blank b List.mem_cons_self))

end Attributes

section Tags
variable {name : String} {bytes rest : List UInt8}

theorem markup_start {b : UInt8} (starts : isNameStart b = true) (rest : List UInt8) :
    takeMarkup (b :: rest) = takeStartTag (b :: rest) := by
  have noSlash : b ≠ 0x2F := by rintro rfl; exact absurd starts (by decide)
  have noBang : b ≠ 0x21 := by rintro rfl; exact absurd starts (by decide)
  have noQuestion : b ≠ 0x3F := by rintro rfl; exact absurd starts (by decide)
  rw [takeMarkup] <;> simp [starts, noSlash, noBang, noQuestion]

theorem markup_end (rest : List UInt8) : takeMarkup (0x2F :: rest) = takeEndTag rest := rfl

theorem markup_bang (rest : List UInt8) : takeMarkup (0x21 :: rest) = takeBang rest := rfl

/-- The rest of an end tag, which has no quotes, is passed over. -/
theorem tag_skipped {gap : List UInt8} (blank : IsGap gap) (rest : List UInt8) :
    skipTag (gap ++ byteOf '>' :: rest) = rest := by
  have found : findTagEnd none (gap ++ byteOf '>' :: rest) = some (byteOf '>' :: rest) := by
    induction gap with
    | nil => rfl
    | cons b gap ih =>
      obtain ⟨first, others⟩ := List.forall_mem_cons.mp blank
      have noEnd : b ≠ 0x3E := by rintro rfl; exact absurd first (by decide)
      have noQuote : ¬ (b = 0x22 ∨ b = 0x27) := by
        rintro (rfl | rfl) <;> exact absurd first (by decide)
      rw [List.cons_append, findTagEnd, if_neg noEnd, if_neg noQuote]
      exact ih others
  rw [skipTag, found]

/-- A written start tag is read as its event. -/
theorem start_tag_event {attributes : List Attribute} (named : IsName name)
    (attributed : ∀ a ∈ attributes, IsName a.name) (written : WrittenAttributes attributes bytes)
    (short : Bool) (rest : List UInt8) :
    events (startTag name bytes short ++ rest) = .opened name attributes short :: events rest := by
  have whole : startTag name bytes short ++ rest =
      0x3C :: (Utf8.encode name.toList ++ (bytes ++ (tagEnd short ++ rest))) := by
    simp only [startTag, List.cons_append, List.append_assoc]
    rfl
  have markup : takeMarkup (Utf8.encode name.toList ++ (bytes ++ (tagEnd short ++ rest))) =
      takeStartTag (Utf8.encode name.toList ++ (bytes ++ (tagEnd short ++ rest))) := by
    obtain ⟨first, others, own, starts, _⟩ := named
    rw [own]
    exact markup_start starts _
  have ends := attributes_end_name written short rest
  rw [whole, events, if_pos rfl, markup, takeStartTag, name_taken named ends]
  dsimp only
  rw [attributes_taken attributed written, plain_text_encoded]
  rfl

/-- A written end tag is read as its event. -/
theorem end_tag_event (named : IsName name) {gap : List UInt8} (blank : IsGap gap)
    (rest : List UInt8) : events (endTag name gap ++ rest) = .closed name :: events rest := by
  have whole : endTag name gap ++ rest =
      0x3C :: 0x2F :: (Utf8.encode name.toList ++ (gap ++ byteOf '>' :: rest)) := by
    simp only [endTag, List.cons_append, List.append_assoc, List.nil_append]
    rfl
  have front : skipBlanks (Utf8.encode name.toList ++ (gap ++ byteOf '>' :: rest)) =
      Utf8.encode name.toList ++ (gap ++ byteOf '>' :: rest) := by
    obtain ⟨first, others, own, starts, _⟩ := named
    rw [own]
    exact skip_gap nothing_gap (head_cons first _ (start_no_blank starts))
  have name := name_taken named (gap_ends_name blank (head_cons (byteOf '>') rest rfl))
  rw [whole, events, if_pos rfl, markup_end, takeEndTag, front, name]
  dsimp only
  rw [tag_skipped blank, plain_text_encoded]
  rfl

/-- A section of plain characters is read as they are. -/
theorem section_event {content : List Char} (free : ¬ sectionEnd <:+: content) (rest : List UInt8) :
    events (plainSection content ++ rest) =
      .characters (String.ofList content) :: events rest := by
  have whole : plainSection content ++ rest = 0x3C :: 0x21 :: (bytesOf "[CDATA[" ++
      (Utf8.encode content ++ (Utf8.encode sectionEnd ++ rest))) := by
    simp only [plainSection, List.append_assoc]
    rfl
  have bang : takeBang (bytesOf "[CDATA[" ++
      (Utf8.encode content ++ (Utf8.encode sectionEnd ++ rest))) =
      ([.characters (String.ofList content)], rest) := by
    have mark : bytesOf "]]>" = Utf8.encode sectionEnd := by decide
    have broken := break_at_section_end free rest
    have begins : (bytesOf "[CDATA[").isPrefixOf (bytesOf "[CDATA[" ++
        (Utf8.encode content ++ (Utf8.encode sectionEnd ++ rest))) = true := by simp
    have noComment : ¬ (bytesOf "--").isPrefixOf (bytesOf "[CDATA[" ++
        (Utf8.encode content ++ (Utf8.encode sectionEnd ++ rest))) = true := nofun
    rw [takeBang, if_neg noComment, if_pos begins, List.drop_left' (by rfl), mark, broken]
    dsimp only
    rw [plainText, decode_encode]
  rw [whole, events, if_pos rfl, markup_bang, bang]
  rfl

/-- Text up to markup is read as what its references stand for. -/
theorem text_event {own later : List UInt8} (nonempty : own ≠ []) (inside : byteOf '<' ∉ own)
    (ends : AtMarkup later) :
    events (own ++ later) = .characters (referenceText own) :: events later := by
  obtain ⟨b, others, rfl⟩ := List.exists_cons_of_ne_nil nonempty
  rw [List.mem_cons, not_or] at inside
  have mark : byteOf '<' = 0x3C := rfl
  rw [mark] at inside
  have other : b ≠ 0x3C := Ne.symm inside.1
  rw [List.cons_append, events, if_neg other, break_before inside.2 ends]

/-- A written text is read as itself. -/
theorem content_event {content : String} {own later : List UInt8} (nonempty : content ≠ "")
    (written : WrittenContent content own) (ends : AtMarkup later) :
    events (own ++ later) = .characters content :: events later := by
  cases written with
  | escaped escaped =>
    have text : referenceText own = content :=
      reference_text_escaped List.mem_cons_self escaped
    have inside : byteOf '<' ∉ own :=
      barred_not_written (by decide) (by simp) (by decide) escaped
    have some : own ≠ [] := by
      rintro rfl
      have nothing : referenceText [] = "" := by
        simp [referenceText, decodeText, decodeBytes, Utf8.decode]
      exact nonempty (text.symm.trans nothing)
    rw [text_event some inside ends, text]
  | plain free => rw [section_event free, String.ofList_toList]

end Tags

section Forests

theorem exists_written_attributes (attributes : List Attribute) :
    ∃ bytes, WrittenAttributes attributes bytes := by
  have known : ∀ c ∈ ['&', '"'], ∃ name, (c, name) ∈ references := by simp [references]
  induction attributes with
  | nil => exact ⟨[], .none nothing_gap⟩
  | cons a rest ih =>
    obtain ⟨later, others⟩ := ih
    obtain ⟨value, escaped⟩ := exists_escaped known a.value.toList
    exact ⟨_, .more blank_gap (by simp)
      (.quoted (.inl rfl) nothing_gap nothing_gap escaped) others⟩

/-- Every forest can be written. -/
theorem exists_written (forest : Forest) : ∃ bytes, Written forest bytes := by
  induction forest with
  | empty => exact ⟨[], .empty⟩
  | text content rest ih =>
    have known : ∀ c ∈ ['&', '<'], ∃ name, (c, name) ∈ references := by simp [references]
    obtain ⟨later, others⟩ := ih
    obtain ⟨own, escaped⟩ := exists_escaped known content.toList
    exact ⟨_, .text (.escaped escaped) others⟩
  | element name attributes short children rest inside ih =>
    obtain ⟨content, within⟩ := inside
    obtain ⟨later, others⟩ := ih
    obtain ⟨inner, tag⟩ := exists_written_attributes attributes
    by_cases single : (short && children.isEmpty) = true
    · have nothing : children = .empty ∧ short = true := by
        cases children <;> simp_all [Forest.isEmpty]
      obtain ⟨rfl, rfl⟩ := nothing
      exact ⟨_, .short tag others⟩
    · exact ⟨_, .long (by simpa using single) tag within nothing_gap others⟩

variable {forest : Forest} {bytes later : List UInt8}

theorem markup_ahead (rest : List UInt8) : AtMarkup (byteOf '<' :: rest) := by
  intro b front
  exact (Option.some.inj front).symm

/-- A forest that does not begin with a text begins with markup, or with what follows it. -/
theorem written_at_markup (written : Written forest bytes) (noText : beginsWithText forest = false)
    (ends : AtMarkup later) : AtMarkup (bytes ++ later) := by
  cases written with
  | empty => exact ends
  | text first others => cases noText
  | short tag others => exact markup_ahead _
  | long open' tag inside blank others => exact markup_ahead _

/-- A written forest is read back, and reading goes on behind it. -/
theorem written_events (written : Written forest bytes) (proper : Proper forest)
    (ends : AtMarkup later) : events (bytes ++ later) = forest.events ++ events later := by
  induction written generalizing later with
  | empty => rfl
  | text first others ih =>
    cases proper with
    | text nonempty apart proper =>
      have after := written_at_markup others apart ends
      rw [List.append_assoc, content_event nonempty first after, ih proper ends]
      rfl
  | short tag others ih =>
    cases proper with
    | element named attributed inside proper =>
      rw [List.append_assoc, start_tag_event named attributed tag, ih proper ends]
      rfl
  | @long name attributes short children rest inner content gap others open' tag inside blank
      written ihInside ih =>
    cases proper with
    | element named attributed proper properRest =>
      have closing : AtMarkup (endTag name gap ++ (others ++ later)) := markup_ahead _
      simp only [List.append_assoc]
      rw [start_tag_event named attributed tag, ihInside proper closing,
        end_tag_event named blank, ih properRest ends, Forest.events, open']
      simp

end Forests

/-- A forest whose names are names and whose texts are apart can be written, and however it is
written, with either quotes and any references in values, references or a section for each text and
one tag or two for an element without children, the reader reports just its tags, attributes and
texts in order. -/
theorem scanning_undoes_writing {forest : Forest} (proper : Proper forest) :
    (∃ bytes, Written forest bytes) ∧
      ∀ bytes, Written forest bytes → events bytes = forest.events := by
  refine ⟨exists_written forest, fun bytes written => ?_⟩
  have none : AtMarkup [] := nofun
  have read := written_events written proper none
  rw [List.append_nil, events, List.append_nil] at read
  exact read

section Sample

/-- An element whose name is more than one byte a character, with brackets before the end of a
section and both quotes in a value. -/
def bracketForest : Forest :=
  .element "é" [⟨"x", "<'\""⟩] false (.text "]]&" (.element "c" [] true .empty .empty)) .empty

def bracketDocument : List UInt8 :=
  Utf8.encode "<é x= '<&apos;\"'><![CDATA[]]&]]><c/></é >".toList

theorem bracket_forest_proper : Proper bracketForest := by
  have e : IsName "é" := ⟨0xC3, [0xA9], by decide, rfl, List.forall_mem_singleton.mpr rfl⟩
  have c : IsName "c" := ⟨0x63, [], by decide, rfl, List.forall_mem_nil _⟩
  have x : IsName "x" := ⟨0x78, [], by decide, rfl, List.forall_mem_nil _⟩
  have inner : Proper (.text "]]&" (.element "c" [] true .empty .empty)) :=
    .text (by decide) rfl (.element c nofun .empty .empty)
  exact .element e (by simpa using x) inner .empty

theorem bracket_forest_written : Written bracketForest bracketDocument := by
  have named : ('\'', "apos") ∈ references := by decide
  have value : Escaped ['&', '\''] ['<', '\'', '"'] _ :=
    .plain (by decide) (.reference named (.plain (by decide) .nil))
  have attributes : WrittenAttributes [⟨"x", "<'\""⟩] _ :=
    .more blank_gap (by simp) (.quoted (.inr rfl) nothing_gap blank_gap value) (.none nothing_gap)
  have children : Written (.text "]]&" (.element "c" [] true .empty .empty)) _ :=
    .text (.plain (by decide)) (.short (.none nothing_gap) .empty)
  have whole : Written bracketForest _ := .long rfl attributes children blank_gap .empty
  refine Eq.subst (motive := Written bracketForest) ?_ whole
  decide

/-- The brackets belong to the section, and the quote in the value does not end it. -/
theorem bracket_forest_scanned :
    Proper bracketForest ∧ Written bracketForest bracketDocument ∧
      events bracketDocument = [.opened "é" [⟨"x", "<'\""⟩] false, .characters "]]&",
        .opened "c" [] true, .closed "é"] :=
  ⟨bracket_forest_proper, bracket_forest_written,
    (scanning_undoes_writing bracket_forest_proper).2 _ bracket_forest_written⟩

end Sample

end RangeIndex.WrittenDocument
