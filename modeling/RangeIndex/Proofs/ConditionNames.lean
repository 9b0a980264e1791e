import RangeIndex.Proofs.PathGrammar
import RangeIndex.Proofs.RuleElements

/-! The name in a condition and in a path. A condition takes the whole of its attribute for a name, less
the blanks around it and one mark in front; a path with the mark in front of that text is cut at slashes,
and an empty segment or a mark alone is no name. So the two agree on the name just where the text is not
empty and has no slash in it. Any other text with a name in a condition is one that no path of one
attribute has. -/
namespace RangeIndex.ConditionNames
open Pattern PathGrammar RuleElements RangeIndex.Configuration Text

section Definitions

/-- A condition whose attribute is this text is read under these bindings, and is on this name. -/
def Loads (bindings : Bindings) (given : String) (name : QName) : Prop :=
  ∃ element condition, element.get? "attribute" = some given ∧ element.bindings = bindings ∧
    readCondition element = .ok condition ∧ condition.subject = name

/-- The text is one that names an attribute by itself, behind the mark of attributes in a path. -/
def Selects (bindings : Bindings) (closed : Bool) (written : String) (name : QName) : Prop :=
  Pattern.read bindings closed ("@" ++ written) = .ok ⟨[.named name], closed⟩

/-- What a condition takes for the name of its attribute. -/
def bareName (given : String) : String := unmarked (trimmed given)

/-- A text that is one segment behind a mark. -/
structure OneSegment (written : String) : Prop where
  nonempty : written ≠ ""
  clear : '/' ∉ written.toList

end Definitions

section Texts
variable {written : String}

/-- What is trimmed behind a character that is not left out begins with it. -/
theorem trim_behind {belongs : Char → Bool} {c : Char} (outside : belongs c = false)
    (text : List Char) : trimBy belongs (c :: text) = c :: (text.reverse.dropWhile belongs).reverse := by
  rw [trimBy, List.dropWhile_cons_of_neg (by simp [outside]), List.reverse_cons,
    dropWhile_concat outside, List.reverse_concat]

theorem trimmed_end {c : Char} (text : String) (last : (trimmed text).toList.getLast? = some c) :
    isBlank c = false := by
  rw [trimmed, String.toList_ofList] at last
  exact last_trimBy last

/-- The name in a condition does not end in a blank. -/
theorem bare_name_end {c : Char} (given : String)
    (last : (bareName given).toList.getLast? = some c) : isBlank c = false := by
  unfold bareName unmarked at last
  split at last
  · rename_i name marked
    rw [String.toList_ofList] at last
    apply trimmed_end given
    rw [marked, List.getLast?_cons, last]
    rfl
  · exact trimmed_end given last

/-- A marked text that does not end in a blank has nothing to trim. -/
theorem marked_trimmed (tight : ∀ c, written.toList.getLast? = some c → isBlank c = false) :
    trim ('@' :: written.toList) = '@' :: written.toList := by
  apply trimBy_of_ends
  case front =>
    rintro c ⟨⟩
    decide
  case back =>
    intro c last
    rw [List.getLast?_cons, Option.some.injEq] at last
    cases found : written.toList.getLast? with
    | none =>
      rw [found] at last
      rw [← last]
      decide
    | some final =>
      rw [found] at last
      rw [← last]
      exact tight final found

theorem marked_body (written : String) : body ("@" ++ written) = '@' :: written.toList := by
  rw [body, String.toList_append]
  rfl

/-- A text without a slash is one segment behind a mark, and in any other more segments follow the
marked one: a single piece would be the whole text, and no piece has a slash. -/
theorem marked_segments (tight : ∀ c, written.toList.getLast? = some c → isBlank c = false) :
    ('/' ∉ written.toList ∧ segments ("@" ++ written) = ['@' :: written.toList]) ∨
      '/' ∈ written.toList ∧ ∃ first next later,
        segments ("@" ++ written) = ('@' :: first) :: next :: later := by
  obtain ⟨piece, pieces, split⟩ :=
    List.exists_cons_of_ne_nil (splitBy_ne_nil (· == '/') written.toList)
  have marked : segments ("@" ++ written) = trim ('@' :: piece) :: pieces.map trim := by
    rw [segments, marked_body, splitBy_other (by decide) split, List.map_cons]
  by_cases slash : '/' ∈ written.toList
  · refine .inr ⟨slash, ?_⟩
    cases pieces with
    | nil =>
      have whole : piece = written.toList := by
        rw [← joinWith_splitBy '/' written.toList, split]
        rfl
      have clear := clear_of_mem_splitBy (split ▸ List.mem_cons_self : piece ∈ _)
      exact absurd (whole ▸ slash) clear
    | cons next later =>
      rw [marked, trim, trim_behind (by decide), List.map_cons]
      exact ⟨_, _, _, rfl⟩
  · rw [splitBy_clear slash] at split
    cases split
    rw [marked, marked_trimmed tight]
    exact .inl ⟨slash, rfl⟩

end Texts

section Readers
variable {bindings : Bindings} {closed : Bool} {written given : String} {name : QName}

/-- Behind a mark stands the name of an attribute. -/
theorem marked_stands_iff {component : Component} :
    Stands bindings ('@' :: written.toList) component ↔ written ≠ "" ∧
      ∃ name, bindings.qualify .attribute written = some name ∧ component = .named name := by
  constructor
  · intro stands
    generalize marked : '@' :: written.toList = segment at stands
    cases stands with
    | gap => cases marked
    | wildcard => cases (List.cons.inj marked).1
    | name spelled named =>
      have split := split_written spelled
      rw [← marked] at split
      obtain ⟨rfl, same⟩ := Prod.mk.inj split
      obtain rfl := String.toList_inj.mp same
      refine ⟨?_, _, qualify_some_iff.mpr named, rfl⟩
      cases spelled with
      | marked nonempty => exact nonempty
  · rintro ⟨nonempty, name, qualified, rfl⟩
    exact .name (.marked nonempty) (qualify_some_iff.mp qualified)

/-- A path of one attribute has one segment, and in it the name that the text stands for. A name in
front of other components is not collapsed with them. -/
theorem selects_iff (tight : ∀ c, written.toList.getLast? = some c → isBlank c = false) :
    Selects bindings closed written name ↔
      OneSegment written ∧ bindings.qualify .attribute written = some name := by
  rw [Selects, read_ok_iff]
  rcases marked_segments tight with ⟨clear, segments⟩ | ⟨slash, first, next, later, segments⟩
  · rw [segments]
    constructor
    · rintro ⟨_, components, all, same⟩
      obtain ⟨component, _, stands, ⟨⟩, rfl⟩ := List.forall₂_cons_left_iff.mp all
      obtain ⟨nonempty, found, qualified, rfl⟩ := marked_stands_iff.mp stands
      cases same
      exact ⟨⟨nonempty, clear⟩, qualified⟩
    · rintro ⟨one, qualified⟩
      refine ⟨by simp, [.named name], .cons ?_ .nil, rfl⟩
      exact marked_stands_iff.mpr ⟨one.nonempty, name, qualified, rfl⟩
  · rw [segments]
    refine iff_of_false ?_ fun ⟨one, _⟩ => one.clear slash
    rintro ⟨_, components, all, same⟩
    obtain ⟨component, _, stands, others, rfl⟩ := List.forall₂_cons_left_iff.mp all
    obtain ⟨_, _, _, more, rfl⟩ := List.forall₂_cons_left_iff.mp others
    rw [← String.toList_ofList (l := first)] at stands
    obtain ⟨_, found, _, rfl⟩ := marked_stands_iff.mp stands
    have alone := (Pattern.mk.inj same).1
    rw [collapseGaps] at alone
    · obtain ⟨_, nothing⟩ := List.cons.inj alone
      exact absurd (collapse_eq_nil_iff.mp nothing.symm) (List.cons_ne_nil _ _)
    · simp

theorem loads_iff :
    Loads bindings given name ↔
      trimmed given ≠ "" ∧ bindings.qualify .attribute (bareName given) = some name := by
  constructor
  · rintro ⟨element, condition, stated, rfl, read, rfl⟩
    obtain ⟨_, found, nonempty, qualified⟩ := (condition_iff.mp read).subject
    cases stated.symm.trans found
    exact ⟨nonempty, qualified⟩
  · rintro ⟨nonempty, qualified⟩
    let element : Element :=
      ⟨"condition", [("attribute", given), ("value", "")], bindings, []⟩
    refine ⟨element, ⟨name, "", .eq, true, false⟩, rfl, rfl, condition_iff.mpr ?_, rfl⟩
    have decidable : Operator.eq ≠ .matches := by decide
    exact ⟨⟨given, rfl, nonempty, qualified⟩, rfl, rfl, decidable, rfl, rfl⟩

/-- A name that is not empty is in a text that is not blank. -/
theorem given_nonempty (one : OneSegment (bareName given)) : trimmed given ≠ "" := by
  intro empty
  apply one.nonempty
  rw [bareName, empty]
  rfl

end Readers

/-- Conditions and paths read the same name in a text, or none in it, exactly if a text that a condition
has a name in is not empty and has no slash. Just those conditions that load from such a text are on
what the path of the text selects. -/
theorem names_read_alike_iff (bindings : Bindings) (closed : Bool) (given : String) :
    ((∀ name, Loads bindings given name ↔ Selects bindings closed (bareName given) name) ↔
      ∀ name, Loads bindings given name → OneSegment (bareName given)) ∧
    ∀ element condition, element.get? "attribute" = some given → element.bindings = bindings →
      readCondition element = .ok condition →
        (Pattern.read bindings false ("@" ++ bareName given) = .ok condition.path ↔
          OneSegment (bareName given)) := by
  have tight := fun c => @bare_name_end c given
  constructor
  · constructor
    · intro alike name loads
      exact ((selects_iff tight).mp ((alike name).mp loads)).1
    · intro proper name
      constructor
      · intro loads
        exact (selects_iff tight).mpr ⟨proper name loads, (loads_iff.mp loads).2⟩
      · intro selects
        obtain ⟨one, qualified⟩ := (selects_iff tight).mp selects
        exact loads_iff.mpr ⟨given_nonempty one, qualified⟩
  · intro element condition stated within read
    have loads : Loads bindings given condition.subject :=
      ⟨element, condition, stated, within, read, rfl⟩
    have selects := @selects_iff bindings false _ condition.subject tight
    rw [Selects] at selects
    rw [Condition.path, selects]
    exact and_iff_left (loads_iff.mp loads).2

section Sample

/-- A mark, a label and a blank in the name, and blanks around it. -/
theorem labelled_name_read_alike :
    (∀ name, Loads textBindings " @tei:my type" name → OneSegment (bareName " @tei:my type")) ∧
      Loads textBindings " @tei:my type"
        (.ofParts .attribute (some "http://www.tei-c.org/ns/1.0") "my type" (some "tei")) ∧
      Pattern.read textBindings false ("@" ++ bareName " @tei:my type") =
        .ok ⟨[.named (.ofParts .attribute (some "http://www.tei-c.org/ns/1.0") "my type"
          (some "tei"))], false⟩ := by
  have one : OneSegment (bareName " @tei:my type") := ⟨by decide +kernel, by decide +kernel⟩
  have loads := loads_iff.mpr ⟨(by decide +kernel : trimmed " @tei:my type" ≠ ""),
    (by decide +kernel : textBindings.qualify .attribute (bareName " @tei:my type") =
      some (.ofParts .attribute (some "http://www.tei-c.org/ns/1.0") "my type" (some "tei")))⟩
  obtain ⟨alike, _⟩ := names_read_alike_iff textBindings false " @tei:my type"
  exact ⟨fun _ _ => one, loads, (alike.mpr (fun _ _ => one) _).mp loads⟩

/-- A mark alone is the attribute with the empty name in a condition, and no path. A text with a slash
is one name in a condition, and a path of two components. -/
theorem lone_mark_read_apart :
    ¬ (∀ name, Loads .initial "@" name ↔ Selects .initial false (bareName "@") name) ∧
      Loads .initial "@" (.unqualified .attribute "") ∧
      Pattern.read .initial false ("@" ++ bareName "@") = .error ⟨"@", .emptyAttributeName⟩ ∧
      Loads .initial "a/b" (.unqualified .attribute "a/b") ∧
      Pattern.read .initial false ("@" ++ bareName "a/b") =
        .ok ⟨[.named (.unqualified .attribute "a"), .named (.unqualified .element "b")], false⟩ := by
  have nameless : Loads .initial "@" (.unqualified .attribute "") :=
    loads_iff.mpr (by decide +kernel)
  have refused : Pattern.read .initial false ("@" ++ bareName "@") =
      .error ⟨"@", .emptyAttributeName⟩ := by decide +kernel
  refine ⟨fun alike => ?_, nameless, refused, loads_iff.mpr (by decide +kernel), by decide +kernel⟩
  have selects := (alike _).mp nameless
  rw [Selects, refused] at selects
  cases selects

end Sample

end RangeIndex.ConditionNames
