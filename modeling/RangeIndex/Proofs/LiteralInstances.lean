import Mathlib.Data.Fintype.EquivFin
import RangeIndex.Proofs.PatternContainment

/-! A pattern stands for the literal locations it accepts. Where another pattern has no wildcard,
one of these locations speaks for all of them: the one that has an element of a name not mentioned
there for every gap and every wildcard. Such an element can only be taken by a gap, just like the
component it stands for, so the other pattern accepts the location exactly when it accepts the
pattern itself. -/
namespace RangeIndex.LiteralInstances
open Pattern PatternContainment

/-- No component is a wildcard. -/
def WithoutWildcards (pattern : Pattern) : Prop := .wildcard ∉ pattern.components

instance (pattern : Pattern) : Decidable (WithoutWildcards pattern) :=
  inferInstanceAs (Decidable (¬ _))

/-- A component with a name in place of a gap or a wildcard. -/
def filled (fill : QName) : Component → Component
  | .named name => .named name
  | .wildcard | .gap => .named fill

/-- The location that has one element of a name for every gap and every wildcard. -/
def instanceWith (fill : QName) (pattern : Pattern) : Pattern :=
  ⟨pattern.components.map (filled fill), false⟩

section Instance
variable {fill : QName}

theorem instance_is_literal (pattern : Pattern) : (instanceWith fill pattern).isLiteral = true := by
  simp only [isLiteral, instanceWith, List.all_map, List.all_eq_true, Function.comp_apply]
  intro component _
  cases component <;> rfl

theorem level_accepts_filled (element : fill.isAttribute = false) {component : Component}
    (level : component.isGap = false) : component.accepts (filled fill component) = true := by
  cases component with
  | named name => simp [filled, Component.accepts, QName.same_iff]
  | wildcard => simp [filled, Component.accepts, element]
  | gap => cases level

/-- A pattern accepts what it becomes when elements fill its gaps and wildcards. -/
theorem accepts_own_instance (element : fill.isAttribute = false) (pattern : Pattern) :
    pattern.isMatch (instanceWith fill pattern) = true := by
  obtain ⟨components, closed⟩ := pattern
  simp only [instanceWith]
  induction components with
  | nil => simp
  | cons component later ih =>
    cases gap : component.isGap with
    | true =>
      cases component <;> cases gap
      exact (gap_leaves_suffix _ _).mpr ⟨_, List.suffix_cons _ _, ih⟩
    | false =>
      exact (level_takes_head gap _ _).mpr
        ⟨_, _, rfl, level_accepts_filled element gap, ih⟩

end Instance

section Reflecting
variable {closed : Bool}

theorem end_row_map (change : Component → Component) (location : List Component) :
    endRow closed (location.map change) = endRow closed location := by
  induction location with
  | nil => rfl
  | cons actual rest ih => rw [List.map_cons, endRow, endRow, ih]

theorem level_row_map {component : Component} {change : Component → Component}
    (unseen : ∀ actual, component.accepts (change actual) = component.accepts actual)
    (location : List Component) (next : List Bool) :
    levelRow component (location.map change) next = levelRow component location next := by
  induction location generalizing next with
  | nil => rfl
  | cons actual rest ih =>
    cases next with
    | nil => rfl
    | cons accepted next => rw [List.map_cons, levelRow, levelRow, unseen, ih]

/-- Only what single components accept of a location shows in its rows. -/
theorem row_map {components : List Component} {change : Component → Component}
    (unseen : ∀ component ∈ components, component.isGap = false →
      ∀ actual, component.accepts (change actual) = component.accepts actual)
    (location : List Component) :
    row closed (location.map change) components = row closed location components := by
  induction components with
  | nil => exact end_row_map change location
  | cons component later ih =>
    have below := ih fun other member => unseen other (List.mem_cons_of_mem _ member)
    simp only [row]
    rw [below]
    cases gap : component.isGap with
    | true => rfl
    | false => exact level_row_map (unseen component List.mem_cons_self gap) location _

/-- A name does not take an element of a name it is not, nor does it take a gap or a wildcard. -/
theorem fresh_fill_unseen {name fill : QName} (fresh : name.localPart ≠ fill.localPart)
    (actual : Component) :
    (Component.named name).accepts (filled fill actual) = (Component.named name).accepts actual := by
  have apart : (Component.named name).accepts (.named fill) = false := by
    simp only [Component.accepts, ← Bool.not_eq_true, QName.same_iff]
    intro same
    exact fresh (congrArg NameIdentity.localPart same).symm
  cases actual with
  | named other => rfl
  | wildcard => exact apart
  | gap => exact apart

/-- The local name that a component mentions. -/
def mentioned? : Component → Option String
  | .named name => some name.localPart
  | _ => none

theorem exists_fresh_element (components : List Component) :
    ∃ fill : QName, fill.isAttribute = false ∧
      ∀ name, .named name ∈ components → name.localPart ≠ fill.localPart := by
  let mentioned : List String := components.filterMap mentioned?
  obtain ⟨localPart, fresh⟩ := Infinite.exists_notMem_finset mentioned.toFinset
  refine ⟨.unqualified .element localPart, rfl, ?_⟩
  rintro name member rfl
  exact fresh (List.mem_toFinset.mpr (List.mem_filterMap.mpr ⟨_, member, rfl⟩))

/-- For a pattern without wildcards one literal location decides whether it accepts another
pattern. -/
theorem accepted_by_fresh_instance {pattern : Pattern} (names : WithoutWildcards pattern)
    (context : Pattern) : ∃ fill : QName, fill.isAttribute = false ∧
      pattern.isMatch (instanceWith fill context) = pattern.isMatch context := by
  obtain ⟨fill, element, fresh⟩ := exists_fresh_element pattern.components
  refine ⟨fill, element, ?_⟩
  have unseen : ∀ component ∈ pattern.components, component.isGap = false →
      ∀ actual, component.accepts (filled fill actual) = component.accepts actual := by
    intro component member level actual
    cases component with
    | named name => exact fresh_fill_unseen (fresh name member) actual
    | wildcard => exact absurd member names
    | gap => cases level
  simp only [isMatch_eq_row, instanceWith]
  rw [row_map unseen]

end Reflecting

/-- A pattern that accepts another accepts all that the other one accepts, unless it is open and the
other is closed; and one without wildcards that accepts all literal locations of the other accepts
the other. -/
theorem matching_is_containment (pattern context : Pattern) :
    (context.closed = false ∨ pattern.closed = true → pattern.isMatch context = true →
      ∀ location, context.isMatch location = true → pattern.isMatch location = true) ∧
    (WithoutWildcards pattern →
      (∀ location, location.isLiteral = true → context.isMatch location = true →
        pattern.isMatch location = true) →
      pattern.isMatch context = true) := by
  constructor
  · intro ends covers location reached
    exact match_transitive ends context.components location.components location.closed covers reached
  · intro names contained
    obtain ⟨fill, element, same⟩ := accepted_by_fresh_instance names context
    rw [← same]
    exact contained _ (instance_is_literal context) (accepts_own_instance element context)

section Sample

/-- An element of that name at one level. -/
def level (name : String) : Component := .named (.unqualified .element name)

/-- Names anywhere below an entry that is anywhere, and all below them. -/
def namesInEntries : Pattern := ⟨[.gap, level "entry", .gap, level "name"], true⟩

/-- Names two levels below an entry that is somewhere in a book, and all below them. -/
def namesInBook : Pattern := ⟨[level "book", .gap, level "entry", .wildcard, level "name"], true⟩

/-- Both patterns are closed. The names in a book are contained in those in entries, and this is
told by the literal locations alone. -/
theorem names_in_book_contained :
    (namesInBook.closed = false ∨ namesInEntries.closed = true) ∧
      WithoutWildcards namesInEntries ∧ namesInEntries.isMatch namesInBook = true := by
  have ends : namesInBook.closed = false ∨ namesInEntries.closed = true := .inr rfl
  have names : WithoutWildcards namesInEntries := by decide
  have covers : namesInEntries.isMatch namesInBook = true := by decide
  obtain ⟨contained, decided⟩ := matching_is_containment namesInEntries namesInBook
  refine ⟨ends, names, decided names ?_⟩
  intro location _ reached
  exact contained ends covers location reached

end Sample

end RangeIndex.LiteralInstances
