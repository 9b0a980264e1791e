import RangeIndex.Configuration.Outline
import RangeIndex.Proofs.ElementTrees

/-! What the tree of a document is outlined as. Namespace declarations leave the attributes of an
element and take effect as bindings: on the element and inside it, a label is bound by the nearest
declaration. The tags of a tree are outlined as that tree, and no fault is found in them. -/
namespace RangeIndex.TreeOutlines
open Markup RangeIndex.Configuration ElementTrees

section Definitions

/-- Whether an attribute has to do with namespaces. -/
def isNamespace (a : Attribute) : Bool :=
  a.name == "xmlns" || "xmlns:".toList.isPrefixOf a.name.toList

/-- Whether an attribute declares a label. -/
def declares (label : String) (a : Attribute) : Bool := a.name == "xmlns:" ++ label

/-- What a label is bound to inside elements with these attributes, the innermost first. The nearest
declaration counts, and the last one of those on one element. -/
def bound? : List (List Attribute) → String → Option String
  | [], label => if label = "xml" then some xmlNamespace else none
  | attributes :: outer, label =>
    ((attributes.filter (declares label)).getLast?.map (·.value)).or (bound? outer label)

mutual

/-- Whether an element of an outline shows a tree that is found inside elements with the given
attributes, the innermost first. -/
def Shows (outer : List (List Attribute)) : Tree → Element → Prop
  | .element name attributes children, e =>
    e.tag = (splitLabel name).2 ∧
    e.attributes = (attributes.filter fun a => !isNamespace a).map (fun a => (a.name, a.value)) ∧
    (∀ label, e.bindings.resolve label = bound? (attributes :: outer) label) ∧
    ShowsAll (attributes :: outer) children e.children

/-- Whether elements of an outline show trees, one by one. -/
def ShowsAll (outer : List (List Attribute)) : List Tree → List Element → Prop
  | [], [] => True
  | tree :: trees, e :: es => Shows outer tree e ∧ ShowsAll outer trees es
  | _, _ => False

end

mutual

/-- The element a tree is outlined as where these bindings are in force. -/
def outlined (bindings : Bindings) : Tree → Element
  | .element name attributes children =>
    let own := Element.ofTag bindings name attributes
    { own with children := outlinedAll own.bindings children }

/-- The elements that trees are outlined as, in order. -/
def outlinedAll (bindings : Bindings) : List Tree → List Element
  | [] => []
  | tree :: rest => outlined bindings tree :: outlinedAll bindings rest

end

end Definitions

section Declarations
variable {a : Attribute} {label : String} {bindings : Bindings}

theorem split_namespace_iff {written : String} :
    splitLabel written = (some "xmlns", label) ↔ written = "xmlns:" ++ label := by
  have clear : ':' ∉ "xmlns".toList := by decide
  exact splitLabel_labelled_iff.trans (and_iff_left clear)

theorem is_declaration_eq (a : Attribute) : Element.isDeclaration a = isNamespace a := by
  have labelled : (splitLabel a.name).1 = some "xmlns" ↔ "xmlns:".toList <+: a.name.toList := by
    constructor
    · intro first
      have written := split_namespace_iff.mp (Prod.ext first rfl : splitLabel a.name = (_, _))
      rw [written, String.toList_append]
      exact List.prefix_append _ _
    · rintro ⟨label, written⟩
      have named : a.name = "xmlns:" ++ String.ofList label := by
        apply String.toList_inj.mp
        simp [← written]
      rw [split_namespace_iff.mpr named]
  rw [Bool.eq_iff_iff, Element.isDeclaration, isNamespace, Bool.or_eq_true, Bool.or_eq_true,
    beq_iff_eq (a := (splitLabel a.name).1), labelled, List.isPrefixOf_iff_prefix]

/-- The declarations of one label are the attributes that declare it. -/
theorem declarations_of_label (attributes : List Attribute) :
    ((attributes.filterMap Element.declaration?).filter fun d => d.1 == label).map (·.2) =
      (attributes.filter (declares label)).map (·.value) := by
  induction attributes with
  | nil => rfl
  | cons a rest ih =>
    by_cases declared : ∃ other, splitLabel a.name = (some "xmlns", other)
    · obtain ⟨other, split⟩ := declared
      have taken : Element.declaration? a = some (other, a.value) := by
        simp [Element.declaration?, split]
      have same : declares label a = (other == label) := by
        rw [declares, Bool.eq_iff_iff, beq_iff_eq, beq_iff_eq, ← split_namespace_iff, split]
        simp
      rw [List.filterMap_cons_some taken, List.filter_cons, List.filter_cons, same]
      cases other == label with
      | true => exact congrArg (a.value :: ·) ih
      | false => exact ih
    · have passed : Element.declaration? a = none := by
        unfold Element.declaration?
        split
        · rename_i split
          exact absurd ⟨_, split⟩ declared
        · rfl
      have other : declares label a = false := by
        rw [declares, beq_eq_false_iff_ne]
        exact fun named => declared ⟨label, split_namespace_iff.mpr named⟩
      rw [List.filterMap_cons_none passed, List.filter_cons, other]
      exact ih

/-- Of several declarations of a label the last one counts. -/
theorem resolve_declare_all (declared : List (String × String)) :
    (bindings.declareAll declared).resolve label =
      ((declared.filter fun d => d.1 == label).getLast?.map (·.2)).or (bindings.resolve label) := by
  induction declared generalizing bindings with
  | nil => rfl
  | cons d rest ih =>
    have next : bindings.declareAll (d :: rest) = (bindings.declare d.1 d.2).declareAll rest := rfl
    rw [next, ih, List.filter_cons]
    by_cases same : d.1 = label
    · subst same
      rw [Bindings.resolve_declare_self, if_pos (beq_self_eq_true _), List.getLast?_cons]
      cases (rest.filter fun other => other.1 == d.1).getLast? <;> rfl
    · rw [Bindings.resolve_declare_of_ne bindings d.2 (Ne.symm same),
        if_neg (by simpa using same)]

/-- On an element a label is bound by its last declaration there, or else as outside. -/
theorem resolve_of_tag (name : String) (attributes : List Attribute) :
    (Element.ofTag bindings name attributes).bindings.resolve label =
      ((attributes.filter (declares label)).getLast?.map (·.value)).or (bindings.resolve label) := by
  rw [Element.ofTag, resolve_declare_all, ← List.getLast?_map, declarations_of_label,
    List.getLast?_map]

end Declarations

section Outlining

theorem outlined_all_append (bindings : Bindings) (first second : List Tree) :
    outlinedAll bindings (first ++ second) =
      outlinedAll bindings first ++ outlinedAll bindings second := by
  induction first with
  | nil => rfl
  | cons tree rest ih => rw [List.cons_append, outlinedAll, outlinedAll, ih, List.cons_append]

mutual

/-- A tree is outlined as an element that shows it. -/
theorem outlined_shows {bindings : Bindings} {outer : List (List Attribute)}
    (bound : ∀ label, bindings.resolve label = bound? outer label) :
    ∀ tree, Shows outer tree (outlined bindings tree)
  | .element name attributes children => by
    have own : ∀ label, (Element.ofTag bindings name attributes).bindings.resolve label =
        bound? (attributes :: outer) label := by
      intro label
      rw [resolve_of_tag, bound label, bound?]
    refine ⟨rfl, ?_, own, outlined_all_shows own children⟩
    simp only [outlined, Element.ofTag, is_declaration_eq]

theorem outlined_all_shows {bindings : Bindings} {outer : List (List Attribute)}
    (bound : ∀ label, bindings.resolve label = bound? outer label) :
    ∀ trees, ShowsAll outer trees (outlinedAll bindings trees)
  | [] => trivial
  | tree :: rest => ⟨outlined_shows bound tree, outlined_all_shows bound rest⟩

end

/-- Outside all elements `xml` is bound, and nothing else. -/
theorem resolve_initial (label : String) : Bindings.initial.resolve label = bound? [] label := by
  rw [bound?, Bindings.initial, Bindings.resolve, List.lookup_cons]
  by_cases same : label = "xml"
  · simp [same]
  · simp [same, beq_eq_false_iff_ne.mpr same]

end Outlining

section Reading
variable {trees : List Tree} {events : List Event} {outline : Outline} {parent : Element}
  {outer : List Element}

theorem add_text (outline : Outline) {event : Event} (text : isTag event = false) :
    outline.add event = outline := by
  cases event with
  | characters text => rfl
  | opened name attributes short => cases text
  | closed name => cases text

/-- Text is passed over. -/
theorem add_tags (outline : Outline) (events : List Event) :
    events.foldl Outline.add outline = (tags events).foldl Outline.add outline := by
  induction events generalizing outline with
  | nil => rfl
  | cons event rest ih =>
    rw [List.foldl_cons, ih, tags, tags, List.filter_cons]
    cases tag : isTag event with
    | true => rfl
    | false => rw [add_text outline tag]; rfl

theorem of_tags (events : List Event) :
    Outline.ofEvents events =
      Outline.closeOpen ((tags events).foldl Outline.add .initial).opened.length
        ((tags events).foldl Outline.add .initial) := by
  rw [Outline.ofEvents, add_tags]

/-- The tags of trees add these to the children of the innermost open element. -/
theorem add_spelled (spelled : Spells trees events) (inside : outline.opened = parent :: outer) :
    events.foldl Outline.add outline =
      { outline with opened :=
        { parent with children := parent.children ++ outlinedAll parent.bindings trees } ::
          outer } := by
  induction spelled generalizing outline parent outer with
  | nothing =>
    obtain ⟨opened, root, faults⟩ := outline
    obtain rfl : opened = parent :: outer := inside
    cases parent
    simp [outlinedAll]
  | @short name attributes rest later others ih =>
    have added : outline.add (.opened name attributes true) =
        { outline with opened :=
          parent.addChild (Element.ofTag parent.bindings name attributes) :: outer } := by
      simp [Outline.add, Outline.place, Outline.bindings, inside]
    rw [List.foldl_cons, added, ih rfl]
    simp only [Element.addChild, List.append_assoc]
    rfl
  | @long name closing attributes children rest content later _ closes _ ihInside ih =>
    let own := Element.ofTag parent.bindings name attributes
    have started : outline.add (.opened name attributes false) =
        { outline with opened := own :: parent :: outer } := by
      simp [Outline.add, Outline.bindings, inside, own]
    have ended : Outline.add
        { outline with opened :=
          { own with children := own.children ++ outlinedAll own.bindings children } ::
            parent :: outer } (.closed closing) =
        { outline with opened :=
          parent.addChild (outlined parent.bindings (.element name attributes children)) ::
            outer } := by
      rw [Outline.add]
      dsimp only
      rw [if_pos (show own.tag = _ from closes.symm)]
      rfl
    rw [List.foldl_cons, started, List.foldl_append, ihInside rfl, List.foldl_cons, ended, ih rfl]
    simp only [Element.addChild, List.append_assoc]
    rfl

/-- The tags of one tree are outlined as the tree, without a fault. -/
theorem outline_of_tree {tree : Tree} (spelled : Spells [tree] (tags events)) :
    Outline.ofEvents events = { root := some (outlined .initial tree) } := by
  have added : (tags events).foldl Outline.add .initial =
      { root := some (outlined .initial tree) } := by
    generalize tags events = written at spelled
    cases spelled with
    | short others =>
      cases others
      rfl
    | @long name closing attributes children _ inside _ content closes others =>
      cases others
      let own := Element.ofTag .initial name attributes
      have started : Outline.add .initial (.opened name attributes false) = { opened := [own] } := rfl
      rw [List.foldl_cons, started, List.foldl_append, add_spelled content rfl, List.foldl_cons,
        List.foldl_nil, Outline.add]
      dsimp only
      rw [if_pos (show own.tag = _ from closes.symm)]
      rfl
  rw [of_tags, added]
  rfl

end Reading

end RangeIndex.TreeOutlines
