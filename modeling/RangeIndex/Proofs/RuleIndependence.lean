import RangeIndex.Proofs.RuleElements
import RangeIndex.Proofs.TreeOutlines

/-! Rules are loaded one by one. A configuration of one tree gives for each `create` element, in the
order of the document, the rule it states or one error, and what an element says or declares has no
part in what becomes of another. So a `create` element at fault may stand anywhere: it adds its own
error and leaves all rules as they are. -/
namespace RangeIndex.RuleIndependence
open Markup RangeIndex.Configuration ElementTrees TreeOutlines RuleElements

section Definitions

/-- What a `create` element comes to: the rule it states, or an error if it states none. -/
inductive Yields (create : Element) : Except Error Rule → Prop where
  | rule {rule : Rule} (states : StatesRule create rule) : Yields create (.ok rule)
  | error {error : Error} (states : ∀ rule, ¬ StatesRule create rule) : Yields create (.error error)

def rulesOf (results : List (Except Error Rule)) : List Rule :=
  results.filterMap fun | .ok rule => some rule | .error _ => none

def errorsOf (results : List (Except Error Rule)) : List Error :=
  results.filterMap fun | .ok _ => none | .error error => some error

/-- An element around a place among its children. -/
structure Level where
  name : String
  attributes : List Attribute
  before : List Tree
  after : List Tree

namespace Level

/-- The element with trees in the place. -/
def around (level : Level) (inside : List Tree) : Tree :=
  .element level.name level.attributes (level.before ++ (inside ++ level.after))

/-- The bindings in force inside the element. -/
def bindings (level : Level) (outside : Bindings) : Bindings :=
  (Element.ofTag outside level.name level.attributes).bindings

end Level

/-- A place among the children of a `range` element in a configuration. -/
structure Place where
  root : Level
  index : Level
  range : Level
  rootTag : (splitLabel root.name).2 = "collection"
  indexTag : (splitLabel index.name).2 = "index"
  rangeTag : (splitLabel range.name).2 = "range"

def tagged (tag : String) (elements : List Element) : List Element :=
  elements.filter fun element => element.tag == tag

/-- The `create` elements in those of the elements that are ranges. -/
def createsInRanges (elements : List Element) : List Element :=
  (tagged "range" elements).flatMap fun range => tagged "create" range.children

/-- The `create` elements in those of the elements that are indexes. -/
def createsInIndexes (elements : List Element) : List Element :=
  (tagged "index" elements).flatMap fun index => createsInRanges index.children

namespace Place

/-- The configuration with trees in the place. -/
def fill (place : Place) (inside : List Tree) : Tree :=
  place.root.around [place.index.around [place.range.around inside]]

def rootBindings (place : Place) : Bindings := place.root.bindings .initial

def indexBindings (place : Place) : Bindings := place.index.bindings place.rootBindings

/-- The bindings in force in the place. -/
def bindings (place : Place) : Bindings := place.range.bindings place.indexBindings

/-- The `create` elements before the place. -/
def createsBefore (place : Place) : List Element :=
  createsInIndexes (outlinedAll place.rootBindings place.root.before) ++
    (createsInRanges (outlinedAll place.indexBindings place.index.before) ++
      tagged "create" (outlinedAll place.bindings place.range.before))

/-- The `create` elements after the place. -/
def createsAfter (place : Place) : List Element :=
  tagged "create" (outlinedAll place.bindings place.range.after) ++
    (createsInRanges (outlinedAll place.indexBindings place.index.after) ++
      createsInIndexes (outlinedAll place.rootBindings place.root.after))

end Place

end Definitions

section Loading
variable {collection : String} {document : List UInt8} {tree : Tree}

theorem yields_read (create : Element) : Yields create (readRule create) := by
  cases read : readRule create with
  | ok rule => exact .rule (rule_iff.mp read)
  | error error =>
    refine .error fun rule states => ?_
    rw [rule_iff.mpr states] at read
    cases read

theorem yields_all (elements : List Element) :
    List.Forall₂ Yields elements (elements.map readRule) := by
  rw [List.forall₂_map_right_iff]
  exact List.forall₂_same.mpr fun create _ => yields_read create

/-- A configuration of one tree is read `create` element by `create` element. -/
theorem load_tree (spelled : Spells [tree] (tags (events document)))
    (named : tree.tag = "collection") :
    load collection document =
      ⟨⟨collection, rulesOf ((creates (outlined .initial tree)).map readRule)⟩,
        errorsOf ((creates (outlined .initial tree)).map readRule)⟩ := by
  have tag : (outlined .initial tree).tag = "collection" := by
    cases tree
    exact named
  rw [load, outline_of_tree spelled, readOutline]
  dsimp only
  rw [if_pos tag]
  rfl

theorem rules_append (first second : List (Except Error Rule)) :
    rulesOf (first ++ second) = rulesOf first ++ rulesOf second := List.filterMap_append

theorem errors_append (first second : List (Except Error Rule)) :
    errorsOf (first ++ second) = errorsOf first ++ errorsOf second := List.filterMap_append

end Loading

section Places
variable {place : Place}

theorem tagged_append (tag : String) (first second : List Element) :
    tagged tag (first ++ second) = tagged tag first ++ tagged tag second := List.filter_append ..

theorem creates_in_ranges_append (first second : List Element) :
    createsInRanges (first ++ second) = createsInRanges first ++ createsInRanges second := by
  rw [createsInRanges, tagged_append, List.flatMap_append]
  rfl

theorem creates_in_indexes_append (first second : List Element) :
    createsInIndexes (first ++ second) = createsInIndexes first ++ createsInIndexes second := by
  rw [createsInIndexes, tagged_append, List.flatMap_append]
  rfl

theorem children_around (level : Level) (outside : Bindings) (inside : List Tree) :
    (outlined outside (level.around inside)).children =
      outlinedAll (level.bindings outside) level.before ++
        (outlinedAll (level.bindings outside) inside ++
          outlinedAll (level.bindings outside) level.after) := by
  rw [← outlined_all_append, ← outlined_all_append]
  rfl

/-- An element that a place is in is taken for what it is, whatever stands in the place. -/
theorem tagged_around {level : Level} {tag : String} (named : (splitLabel level.name).2 = tag)
    (outside : Bindings) (inside : List Tree) :
    tagged tag [outlined outside (level.around inside)] = [outlined outside (level.around inside)] :=
  List.filter_cons_of_pos (beq_iff_eq.mpr named)

theorem creates_in_range (place : Place) (inside : List Tree) :
    createsInRanges [outlined place.indexBindings (place.range.around inside)] =
      tagged "create" (outlinedAll place.bindings place.range.before) ++
        (tagged "create" (outlinedAll place.bindings inside) ++
          tagged "create" (outlinedAll place.bindings place.range.after)) := by
  rw [createsInRanges, tagged_around place.rangeTag, List.flatMap_singleton, children_around,
    tagged_append, tagged_append]
  rfl

theorem creates_in_index (place : Place) (inside : List Tree) :
    createsInIndexes [outlined place.rootBindings (place.index.around inside)] =
      createsInRanges (outlinedAll place.indexBindings place.index.before) ++
        (createsInRanges (outlinedAll place.indexBindings inside) ++
          createsInRanges (outlinedAll place.indexBindings place.index.after)) := by
  rw [createsInIndexes, tagged_around place.indexTag, List.flatMap_singleton, children_around,
    creates_in_ranges_append, creates_in_ranges_append]
  rfl

/-- The `create` elements of a configuration are those before a place, in it and after it. -/
theorem creates_at_place (place : Place) (inside : List Tree) :
    creates (outlined .initial (place.fill inside)) =
      place.createsBefore ++ (tagged "create" (outlinedAll place.bindings inside) ++
        place.createsAfter) := by
  have root : creates (outlined .initial (place.fill inside)) =
      createsInIndexes (outlined .initial (place.fill inside)).children := rfl
  have range : createsInRanges (outlinedAll place.indexBindings [place.range.around inside]) = _ :=
    creates_in_range place inside
  have index : createsInIndexes (outlinedAll place.rootBindings
      [place.index.around [place.range.around inside]]) = _ :=
    creates_in_index place [place.range.around inside]
  rw [range] at index
  rw [root, Place.fill, children_around, creates_in_indexes_append, creates_in_indexes_append]
  change createsInIndexes (outlinedAll place.rootBindings place.root.before) ++
    (createsInIndexes (outlinedAll place.rootBindings _) ++
      createsInIndexes (outlinedAll place.rootBindings place.root.after)) = _
  rw [index, Place.createsBefore, Place.createsAfter]
  simp only [List.append_assoc]

end Places

/-- In a configuration of one tree each `create` element yields its rule or one error, in the order of
the document. A further one that states no rule, put anywhere among the children of a range, leaves
the rules as they are and adds one error, behind the errors of the elements before it. -/
theorem rules_load_independently (collection : String) :
    (∀ document tree, Spells [tree] (tags (events document)) → tree.tag = "collection" →
      ∃ results, List.Forall₂ Yields (creates (outlined .initial tree)) results ∧
        load collection document = ⟨⟨collection, rulesOf results⟩, errorsOf results⟩) ∧
    ∀ (place : Place) (create : Tree) (plain longer : List UInt8),
      create.tag = "create" → (∀ rule, ¬ StatesRule (outlined place.bindings create) rule) →
      Spells [place.fill []] (tags (events plain)) →
      Spells [place.fill [create]] (tags (events longer)) →
      ∃ before after error,
        List.Forall₂ Yields place.createsBefore before ∧
        List.Forall₂ Yields place.createsAfter after ∧
        (load collection longer).ruleSet = (load collection plain).ruleSet ∧
        (load collection plain).errors = errorsOf before ++ errorsOf after ∧
        (load collection longer).errors = errorsOf before ++ error :: errorsOf after := by
  constructor
  · intro document tree spelled named
    exact ⟨_, yields_all _, load_tree spelled named⟩
  · intro place create plain longer named states spelledPlain spelledLonger
    have tag : tagged "create" (outlinedAll place.bindings [create]) =
        [outlined place.bindings create] := by
      cases create
      exact List.filter_cons_of_pos (beq_iff_eq.mpr named)
    cases read : readRule (outlined place.bindings create) with
    | ok rule => exact absurd (rule_iff.mp read) (states rule)
    | error error =>
      have root : ∀ inside, (place.fill inside).tag = "collection" := fun _ => place.rootTag
      refine ⟨place.createsBefore.map readRule, place.createsAfter.map readRule, error,
        yields_all _, yields_all _, ?_⟩
      rw [load_tree spelledPlain (root _), load_tree spelledLonger (root _), creates_at_place,
        creates_at_place, tag]
      simp only [List.map_append, List.map_cons, List.map_nil, read, rules_append, errors_append]
      exact ⟨rfl, rfl, rfl⟩

section Sample

def createTree (attributes : List Attribute) : Tree := .element "create" attributes []

/-- Between two `create` elements, the second of which uses an unbound label. -/
def inBetween : Place where
  root := ⟨"collection", [], [], []⟩
  index := ⟨"index", [], [], []⟩
  range := ⟨"range", [], [createTree [⟨"qname", "a"⟩]], [createTree [⟨"qname", "p:b"⟩]]⟩
  rootTag := rfl
  indexTag := rfl
  rangeTag := rfl

/-- It binds the label that the next element misses, and gives no path. -/
def pathless : Tree := createTree [⟨"xmlns:p", "u"⟩]

def plainDocument : List UInt8 :=
  bytesOf ("<collection><index><range><create qname='a'/>" ++
    "<create qname='p:b'/></range></index></collection>")

def longerDocument : List UInt8 :=
  bytesOf ("<collection><index><range><create qname='a'/><create xmlns:p='u'/>" ++
    "<create qname='p:b'/></range></index></collection>")

theorem pathless_element_adds_error :
    (∀ rule, ¬ StatesRule (outlined inBetween.bindings pathless) rule) ∧
      Spells [inBetween.fill []] (tags (events plainDocument)) ∧
      Spells [inBetween.fill [pathless]] (tags (events longerDocument)) ∧
      (load "/db" longerDocument).ruleSet = (load "/db" plainDocument).ruleSet ∧
      (load "/db" plainDocument).ruleSet.rules.length = 1 ∧
      (load "/db" longerDocument).errors.length = (load "/db" plainDocument).errors.length + 1 := by
  have faulty : ∀ rule, ¬ StatesRule (outlined inBetween.bindings pathless) rule := by
    intro rule states
    have read := rule_iff.mpr states
    have failed : readRule (outlined inBetween.bindings pathless) = .error (.fault .noPathForm) := by
      with_unfolding_all rfl
    rw [failed] at read
    cases read
  have plain : Spells [inBetween.fill []] (tags (events plainDocument)) := by
    have read : tags (events plainDocument) = [.opened "collection" [] false,
        .opened "index" [] false, .opened "range" [] false,
        .opened "create" [⟨"qname", "a"⟩] true, .opened "create" [⟨"qname", "p:b"⟩] true,
        .closed "range", .closed "index", .closed "collection"] := by decide +kernel
    rw [read]
    exact spells_element (spells_element (spells_element (.short (.short .nothing)) rfl) rfl) rfl
  have longer : Spells [inBetween.fill [pathless]] (tags (events longerDocument)) := by
    have read : tags (events longerDocument) = [.opened "collection" [] false,
        .opened "index" [] false, .opened "range" [] false,
        .opened "create" [⟨"qname", "a"⟩] true, .opened "create" [⟨"xmlns:p", "u"⟩] true,
        .opened "create" [⟨"qname", "p:b"⟩] true, .closed "range", .closed "index",
        .closed "collection"] := by decide +kernel
    rw [read]
    exact spells_element (spells_element (spells_element (.short (.short (.short .nothing))) rfl)
      rfl) rfl
  have one : (load "/db" plainDocument).ruleSet.rules.length = 1 := by
    rw [load_tree plain rfl]
    with_unfolding_all rfl
  obtain ⟨before, after, error, _, _, same, plainErrors, longerErrors⟩ :=
    (rules_load_independently "/db").2 inBetween pathless plainDocument longerDocument rfl
      faulty plain longer
  refine ⟨faulty, plain, longer, same, one, ?_⟩
  rw [plainErrors, longerErrors]
  simp only [List.length_append, List.length_cons]
  omega

end Sample

end RangeIndex.RuleIndependence
