import Mathlib.Data.List.Basic
import RangeIndex.Proofs.CollectorSemantics

/-! One walk over the events of a document yields what recursion on the document defines. At every
place the walk stands in the element it is told of: the location and the scopes are those of the
element, and everything that is being gathered belongs to it or to elements around it. An element
is then crossed without trace, except in what the collectors around it have gathered. -/
namespace RangeIndex.IndexingSemantics
open Markup ScopeNesting DocumentForest CollectorSemantics

/-- A walk stands at a place when it is located and scoped like it, and no active node or open field
belongs to an element further in. -/
structure Stands (walk : Walk) (place : Place) : Prop where
  located : walk.location = place.location
  bound : Holds walk.scopes place.bindings place.location.length
  around : ∀ node ∈ walk.active, node.depth ≤ place.location.length
  settled : ∀ node ∈ walk.active, Settled place.location.length node.collector

section Telling
variable (walk : Walk) (first second : Collector → Collector)

theorem tell_tell : (walk.tell first).tell second = walk.tell (second ∘ first) := by
  simp [Walk.tell, ActiveNode.update, Function.comp_def]

theorem tell_nothing : walk.tell id = walk := by
  have same : ActiveNode.update id = id := rfl
  simp [Walk.tell, same]

theorem tell_congr {walk : Walk} {first second : Collector → Collector}
    (same : ∀ node ∈ walk.active, first node.collector = second node.collector) :
    walk.tell first = walk.tell second := by
  have each : walk.active.map (ActiveNode.update first) =
      walk.active.map (ActiveNode.update second) := by
    apply List.map_congr_left
    intro node member
    rw [ActiveNode.update, ActiveNode.update, same node member]
  rw [Walk.tell, Walk.tell, each]

end Telling

/-- A walk stays where it stands when nothing of what it tells opens a field. -/
theorem told_stands {walk : Walk} {place : Place} (stands : Stands walk place)
    {change : Collector → Collector}
    (keeps : ∀ collector, Settled place.location.length collector →
      Settled place.location.length (change collector)) : Stands (walk.tell change) place := by
  constructor
  case located => exact stands.located
  case bound => exact stands.bound
  case around =>
    intro node member
    obtain ⟨source, origin, rfl⟩ := List.mem_map.mp member
    exact stands.around source origin
  case settled =>
    intro node member
    obtain ⟨source, origin, rfl⟩ := List.mem_map.mp member
    exact keeps _ (stands.settled source origin)

section Running
variable {rules : RuleSet} {walk : Walk}

theorem run_append (before later : List Event) :
    walk.run rules (before ++ later) =
      (((walk.run rules before).1.run rules later).1,
        (walk.run rules before).2 ++ ((walk.run rules before).1.run rules later).2) := by
  induction before generalizing walk with
  | nil => rfl
  | cons event rest ih =>
    simp only [List.cons_append, Walk.run]
    rw [ih]
    simp [List.append_assoc]

/-- However an element is written, it is entered, its children are met, and it is left. -/
theorem run_element {entered inside left beyond : Walk}
    {first second third last : List IndexEntry} {name : String} {attributes : List Attribute}
    {short : Bool} {children rest : Forest}
    (enters : walk.enter rules name attributes = (entered, first))
    (meets : entered.run rules children.events = (inside, second))
    (leaves : inside.leave = (left, third))
    (continues : left.run rules rest.events = (beyond, last)) :
    walk.run rules (Forest.element name attributes short children rest).events =
      (beyond, first ++ second ++ third ++ last) := by
  unfold Forest.events
  by_cases single : (short && children.isEmpty) = true
  · have none : children = .empty := by
      cases children <;> simp_all [Forest.isEmpty]
    subst none
    simp only [Forest.events, Walk.run, Prod.mk.injEq] at meets
    obtain ⟨rfl, rfl⟩ := meets
    simp only [single, if_true, List.singleton_append, Walk.run, Walk.step, enters, leaves,
      continues]
    simp
  · simp only [single, Bool.false_eq_true, if_false, List.cons_append, List.append_assoc,
      Walk.run, Walk.step, enters, run_append, meets, leaves, continues]
    simp

end Running

section Entering
variable {rules : RuleSet} {walk : Walk} {place : Place}

/-- All collectors are told of the attributes in order, and each attribute yields its entries. -/
theorem visit_attributes (located : walk.location = place.location)
    (values : List AttributeValue) :
    walk.visitAttributes rules values =
      (walk.tell (afterValues place values), attributeEntries rules place values) := by
  induction values generalizing walk with
  | nil =>
    have none : afterValues place [] = id := rfl
    simp [Walk.visitAttributes, attributeEntries, none, tell_nothing]
  | cons a rest ih =>
    let next := walk.tell (Collector.attributeValue a.value (place.attributeAt a))
    have told := ih (show next.location = place.location from located)
    have each : afterValues place (a :: rest) =
        afterValues place rest ∘ Collector.attributeValue a.value (place.attributeAt a) := rfl
    have below : walk.location.push (.named a.name) = place.attributeAt a := by
      rw [located, Place.attributeAt]
    simp only [Walk.visitAttributes, Walk.visitAttribute, below]
    rw [told, tell_tell, ← each]
    rfl

/-- The nodes that become active with an element, before they are told of it. -/
def fresh (rules : RuleSet) (place : Place) (values : List AttributeValue) : List ActiveNode :=
  ((rules.forNode place.location).filter fun (_, rule) => rule.conditionsHold values).map
    fun (index, rule) =>
      ⟨index, place.location.length, place.location.text, .ofRule rule⟩

/-- The scopes in an element with these attributes. -/
def scopesIn (scopes : Scopes) (attributes : List Attribute) : Scopes :=
  declareAll scopes.push (attributes.filterMap declaredBy?)

/-- The walk inside an element whose collectors were told of its start and its attributes. -/
def inside (rules : RuleSet) (walk : Walk) (here : Place) (attributes : List Attribute) : Walk :=
  let values := here.values attributes
  Walk.tell ⟨here.location, scopesIn walk.scopes attributes, walk.active ++ fresh rules here values⟩
    (afterValues here values ∘ Collector.start here.location)

theorem scopes_in_element (stands : Stands walk place) (room : place.location.length < 65535)
    (name : String) (attributes : List Attribute) :
    Holds (scopesIn walk.scopes attributes) (place.below name attributes).bindings
      (place.location.length + 1) :=
  declare_all_holds (push_holds stands.bound room) _

/-- Entering an element. -/
theorem enter_eq (rules : RuleSet) (stands : Stands walk place) (room : place.location.length < 65535)
    (name : String) (attributes : List Attribute) :
    let here := place.below name attributes
    walk.enter rules name attributes =
      (inside rules walk here attributes,
        attributeEntries rules here (here.values attributes)) := by
  intro here
  have bound := scopes_in_element stands room name attributes
  have named : (scopesIn walk.scopes attributes).elementName name = elementName here.bindings name :=
    element_name_by_bindings bound name
  have located : walk.location.push (.named (elementName here.bindings name)) = here.location := by
    rw [stands.located]
    rfl
  have values : (attributes.filter fun a => (declaredBy? a).isNone).map (fun a =>
      AttributeValue.mk ((scopesIn walk.scopes attributes).attributeName a.name) a.value) =
      here.values attributes := by
    simp only [attribute_name_by_bindings bound]
    rfl
  have started : walk.enter rules name attributes =
      ((Walk.tell ⟨here.location, scopesIn walk.scopes attributes, walk.active⟩
        (Collector.start here.location)).activate rules (here.values attributes)).visitAttributes
        rules (here.values attributes) := by
    rw [← located, ← named, ← values]
    rfl
  have active : (Walk.tell ⟨here.location, scopesIn walk.scopes attributes, walk.active⟩
      (Collector.start here.location)).activate rules (here.values attributes) =
      Walk.tell ⟨here.location, scopesIn walk.scopes attributes,
        walk.active ++ fresh rules here (here.values attributes)⟩
        (Collector.start here.location) := by
    simp only [Walk.activate, Walk.tell, fresh, List.map_append, List.map_map]
    rfl
  rw [started, active, visit_attributes (show _ = here.location from rfl), tell_tell]
  rfl

theorem fresh_at_level {node : ActiveNode} {values : List AttributeValue}
    (member : node ∈ fresh rules place values) :
    node.depth = place.location.length ∧ ∃ rule, node.collector = .ofRule rule := by
  obtain ⟨met, _, rfl⟩ := List.mem_map.mp member
  exact ⟨rfl, met.2, rfl⟩

/-- Inside an element the walk stands in it. -/
theorem inside_stands (rules : RuleSet) (stands : Stands walk place) (room : place.location.length < 65535)
    (name : String) (attributes : List Attribute) :
    Stands (inside rules walk (place.below name attributes) attributes)
      (place.below name attributes) := by
  have inner := place.length_below name attributes
  constructor
  case located => rfl
  case bound =>
    rw [inner]
    exact scopes_in_element stands room name attributes
  case around =>
    intro node member
    obtain ⟨source, origin, rfl⟩ := List.mem_map.mp member
    rcases List.mem_append.mp origin with outer | started
    · have shallow := stands.around source outer
      exact Nat.le_trans shallow (by omega)
    · exact Nat.le_of_eq (fresh_at_level started).1
  case settled =>
    intro node member
    obtain ⟨source, origin, rfl⟩ := List.mem_map.mp member
    have before : Settled place.location.length source.collector := by
      rcases List.mem_append.mp origin with outer | started
      · exact stands.settled source outer
      · obtain ⟨rule, made⟩ := (fresh_at_level started).2
        rw [made]
        exact settled_new _ rule
    rw [inner]
    exact settled_values (settled_start before inner) _ _

end Entering

section Leaving
variable {rules : RuleSet} {walk : Walk} {place : Place}

/-- A node that became active with an element is completed at the element's end. -/
theorem fresh_completes {here : Place} {level : Nat} (inner : here.location.length = level + 1)
    (values : List AttributeValue) (children : Forest) :
    ((fresh rules here values).map
        (ActiveNode.update (afterElement here values children))).flatMap ActiveNode.complete =
      elementEntries rules here values children := by
  rw [fresh, List.map_map, List.flatMap_map, elementEntries]
  apply List.flatMap_congr
  rintro ⟨index, rule⟩ _
  have finished := new_collector_finishes rule inner values children
  simp only [Function.comp_apply, ActiveNode.complete, ActiveNode.update, finished]

theorem leave_splits {remaining ending : List ActiveNode} (occupied : walk.location.isEmpty = false)
    (told : (walk.tell (Collector.close walk.location)).active = remaining ++ ending)
    (outer : ∀ node ∈ remaining, decide (node.depth < walk.location.length) = true)
    (started : ∀ node ∈ ending, decide (node.depth < walk.location.length) = false) :
    walk.leave = (⟨walk.location.pop, walk.scopes.pop, remaining⟩,
      ending.flatMap ActiveNode.complete) := by
  rw [Walk.leave, if_neg (by simp [occupied])]
  dsimp only
  rw [told, takeWhile_at_boundary outer started, dropWhile_at_boundary outer started]

/-- Leaving an element whose children were met: the walk is where it was, the collectors around the
element have crossed it, and the nodes started in it are complete. -/
theorem leave_eq (rules : RuleSet) (stands : Stands walk place) (room : place.location.length < 65535)
    (name : String) (attributes : List Attribute) (children : Forest) :
    let here := place.below name attributes
    let values := here.values attributes
    ((inside rules walk here attributes).tell (after here children)).leave =
      (walk.tell (afterElement here values children),
        elementEntries rules here values children) := by
  intro here values
  have inner : here.location.length = place.location.length + 1 := place.length_below _ _
  let crossed := ActiveNode.update (afterElement here values children)
  have occupied : here.location.isEmpty = false := by
    cases empty : here.location.isEmpty with
    | false => rfl
    | true =>
      rw [Pattern.isEmpty, List.isEmpty_iff_length_eq_zero] at empty
      rw [Pattern.length, empty] at inner
      omega
  have outer : ∀ node ∈ walk.active.map crossed, decide (node.depth < here.location.length) = true := by
    intro node member
    obtain ⟨source, origin, rfl⟩ := List.mem_map.mp member
    have shallow := stands.around source origin
    have deeper : source.depth < here.location.length := by omega
    exact decide_eq_true deeper
  have started : ∀ node ∈ (fresh rules here values).map crossed,
      decide (node.depth < here.location.length) = false := by
    intro node member
    obtain ⟨source, origin, rfl⟩ := List.mem_map.mp member
    have level : source.depth = here.location.length := (fresh_at_level origin).1
    have unchanged : (crossed source).depth = source.depth := rfl
    rw [unchanged, level]
    simp
  have told : (((inside rules walk here attributes).tell (after here children)).tell
      (Collector.close here.location)).active =
      walk.active.map crossed ++ (fresh rules here values).map crossed := by
    rw [inside, tell_tell, tell_tell, ← List.map_append]
    rfl
  have returned : here.location.pop = walk.location := by
    rw [stands.located]
    exact Pattern.pop_push _ _
  have restored : (scopesIn walk.scopes attributes).pop = walk.scopes :=
    leaving_restores_scopes stands.bound room _
  rw [leave_splits occupied told outer started, fresh_completes inner]
  change (Walk.mk here.location.pop (scopesIn walk.scopes attributes).pop _, _) = _
  rw [returned, restored]
  rfl

end Leaving

variable {rules : RuleSet}

/-- The walk over a forest, from any place: the collectors around it gather what recursion says, and
the entries are those recursion defines. An element is one level of the depth counted, which is the
level that its scope needs. -/
theorem run_forest (forest : Forest) {walk : Walk} {place : Place} (stands : Stands walk place)
    (room : place.location.length + forest.depth ≤ 65535) :
    walk.run rules forest.events = (walk.tell (after place forest), entriesIn rules place forest) := by
  induction forest generalizing walk place with
  | empty =>
    have unchanged : after place .empty = id := funext (after_empty place)
    rw [unchanged, tell_nothing]
    rfl
  | text content rest ih =>
    have told : Stands (walk.tell (Collector.characters content place.location)) place := by
      apply told_stands stands
      intro collector settled
      exact settled_characters settled content place.location
    have later := ih told room
    have gathered : after place rest ∘ Collector.characters content place.location =
        after place (.text content rest) := funext (after_text place content rest)
    rw [tell_tell, gathered] at later
    simp only [Forest.events, Walk.run, Walk.step, stands.located, later]
    rfl
  | element name attributes short children rest inner ih =>
    have shallow : place.location.length < 65535 := by
      simp only [Forest.depth] at room
      omega
    have roomInside : (place.below name attributes).location.length + children.depth ≤ 65535 := by
      rw [place.length_below]
      simp only [Forest.depth] at room
      omega
    have roomAfter : place.location.length + rest.depth ≤ 65535 := by
      simp only [Forest.depth] at room
      omega
    have enters := enter_eq rules stands shallow name attributes
    have meets := inner (inside_stands rules stands shallow name attributes) roomInside
    have leaves := leave_eq rules stands shallow name attributes children
    let here := place.below name attributes
    have crossed : Stands (walk.tell (afterElement here (here.values attributes) children)) place := by
      apply told_stands stands
      intro collector settled
      exact settled_after_element settled (place.length_below _ _) _ _
    have continues := ih crossed roomAfter
    have gathered : (walk.tell (afterElement here (here.values attributes) children)).tell
        (after place rest) =
        walk.tell (after place (.element name attributes short children rest)) := by
      rw [tell_tell]
      apply tell_congr
      intro node member
      exact after_element (stands.settled node member) name attributes short children rest
    rw [gathered] at continues
    exact run_element enters meets leaves continues

/-- The walk before the first event of a document. -/
def start : Walk := ⟨.empty, .initial, []⟩

theorem start_stands : Stands start .document := by
  constructor
  case located => rfl
  case bound => exact initial_holds
  case around =>
    intro node member
    cases member
  case settled =>
    intro node member
    cases member

/-- The events of a forest nested at most 65535 deep yield the entries that recursion on the forest
defines, and no element is left to be closed after them. -/
theorem indexing_follows_recursion (rules : RuleSet) (forest : Forest)
    (shallow : forest.depth ≤ 65535) :
    let walked := start.run rules forest.events
    walked.2 ++ (walked.1.leaveAll walked.1.location.length).2 =
      entriesIn rules .document forest := by
  intro walked
  have room : Place.document.location.length + forest.depth ≤ 65535 := by
    have root : Place.document.location.length = 0 := rfl
    omega
  have ran : walked = (start.tell (after .document forest), entriesIn rules .document forest) :=
    run_forest forest start_stands room
  rw [ran]
  exact List.append_nil _

section Sample

/-- A location of elements, from the document down. -/
def elements (names : List String) : Pattern :=
  ⟨names.map fun name => .named (.unqualified .element name), false⟩

/-- A rule for main entries with an attribute and a child as fields, and one for names alone. -/
def entryRules : RuleSet :=
  let kind := (elements ["entry"]).push (.named (.unqualified .attribute "kind"))
  ⟨"/db",
    [{ path := elements ["entry"]
       conditions := [{ subject := .unqualified .attribute "type", value := "main" }]
       fields := [⟨"name", elements ["entry", "name"], {}⟩, ⟨"kind", kind, {}⟩] },
     { path := elements ["entry", "name"] }]⟩

/-- A main entry with a name and an empty note. -/
def entryDocument : Forest :=
  .element "entry" [⟨"type", "main"⟩, ⟨"kind", "x"⟩] false
    (.element "name" [] false (.text "n" .empty) (.element "note" [] true .empty .empty)) .empty

/-- The name is complete before the entry around it, whose attribute is gathered first. -/
theorem entry_document_indexed :
    entryDocument.depth ≤ 65535 ∧
      let walked := start.run entryRules entryDocument.events
      walked.2 ++ (walked.1.leaveAll walked.1.location.length).2 =
        [⟨1, "/entry/name", [⟨none, "n", {}⟩]⟩,
         ⟨0, "/entry", [⟨some "kind", "x", {}⟩, ⟨some "name", "n", {}⟩]⟩] := by
  have shallow : entryDocument.depth ≤ 65535 := by decide
  refine ⟨shallow, (indexing_follows_recursion entryRules entryDocument shallow).trans ?_⟩
  with_unfolding_all rfl

end Sample

end RangeIndex.IndexingSemantics
