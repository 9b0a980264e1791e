import RangeIndex.Proofs.IndexingSemantics
import RangeIndex.Proofs.NodeTrails
import RangeIndex.Proofs.PatternContainment

/-! What one complex rule stores of a document. Its nodes are those of the elements that meet it, one
for each in the order in which they end, and the node of an element that a field covers holds the
element's text under the name of that field. For an attribute that meets the rule in the same way
nothing is stored: where attributes are visited, complex rules are left out. -/
namespace RangeIndex.ComplexRuleNodes
open Pattern DocumentForest IndexingSemantics NodeTrails PatternContainment

section Definitions

/-- An element of a document: where it is, its attributes that declare nothing, and what is in it. -/
structure Element where
  place : Place
  values : List AttributeValue
  children : Forest

/-- The elements of a forest in the order in which they end. -/
def elementsIn (place : Place) : Forest → List Element
  | .empty => []
  | .text _ rest => elementsIn place rest
  | .element name attributes _ children rest =>
    let here := place.below name attributes
    elementsIn here children ++ ⟨here, here.values attributes, children⟩ :: elementsIn place rest

/-- A node as rules see it, whether it is an element or an attribute: where it is, the attributes that
conditions ask for, and its text. -/
structure Occurrence where
  location : Pattern
  attributes : List AttributeValue
  content : String

namespace Element

/-- Whether an element is one that a rule is about. -/
def meets (rule : Rule) (e : Element) : Bool :=
  rule.path.isMatch e.place.location && rule.conditionsHold e.values

/-- The node of an element that meets a rule; one without fields is left out. -/
def node (index : Nat) (rule : Rule) (e : Element) : List IndexEntry :=
  let fields := nodeFields rule e.place e.values e.children
  if fields.isEmpty then [] else [⟨index, e.place.location.text, fields⟩]

def occurrence (e : Element) : Occurrence := ⟨e.place.location, e.values, e.children.content⟩

/-- The attributes of an element, each with all of them around it. -/
def attributeOccurrences (e : Element) : List Occurrence :=
  e.values.map fun a => ⟨e.place.attributeAt a, e.values, a.value⟩

end Element

/-- The elements and attributes of a forest. -/
def occurrencesIn (place : Place) (forest : Forest) : List Occurrence :=
  (elementsIn place forest).flatMap fun e => e.occurrence :: e.attributeOccurrences

/-- A rule is met where something occurs, and one of its fields takes all the text there. -/
structure Eligible (rule : Rule) (field : FieldRule) (occurrence : Occurrence) : Prop where
  declared : field ∈ rule.fields
  nested : field.options.nested = true
  matched : rule.path.isMatch occurrence.location = true
  conditions : rule.conditionsHold occurrence.attributes = true
  covers : field.covers occurrence.location = true
  content : occurrence.content ≠ ""

/-- An entry is that of a rule for what occurs, and holds its text under the name of a field. -/
structure Carries (index : Nat) (field : FieldRule) (occurrence : Occurrence) (entry : IndexEntry) :
    Prop where
  rule : entry.rule = index
  path : entry.path = occurrence.location.text
  field : ⟨some field.name, occurrence.content, field.options⟩ ∈ entry.fields

end Definitions

section Locations
variable {pattern location : Pattern} {place : Place}

/-- All levels of a location are elements. -/
def Elemental (location : Pattern) : Prop :=
  ∀ component ∈ location.components, component.isAttribute = false

theorem elemental_below (elemental : Elemental place.location) (name : String)
    (attributes : List Markup.Attribute) : Elemental (place.below name attributes).location := by
  intro component member
  rcases List.mem_append.mp member with above | own
  · exact elemental component above
  · rw [List.mem_singleton.mp own]
    rfl

theorem elements_elemental (forest : Forest) (elemental : Elemental place.location) :
    ∀ e ∈ elementsIn place forest, Elemental e.place.location := by
  induction forest generalizing place with
  | empty => simp [elementsIn]
  | text content rest ih => exact ih elemental
  | element name attributes short children rest inner ih =>
    have below := elemental_below elemental name attributes
    intro e member
    rcases List.mem_append.mp member with inside | member
    · exact inner below e inside
    · rcases List.mem_cons.mp member with rfl | later
      · exact below
      · exact ih elemental e later

/-- A pattern that ends in an attribute does not match an element. -/
theorem matched_element (elemental : Elemental location) (found : pattern.isMatch location = true) :
    pattern.targetsAttribute = false := by
  obtain ⟨components, closed⟩ := pattern
  obtain ⟨levels, atEnd⟩ := location
  rcases List.eq_nil_or_concat components with rfl | ⟨before, last, rfl⟩
  · rfl
  · rw [List.concat_eq_append] at found ⊢
    cases last with
    | wildcard => simp [targetsAttribute, last?, Component.isAttribute]
    | gap => simp [targetsAttribute, last?, Component.isAttribute]
    | named expected =>
      obtain ⟨upper, lower, rfl, _, ending⟩ := (match_append before [.named expected] levels).mp found
      obtain ⟨actual, rest, rfl, accepted, _⟩ := (level_takes_head rfl [] lower).mp ending
      have element := elemental actual (by simp)
      cases actual with
      | named name =>
        have same : name.isAttribute = expected.isAttribute := by
          rw [QName.isAttribute, QName.isAttribute, (QName.same_iff name expected).mp accepted]
        have kind : expected.isAttribute = false := same.symm.trans element
        simpa [targetsAttribute, last?, Component.isAttribute] using kind
      | wildcard => cases accepted
      | gap => cases accepted

end Locations

section Numbering
variable {rules : RuleSet} {index : Nat} {rule : Rule}

theorem filter_zipIdx {α : Type} {items : List α} {item : α} {place : Nat}
    (found : items[place]? = some item) (first : Nat) :
    (items.zipIdx first).filter (fun numbered => numbered.2 == first + place) =
      [(item, first + place)] := by
  induction items generalizing place first with
  | nil => cases found
  | cons head rest ih =>
    rw [List.zipIdx_cons]
    cases place with
    | zero =>
      obtain rfl := Option.some.inj found
      have later : ∀ numbered ∈ rest.zipIdx (first + 1), ¬ (numbered.2 == first) = true := by
        intro numbered member
        have bound := List.le_snd_of_mem_zipIdx member
        simp only [beq_iff_eq]
        omega
      rw [Nat.add_zero, List.filter_cons_of_pos (by simp), List.filter_eq_nil_iff.mpr later]
    | succ place =>
      have next := ih found (first + 1)
      have moved : first + 1 + place = first + (place + 1) := by omega
      rw [moved] at next
      rw [List.filter_cons_of_neg (by simp), next]

/-- A place has one rule. -/
theorem filter_numbered (declared : rules.rules[index]? = some rule) :
    rules.numbered.filter (fun met => met.1 == index) = [(index, rule)] := by
  have one := filter_zipIdx declared 0
  rw [Nat.zero_add] at one
  rw [RuleSet.numbered, List.filter_map]
  exact congrArg (List.map _) one

end Numbering

section Nodes
variable {rules : RuleSet} {index : Nat} {rule : Rule} {place : Place}

/-- The entries for attributes are those of simple rules. -/
theorem no_attribute_entries (declared : rules.rules[index]? = some rule)
    (complex : rule.isComplex = true) (place : Place) (values : List AttributeValue) :
    (attributeEntries rules place values).filter (fun entry => entry.rule == index) = [] := by
  rw [List.filter_eq_nil_iff]
  intro entry member
  obtain ⟨a, _, stored⟩ := List.mem_flatMap.mp member
  obtain ⟨⟨other, simple⟩, listed, rfl⟩ := List.mem_map.mp stored
  obtain ⟨matched, unfielded⟩ := List.mem_filter.mp listed
  intro own
  obtain rfl : other = index := by simpa using own
  obtain rfl := Option.some.inj ((mem_for_node matched).1.symm.trans declared)
  simp [complex] at unfielded

theorem node_of_rule (e : Element) (other : Nat) (rule : Rule) :
    (e.node other rule).filter (fun entry => entry.rule == index) =
      if other == index then e.node other rule else [] := by
  by_cases nothing : nodeFields rule e.place e.values e.children = []
  · simp [Element.node, nothing]
  · by_cases own : other = index <;> simp [Element.node, nothing, own]

/-- Of the rules met at a location, a place has its own one or none. It is looked for before the
patterns and the conditions are, so that these are left with one rule. -/
theorem met_at_place (declared : rules.rules[index]? = some rule) (location : Pattern)
    (values : List AttributeValue) :
    ((rulesAt rules location).filter fun (_, rule) => rule.conditionsHold values).filter
        (fun met => met.1 == index) =
      if rule.path.isMatch location && rule.conditionsHold values then [(index, rule)] else [] := by
  rw [rulesAt, List.filter_comm, List.filter_comm fun met : Nat × Rule => met.1 == index,
    filter_numbered declared]
  cases matched : rule.path.isMatch location <;>
    cases holds : rule.conditionsHold values <;> simp [matched, holds]

theorem flatMap_chosen {α β : Type} (items : List α) (chosen : α → Bool) (make : α → List β) :
    (items.flatMap fun item => if chosen item then make item else []) =
      (items.filter chosen).flatMap make := by
  induction items with
  | nil => rfl
  | cons item rest ih =>
    rw [List.flatMap_cons, ih]
    cases passes : chosen item <;> simp [passes]

/-- Of the entries for an element a rule has its own node, if the element meets it. -/
theorem element_entries_of_rule (declared : rules.rules[index]? = some rule) (e : Element) :
    (elementEntries rules e.place e.values e.children).filter (fun entry => entry.rule == index) =
      if e.meets rule then e.node index rule else [] := by
  let met := (rulesAt rules e.place.location).filter fun (_, rule) => rule.conditionsHold e.values
  have entries : elementEntries rules e.place e.values e.children =
      met.flatMap fun numbered => e.node numbered.1 numbered.2 := rfl
  rw [entries, List.filter_flatMap]
  simp only [node_of_rule]
  rw [flatMap_chosen met (fun numbered => numbered.1 == index), met_at_place declared]
  unfold Element.meets
  split
  · exact List.flatMap_singleton _ _
  · rfl

/-- Among the entries of a forest, those of a complex rule are the nodes of the elements that meet
it. -/
theorem entries_of_rule (declared : rules.rules[index]? = some rule) (complex : rule.isComplex = true)
    (place : Place) (forest : Forest) :
    (entriesIn rules place forest).filter (fun entry => entry.rule == index) =
      ((elementsIn place forest).filter (Element.meets rule)).flatMap (Element.node index rule) := by
  induction forest generalizing place with
  | empty => rfl
  | text content rest ih => exact ih place
  | element name attributes short children rest inner ih =>
    have own := element_entries_of_rule declared
      ⟨place.below name attributes, (place.below name attributes).values attributes, children⟩
    simp only [entriesIn, elementsIn, List.filter_append, no_attribute_entries declared complex, inner,
      ih, own, List.filter_cons, List.flatMap_append, List.nil_append, List.append_assoc]
    split <;> simp

/-- An element that meets a rule has its text in its node, under the name of each field that covers
it. -/
theorem eligible_element_node (e : Element) (elemental : Elemental e.place.location)
    {field : FieldRule} (eligible : Eligible rule field e.occurrence) (index : Nat) :
    ∃ entry, e.node index rule = [entry] ∧ Carries index field e.occurrence entry := by
  have complex : rule.isComplex = true := by
    simpa [Rule.isComplex] using List.ne_nil_of_mem eligible.declared
  have element : field.targetsAttribute = false := matched_element elemental eligible.covers
  have own : ⟨some field.name, e.children.content, field.options⟩ ∈
      elementFields rule.fields e.place e.children := by
    refine List.mem_flatMap.mpr ⟨field, ?_, ?_⟩
    · have covers : field.covers e.place.location = true := eligible.covers
      simp [eligible.declared, element, covers]
    · have content : e.children.content ≠ "" := eligible.content
      simp [fieldContent, eligible.nested, namedField, content]
  have held : ⟨some field.name, e.children.content, field.options⟩ ∈
      nodeFields rule e.place e.values e.children := by
    rw [nodeFields, if_pos complex]
    exact List.mem_append_right _ own
  refine ⟨⟨index, e.place.location.text, nodeFields rule e.place e.values e.children⟩, ?_, ?_⟩
  · have some : nodeFields rule e.place e.values e.children ≠ [] := List.ne_nil_of_mem held
    simp [Element.node, some]
  · exact ⟨rfl, rfl, held⟩

end Nodes

section Documents
variable {rules : RuleSet} {index : Nat} {rule : Rule} {document : List UInt8} {forest : Forest}

/-- The entries of a well-formed document are those of its forest. -/
theorem entries_of_document (declared : rules.rules[index]? = some rule)
    (wellFormed : Markup.events document = forest.events) (shallow : forest.depth ≤ 65535) :
    ((Indexer.new rules).index document).2 = entriesIn rules .document forest := by
  have some : rules.rules.isEmpty = false := by
    cases none : rules.rules with
    | nil => simp [none] at declared
    | cons first rest => rfl
  have room : Place.document.location.length + forest.depth ≤ 65535 := by
    have root : Place.document.location.length = 0 := rfl
    omega
  let walked := start.run rules (Markup.events document)
  have ran : walked = (start.tell (CollectorSemantics.after .document forest),
      entriesIn rules .document forest) := by
    rw [← run_forest forest start_stands room, ← wellFormed]
  have entries : ((Indexer.new rules).index document).2 =
      walked.2 ++ (walked.1.leaveAll walked.1.location.length).2 := by
    have indexed := (Indexer.new rules).index_eq document
    dsimp only at indexed
    rw [if_neg (by simpa [Indexer.new] using some)] at indexed
    exact indexed.2.2
  rw [entries, ran]
  exact List.append_nil _

end Documents

/-- In a well-formed document the nodes of a complex rule are those of the elements that meet it, one
for each in the order in which they end; and an element that meets it has a node with its text for
every field that covers it and takes all text. -/
theorem complex_rule_nodes {rules : RuleSet} {index : Nat} {rule : Rule} {document : List UInt8}
    {forest : Forest} (declared : rules.rules[index]? = some rule) (complex : rule.isComplex = true)
    (wellFormed : Markup.events document = forest.events) (shallow : forest.depth ≤ 65535) :
    let stored := ((Indexer.new rules).index document).2
    stored.filter (fun entry => entry.rule == index) =
        ((elementsIn .document forest).filter (Element.meets rule)).flatMap
          (Element.node index rule) ∧
      ∀ e ∈ elementsIn .document forest, ∀ field, Eligible rule field e.occurrence →
        ∃ entry ∈ stored, e.node index rule = [entry] ∧ Carries index field e.occurrence entry := by
  intro stored
  have nodes : stored.filter (fun entry => entry.rule == index) =
      ((elementsIn .document forest).filter (Element.meets rule)).flatMap
        (Element.node index rule) := by
    rw [show stored = _ from entries_of_document declared wellFormed shallow]
    exact entries_of_rule declared complex .document forest
  refine ⟨nodes, ?_⟩
  intro e member field eligible
  have outside : Elemental Place.document.location := by simp [Elemental, Place.document, Pattern.empty]
  have elemental := elements_elemental forest outside e member
  obtain ⟨entry, node, carries⟩ := eligible_element_node e elemental eligible index
  have meets : e.meets rule = true := Bool.and_eq_true_iff.mpr ⟨eligible.matched, eligible.conditions⟩
  have own : entry ∈ stored.filter (fun entry => entry.rule == index) := by
    rw [nodes]
    exact List.mem_flatMap.mpr ⟨e, List.mem_filter.mpr ⟨member, meets⟩, by simp [node]⟩
  exact ⟨entry, (List.mem_filter.mp own).1, node, carries⟩

section Sample

def entryPath : Pattern := ⟨[.gap, .named (.unqualified .element "entry")], false⟩

/-- The text of main entries. -/
def mainText : FieldRule := ⟨"text", entryPath, {}⟩

def mainEntry : Rule where
  path := entryPath
  conditions := [{ subject := .unqualified .attribute "type", value := "main" }]
  fields := [mainText]

def mainDocument : List UInt8 := Markup.bytesOf "<entry type='main'>a<b>c</b></entry>"

def mainChildren : Forest := .text "a" (.element "b" [] false (.text "c" .empty) .empty)

def mainForest : Forest := .element "entry" [⟨"type", "main"⟩] false mainChildren .empty

def mainElement : Element where
  place := Place.document.below "entry" [⟨"type", "main"⟩]
  values := [⟨.unqualified .attribute "type", "main"⟩]
  children := mainChildren

/-- A main entry has one node, with all its text. -/
theorem main_entry_node :
    Markup.events mainDocument = mainForest.events ∧ mainForest.depth ≤ 65535 ∧
      Eligible mainEntry mainText mainElement.occurrence ∧
      let stored := ((Indexer.new ⟨"/db", [mainEntry]⟩).index mainDocument).2
      stored.filter (fun entry => entry.rule == 0) =
          [⟨0, "/entry", [⟨some "text", "ac", {}⟩]⟩] ∧
        ∃ entry ∈ stored, Carries 0 mainText mainElement.occurrence entry := by
  have wellFormed : Markup.events mainDocument = mainForest.events := by with_unfolding_all rfl
  have shallow : mainForest.depth ≤ 65535 := by decide
  have declared : (RuleSet.mk "/db" [mainEntry]).rules[0]? = some mainEntry := rfl
  have eligible : Eligible mainEntry mainText mainElement.occurrence := by
    constructor
    case declared => exact List.mem_singleton_self _
    case nested => rfl
    case matched => with_unfolding_all rfl
    case conditions => with_unfolding_all rfl
    case covers => with_unfolding_all rfl
    case content => decide
  have met : mainElement ∈ elementsIn .document mainForest := .tail _ (.head _)
  obtain ⟨nodes, carried⟩ := complex_rule_nodes declared rfl wellFormed shallow
  obtain ⟨entry, stored, _, carries⟩ := carried mainElement met mainText eligible
  refine ⟨wellFormed, shallow, eligible, ?_, entry, stored, carries⟩
  rw [nodes]
  with_unfolding_all rfl

def identifierPath : Pattern := entryPath.push (.named (.unqualified .attribute "id"))

def identifier : FieldRule := ⟨"id", identifierPath, {}⟩

/-- A complex rule about an attribute, with the attribute's value as a field. -/
def identifiers : Rule := { path := identifierPath, fields := [identifier] }

def identifiedDocument : List UInt8 := Markup.bytesOf "<entry id='x'/>"

def identifiedForest : Forest := .element "entry" [⟨"id", "x"⟩] true .empty .empty

/-- The attribute meets the rule as an element would, and the field covers it, but there is no node for
it. -/
theorem identifier_without_node :
    Markup.events identifiedDocument = identifiedForest.events ∧ identifiedForest.depth ≤ 65535 ∧
      identifiers.isComplex = true ∧
      ¬ ∀ occurrence ∈ occurrencesIn .document identifiedForest, ∀ field,
        Eligible identifiers field occurrence →
          ∃ entry ∈ ((Indexer.new ⟨"/db", [identifiers]⟩).index identifiedDocument).2,
            Carries 0 field occurrence entry := by
  refine ⟨by with_unfolding_all rfl, by decide, rfl, ?_⟩
  intro all
  let id : AttributeValue := ⟨.unqualified .attribute "id", "x"⟩
  let place : Place := Place.document.below "entry" [⟨"id", "x"⟩]
  let occurrence : Occurrence := ⟨place.attributeAt id, [id], "x"⟩
  have occurs : occurrence ∈ occurrencesIn .document identifiedForest :=
    .tail _ (.head _)
  have eligible : Eligible identifiers identifier occurrence := by
    constructor
    case declared => exact List.mem_singleton_self _
    case nested => rfl
    case matched => with_unfolding_all rfl
    case conditions => rfl
    case covers => with_unfolding_all rfl
    case content => decide
  obtain ⟨entry, stored, _⟩ := all occurrence occurs identifier eligible
  have nothing : ((Indexer.new ⟨"/db", [identifiers]⟩).index identifiedDocument).2 = [] := by
    with_unfolding_all rfl
  rw [nothing] at stored
  cases stored

end Sample

end RangeIndex.ComplexRuleNodes
