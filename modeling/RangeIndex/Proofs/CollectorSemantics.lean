import RangeIndex.Proofs.DocumentForest

/-! What a collector has gathered once it was told of a forest. Its open fields take the text they
are entitled to and stay open; the fields found in the forest are added behind those it had. One
element on the way opens fields, and its end closes just these, because every field that was open
before belongs to an element further out. -/
namespace RangeIndex.CollectorSemantics
open Markup ScopeNesting DocumentForest

section Definitions

/-- A field that stays open, after the texts of a forest in an element at a level. -/
def openAfter (level : Nat) (forest : Forest) (field : OpenField) : OpenField :=
  { field with
    gathered := field.gathered ++
      if field.field.options.nested then forest.content
      else if field.depth == level then forest.ownContent
      else "" }

def fieldsAfter (place : Place) (forest : Forest) (collector : FieldCollector) : FieldCollector :=
  { collector with
    opened := collector.opened.map (openAfter place.location.length forest)
    gathered := collector.gathered ++ fieldsIn collector.fields place forest }

def simpleAfter (place : Place) (forest : Forest) (collector : SimpleCollector) :
    SimpleCollector :=
  { collector with
    gathered := collector.gathered ++
      simpleContent collector.path collector.options place forest }

/-- A collector after it was told of a forest at a place. -/
def after (place : Place) (forest : Forest) : Collector → Collector
  | .simple c => .simple (simpleAfter place forest c)
  | .complex c => .complex (fieldsAfter place forest c)

/-- A collector after it was told of attributes in order. -/
def afterValues (place : Place) (values : List AttributeValue) (collector : Collector) : Collector :=
  values.foldl (fun c a => c.attributeValue a.value (place.attributeAt a)) collector

/-- A collector after it was told of one element from its start to its end. -/
def afterElement (place : Place) (values : List AttributeValue) (children : Forest)
    (collector : Collector) : Collector :=
  (after place children (afterValues place values (collector.start place.location))).close
    place.location

/-- Whether no open field belongs to an element deeper than a level. -/
def Settled (level : Nat) : Collector → Prop
  | .simple _ => True
  | .complex c => ∀ field ∈ c.opened, field.depth ≤ level

end Definitions

section Empty

theorem open_after_empty (level : Nat) (field : OpenField) :
    openAfter level .empty field = field := by
  simp [openAfter, Forest.content, Forest.ownContent]

theorem after_empty (place : Place) (collector : Collector) :
    after place .empty collector = collector := by
  cases collector with
  | simple c => simp [after, simpleAfter, simpleContent, Forest.content, Forest.contentAt]
  | complex c =>
    have unchanged : c.opened.map (openAfter place.location.length .empty) = c.opened := by
      rw [funext (open_after_empty _), List.map_id']
    simp [after, fieldsAfter, fieldsIn, unchanged]

end Empty

section Text

theorem simple_after_text (place : Place) (text : String) (rest : Forest)
    (collector : SimpleCollector) :
    simpleAfter place rest (collector.characters text place.location) =
      simpleAfter place (.text text rest) collector := by
  unfold SimpleCollector.characters simpleAfter simpleContent
  by_cases nested : collector.options.nested = true
  · simp [nested, Forest.content, String.append_assoc]
  · by_cases found : collector.path.isMatch place.location = true
    · simp [nested, found, Forest.contentAt, String.append_assoc]
    · simp [nested, found, Forest.contentAt]

theorem open_after_text (level : Nat) (text : String) (rest : Forest) (field : OpenField) :
    openAfter level rest
        (if field.field.options.nested || field.depth == level then
          { field with gathered := field.gathered ++ text }
        else field) =
      openAfter level (.text text rest) field := by
  by_cases nested : field.field.options.nested = true
  · simp [openAfter, nested, Forest.content, String.append_assoc]
  · by_cases own : field.depth = level
    · simp [openAfter, nested, own, Forest.ownContent, String.append_assoc]
    · simp [openAfter, nested, own]

/-- A text is gathered before the rest of the forest. -/
theorem after_text (place : Place) (text : String) (rest : Forest) (collector : Collector) :
    after place rest (collector.characters text place.location) =
      after place (.text text rest) collector := by
  cases collector with
  | simple c => exact congrArg Collector.simple (simple_after_text place text rest c)
  | complex c =>
    simp only [Collector.characters, after, FieldCollector.characters, fieldsAfter, List.map_map]
    have each : openAfter place.location.length rest ∘ _ = _ :=
      funext (open_after_text place.location.length text rest)
    rw [each]
    rfl

end Text

section Element

theorem values_to_simple (place : Place) (values : List AttributeValue)
    (collector : SimpleCollector) :
    afterValues place values (.simple collector) = .simple collector := by
  induction values with
  | nil => rfl
  | cons a rest ih => exact ih

theorem values_to_complex (place : Place) (values : List AttributeValue)
    (collector : FieldCollector) :
    afterValues place values (.complex collector) = .complex { collector with
      gathered := collector.gathered ++ attributeFields collector.fields place values } := by
  induction values generalizing collector with
  | nil => simp [afterValues, attributeFields]
  | cons a rest ih =>
    have next := ih (collector.attributeValue a.value (place.attributeAt a))
    simp only [FieldCollector.attributeValue] at next
    simp only [afterValues, List.foldl_cons, Collector.attributeValue,
      FieldCollector.attributeValue] at next ⊢
    rw [next]
    simp [attributeFields, field_of_text, List.append_assoc]

/-- The fields that a start opens, as they are when the end closes them. -/
theorem opened_until_end (fields : List FieldRule) (level : Nat) (children : Forest) :
    ((fields.map fun field => OpenField.mk field level "").reverse.map
        (openAfter level children)) =
      fields.reverse.map fun field => OpenField.mk field level (fieldContent field children) := by
  rw [← List.map_reverse, List.map_map]
  apply List.map_congr_left
  intro field _
  simp [openAfter, fieldContent]

/-- Between its start and its end an element adds its fields, and those open around it take its
nested text. -/
theorem element_to_complex {place : Place} {collector : FieldCollector} {level : Nat}
    (inner : place.location.length = level + 1) (settled : Settled level (.complex collector))
    (values : List AttributeValue) (children : Forest) :
    afterElement place values children (.complex collector) = .complex
      { collector with
        opened := collector.opened.map (openAfter (level + 1) children)
        gathered := collector.gathered ++ attributeFields collector.fields place values ++
          fieldsIn collector.fields place children ++
          elementFields collector.fields place children } := by
  let starting := collector.fields.filter fun field =>
    !field.targetsAttribute && field.covers place.location
  let ending := starting.reverse.map fun field =>
    OpenField.mk field (level + 1) (fieldContent field children)
  have closes : ∀ field ∈ ending, FieldCollector.endsAt (level + 1) field = true := by
    intro field member
    obtain ⟨_, _, rfl⟩ := List.mem_map.mp member
    simp [FieldCollector.endsAt]
  have stays : ∀ field ∈ collector.opened.map (openAfter (level + 1) children),
      FieldCollector.endsAt (level + 1) field = false := by
    intro field member
    obtain ⟨outer, open', rfl⟩ := List.mem_map.mp member
    have shallow : outer.depth ≤ level := settled outer open'
    have deeper : ¬ level + 1 ≤ outer.depth := by omega
    exact decide_eq_false deeper
  simp only [afterElement, Collector.start, FieldCollector.start, values_to_complex, after,
    fieldsAfter, Collector.close, FieldCollector.close, inner, List.map_append, opened_until_end]
  rw [takeWhile_at_boundary closes stays, dropWhile_at_boundary closes stays]
  simp only [ending, starting, elementFields, field_of_text, List.flatMap_map]

/-- A field open around an element takes its text before that of the rest of the forest. -/
theorem open_after_element {level : Nat} {field : OpenField} (outer : field.depth ≤ level)
    (name : String) (attributes : List Attribute) (short : Bool) (children rest : Forest) :
    openAfter level rest (openAfter (level + 1) children field) =
      openAfter level (.element name attributes short children rest) field := by
  have apart : (field.depth == level + 1) = false := by
    rw [beq_eq_false_iff_ne]
    omega
  by_cases nested : field.field.options.nested = true
  · simp [openAfter, nested, Forest.content, String.append_assoc]
  · simp [openAfter, nested, apart, Forest.ownContent]

theorem simple_after_element (place : Place) (name : String) (attributes : List Attribute)
    (short : Bool) (children rest : Forest) (collector : SimpleCollector) :
    simpleAfter place rest (simpleAfter (place.below name attributes) children collector) =
      simpleAfter place (.element name attributes short children rest) collector := by
  unfold simpleAfter simpleContent
  by_cases nested : collector.options.nested = true
  · simp [nested, Forest.content, String.append_assoc]
  · simp [nested, Forest.contentAt, String.append_assoc]

/-- An element is gathered from its start to its end before the rest of the forest. -/
theorem after_element {place : Place} {collector : Collector}
    (settled : Settled place.location.length collector) (name : String)
    (attributes : List Attribute) (short : Bool) (children rest : Forest) :
    let here := place.below name attributes
    after place rest (afterElement here (here.values attributes) children collector) =
      after place (.element name attributes short children rest) collector := by
  intro here
  cases collector with
  | simple c =>
    simp only [afterElement, Collector.start, values_to_simple, after, Collector.close]
    exact congrArg Collector.simple (simple_after_element place name attributes short children rest c)
  | complex c =>
    have inner : here.location.length = place.location.length + 1 := place.length_below _ _
    rw [element_to_complex inner settled]
    have opened : c.opened.map (openAfter place.location.length rest ∘
        openAfter (place.location.length + 1) children) =
        c.opened.map (openAfter place.location.length
          (.element name attributes short children rest)) := by
      apply List.map_congr_left
      intro field member
      exact open_after_element (settled field member) name attributes short children rest
    simp only [after, fieldsAfter, fieldsIn, List.map_map, opened, List.append_assoc]
    rfl

end Element

section Levels

theorem settled_characters {level : Nat} {collector : Collector}
    (settled : Settled level collector) (text : String) (location : Pattern) :
    Settled level (collector.characters text location) := by
  cases collector with
  | simple c => trivial
  | complex c =>
    intro field member
    obtain ⟨outer, open', rfl⟩ := List.mem_map.mp member
    have shallow := settled outer open'
    split
    · exact shallow
    · exact shallow

theorem settled_start {level : Nat} {collector : Collector} (settled : Settled level collector)
    {location : Pattern} (inner : location.length = level + 1) :
    Settled (level + 1) (collector.start location) := by
  cases collector with
  | simple c => trivial
  | complex c =>
    intro field member
    rcases List.mem_append.mp member with started | outer
    · obtain ⟨_, _, rfl⟩ := List.mem_map.mp (List.mem_reverse.mp started)
      exact Nat.le_of_eq inner
    · exact Nat.le_succ_of_le (settled field outer)

theorem settled_values {level : Nat} {collector : Collector} (settled : Settled level collector)
    (place : Place) (values : List AttributeValue) :
    Settled level (afterValues place values collector) := by
  cases collector with
  | simple c =>
    rw [values_to_simple]
    trivial
  | complex c =>
    rw [values_to_complex]
    exact settled

/-- Crossing an element leaves no field of it open. -/
theorem settled_after_element {level : Nat} {collector : Collector}
    (settled : Settled level collector) {place : Place}
    (inner : place.location.length = level + 1) (values : List AttributeValue)
    (children : Forest) : Settled level (afterElement place values children collector) := by
  cases collector with
  | simple c =>
    simp only [afterElement, Collector.start, values_to_simple, after, Collector.close]
    trivial
  | complex c =>
    rw [element_to_complex inner settled]
    intro field member
    obtain ⟨outer, open', rfl⟩ := List.mem_map.mp member
    exact settled outer open'

theorem settled_new (level : Nat) (rule : Rule) : Settled level (.ofRule rule) := by
  unfold Collector.ofRule
  split
  · intro field member
    cases member
  · trivial

end Levels

/-- A collector made for an element has gathered, at its end, the fields of the rule's entry. -/
theorem new_collector_finishes (rule : Rule) {place : Place} {level : Nat}
    (inner : place.location.length = level + 1) (values : List AttributeValue)
    (children : Forest) :
    (afterElement place values children (.ofRule rule)).finish.1 =
      nodeFields rule place values children := by
  have settled := settled_new level rule
  unfold nodeFields
  by_cases complex : rule.isComplex = true
  · rw [Collector.ofRule, if_pos complex] at settled ⊢
    rw [element_to_complex inner settled, if_pos complex]
    simp [FieldCollector.new, Collector.finish, FieldCollector.finish]
  · rw [Collector.ofRule, if_neg complex, if_neg complex]
    simp [afterElement, Collector.start, values_to_simple, after, Collector.close, simpleAfter,
      SimpleCollector.holding, Collector.finish, SimpleCollector.finish]

end RangeIndex.CollectorSemantics
