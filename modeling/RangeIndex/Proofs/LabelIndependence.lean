import Mathlib.Data.List.Forall2
import RangeIndex.Proofs.ComplexRuleNodes

/-! Labels are a matter of writing. Two documents that differ only in the labels they give to
namespaces, and in where they declare them, are indexed alike: names are resolved by the declarations
around them before anything is done with them, and a name that is resolved is compared by kind,
namespace and local part. All that tells the entries of the one from those of the other is the text of
their locations, which is written with the labels of the document. -/
namespace RangeIndex.LabelIndependence
open Markup ScopeNesting DocumentForest Pattern

section Definitions

/-- A component of a location without the label that its name is written with. -/
def bare : Component → Component
  | .named name => .named ⟨name.toNameIdentity, none⟩
  | component => component

/-- A location without labels. -/
def unlabelled (location : Pattern) : Pattern :=
  { location with components := location.components.map bare }

/-- Attributes whose names resolve to the same one, with the same value. -/
structure SameValue (a b : AttributeValue) : Prop where
  name : a.name.toNameIdentity = b.name.toNameIdentity
  value : a.value = b.value

/-- Forests of one shape, each at a place of its own, with the same texts. The names of their elements
and attributes resolve to the same ones by the declarations around each of them, which may differ. -/
inductive Alike : Place → Place → Forest → Forest → Prop where
  | empty {place place' : Place} : Alike place place' .empty .empty
  | text {place place' : Place} (content : String) {rest rest' : Forest} :
    Alike place place' rest rest' → Alike place place' (.text content rest) (.text content rest')
  | element {place place' : Place} {name name' : String} {attributes attributes' : List Attribute}
      {short short' : Bool} {children children' rest rest' : Forest}
      (named : (elementName (place.below name attributes).bindings name).toNameIdentity =
        (elementName (place'.below name' attributes').bindings name').toNameIdentity)
      (attributed : List.Forall₂ SameValue ((place.below name attributes).values attributes)
        ((place'.below name' attributes').values attributes')) :
    Alike (place.below name attributes) (place'.below name' attributes') children children' →
      Alike place place' rest rest' →
        Alike place place' (.element name attributes short children rest)
          (.element name' attributes' short' children' rest')

/-- Entries of one rule with the same fields, wherever they are. -/
structure Agree (first second : IndexEntry) : Prop where
  rule : first.rule = second.rule
  fields : first.fields = second.fields

end Definitions

section Locations
variable {place place' : Place}

theorem accepts_bare (component actual : Component) :
    component.accepts (bare actual) = component.accepts actual := by
  cases component <;> cases actual <;> rfl

theorem end_row_bare (closed : Bool) (location : List Component) :
    endRow closed (location.map bare) = endRow closed location := by
  induction location with
  | nil => rfl
  | cons actual rest ih => rw [List.map_cons, endRow, endRow, ih]

theorem level_row_bare (component : Component) (location : List Component) (next : List Bool) :
    levelRow component (location.map bare) next = levelRow component location next := by
  induction location generalizing next with
  | nil => rfl
  | cons actual rest ih =>
    cases next with
    | nil => rfl
    | cons found later => rw [List.map_cons, levelRow, levelRow, ih, accepts_bare]

theorem row_bare (closed : Bool) (location components : List Component) :
    row closed (location.map bare) components = row closed location components := by
  induction components with
  | nil => exact end_row_bare closed location
  | cons component later ih =>
    simp only [row, ih]
    split
    · rfl
    · exact level_row_bare component location _

/-- Matching takes no notice of the labels in a location. -/
theorem match_unlabelled (pattern location : Pattern) :
    pattern.isMatch (unlabelled location) = pattern.isMatch location := by
  rw [isMatch_eq_row, isMatch_eq_row, unlabelled, row_bare]

/-- Locations that differ in labels alone satisfy the same patterns. -/
theorem match_same {location location' : Pattern} (same : unlabelled location = unlabelled location')
    (pattern : Pattern) : pattern.isMatch location = pattern.isMatch location' := by
  rw [← match_unlabelled, same, match_unlabelled]

theorem unlabelled_push {location location' : Pattern}
    (same : unlabelled location = unlabelled location') {name name' : QName}
    (named : name.toNameIdentity = name'.toNameIdentity) :
    unlabelled (location.push (.named name)) = unlabelled (location'.push (.named name')) := by
  obtain ⟨upper, ends⟩ := Pattern.mk.inj same
  simp only [unlabelled, push, List.map_append, List.map_singleton, bare, upper, ends, named]

theorem rules_at_same (rules : RuleSet) {location location' : Pattern}
    (same : unlabelled location = unlabelled location') :
    rulesAt rules location = rulesAt rules location' := by
  simp only [rulesAt, match_same same]

end Locations

section Values
variable {place place' : Place} {values values' : List AttributeValue}

theorem flatMap_same {α β : Type} {related : α → α → Prop} {first second : List α}
    (same : List.Forall₂ related first second) {make make' : α → List β}
    (each : ∀ a b, related a b → make a = make' b) : first.flatMap make = second.flatMap make' := by
  induction same with
  | nil => rfl
  | cons head _ ih => rw [List.flatMap_cons, List.flatMap_cons, each _ _ head, ih]

/-- A condition finds the same attribute under either label. -/
theorem holds_same (condition : Condition) (same : List.Forall₂ SameValue values values') :
    condition.holds values = condition.holds values' := by
  unfold Condition.holds
  induction same with
  | nil => rfl
  | @cons a b rest rest' head _ ih =>
    have subject : a.name.same condition.subject = b.name.same condition.subject := by
      rw [QName.same, QName.same, head.name]
    rw [List.find?_cons, List.find?_cons, subject]
    cases b.name.same condition.subject with
    | true => simp only [Option.any_some, head.value]
    | false => exact ih

theorem conditions_same (rule : Rule) (same : List.Forall₂ SameValue values values') :
    rule.conditionsHold values = rule.conditionsHold values' := by
  simp only [Rule.conditionsHold, holds_same _ same]

theorem attribute_location_same (located : unlabelled place.location = unlabelled place'.location)
    {a b : AttributeValue} (same : SameValue a b) :
    unlabelled (place.attributeAt a) = unlabelled (place'.attributeAt b) :=
  unlabelled_push located same.name

theorem attribute_fields_same (fields : List FieldRule)
    (located : unlabelled place.location = unlabelled place'.location)
    (same : List.Forall₂ SameValue values values') :
    attributeFields fields place values = attributeFields fields place' values' := by
  refine flatMap_same same fun a b each => ?_
  simp only [FieldRule.covers, match_same (attribute_location_same located each), each.value]

/-- What an entry holds besides the text of its location. -/
def held (entry : IndexEntry) : Nat × List Field := (entry.rule, entry.fields)

theorem attribute_entries_held (rules : RuleSet)
    (located : unlabelled place.location = unlabelled place'.location)
    (same : List.Forall₂ SameValue values values') :
    (attributeEntries rules place values).map held =
      (attributeEntries rules place' values').map held := by
  rw [attributeEntries, attributeEntries, List.map_flatMap, List.map_flatMap]
  refine flatMap_same same fun a b each => ?_
  rw [rules_at_same rules (attribute_location_same located each), each.value, List.map_map,
    List.map_map]
  rfl

end Values

section Forests
variable {place place' : Place} {forest forest' : Forest}

theorem depth_same (alike : Alike place place' forest forest') : forest.depth = forest'.depth := by
  induction alike with
  | empty => rfl
  | text content _ ih => exact ih
  | element _ _ _ _ inside after => rw [Forest.depth, Forest.depth, inside, after]

theorem content_same (alike : Alike place place' forest forest') :
    forest.content = forest'.content := by
  induction alike with
  | empty => rfl
  | text content _ ih => rw [Forest.content, Forest.content, ih]
  | element _ _ _ _ inside after => rw [Forest.content, Forest.content, inside, after]

theorem own_content_same (alike : Alike place place' forest forest') :
    forest.ownContent = forest'.ownContent := by
  induction alike with
  | empty => rfl
  | text content _ ih => rw [Forest.ownContent, Forest.ownContent, ih]
  | element _ _ _ _ _ after => exact after

/-- Elements that are alike are at locations that differ in labels alone. -/
theorem below_same (located : unlabelled place.location = unlabelled place'.location)
    {name name' : String} {attributes attributes' : List Attribute}
    (named : (elementName (place.below name attributes).bindings name).toNameIdentity =
      (elementName (place'.below name' attributes').bindings name').toNameIdentity) :
    unlabelled (place.below name attributes).location =
      unlabelled (place'.below name' attributes').location :=
  unlabelled_push located named

theorem content_at_same (path : Pattern) (alike : Alike place place' forest forest')
    (located : unlabelled place.location = unlabelled place'.location) :
    forest.contentAt path place = forest'.contentAt path place' := by
  induction alike with
  | empty => rfl
  | text content _ ih => rw [Forest.contentAt, Forest.contentAt, match_same located, ih located]
  | element named _ _ _ inside after =>
    rw [Forest.contentAt, Forest.contentAt, inside (below_same located named), after located]

theorem element_fields_same (fields : List FieldRule) (alike : Alike place place' forest forest')
    (located : unlabelled place.location = unlabelled place'.location) :
    elementFields fields place forest = elementFields fields place' forest' := by
  simp only [elementFields, FieldRule.covers, match_same located, fieldContent, content_same alike,
    own_content_same alike]

theorem fields_same (fields : List FieldRule) (alike : Alike place place' forest forest')
    (located : unlabelled place.location = unlabelled place'.location) :
    fieldsIn fields place forest = fieldsIn fields place' forest' := by
  induction alike with
  | empty => rfl
  | text content _ ih => exact ih located
  | element named attributed children _ inside after =>
    have here := below_same located named
    rw [fieldsIn, fieldsIn]
    rw [attribute_fields_same fields here attributed, inside here,
      element_fields_same fields children here, after located]

/-- The entry of a rule for an element has the same fields. -/
theorem node_fields_same (rule : Rule) {values values' : List AttributeValue}
    (alike : Alike place place' forest forest')
    (located : unlabelled place.location = unlabelled place'.location)
    (attributed : List.Forall₂ SameValue values values') :
    nodeFields rule place values forest = nodeFields rule place' values' forest' := by
  simp only [nodeFields, simpleContent, attribute_fields_same rule.fields located attributed,
    fields_same rule.fields alike located, element_fields_same rule.fields alike located,
    content_same alike, content_at_same rule.path alike located]

theorem element_entries_held (rules : RuleSet) {values values' : List AttributeValue}
    (alike : Alike place place' forest forest')
    (located : unlabelled place.location = unlabelled place'.location)
    (attributed : List.Forall₂ SameValue values values') :
    (elementEntries rules place values forest).map held =
      (elementEntries rules place' values' forest').map held := by
  simp only [elementEntries, rules_at_same rules located, conditions_same _ attributed,
    node_fields_same _ alike located attributed, List.map_flatMap]
  congr 1
  funext numbered
  cases (nodeFields numbered.2 place' values' forest').isEmpty <;> rfl

/-- The entries of forests that are alike hold the same, one by one. -/
theorem entries_held (rules : RuleSet) (alike : Alike place place' forest forest')
    (located : unlabelled place.location = unlabelled place'.location) :
    (entriesIn rules place forest).map held = (entriesIn rules place' forest').map held := by
  induction alike with
  | empty => rfl
  | text content _ ih => exact ih located
  | element named attributed children _ inside after =>
    have here := below_same located named
    rw [entriesIn, entriesIn]
    simp only [List.map_append]
    rw [attribute_entries_held rules here attributed, inside here,
      element_entries_held rules children here attributed, after located]

end Forests

theorem agree_of_held {entries entries' : List IndexEntry}
    (same : entries.map held = entries'.map held) : List.Forall₂ Agree entries entries' := by
  have each : List.Forall₂ (fun first second => held first = held second) entries entries' :=
    List.forall₂_map_right_iff.mp (List.forall₂_map_left_iff.mp (List.forall₂_eq_eq_eq ▸ same))
  exact each.imp fun first second equal =>
    ⟨congrArg Prod.fst equal, congrArg Prod.snd equal⟩

/-- Documents of one shape whose names resolve to the same ones, whatever their labels and wherever
they are declared, yield as many entries, and these agree one by one in their rules and their
fields. -/
theorem labels_change_no_entry (rules : RuleSet) {first second : List UInt8} {one other : Forest}
    (read : Markup.events first = one.events) (readOther : Markup.events second = other.events)
    (shallow : one.depth ≤ 65535) (alike : Alike .document .document one other) :
    List.Forall₂ Agree ((Indexer.new rules).index first).2 ((Indexer.new rules).index second).2 := by
  have shallowOther : other.depth ≤ 65535 := depth_same alike ▸ shallow
  cases configured : rules.rules with
  | nil =>
    have nothing (document : List UInt8) : ((Indexer.new rules).index document).2 = [] := by
      simp [Indexer.index, Indexer.clear, Indexer.new, configured]
    rw [nothing, nothing]
    exact .nil
  | cons rule _ =>
    have declared : rules.rules[0]? = some rule := by rw [configured]; rfl
    rw [ComplexRuleNodes.entries_of_document declared read shallow,
      ComplexRuleNodes.entries_of_document declared readOther shallowOther]
    exact agree_of_held (entries_held rules alike rfl)

section Sample

/-- An element in the namespace `u`, with a label. -/
def inSpace (label localPart : String) : QName := .ofParts .element (some "u") localPart (some label)

/-- Main entries of the namespace `u`, with a child and an attribute of `v` as fields, and names. -/
def spacedRules : RuleSet :=
  let entry : List Component := [.gap, .named (inSpace "r" "entry")]
  let kind : QName := .ofParts .attribute (some "v") "kind" (some "s")
  ⟨"/db",
    [{ path := ⟨entry, false⟩
       conditions := [{ subject := .unqualified .attribute "type", value := "main" }]
       fields := [⟨"name", ⟨entry ++ [.named (inSpace "r" "name")], false⟩, {}⟩,
         ⟨"kind", ⟨entry ++ [.named kind], false⟩, {}⟩] },
     { path := ⟨[.gap, .named (inSpace "r" "name")], false⟩, options := { nested := false } }]⟩

/-- An entry with the default namespace, declared once. -/
def plainEntry : Forest :=
  .element "entry" [⟨"xmlns", "u"⟩, ⟨"xmlns:a", "v"⟩, ⟨"type", "main"⟩, ⟨"a:kind", "k"⟩] false
    (.element "name" [] false (.text "n" .empty) .empty) .empty

/-- The same entry with labels, one of which is declared anew inside it. -/
def labelledEntry : Forest :=
  .element "p:entry" [⟨"type", "main"⟩, ⟨"q:kind", "k"⟩, ⟨"xmlns:q", "v"⟩, ⟨"xmlns:p", "u"⟩] false
    (.element "q:name" [⟨"xmlns:q", "u"⟩] false (.text "n" .empty) .empty) .empty

def plainDocument : List UInt8 :=
  bytesOf "<entry xmlns='u' xmlns:a='v' type='main' a:kind='k'><name>n</name></entry>"

def labelledDocument : List UInt8 :=
  bytesOf ("<p:entry type='main' q:kind='k' xmlns:q='v' xmlns:p='u'>" ++
    "<q:name xmlns:q='u'>n</q:name></p:entry>")

/-- Both documents have the entries of the same two rules, at locations written with other labels. -/
theorem labelled_entry_agrees :
    Markup.events plainDocument = plainEntry.events ∧
      Markup.events labelledDocument = labelledEntry.events ∧ plainEntry.depth ≤ 65535 ∧
      Alike .document .document plainEntry labelledEntry ∧
      ((Indexer.new spacedRules).index plainDocument).2.map IndexEntry.path =
        ["/\x7bu\x7dentry/\x7bu\x7dname", "/\x7bu\x7dentry"] ∧
      ((Indexer.new spacedRules).index labelledDocument).2.map IndexEntry.path =
        ["/p:entry/q:name", "/p:entry"] ∧
      List.Forall₂ Agree ((Indexer.new spacedRules).index plainDocument).2
        ((Indexer.new spacedRules).index labelledDocument).2 := by
  have read : Markup.events plainDocument = plainEntry.events := by with_unfolding_all rfl
  have readOther : Markup.events labelledDocument = labelledEntry.events := by
    with_unfolding_all rfl
  have shallow : plainEntry.depth ≤ 65535 := by decide
  have alike : Alike .document .document plainEntry labelledEntry := by
    refine .element ?_ ?_ (.element ?_ ?_ (.text "n" .empty) .empty) .empty
    · decide +kernel
    · exact .cons ⟨rfl, rfl⟩ (.cons ⟨by decide +kernel, rfl⟩ .nil)
    · decide +kernel
    · exact .nil
  have entries {document : List UInt8} {forest : Forest} (read : Markup.events document = forest.events)
      (shallow : forest.depth ≤ 65535) : ((Indexer.new spacedRules).index document).2 =
        entriesIn spacedRules .document forest :=
    ComplexRuleNodes.entries_of_document (show spacedRules.rules[0]? = some _ from rfl) read shallow
  refine ⟨read, readOther, shallow, alike, ?_, ?_,
    labels_change_no_entry spacedRules read readOther shallow alike⟩
  · rw [entries read shallow]
    with_unfolding_all rfl
  · rw [entries readOther (by decide)]
    with_unfolding_all rfl

end Sample

end RangeIndex.LabelIndependence
