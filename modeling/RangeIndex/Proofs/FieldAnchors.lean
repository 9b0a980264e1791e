import RangeIndex.Proofs.NodeTrails
import RangeIndex.Proofs.PatternContainment

/-! Where the fields of an entry stand relative to its node. The pattern of a field starts at the
document: it is the rule's pattern with something below. What a field takes is inside its node, and
its location is some place that the rule's pattern matches with something below it that the field
adds. That place need not be the node. It is wherever the rule's pattern matches no other place on
the way, so always when the pattern has no gap; but where nodes of one rule are nested in each other
an outer one takes the fields of an inner one for its own. -/
namespace RangeIndex.FieldAnchors
open Pattern PatternContainment DocumentTrail FieldSources NodeTrails

section Anchors

/-- The pattern alone, without all that is below what it describes. -/
def exactly (pattern : Pattern) : Pattern := ⟨pattern.components, false⟩

/-- Each field of a rule is the rule's pattern with something below it. -/
def FieldsBelow (rule : Rule) : Prop :=
  ∀ field ∈ rule.fields, ∃ below, field.path = rule.path.joined below

/-- From a place on, a location is what a field adds to its rule's pattern, with the end of that
pattern. -/
def AnchoredAt (rule : Rule) (field : FieldRule) (place source : Pattern) : Prop :=
  ∃ below relative, field.path = rule.path.joined below ∧ source = place.joined relative ∧
    isMatch ⟨below.components, rule.path.closed⟩ relative = true

/-- A location in a node that a field takes something from is anchored at a place of the rule, and
at the node itself where there is no other such place. -/
structure Anchored (rule : Rule) (field : FieldRule) (node source : Pattern) : Prop where
  inside : Above node source
  somewhere : ∃ place, (exactly rule.path).isMatch place = true ∧ AnchoredAt rule field place source
  alone : (∀ place, Above place source → (exactly rule.path).isMatch place = true → place = node) →
    AnchoredAt rule field node source
  rigid : (∀ component ∈ rule.path.components, component.isGap = false) →
    rule.path.closed = false → AnchoredAt rule field node source

end Anchors

/-- A field added to a rule is the rule's pattern with something below it. -/
theorem with_field_below {rule : Rule} (below : FieldsBelow rule) (name : String)
    (added : Option Pattern) (options : TextOptions) :
    FieldsBelow (rule.withField name added options) := by
  intro field member
  rcases List.mem_append.mp member with before | new
  · exact below field before
  · rw [List.mem_singleton.mp new]
    cases added with
    | none => exact ⟨.empty, by simp [Rule.withField, joined, Pattern.empty]⟩
    | some pattern => exact ⟨pattern, rfl⟩

section Anchoring
variable {rule : Rule} {field : FieldRule} {place node source : Pattern}

theorem anchored_above (anchored : AnchoredAt rule field place source) : Above place source := by
  obtain ⟨_, relative, _, same, _⟩ := anchored
  exact ⟨relative, same⟩

/-- What a field covers is anchored somewhere. -/
theorem covered_is_anchored (below : FieldsBelow rule) (declared : field ∈ rule.fields)
    (covers : field.covers source = true) :
    ∃ place, (exactly rule.path).isMatch place = true ∧ AnchoredAt rule field place source := by
  obtain ⟨added, built⟩ := below field declared
  rw [FieldRule.covers, built] at covers
  obtain ⟨upper, lower, same, accepted, found⟩ :=
    (match_append rule.path.components added.components source.components).mp covers
  exact ⟨⟨upper, source.closed⟩, accepted, added, ⟨lower, source.closed⟩, built,
    by rw [joined, ← same], found⟩

/-- Two places around a location are the same when they are equally deep. -/
theorem above_same_depth (first : Above place source) (second : Above node source)
    (depth : place.length = node.length) : place = node := by
  obtain ⟨upper, rfl⟩ := first
  obtain ⟨lower, same⟩ := second
  obtain ⟨levels, closed⟩ := Pattern.mk.inj same
  have components : place.components = node.components := (List.append_inj levels depth).1
  cases place
  cases node
  rw [Pattern.mk.injEq]
  exact ⟨components, closed⟩

theorem anchored_in_node (below : FieldsBelow rule) (declared : field ∈ rule.fields)
    (covers : field.covers source = true) (matched : rule.path.isMatch node = true)
    (inside : Above node source) : Anchored rule field node source := by
  obtain ⟨place, accepted, anchored⟩ := covered_is_anchored below declared covers
  have alone (only : ∀ place, Above place source → (exactly rule.path).isMatch place = true →
      place = node) : AnchoredAt rule field node source :=
    only place (anchored_above anchored) accepted ▸ anchored
  constructor
  case inside => exact inside
  case somewhere => exact ⟨place, accepted, anchored⟩
  case alone => exact alone
  case rigid =>
    intro levels opened
    have itself : exactly rule.path = rule.path := by rw [exactly, ← opened]
    refine alone fun other above accepted => above_same_depth above inside ?_
    rw [← itself] at matched
    exact (gap_free_length _ _ levels accepted).trans (gap_free_length _ _ levels matched).symm

end Anchoring

/-- An entry of a complex rule is that of an element its rule's pattern matches, and each of its
fields is one of the rule's, taken from inside the element and anchored there. -/
theorem fields_anchored {indexer : Indexer} {document : List UInt8} {entry : IndexEntry} {rule : Rule}
    (stored : entry ∈ (indexer.index document).2)
    (declared : indexer.rules.rules[entry.rule]? = some rule) (complex : rule.isComplex = true)
    (below : FieldsBelow rule) :
    ∃ node inner, IsElement (trailOf indexer.scopes document) node inner ∧
      rule.path.isMatch node = true ∧ entry.path = node.text ∧
      ∀ field ∈ entry.fields, ∃ known ∈ rule.fields,
        field.name = some known.name ∧ field.options = known.options ∧
        ∃ source, Source (.start node :: (inner ++ [.close node])) known field.content source ∧
          Anchored rule known node source := by
  obtain ⟨node, inner, element, matched, path, fields⟩ :=
    entries_accounted indexer document entry stored rule declared complex
  refine ⟨node, inner, element, matched, path, ?_⟩
  intro field member
  rw [fields] at member
  obtain ⟨known, listed, name, options, source, inside, covers, taken⟩ :=
    finished_fields_sourced complex element.2 field member
  exact ⟨known, listed, name, options, source, taken,
    anchored_in_node below listed covers matched inside⟩

section Sample

def entryName : Component := .named (.unqualified .element "entry")

def nameName : Component := .named (.unqualified .element "name")

/-- Entries are indexed by the names right below them. -/
def namedEntries : Rule :=
  ({ path := ⟨[.gap, entryName], false⟩ } : Rule).withField "name" (some ⟨[nameName], false⟩) {}

/-- An entry in an entry, and only the inner one has a name. -/
def nestedEntries : List UInt8 :=
  "<entry><entry><name>n</name></entry></entry>".toList.map fun c => UInt8.ofNat c.toNat

def nameRules : RuleSet := ⟨"/db", [namedEntries]⟩

def indexedEntries : List IndexEntry := ((Indexer.new nameRules).index nestedEntries).2

/-- The inner entry has the name. -/
def innerEntry : IndexEntry := ⟨0, "/entry/entry", [⟨some "name", "n", {}⟩]⟩

/-- The outer entry has it as well. -/
def outerEntry : IndexEntry := ⟨0, "/entry", [⟨some "name", "n", {}⟩]⟩

/-- The inner entry has its own name. -/
theorem inner_entry_anchored :
    innerEntry ∈ indexedEntries ∧ FieldsBelow namedEntries ∧
      ∃ node inner, IsElement (trailOf .initial nestedEntries) node inner ∧
        innerEntry.path = node.text ∧
        ∀ field ∈ innerEntry.fields, ∃ known ∈ namedEntries.fields, ∃ source,
          Source (.start node :: (inner ++ [.close node])) known field.content source ∧
            Anchored namedEntries known node source := by
  have stored : innerEntry ∈ indexedEntries := by
    have all : indexedEntries = [innerEntry, outerEntry] := by with_unfolding_all rfl
    simp [all]
  have declared : (Indexer.new nameRules).rules.rules[innerEntry.rule]? = some namedEntries := rfl
  have below : FieldsBelow namedEntries :=
    with_field_below (fun _ nothing => by cases nothing) _ _ _
  obtain ⟨node, inner, element, _, path, fields⟩ := fields_anchored stored declared rfl below
  refine ⟨stored, below, node, inner, element, path, ?_⟩
  intro field member
  obtain ⟨known, listed, _, _, source, taken, anchored⟩ := fields field member
  exact ⟨known, listed, source, taken, anchored⟩

def outerLocation : Pattern := ⟨[entryName], false⟩

def innerLocation : Pattern := outerLocation.push entryName

def nameLocation : Pattern := innerLocation.push nameName

theorem sample_starts {location : Pattern}
    (started : .start location ∈ trailOf .initial nestedEntries) :
    location = outerLocation ∨ location = innerLocation ∨ location = nameLocation := by
  have trail : trailOf .initial nestedEntries =
      [.start outerLocation, .start innerLocation, .start nameLocation, .text "n" nameLocation,
        .close nameLocation, .close innerLocation, .close outerLocation] := by with_unfolding_all rfl
  rw [trail] at started
  simpa using started

/-- Only what is right below the outer entry is anchored at it, and that is the inner entry. -/
theorem nothing_anchored_at_outer {source : Pattern}
    (started : .start source ∈ trailOf .initial nestedEntries) {known : FieldRule}
    (listed : known ∈ namedEntries.fields) :
    ¬ AnchoredAt namedEntries known outerLocation source := by
  rintro ⟨below, ⟨levels, ends⟩, built, same, found⟩
  rw [List.mem_singleton.mp listed] at built
  have added : below.components = [nameName] :=
    (List.append_cancel_left (Pattern.mk.inj built).1).symm
  have opened : namedEntries.path.closed = false := rfl
  rw [added, opened] at found
  obtain ⟨actual, rest, rfl, accepted, found⟩ := (level_takes_head rfl _ _).mp found
  obtain rfl : rest = [] := by simpa using found
  have components : source.components = [entryName, actual] := congrArg Pattern.components same
  rcases sample_starts started with rfl | rfl | rfl
  · cases components
  · cases components
    exact absurd accepted (by with_unfolding_all decide)
  · cases components

/-- The outer entry takes the name of the inner one, which is not right below it. -/
theorem outer_entry_not_anchored :
    outerEntry ∈ indexedEntries ∧ FieldsBelow namedEntries ∧
      ∀ node inner, IsElement (trailOf .initial nestedEntries) node inner →
        outerEntry.path = node.text → ∀ field ∈ outerEntry.fields, ∀ known ∈ namedEntries.fields,
          ∀ source, Source (.start node :: (inner ++ [.close node])) known field.content source →
            ¬ AnchoredAt namedEntries known node source := by
  have stored : outerEntry ∈ indexedEntries := by
    have all : indexedEntries = [innerEntry, outerEntry] := by with_unfolding_all rfl
    simp [all]
  refine ⟨stored, with_field_below (fun _ nothing => by cases nothing) _ _ _, ?_⟩
  intro node inner element path field _ known listed source taken
  have outermost : node = outerLocation := by
    rcases sample_starts (met_in_element element List.mem_cons_self) with same | rfl | rfl
    · exact same
    · exact absurd path (by with_unfolding_all decide)
    · exact absurd path (by with_unfolding_all decide)
  subst outermost
  cases taken with
  | attributeValue targets _ =>
    rw [List.mem_singleton.mp listed] at targets
    cases targets
  | element within _ inside _ =>
    have started := met_in_element element (met_in_element inside List.mem_cons_self)
    exact nothing_anchored_at_outer started listed

end Sample

end RangeIndex.FieldAnchors
