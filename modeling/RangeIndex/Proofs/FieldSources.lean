import Mathlib.Data.List.TakeWhile
import RangeIndex.Proofs.DocumentTrail

/-! Where the fields of a node take their contents from. A collector is told of all that is met in
its node, and of the node's own start and end. Each field it completes is then the value of an
attribute met there or the text of an element that started and ended there, and the location of
either satisfies the field's pattern. -/
namespace RangeIndex.FieldSources
open DocumentTrail

section Definitions

/-- A collector after one more notice. -/
def hear (collector : Collector) : Notice → Collector
  | .start location => collector.start location
  | .attributeValue value location => collector.attributeValue value location
  | .text content location => collector.characters content location
  | .close location => collector.close location

/-- The collector of a rule after some notices. -/
def collected (rule : Rule) (heard : List Notice) : Collector := heard.foldl hear (.ofRule rule)

/-- What a notice adds to the text of an element at a level, with its nested text or without. -/
def taken (nested : Bool) (level : Nat) : Notice → String
  | .text content location => if nested || level == location.length then content else ""
  | _ => ""

/-- The text of an element by what was met in it. -/
def contentOf (options : TextOptions) (location : Pattern) (inner : List Notice) : String :=
  String.join (inner.map (taken options.nested location.length))

/-- A field may take a text from an attribute at a location, or from an element there. -/
inductive Source (trail : List Notice) (field : FieldRule) (text : String) (location : Pattern) :
    Prop where
  | attributeValue : field.targetsAttribute = true → .attributeValue text location ∈ trail →
    Source trail field text location
  | element (inner : List Notice) : field.targetsAttribute = false →
    IsElement trail location inner → text = contentOf field.options location inner →
      Source trail field text location

/-- A field of an entry is one of its rule's, taken from somewhere in the node that the rule's field
covers. -/
def Sourced (rule : Rule) (node : Pattern) (trail : List Notice) (field : Field) : Prop :=
  ∃ declared ∈ rule.fields, field.name = some declared.name ∧ field.options = declared.options ∧
    ∃ location, Above node location ∧ declared.covers location = true ∧
      Source trail declared field.content location

/-- A field being gathered holds the text of the open element that started it. -/
structure Gathering (rule : Rule) (node : Pattern) (trail : List Notice) (here : Pattern)
    (item : OpenField) (location : Pattern) (inner : List Notice) : Prop where
  declared : item.field ∈ rule.fields
  element : item.field.targetsAttribute = false
  covers : item.field.covers location = true
  below : Above node location
  opened : Opened trail location inner here
  depth : item.depth = location.length
  gathered : item.gathered = contentOf item.field.options location inner

/-- The collector of a node has its rule's fields from inside the node; those being gathered belong
to elements around the current location, the innermost first. -/
structure Gathers (rule : Rule) (node : Pattern) (trail : List Notice) (here : Pattern)
    (collector : FieldCollector) : Prop where
  fields : collector.fields = rule.fields
  opened : ∀ item ∈ collector.opened, ∃ location inner,
    Gathering rule node trail here item location inner
  ordered : collector.opened.Pairwise fun first second => second.depth ≤ first.depth
  gathered : ∀ field ∈ collector.gathered, Sourced rule node trail field

end Definitions

@[simp] theorem collected_append (rule : Rule) (heard : List Notice) (notice : Notice) :
    collected rule (heard ++ [notice]) = hear (collected rule heard) notice := by
  simp [collected]

theorem content_append (options : TextOptions) (location : Pattern) (inner : List Notice)
    (notice : Notice) :
    contentOf options location (inner ++ [notice]) =
      contentOf options location inner ++ taken options.nested location.length notice := by
  simp [contentOf]

theorem sourced_append {rule : Rule} {node : Pattern} {trail : List Notice} {field : Field}
    (sourced : Sourced rule node trail field) (later : List Notice) :
    Sourced rule node (trail ++ later) field := by
  obtain ⟨declared, known, name, options, location, below, covers, source⟩ := sourced
  refine ⟨declared, known, name, options, location, below, covers, ?_⟩
  cases source with
  | attributeValue targets met => exact .attributeValue targets (List.mem_append_left later met)
  | element inner plain element same => exact .element inner plain (element_append element later) same

section Steps
variable {rule : Rule} {node here there : Pattern} {trail : List Notice} {notice : Notice}

section OpenFields
variable {item : OpenField} {location : Pattern} {inner : List Notice}

/-- A field being gathered after a notice inside its element. -/
def itemAfter (notice : Notice) (item : OpenField) : OpenField :=
  { item with gathered := item.gathered ++ taken item.field.options.nested item.depth notice }

theorem item_after_silence (silent : ∀ nested level, taken nested level notice = "")
    (item : OpenField) : itemAfter notice item = item := by
  simp [itemAfter, silent]

theorem items_after_silence (silent : ∀ nested level, taken nested level notice = "")
    (items : List OpenField) : items.map (itemAfter notice) = items := by
  rw [funext (item_after_silence silent), List.map_id']

theorem gathering_next (gathering : Gathering rule node trail here item location inner)
    (moves : Moves here notice there) (stays : Above location there) :
    Gathering rule node (trail ++ [notice]) there (itemAfter notice item) location
      (inner ++ [notice]) := by
  constructor
  case declared => exact gathering.declared
  case element => exact gathering.element
  case covers => exact gathering.covers
  case below => exact gathering.below
  case opened => exact opened_next gathering.opened moves stays
  case depth => exact gathering.depth
  case gathered => rw [content_append, itemAfter, gathering.gathered, gathering.depth]

theorem gathering_around (gathering : Gathering rule node trail here item location inner) :
    Above location here := inside_above gathering.opened.2

/-- The field of an element that ends is complete. -/
theorem gathering_ends (gathering : Gathering rule node trail location item location inner)
    {field : Field} (completed : field ∈ FieldCollector.fieldOf item.field item.gathered) :
    Sourced rule node (trail ++ [.close location]) field := by
  unfold FieldCollector.fieldOf at completed
  split at completed
  · cases completed
  · rw [List.mem_singleton.mp completed]
    exact ⟨item.field, gathering.declared, rfl, rfl, location, gathering.below, gathering.covers,
      .element inner gathering.element (element_of_opened gathering.opened) gathering.gathered⟩

/-- The fields that an element starts are those that cover it. -/
theorem started_gathering (trail : List Notice) {fields : List FieldRule}
    (declared : fields = rule.fields) (below : Above node location)
    (started : item ∈ ((fields.filter fun field =>
      !field.targetsAttribute && field.covers location).map fun field =>
        OpenField.mk field location.length "").reverse) :
    Gathering rule node (trail ++ [.start location]) location item location [] := by
  obtain ⟨field, starting, rfl⟩ := List.mem_map.mp (List.mem_reverse.mp started)
  obtain ⟨known, covers⟩ := List.mem_filter.mp starting
  rw [Bool.and_eq_true, Bool.not_eq_true'] at covers
  constructor
  case declared => exact declared ▸ known
  case element => exact covers.1
  case covers => exact covers.2
  case below => exact below
  case opened => exact opened_at_start trail location
  case depth => rfl
  case gathered => rfl

end OpenFields

variable {collector : FieldCollector}

/-- What is met inside all open elements is added to the text of those that take it. -/
theorem items_next (gathers : Gathers rule node trail here collector)
    (moves : Moves here notice there) (inner : ∀ location, Above location here → Above location there) :
    ∀ item ∈ collector.opened.map (itemAfter notice), ∃ location inner,
      Gathering rule node (trail ++ [notice]) there item location inner := by
  intro item member
  obtain ⟨before, listed, rfl⟩ := List.mem_map.mp member
  obtain ⟨location, inside, gathering⟩ := gathers.opened before listed
  exact ⟨location, _, gathering_next gathering moves (inner location (gathering_around gathering))⟩

theorem start_gathers (gathers : Gathers rule node trail here collector) (component : Component)
    (below : Above node (here.push component)) :
    Gathers rule node (trail ++ [.start (here.push component)]) (here.push component)
      (collector.start (here.push component)) := by
  have inner (location : Pattern) (above : Above location here) :
      Above location (here.push component) := above_trans above (above_push here component)
  have older := items_next gathers (.start here component) inner
  rw [items_after_silence fun _ _ => rfl] at older
  constructor
  case fields => exact gathers.fields
  case opened =>
    intro item member
    rcases List.mem_append.mp member with started | before
    · exact ⟨_, [], started_gathering trail gathers.fields below started⟩
    · exact older item before
  case ordered =>
    refine List.pairwise_append.mpr ⟨?_, gathers.ordered, ?_⟩
    · exact List.pairwise_reverse.mpr
        (List.pairwise_map.mpr (List.pairwise_of_forall fun _ _ => le_rfl))
    · intro item started other before
      obtain ⟨_, _, rfl⟩ := List.mem_map.mp (List.mem_reverse.mp started)
      obtain ⟨location, _, gathering⟩ := older other before
      rw [gathering.depth]
      exact above_length (gathering_around gathering)
  case gathered =>
    intro field member
    exact sourced_append (gathers.gathered field member) _

theorem attribute_gathers (gathers : Gathers rule node trail here collector) (value : String)
    (component : Component) (below : Above node here) :
    Gathers rule node (trail ++ [.attributeValue value (here.push component)]) here
      (collector.attributeValue value (here.push component)) := by
  have older := items_next gathers (.attributeValue here value component) fun _ above => above
  rw [items_after_silence fun _ _ => rfl] at older
  constructor
  case fields => exact gathers.fields
  case opened => exact older
  case ordered => exact gathers.ordered
  case gathered =>
    intro field member
    rcases List.mem_append.mp member with before | found
    · exact sourced_append (gathers.gathered field before) _
    · obtain ⟨declared, covering, completed⟩ := List.mem_flatMap.mp found
      obtain ⟨known, covers⟩ := List.mem_filter.mp covering
      rw [Bool.and_eq_true] at covers
      unfold FieldCollector.fieldOf at completed
      split at completed
      · cases completed
      · rw [List.mem_singleton.mp completed]
        exact ⟨declared, gathers.fields ▸ known, rfl, rfl, here.push component,
          above_trans below (above_push here component), covers.2,
          .attributeValue covers.1 (by simp)⟩

theorem text_gathers (gathers : Gathers rule node trail here collector) (text : String) :
    Gathers rule node (trail ++ [.text text here]) here (collector.characters text here) := by
  have told : (collector.characters text here).opened =
      collector.opened.map (itemAfter (.text text here)) := by
    apply List.map_congr_left
    intro item _
    by_cases takes : (item.field.options.nested || item.depth == here.length) = true
    · simp [itemAfter, taken, takes]
    · simp [itemAfter, taken, takes]
  constructor
  case fields => exact gathers.fields
  case opened =>
    rw [told]
    exact items_next gathers (.text here text) fun _ above => above
  case ordered =>
    rw [told]
    exact List.pairwise_map.mpr gathers.ordered
  case gathered =>
    intro field member
    exact sourced_append (gathers.gathered field member) _

/-- The fields that the end of an element completes are sourced. -/
theorem ended_fields_sourced (gathers : Gathers rule node trail here collector) :
    ∀ field ∈ (collector.close here).gathered, Sourced rule node (trail ++ [.close here]) field := by
  intro field member
  rcases List.mem_append.mp member with before | added
  · exact sourced_append (gathers.gathered field before) _
  · obtain ⟨item, ending, completed⟩ := List.mem_flatMap.mp added
    obtain ⟨location, inner, gathering⟩ :=
      gathers.opened item ((List.takeWhile_prefix _).mem ending)
    have deep : here.length ≤ item.depth := by
      simpa [FieldCollector.endsAt] using List.mem_takeWhile_imp ending
    rw [gathering.depth] at deep
    obtain rfl := above_antisymm (gathering_around gathering) deep
    exact gathering_ends gathering completed

/-- A field as deep as the element that ends would have ended with it, so those that stay open are
around it. -/
theorem close_gathers {component : Component}
    (gathers : Gathers rule node trail (here.push component) collector) :
    Gathers rule node (trail ++ [.close (here.push component)]) here
      (collector.close (here.push component)) := by
  have deepest : collector.opened.Pairwise fun first second =>
      FieldCollector.endsAt (here.push component).length second = true →
        FieldCollector.endsAt (here.push component).length first = true := by
    refine gathers.ordered.imp fun shallower ends => ?_
    simp only [FieldCollector.endsAt, decide_eq_true_eq] at ends ⊢
    exact ends.trans shallower
  constructor
  case fields => exact gathers.fields
  case opened =>
    intro item remaining
    obtain ⟨location, inner, gathering⟩ :=
      gathers.opened item ((List.dropWhile_suffix _).mem remaining)
    have shallow := of_decide_eq_false (fails_once_failed deepest item remaining)
    rw [gathering.depth] at shallow
    have around : Above location here :=
      above_parent (gathering_around gathering) (not_le.mp shallow)
    have next := gathering_next gathering (.close here component) around
    rw [item_after_silence fun _ _ => rfl] at next
    exact ⟨location, _, next⟩
  case ordered => exact gathers.ordered.sublist (List.dropWhile_sublist _)
  case gathered => exact ended_fields_sourced gathers

/-- One more notice inside the node. -/
theorem next_gathers (gathers : Gathers rule node trail here collector)
    (moves : Moves here notice there) (below : Above node here) (inner : Above node there) :
    ∃ after, hear (.complex collector) notice = .complex after ∧
      Gathers rule node (trail ++ [notice]) there after := by
  cases moves with
  | start _ component => exact ⟨_, rfl, start_gathers gathers component inner⟩
  | attributeValue _ value component => exact ⟨_, rfl, attribute_gathers gathers value component below⟩
  | text _ content => exact ⟨_, rfl, text_gathers gathers content⟩
  | close _ component => exact ⟨_, rfl, close_gathers gathers⟩

end Steps

section Nodes
variable {rule : Rule} {node here : Pattern} {inner : List Notice}

/-- The collector of a node at its start. -/
theorem node_start_gathers (rule : Rule) (node : Pattern) :
    Gathers rule node [.start node] node ((FieldCollector.new rule).start node) := by
  constructor
  case fields => rfl
  case opened =>
    intro item started
    have started := (List.mem_append.mp started).resolve_right List.not_mem_nil
    exact ⟨node, [], started_gathering [] rfl (above_refl node) started⟩
  case ordered =>
    rw [FieldCollector.start, FieldCollector.new, List.append_nil]
    exact List.pairwise_reverse.mpr
      (List.pairwise_map.mpr (List.pairwise_of_forall fun _ _ => le_rfl))
  case gathered => simp [FieldCollector.start, FieldCollector.new]

/-- Everywhere inside a node its collector has only what is found there. -/
theorem collector_gathers (complex : rule.isComplex = true) (inside : Inside node inner here) :
    ∃ collector, collected rule (.start node :: inner) = .complex collector ∧
      Gathers rule node (.start node :: inner) here collector := by
  induction inside with
  | begin =>
    refine ⟨_, ?_, node_start_gathers rule node⟩
    simp [collected, hear, Collector.ofRule, complex, Collector.start]
  | next before moves above ih =>
    obtain ⟨collector, same, gathers⟩ := ih
    obtain ⟨after, heard, gathers⟩ := next_gathers gathers moves (inside_above before) above
    refine ⟨after, ?_, gathers⟩
    rw [← List.cons_append, collected_append, same, heard]

/-- When a node ends, each field its collector has gathered is one of the rule's, and taken from
inside the node. -/
theorem finished_fields_sourced (complex : rule.isComplex = true)
    (inside : Inside node inner node) :
    ∀ field ∈ (collected rule (.start node :: (inner ++ [.close node]))).finish.1,
      Sourced rule node (.start node :: (inner ++ [.close node])) field := by
  obtain ⟨collector, same, gathers⟩ := collector_gathers complex inside
  have allEnd : (collector.close node).opened = [] := by
    refine List.dropWhile_eq_nil_iff.mpr fun item open' => ?_
    obtain ⟨location, _, gathering⟩ := gathers.opened item open'
    simp only [FieldCollector.endsAt, gathering.depth, decide_eq_true_eq]
    exact above_length gathering.below
  intro field member
  rw [← List.cons_append, collected_append, same] at member
  simp only [hear, Collector.close, Collector.finish, FieldCollector.finish, allEnd,
    List.flatMap_nil, List.append_nil] at member
  exact ended_fields_sourced gathers field member

end Nodes

end RangeIndex.FieldSources
