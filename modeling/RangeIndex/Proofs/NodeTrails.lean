import RangeIndex.Proofs.FieldSources

/-! Which part of a document's trail a node's collector is told of. From the moment its element
starts a node is told of all that is met until the element ends, and nothing else; the entry it
leaves is what its collector makes of that stretch. This holds for every document, whether or not it
is well formed and however deep it is, and elements still open at its end are ended there. -/
namespace RangeIndex.NodeTrails
open DocumentTrail FieldSources

section Definitions

/-- A node being indexed follows the open element that it started at. -/
structure Follows (rules : RuleSet) (trail : List Notice) (here : Pattern) (node : ActiveNode)
    (rule : Rule) (location : Pattern) (inner : List Notice) : Prop where
  opened : Opened trail location inner here
  declared : rules.rules[node.rule]? = some rule
  matched : rule.path.isMatch location = true
  depth : node.depth = location.length
  path : node.path = location.text
  collector : node.collector = collected rule (.start location :: inner)

/-- All active nodes of a walk follow elements around the current location, the outermost first. -/
structure Tracks (rules : RuleSet) (trail : List Notice) (walk : Walk) : Prop where
  followed : ∀ node ∈ walk.active, ∃ rule location inner,
    Follows rules trail walk.location node rule location inner
  ordered : walk.active.Pairwise fun first second => first.depth ≤ second.depth

/-- An entry of a complex rule is what the rule's collector makes of an element of the trail that
the rule's pattern matches. -/
def Accounted (rules : RuleSet) (trail : List Notice) (entry : IndexEntry) : Prop :=
  ∀ rule, rules.rules[entry.rule]? = some rule → rule.isComplex = true →
    ∃ location inner, IsElement trail location inner ∧ rule.path.isMatch location = true ∧
      entry.path = location.text ∧
      entry.fields = (collected rule (.start location :: (inner ++ [.close location]))).finish.1

def positionOf (walk : Walk) : Position := ⟨walk.location, walk.scopes⟩

/-- A part of a walk ends where a reader of the document does, and both have met the same. -/
structure Agrees (rules : RuleSet) (trail : List Notice) (reached : Position × List Notice)
    (outcome : Walk × List IndexEntry) : Prop where
  position : positionOf outcome.1 = reached.1
  tracks : Tracks rules (trail ++ reached.2) outcome.1
  accounted : ∀ entry ∈ outcome.2, Accounted rules (trail ++ reached.2) entry

end Definitions

section Nodes
variable {rules : RuleSet} {trail inner : List Notice} {here there location : Pattern}
  {notice : Notice} {node : ActiveNode} {rule : Rule}

theorem follows_next (follows : Follows rules trail here node rule location inner)
    (moves : Moves here notice there) (stays : Above location there) :
    Follows rules (trail ++ [notice]) there (node.update (hear · notice)) rule location
      (inner ++ [notice]) := by
  constructor
  case opened => exact opened_next follows.opened moves stays
  case declared => exact follows.declared
  case matched => exact follows.matched
  case depth => exact follows.depth
  case path => exact follows.path
  case collector =>
    rw [← List.cons_append, collected_append, ← follows.collector]
    rfl

theorem follows_around (follows : Follows rules trail here node rule location inner) :
    Above location here := inside_above follows.opened.2

/-- A node that ends with its element leaves an entry that is accounted for. -/
theorem completed_accounted (follows : Follows rules trail location node rule location inner) :
    ∀ entry ∈ (node.update (hear · (.close location))).complete,
      Accounted rules (trail ++ [.close location]) entry := by
  intro entry member other declared _
  dsimp only [ActiveNode.complete] at member
  split at member
  · cases member
  · rw [List.mem_singleton.mp member] at declared ⊢
    obtain rfl := Option.some.inj (follows.declared.symm.trans declared)
    refine ⟨location, inner, element_of_opened follows.opened, follows.matched, follows.path, ?_⟩
    rw [← List.cons_append, collected_append, ← follows.collector]
    rfl

theorem accounted_append {entry : IndexEntry} (accounted : Accounted rules trail entry)
    (later : List Notice) : Accounted rules (trail ++ later) entry := by
  intro rule declared complex
  obtain ⟨location, inner, element, rest⟩ := accounted rule declared complex
  exact ⟨location, inner, element_append element later, rest⟩

theorem mem_for_node {rules : RuleSet} {location : Pattern} {index : Nat} {rule : Rule}
    (member : (index, rule) ∈ rules.forNode location) :
    rules.rules[index]? = some rule ∧ rule.path.isMatch location = true := by
  obtain ⟨numbered, matched⟩ := List.mem_filter.mp member
  obtain ⟨⟨other, place⟩, listed, same⟩ := List.mem_map.mp numbered
  cases same
  exact ⟨List.mem_zipIdx_iff_getElem?.mp listed, matched⟩

/-- An entry for an attribute is that of a simple rule. -/
theorem attribute_entry_accounted {value : String} {entry : IndexEntry}
    (member : entry ∈ Walk.attributeEntries rules location value) : Accounted rules trail entry := by
  obtain ⟨⟨index, rule⟩, listed, rfl⟩ := List.mem_map.mp member
  obtain ⟨matched, simple⟩ := List.mem_filter.mp listed
  intro other declared complex
  obtain rfl := Option.some.inj ((mem_for_node matched).1.symm.trans declared)
  simp [complex] at simple

end Nodes

section Telling
variable {rules : RuleSet} {trail : List Notice} {walk : Walk} {there : Pattern} {notice : Notice}

/-- What is met inside all active nodes is told to each of them. -/
theorem told_tracks (tracks : Tracks rules trail walk) (moves : Moves walk.location notice there)
    (inner : ∀ location, Above location walk.location → Above location there) (scopes : Scopes) :
    Tracks rules (trail ++ [notice])
      (({ walk with location := there, scopes := scopes } : Walk).tell (hear · notice)) := by
  constructor
  case followed =>
    intro node member
    obtain ⟨before, listed, rfl⟩ := List.mem_map.mp member
    obtain ⟨rule, location, inside, follows⟩ := tracks.followed before listed
    exact ⟨rule, location, _,
      follows_next follows moves (inner location (follows_around follows))⟩
  case ordered => exact List.pairwise_map.mpr tracks.ordered

/-- Nodes that start with the current element follow it. -/
theorem activate_tracks (here : walk.location = there)
    (tracks : Tracks rules (trail ++ [.start there]) walk) (values : List AttributeValue) :
    Tracks rules (trail ++ [.start there]) (walk.activate rules values) := by
  subst here
  constructor
  case followed =>
    intro node member
    rcases List.mem_append.mp member with before | started
    · exact tracks.followed node before
    · obtain ⟨⟨index, rule⟩, met, rfl⟩ := List.mem_map.mp started
      obtain ⟨declared, matched⟩ := mem_for_node (List.mem_filter.mp met).1
      exact ⟨rule, walk.location, [], opened_at_start trail walk.location, declared, matched, rfl,
        rfl, rfl⟩
  case ordered =>
    refine List.pairwise_append.mpr ⟨tracks.ordered, ?_, ?_⟩
    · exact List.pairwise_map.mpr (List.pairwise_of_forall fun _ _ => le_rfl)
    · intro node before other started
      obtain ⟨_, _, rfl⟩ := List.mem_map.mp started
      obtain ⟨_, location, _, follows⟩ := tracks.followed node before
      rw [follows.depth]
      exact above_length (follows_around follows)

end Telling

section Steps
variable {rules : RuleSet} {trail : List Notice} {walk : Walk}

theorem agrees_nothing (tracks : Tracks rules trail walk) :
    Agrees rules trail (positionOf walk, []) (walk, []) := by
  constructor
  case position => rfl
  case tracks => simpa using tracks
  case accounted => simp

/-- Two parts of a walk, one after the other. -/
theorem agrees_append {reached last : Position} {met later : List Notice}
    {first second : Walk × List IndexEntry} (before : Agrees rules trail (reached, met) first)
    (after : Agrees rules (trail ++ met) (last, later) second) :
    Agrees rules trail (last, met ++ later) (second.1, first.2 ++ second.2) := by
  constructor
  case position => exact after.position
  case tracks => simpa using after.tracks
  case accounted =>
    intro entry member
    rw [← List.append_assoc]
    rcases List.mem_append.mp member with earlier | own
    · exact accounted_append (before.accounted entry earlier) later
    · exact after.accounted entry own

theorem attributes_agree (tracks : Tracks rules trail walk) (values : List AttributeValue) :
    Agrees rules trail
      (positionOf walk,
        values.map fun a => .attributeValue a.value (walk.location.push (.named a.name)))
      (walk.visitAttributes rules values) := by
  induction values generalizing trail walk with
  | nil => exact agrees_nothing tracks
  | cons a rest ih =>
    have told := told_tracks tracks
      (.attributeValue walk.location a.value (.named a.name)) (fun _ above => above) walk.scopes
    have first : Agrees rules trail
        (positionOf walk, [.attributeValue a.value (walk.location.push (.named a.name))])
        (walk.visitAttribute rules a) := by
      constructor
      case position => rfl
      case tracks => exact told
      case accounted =>
        intro entry member
        exact attribute_entry_accounted member
    exact agrees_append first (ih told)

theorem enter_agrees (tracks : Tracks rules trail walk) (name : String)
    (attributes : List Markup.Attribute) :
    Agrees rules trail ((positionOf walk).enter name attributes)
      (walk.enter rules name attributes) := by
  let scopes := (attributes.filterMap declaredBy?).foldl
    (fun scopes declared => scopes.declare declared.1 declared.2) walk.scopes.push
  let component := Component.named (scopes.elementName name)
  let values : List AttributeValue := (attributes.filter fun a => (declaredBy? a).isNone).map
    fun a => ⟨scopes.attributeName a.name, a.value⟩
  have inner (location : Pattern) (above : Above location walk.location) :
      Above location (walk.location.push component) := above_trans above (above_push _ component)
  have told := told_tracks tracks (.start walk.location component) inner scopes
  have started := activate_tracks (by rfl) told values
  have visited := attributes_agree started values
  constructor
  case position => exact visited.position
  case tracks =>
    have tracks := visited.tracks
    rw [List.append_assoc, List.map_map] at tracks
    exact tracks
  case accounted =>
    have accounted := visited.accounted
    rw [List.append_assoc, List.map_map] at accounted
    exact accounted

end Steps

section Leaving
variable {rules : RuleSet} {trail : List Notice} {here : Pattern} {component : Component}
  {scopes : Scopes} {active : List ActiveNode}

/-- The active nodes told that the current element ends. -/
def toldEnd (location : Pattern) (active : List ActiveNode) : List ActiveNode :=
  active.map (ActiveNode.update (hear · (.close location)))

theorem mem_told_end {location : Pattern} {node : ActiveNode} (member : node ∈ toldEnd location active) :
    ∃ before ∈ active, before.depth = node.depth ∧
      before.update (hear · (.close location)) = node := by
  obtain ⟨before, listed, rfl⟩ := List.mem_map.mp member
  exact ⟨before, listed, rfl, rfl⟩

theorem told_end_ordered
    (tracks : Tracks rules trail ⟨here.push component, scopes, active⟩) :
    (toldEnd (here.push component) active).Pairwise fun first second => first.depth ≤ second.depth :=
  List.pairwise_map.mpr tracks.ordered

/-- Nodes around the element that ends go on. -/
theorem remaining_tracks (tracks : Tracks rules trail ⟨here.push component, scopes, active⟩)
    (outer : Scopes) :
    Tracks rules (trail ++ [.close (here.push component)])
      ⟨here, outer, (toldEnd (here.push component) active).takeWhile fun node =>
        decide (node.depth < (here.push component).length)⟩ := by
  constructor
  case followed =>
    intro node remaining
    obtain ⟨before, listed, depth, rfl⟩ := mem_told_end ((List.takeWhile_prefix _).mem remaining)
    obtain ⟨rule, location, inner, follows⟩ := tracks.followed before listed
    have passes := List.mem_takeWhile_imp remaining
    have shallow := of_decide_eq_true passes
    rw [← depth, follows.depth] at shallow
    have around : Above location here := above_parent (follows_around follows) shallow
    exact ⟨rule, location, _, follows_next follows (.close here component) around⟩
  case ordered => exact (told_end_ordered tracks).sublist (List.takeWhile_sublist _)

/-- Nodes of the element that ends are complete. -/
theorem ending_accounted (tracks : Tracks rules trail ⟨here.push component, scopes, active⟩) :
    ∀ entry ∈ ((toldEnd (here.push component) active).dropWhile fun node =>
        decide (node.depth < (here.push component).length)).flatMap ActiveNode.complete,
      Accounted rules (trail ++ [.close (here.push component)]) entry := by
  intro entry member
  obtain ⟨node, ending, completed⟩ := List.mem_flatMap.mp member
  have shallowFirst : (toldEnd (here.push component) active).Pairwise fun first second =>
      decide (second.depth < (here.push component).length) = true →
        decide (first.depth < (here.push component).length) = true := by
    refine (told_end_ordered tracks).imp fun deeper => ?_
    simp only [decide_eq_true_eq]
    exact deeper.trans_lt
  have deep := of_decide_eq_false (fails_once_failed shallowFirst node ending)
  obtain ⟨before, listed, depth, rfl⟩ := mem_told_end ((List.dropWhile_suffix _).mem ending)
  obtain ⟨rule, location, inner, follows⟩ := tracks.followed before listed
  rw [← depth, follows.depth] at deep
  obtain rfl := above_antisymm (follows_around follows) (not_lt.mp deep)
  exact completed_accounted follows entry completed

end Leaving

section Runs
variable {rules : RuleSet} {trail : List Notice} {walk : Walk}

theorem leave_agrees (tracks : Tracks rules trail walk) :
    Agrees rules trail (positionOf walk).leave walk.leave := by
  by_cases outermost : walk.location.isEmpty = true
  · rw [Walk.leave, if_pos outermost, Position.leave, positionOf, if_pos outermost]
    exact agrees_nothing tracks
  · obtain ⟨here, component, same⟩ := nonempty_is_push (Bool.eq_false_iff.mpr outermost)
    obtain ⟨location, scopes, active⟩ := walk
    dsimp only at same outermost
    subst same
    rw [Walk.leave, if_neg outermost, Position.leave, positionOf, if_neg outermost]
    constructor
    case position => rfl
    case tracks =>
      rw [Pattern.pop_push]
      exact remaining_tracks tracks scopes.pop
    case accounted => exact ending_accounted tracks

theorem step_agrees (tracks : Tracks rules trail walk) (event : Markup.Event) :
    Agrees rules trail ((positionOf walk).step event) (walk.step rules event) := by
  cases event with
  | opened name attributes selfClosing =>
    have entered := enter_agrees tracks name attributes
    cases selfClosing with
    | false => exact entered
    | true =>
      have left := leave_agrees entered.tracks
      rw [entered.position] at left
      exact agrees_append entered left
  | closed name => exact leave_agrees tracks
  | characters text =>
    constructor
    case position => rfl
    case tracks =>
      exact told_tracks tracks (.text walk.location text) (fun _ above => above) walk.scopes
    case accounted =>
      intro entry member
      cases member

theorem run_agrees (tracks : Tracks rules trail walk) (events : List Markup.Event) :
    Agrees rules trail ((positionOf walk).run events) (walk.run rules events) := by
  induction events generalizing trail walk with
  | nil => exact agrees_nothing tracks
  | cons event rest ih =>
    have first := step_agrees tracks event
    have later := ih first.tracks
    rw [first.position] at later
    exact agrees_append first later

theorem leave_all_agrees (tracks : Tracks rules trail walk) (count : Nat) :
    Agrees rules trail ((positionOf walk).leaveAll count) (walk.leaveAll count) := by
  induction count generalizing trail walk with
  | zero => exact agrees_nothing tracks
  | succ count ih =>
    have first := leave_agrees tracks
    have later := ih first.tracks
    rw [first.position] at later
    exact agrees_append first later

end Runs

/-- Every entry of a document is accounted for by the document's trail. -/
theorem entries_accounted (indexer : Indexer) (document : List UInt8) :
    ∀ entry ∈ (indexer.index document).2,
      Accounted indexer.rules (trailOf indexer.scopes document) entry := by
  intro entry member
  have indexed := indexer.index_eq document
  dsimp only at indexed
  split at indexed
  · rw [indexed.2.2] at member
    cases member
  · rw [indexed.2.2] at member
    let start : Walk := ⟨.empty, indexer.scopes.clear, []⟩
    let walked := start.run indexer.rules (Markup.events document)
    let met := (positionOf start).run (Markup.events document)
    have nothing : Tracks indexer.rules [] start := ⟨by simp [start], List.Pairwise.nil⟩
    have ran : Agrees indexer.rules [] met walked := run_agrees nothing (Markup.events document)
    have left := leave_all_agrees ran.tracks walked.1.location.length
    rw [ran.position] at left
    have last : walked.1.location = met.1.location := congrArg Position.location ran.position
    have whole : trailOf indexer.scopes document =
        met.2 ++ (met.1.leaveAll walked.1.location.length).2 := by
      rw [last]
      rfl
    rw [whole]
    exact (agrees_append ran left).accounted entry member

end RangeIndex.NodeTrails
