import Mathlib.Data.List.Nodup
import RangeIndex.Proofs.ComplexRuleNodes
import RangeIndex.Proofs.ElementReading

/-! Indexing loses and duplicates nothing, whatever the document. At every moment the active nodes
are those of the elements that are open, the outermost first, and each has been told of all that was
met in its element. So leaving an element ends its nodes and no others, at the end none is left, and
the entries are those of the elements' nodes and of the attributes, each once. -/
namespace RangeIndex.IndexingBalance
open Markup DocumentTrail FieldSources NodeTrails IndexerReuse ElementReading
open IndexingSemantics (tell_tell visit_attributes leave_splits)
open CollectorSemantics (afterValues)
open ComplexRuleNodes (filter_numbered)

section Definitions

/-- The walk after one thing more is done, and the entries it completes. -/
def act (rules : RuleSet) (walk : Walk) : Act → Walk × List IndexEntry
  | .enter name attributes => walk.enter rules name attributes
  | .leave => walk.leave
  | .take text => (walk.tell (Collector.characters text walk.location), [])

/-- The walk that an indexer begins a document with. -/
def outside (indexer : Indexer) : Walk := ⟨.empty, indexer.scopes.clear, []⟩

/-- The scopes are as deep as the location, and the active nodes are listed by depth, none of them
deeper than that. -/
structure Orderly (walk : Walk) : Prop where
  level : walk.scopes.depth.toNat = walk.location.length
  ordered : walk.active.Pairwise fun first second => first.depth ≤ second.depth
  bounded : ∀ node ∈ walk.active, node.depth ≤ walk.location.length

/-- Whether the element of a start tag is a node of a rule. -/
def meets (rule : Rule) (tag : StartTag) : Bool :=
  rule.path.isMatch tag.location && rule.conditionsHold tag.values

/-- The rules that the element of a start tag is a node of, each with its place. -/
def metBy (rules : RuleSet) (tag : StartTag) : List (Nat × Rule) :=
  (rules.forNode tag.location).filter fun (_, rule) => rule.conditionsHold tag.values

/-- The node that an element is of a rule, with what its collector makes of all that was met in the
element. -/
def nodeOf (e : Element) : Nat × Rule → ActiveNode
  | (index, rule) => ⟨index, e.tag.location.length, e.tag.location.text, collected rule e.heard⟩

def nodesOf (rules : RuleSet) (e : Element) : List ActiveNode := (metBy rules e.tag).map (nodeOf e)

/-- The entries that a report stands for: those of the attributes when an element starts, and those
of its nodes when it ends. -/
def entriesOf (rules : RuleSet) : Report → List IndexEntry
  | .started tag _ =>
    tag.values.flatMap fun a =>
      Walk.attributeEntries rules (tag.location.push (.named a.name)) a.value
  | .ended e => (nodesOf rules e).flatMap ActiveNode.complete

/-- The collectors of numbered elements: one for every rule that an element is a node of. -/
def collectors (rules : RuleSet) (tags : List (StartTag × Nat)) : List (Nat × Nat) :=
  tags.flatMap fun (tag, number) => (metBy rules tag).map fun (index, _) => (number, index)

/-- A walk is where a reader of the document is, and its active nodes are those of the elements that
the reader is in. -/
structure Mirrors (rules : RuleSet) (reading : Reading) (walk : Walk) : Prop where
  position : positionOf walk = reading.position
  active : walk.active = reading.inside.reverse.flatMap (nodesOf rules)
  nest : Nest reading.inside reading.position.location

end Definitions

section Telling
variable {rules : RuleSet} {reading : Reading} {walk : Walk}

theorem nodes_hear (rules : RuleSet) (notices : List Notice) (e : Element) :
    nodesOf rules (e.hear notices) =
      (nodesOf rules e).map (ActiveNode.update fun collector => notices.foldl hear collector) := by
  simp [nodesOf, nodeOf, Element.hear, collected, ActiveNode.update]

/-- What is met in elements is told to their nodes. -/
theorem told_nodes (rules : RuleSet) (notices : List Notice) (inside : List Element) :
    (inside.map (Element.hear notices)).reverse.flatMap (nodesOf rules) =
      (inside.reverse.flatMap (nodesOf rules)).map
        (ActiveNode.update fun collector => notices.foldl hear collector) := by
  rw [← List.map_reverse, List.flatMap_map, List.map_flatMap]
  exact List.flatMap_congr fun e _ => nodes_hear rules notices e

theorem heard_in_tag (tag : StartTag) :
    (fun collector => tag.notices.foldl hear collector) =
      afterValues ⟨tag.location, .initial⟩ tag.values ∘ Collector.start tag.location := by
  funext collector
  rw [StartTag.notices, List.foldl_cons, List.foldl_map]
  rfl

/-- The nodes of a new element join the others before anything of its tag is told, so all of them hear
the same notices. -/
theorem enter_mirrors (mirrors : Mirrors rules reading walk) (name : String)
    (attributes : List Attribute) :
    Mirrors rules (reading.enter name attributes).1 (walk.enter rules name attributes).1 ∧
      (walk.enter rules name attributes).2 =
        (reading.enter name attributes).2.flatMap (entriesOf rules) := by
  obtain ⟨location, scopes, active⟩ := walk
  obtain ⟨position, inside, number⟩ := reading
  obtain ⟨same, listed, nest⟩ := mirrors
  dsimp only [positionOf] at same listed nest
  subst same
  let tag := StartTag.read ⟨location, scopes⟩ name attributes
  let inner := (Position.enter ⟨location, scopes⟩ name attributes).1.scopes
  let place : DocumentForest.Place := ⟨tag.location, .initial⟩
  let told : Walk := ⟨tag.location, inner, active ++ nodesOf rules ⟨tag, number, []⟩⟩
  have entered : Walk.enter rules ⟨location, scopes, active⟩ name attributes =
      ((Walk.tell ⟨tag.location, inner, active⟩ (Collector.start tag.location)).activate rules
        tag.values).visitAttributes rules tag.values := rfl
  have activated : (Walk.tell ⟨tag.location, inner, active⟩
      (Collector.start tag.location)).activate rules tag.values =
      told.tell (Collector.start tag.location) := by
    simp only [told, Walk.activate, Walk.tell, List.map_append, nodesOf, List.map_map]
    rfl
  rw [entered, activated, visit_attributes (show _ = place.location from rfl), tell_tell,
    ← heard_in_tag]
  constructor
  · constructor
    case position => rfl
    case active =>
      change told.active.map _ = (List.map _ (⟨tag, number, []⟩ :: inside)).reverse.flatMap _
      rw [told_nodes, List.reverse_cons, List.flatMap_append, ← listed, List.flatMap_singleton]
    case nest => exact enter_nests nest name attributes
  · exact (List.flatMap_singleton _ _).symm

theorem take_mirrors (mirrors : Mirrors rules reading walk) (text : String) :
    Mirrors rules (reading.take text) (walk.tell (Collector.characters text walk.location)) := by
  have here : walk.location = reading.position.location :=
    congrArg Position.location mirrors.position
  constructor
  case position => exact mirrors.position
  case active =>
    rw [Walk.tell, mirrors.active, here]
    exact (told_nodes rules [.text text reading.position.location] reading.inside).symm
  case nest => exact nest_hear mirrors.nest _

end Telling

section Leaving
variable {rules : RuleSet} {reading : Reading} {walk : Walk}

theorem depth_of_node {node : ActiveNode} {e : Element} (member : node ∈ nodesOf rules e) :
    node.depth = e.tag.location.length := by
  obtain ⟨met, _, rfl⟩ := List.mem_map.mp member
  rfl

/-- The nodes of the elements that a location is in are no deeper than it is. -/
theorem nodes_around {inside : List Element} {location : Pattern} (nest : Nest inside location) :
    ∀ node ∈ inside.reverse.flatMap (nodesOf rules), node.depth ≤ location.length := by
  intro node member
  obtain ⟨e, inside, listed⟩ := List.mem_flatMap.mp member
  rw [depth_of_node listed]
  exact nest_around nest e (List.mem_reverse.mp inside)

theorem nodes_ordered {inside : List Element} {location : Pattern} (nest : Nest inside location) :
    (inside.reverse.flatMap (nodesOf rules)).Pairwise fun first second =>
      first.depth ≤ second.depth := by
  refine List.pairwise_flatMap.mpr ⟨?_, ?_⟩
  · intro e _
    refine List.pairwise_of_forall_mem_list fun first listed second also => ?_
    rw [depth_of_node listed, depth_of_node also]
  · refine List.pairwise_reverse.mpr ((nest_ordered nest).imp fun deeper => ?_)
    intro first listed second also
    rw [depth_of_node listed, depth_of_node also]
    exact deeper

/-- Leaving an element ends its own nodes, and no others: those around it are less deep, and so stand
before them in the list. -/
theorem leave_mirrors (mirrors : Mirrors rules reading walk) :
    Mirrors rules reading.leave.1 walk.leave.1 ∧
      walk.leave.2 = reading.leave.2.flatMap (entriesOf rules) := by
  obtain ⟨location, scopes, active⟩ := walk
  obtain ⟨position, inside, number⟩ := reading
  obtain ⟨same, listed, nest⟩ := mirrors
  dsimp only [positionOf] at same listed nest
  subst same
  cases nest with
  | outside => exact ⟨⟨rfl, listed, .outside⟩, rfl⟩
  | @inside outer upper e component around below =>
    let notices : List Notice := [.close e.tag.location]
    let remaining := (outer.map (Element.hear notices)).reverse.flatMap (nodesOf rules)
    let ending := nodesOf rules (e.hear notices)
    have occupied : e.tag.location.isEmpty = false := by
      rw [below]
      simp [Pattern.isEmpty, Pattern.push]
    have told : (Walk.tell ⟨e.tag.location, scopes, active⟩
        (Collector.close e.tag.location)).active = remaining ++ ending := by
      have all := told_nodes rules notices (e :: outer)
      rw [List.map_cons, List.reverse_cons, List.flatMap_append, List.flatMap_singleton,
        ← listed] at all
      exact all.symm
    have further : ∀ node ∈ remaining, decide (node.depth < e.tag.location.length) = true := by
      intro node member
      rw [below, Pattern.length_push, decide_eq_true_eq]
      exact Nat.lt_succ_of_le (nodes_around (nest_hear around notices) node member)
    have own : ∀ node ∈ ending, decide (node.depth < e.tag.location.length) = false := by
      intro node member
      have level : node.depth = e.tag.location.length := depth_of_node (e := e.hear notices) member
      simp [level]
    have position : (⟨e.tag.location.pop, scopes.pop⟩ : Position) =
        (Position.leave ⟨e.tag.location, scopes⟩).1 := by
      rw [Position.leave, if_neg (by simp [occupied])]
    rw [leave_splits occupied told further own]
    constructor
    · exact ⟨position, rfl, leave_nests (.inside e component around below)⟩
    · exact (List.flatMap_singleton _ _).symm

end Leaving

section Performing
variable {rules : RuleSet} {reading : Reading} {walk : Walk}

theorem act_mirrors (mirrors : Mirrors rules reading walk) (a : Act) :
    Mirrors rules (reading.act a).1 (act rules walk a).1 ∧
      (act rules walk a).2 = (reading.act a).2.flatMap (entriesOf rules) := by
  cases a with
  | enter name attributes => exact enter_mirrors mirrors name attributes
  | leave => exact leave_mirrors mirrors
  | take text => exact ⟨take_mirrors mirrors text, rfl⟩

/-- A walk goes where a reader goes, and its entries are those that the reader's reports stand
for. -/
theorem perform_mirrors (mirrors : Mirrors rules reading walk) (acts : List Act) :
    Mirrors rules (perform Reading.act reading acts).1 (perform (act rules) walk acts).1 ∧
      (perform (act rules) walk acts).2 =
        (perform Reading.act reading acts).2.flatMap (entriesOf rules) := by
  induction acts generalizing reading walk with
  | nil => exact ⟨mirrors, rfl⟩
  | cons a rest ih =>
    obtain ⟨next, now⟩ := act_mirrors mirrors a
    obtain ⟨last, later⟩ := ih next
    refine ⟨last, ?_⟩
    rw [perform, perform, List.flatMap_append, ← now, ← later]

theorem outside_mirrors (indexer : Indexer) :
    Mirrors indexer.rules (.begin indexer.scopes.clear) (outside indexer) := ⟨rfl, rfl, .outside⟩

theorem step_performs (rules : RuleSet) (walk : Walk) (event : Event) :
    walk.step rules event = perform (act rules) walk (actsOf event) := by
  cases event with
  | opened name attributes selfClosing =>
    cases selfClosing <;> simp [Walk.step, actsOf, perform, act]
  | closed name => simp [Walk.step, actsOf, perform, act]
  | characters text => simp [Walk.step, actsOf, perform, act]

theorem run_performs (rules : RuleSet) (walk : Walk) (events : List Event) :
    walk.run rules events = perform (act rules) walk (events.flatMap actsOf) := by
  induction events generalizing walk with
  | nil => rfl
  | cons event rest ih =>
    rw [List.flatMap_cons, perform_append, ← step_performs, ← ih, Walk.run]

theorem leave_all_performs (rules : RuleSet) (walk : Walk) (count : Nat) :
    walk.leaveAll count = perform (act rules) walk (.replicate count .leave) := by
  induction count generalizing walk with
  | zero => rfl
  | succ count ih =>
    rw [Walk.leaveAll, List.replicate_succ, perform]
    dsimp only
    rw [ih walk.leave.1]
    rfl

/-- A walk is as deep as elements have been left open. -/
theorem length_after (indexer : Indexer) (acts : List Act) :
    (perform (act indexer.rules) (outside indexer) acts).1.location.length =
      acts.foldl levelBy 0 := by
  obtain ⟨mirrors, -⟩ := perform_mirrors (outside_mirrors indexer) acts
  have here := congrArg Position.location mirrors.position
  calc (perform (act indexer.rules) (outside indexer) acts).1.location.length
    _ = _ := congrArg Pattern.length here
    _ = _ := nest_length mirrors.nest
    _ = acts.foldl levelBy 0 := inside_after _ _

/-- An indexer does with a document what the document asks for, from the beginning. -/
theorem index_performs {indexer : Indexer} (configured : indexer.rules.rules ≠ [])
    (document : List UInt8) :
    let walked := perform (act indexer.rules) (outside indexer) (acts document)
    let after := (indexer.index document).1
    after.rules = indexer.rules ∧ after.cursor.pattern = walked.1.location ∧
      after.scopes = walked.1.scopes ∧ (indexer.index document).2 = walked.2 := by
  have level := length_after indexer ((events document).flatMap actsOf)
  have indexed := indexer.index_eq document
  dsimp only at indexed ⊢
  rw [if_neg (by simpa using configured), run_performs, leave_all_performs] at indexed
  rw [acts, perform_append, ← level]
  exact ⟨indexer.index_rules document, indexed⟩

end Performing

section Counting
variable {rules : RuleSet} {index : Nat} {rule : Rule}

/-- Where every item makes at most one thing of a kind, there are as many as items that make one. -/
theorem count_flatMap {α β : Type} {items : List α} {make : α → List β} {own : β → Bool}
    {makes : α → Bool}
    (each : ∀ item ∈ items, (make item).countP own = if makes item then 1 else 0) :
    (items.flatMap make).countP own = items.countP makes := by
  induction items with
  | nil => rfl
  | cons item rest ih =>
    obtain ⟨here, later⟩ := List.forall_mem_cons.mp each
    rw [List.flatMap_cons, List.countP_append, here, ih later, List.countP_cons, Nat.add_comm]

/-- Among numbered rules that pass a test a place has its own one or none. -/
theorem count_at_place (declared : rules.rules[index]? = some rule) (test : Nat × Rule → Bool) :
    (rules.numbered.filter test).countP (fun met => met.1 == index) =
      if test (index, rule) then 1 else 0 := by
  rw [List.countP_eq_length_filter, List.filter_comm, filter_numbered declared]
  by_cases passes : test (index, rule) = true <;> simp [passes]

theorem count_attribute (declared : rules.rules[index]? = some rule)
    (simple : rule.isComplex = false) (location : Pattern) (value : String) :
    (Walk.attributeEntries rules location value).countP (fun entry => entry.rule == index) =
      if rule.path.isMatch location then 1 else 0 := by
  have one := count_at_place declared fun met => !met.2.isComplex && met.2.path.isMatch location
  rw [simple, Bool.not_false, Bool.true_and] at one
  rw [Walk.attributeEntries, List.countP_map, RuleSet.forNode, List.filter_filter]
  exact one

theorem count_attributes (declared : rules.rules[index]? = some rule)
    (simple : rule.isComplex = false) (tag : StartTag) (number : Nat) :
    (entriesOf rules (.started tag number)).countP (fun entry => entry.rule == index) =
      tag.attributeLocations.countP rule.path.isMatch := by
  rw [StartTag.attributeLocations, List.countP_map]
  exact count_flatMap fun a _ => count_attribute declared simple _ a.value

theorem hear_keeps_kind (collector : Collector) (notice : Notice) :
    (hear collector notice).hasFields = collector.hasFields := by
  cases collector <;> cases notice <;> rfl

/-- A collector is of its rule's kind, whatever it has been told. -/
theorem collected_kind (rule : Rule) (heard : List Notice) :
    (collected rule heard).hasFields = rule.isComplex := by
  induction heard using List.reverseRecOn with
  | nil =>
    cases kind : rule.isComplex <;> simp [collected, Collector.ofRule, kind, Collector.hasFields]
  | append_singleton heard notice ih => rw [collected_append, hear_keeps_kind, ih]

theorem rule_of_completed {node : ActiveNode} {entry : IndexEntry}
    (member : entry ∈ node.complete) : entry.rule = node.rule := by
  unfold ActiveNode.complete at member
  dsimp only at member
  split at member
  · cases member
  · rw [List.mem_singleton.mp member]

/-- A node of a simple rule leaves an entry, whatever its collector has been told. -/
theorem simple_node_completes {node : ActiveNode} (simple : node.collector.hasFields = false) :
    ∃ fields, node.complete = [⟨node.rule, node.path, fields⟩] := by
  obtain ⟨number, depth, path, collector⟩ := node
  cases collector with
  | simple c => exact ⟨_, rfl⟩
  | complex c => cases simple

/-- When an element ends, a simple rule gains an entry if the element is a node of it. -/
theorem count_completed (declared : rules.rules[index]? = some rule)
    (simple : rule.isComplex = false) (e : Element) :
    (entriesOf rules (.ended e)).countP (fun entry => entry.rule == index) =
      if meets rule e.tag then 1 else 0 := by
  have each : ∀ met ∈ metBy rules e.tag,
      (nodeOf e met).complete.countP (fun entry => entry.rule == index) =
        if met.1 == index then 1 else 0 := by
    rintro ⟨other, found⟩ member
    by_cases own : other = index
    · subst own
      have listed := (mem_for_node (List.mem_filter.mp member).1).1
      obtain rfl := Option.some.inj (listed.symm.trans declared)
      have kind : (nodeOf e (other, found)).collector.hasFields = false :=
        (collected_kind found e.heard).trans simple
      obtain ⟨fields, completes⟩ := simple_node_completes kind
      rw [completes]
      simp [nodeOf]
    · have others : ∀ entry ∈ (nodeOf e (other, found)).complete,
          ¬ (entry.rule == index) = true := by
        intro entry member
        rw [rule_of_completed member]
        simpa [nodeOf] using own
      rw [List.countP_eq_zero.mpr others]
      simp [own]
  have one := count_at_place declared fun met =>
    met.2.conditionsHold e.tag.values && met.2.path.isMatch e.tag.location
  rw [entriesOf, nodesOf, List.flatMap_map, count_flatMap each, metBy, RuleSet.forNode,
    List.filter_filter, one, meets, Bool.and_comm]

/-- Through a document a simple rule has an entry for every attribute it matches and one for every
element that ended as a node of it. -/
theorem count_reports (declared : rules.rules[index]? = some rule)
    (simple : rule.isComplex = false) (reports : List Report) :
    (reports.flatMap (entriesOf rules)).countP (fun entry => entry.rule == index) =
      ((endsIn reports).map Prod.fst).countP (meets rule) +
        (((startsIn reports).map Prod.fst).flatMap StartTag.attributeLocations).countP
          rule.path.isMatch := by
  induction reports with
  | nil => rfl
  | cons report rest ih =>
    rw [List.flatMap_cons, List.countP_append, ih]
    cases report with
    | started tag number =>
      rw [count_attributes declared simple, starts_cons_started, ends_cons_started, List.map_cons,
        List.flatMap_cons, List.countP_append]
      dsimp only
      omega
    | ended e =>
      rw [count_completed declared simple, starts_cons_ended, ends_cons_ended, List.map_cons,
        List.countP_cons, Element.numbered]
      dsimp only
      omega

end Counting

section Collectors
variable {rules : RuleSet}

theorem places_distinct (rules : RuleSet) : (rules.numbered.map Prod.fst).Nodup := by
  have places : rules.numbered.map Prod.fst = rules.rules.zipIdx.map Prod.snd := List.map_map
  rw [places, List.zipIdx_map_snd]
  exact List.nodup_range'

/-- The collectors of elements with numbers of their own are all different. -/
theorem collectors_distinct (rules : RuleSet) (tags : List StartTag) :
    (collectors rules tags.zipIdx).Nodup := by
  refine List.nodup_flatMap.mpr ⟨?_, ?_⟩
  · rintro ⟨tag, number⟩ _
    have places : ((metBy rules tag).map Prod.fst).Nodup :=
      (places_distinct rules).sublist ((List.filter_sublist.trans List.filter_sublist).map _)
    have made : ((metBy rules tag).map fun met => (number, met.1)) =
        ((metBy rules tag).map Prod.fst).map (Prod.mk number) := List.map_map.symm
    change ((metBy rules tag).map fun met => (number, met.1)).Nodup
    rw [made]
    exact places.map fun _ _ same => congrArg Prod.snd same
  · have numbers : (tags.zipIdx.map Prod.snd).Nodup := by
      rw [List.zipIdx_map_snd]
      exact List.nodup_range'
    refine (List.pairwise_map.mp numbers).imp fun differ => ?_
    intro collector first second
    obtain ⟨_, _, rfl⟩ := List.mem_map.mp first
    obtain ⟨_, _, same⟩ := List.mem_map.mp second
    exact differ (congrArg Prod.fst same).symm

end Collectors

section Documents
variable {indexer : Indexer} {document : List UInt8}

theorem mirrors_orderly {rules : RuleSet} {reading : Reading} {walk : Walk}
    (mirrors : Mirrors rules reading walk) (counted : Counted reading.position) :
    Orderly walk := by
  have location : walk.location = reading.position.location :=
    congrArg Position.location mirrors.position
  constructor
  case level =>
    rw [← mirrors.position] at counted
    exact counted
  case ordered => exact mirrors.active ▸ nodes_ordered mirrors.nest
  case bounded =>
    rw [location, mirrors.active]
    exact nodes_around mirrors.nest

/-- A document is walked in order, with the active nodes those of the elements that are open. -/
theorem walk_orderly (shallow : Shallow document) {done : List Act}
    (first : done <+: acts document) :
    Orderly (perform (act indexer.rules) (outside indexer) done).1 :=
  mirrors_orderly (perform_mirrors (outside_mirrors indexer) done).1
    (document_counted rfl shallow first)

/-- At the end of a document the walk is outside all elements and no node is active. -/
theorem walk_ends_outside (indexer : Indexer) (document : List UInt8) :
    let walked := (perform (act indexer.rules) (outside indexer) (acts document)).1
    walked.location = .empty ∧ walked.active = [] := by
  obtain ⟨mirrors, -⟩ := perform_mirrors (outside_mirrors indexer) (acts document)
  have active := mirrors.active
  have nest := mirrors.nest
  rw [document_ends] at active nest
  exact ⟨(congrArg Position.location mirrors.position).trans (nest_outside nest), active⟩

/-- A simple rule has an entry for every start tag that meets it and every attribute it matches. -/
theorem simple_rule_count {index : Nat} {rule : Rule}
    (declared : indexer.rules.rules[index]? = some rule) (simple : rule.isComplex = false)
    (document : List UInt8) :
    let tags := startTags ⟨.empty, indexer.scopes.clear⟩ (events document)
    (perform (act indexer.rules) (outside indexer) (acts document)).2.countP
        (fun entry => entry.rule == index) =
      tags.countP (meets rule) +
        (tags.flatMap StartTag.attributeLocations).countP rule.path.isMatch := by
  intro tags
  obtain ⟨-, entries⟩ := perform_mirrors (outside_mirrors indexer) (acts document)
  have starts := document_starts indexer.scopes.clear document
  have ends := (starts_end indexer.scopes.clear document).map Prod.fst
  have read : (startsIn (perform Reading.act (.begin indexer.scopes.clear) (acts document)).2).map
      Prod.fst = tags := by rw [starts, List.zipIdx_map_fst]
  rw [read] at ends
  rw [entries, count_reports declared simple, ends.countP_eq, read]

end Documents

/-- Indexing a document of any form, with tags nested at most 65535 deep, loses and duplicates
nothing. On the way the scopes are as deep as the location, and the active nodes are those of the
elements that are open, by depth. At the end nothing is open or active; every collector has a start
tag and a rule of its own, and those that were finished are those that were opened, each once. So a
simple rule has as many entries as it meets start tags and matches attributes. -/
theorem indexing_balanced (indexer : Indexer) (configured : indexer.rules.rules ≠ [])
    {document : List UInt8} (shallow : Shallow document) :
    let rules := indexer.rules
    let read := perform Reading.act (.begin indexer.scopes.clear)
    let walk := perform (act rules) (outside indexer)
    let last := walk (acts document)
    let tags := startTags ⟨.empty, indexer.scopes.clear⟩ (events document)
    let opened := collectors rules (startsIn (read (acts document)).2)
    let finished := collectors rules (endsIn (read (acts document)).2)
    let after := (indexer.index document).1
    (after.rules = rules ∧ after.cursor.pattern = last.1.location ∧ after.scopes = last.1.scopes ∧
      (indexer.index document).2 = last.2) ∧
      (∀ done, done <+: acts document →
        Orderly (walk done).1 ∧
          (walk done).1.active = (read done).1.inside.reverse.flatMap (nodesOf rules) ∧
          (walk done).2 = (read done).2.flatMap (entriesOf rules)) ∧
      (last.1.location = .empty ∧ last.1.scopes.depth = 0 ∧ last.1.active = []) ∧
      (startsIn (read (acts document)).2 = tags.zipIdx ∧ opened.Nodup ∧ finished.Perm opened) ∧
      ∀ index rule, rules.rules[index]? = some rule → rule.isComplex = false →
        last.2.countP (fun entry => entry.rule == index) =
          tags.countP (meets rule) +
            (tags.flatMap StartTag.attributeLocations).countP rule.path.isMatch := by
  intro rules read walk last tags opened finished after
  have starts : startsIn (read (acts document)).2 = tags.zipIdx := document_starts _ document
  have orderly : Orderly last.1 := walk_orderly shallow (List.prefix_refl _)
  obtain ⟨location, active⟩ := walk_ends_outside indexer document
  refine ⟨index_performs configured document, ?_, ⟨location, ?_, active⟩, ⟨starts, ?_, ?_⟩, ?_⟩
  · intro done first
    obtain ⟨mirrors, entries⟩ := perform_mirrors (outside_mirrors indexer) done
    exact ⟨walk_orderly shallow first, mirrors.active, entries⟩
  · have level : last.1.scopes.depth.toNat = 0 := by
      rw [orderly.level, location]
      rfl
    exact UInt16.toNat_inj.mp level
  · rw [show opened = collectors rules tags.zipIdx from congrArg (collectors rules) starts]
    exact collectors_distinct rules tags
  · exact (starts_end indexer.scopes.clear document).flatMap_right _
  · intro index rule declared simple
    exact simple_rule_count declared simple document

section Sample

/-- The text of elements `b` and the values of attributes `i` are indexed. -/
def looseRules : RuleSet :=
  ⟨"/db", [{ path := ⟨[.gap, .named (.unqualified .element "b")], false⟩ },
    { path := ⟨[.gap, .named (.unqualified .attribute "i")], false⟩ }]⟩

/-- An end tag too many, one with another name than the element it ends, one that is missing, and a
start tag that breaks off. -/
def looseDocument : List UInt8 := bytesOf "</x><a i='1' xmlns:p='u'><b>t</a><b i='2"

/-- Two elements and two attributes have an entry each. -/
theorem loose_document_balanced :
    looseRules.rules ≠ [] ∧ Shallow looseDocument ∧
      let (indexer, stored) := (Indexer.new looseRules).index looseDocument
      indexer.scopes.depth = 0 ∧ stored.map IndexEntry.path = ["/a/@i", "/a/b", "/a/b/@i", "/a/b"] ∧
        stored.countP (fun entry => entry.rule == 0) = 2 ∧
        stored.countP (fun entry => entry.rule == 1) = 2 := by
  have configured : looseRules.rules ≠ [] := List.cons_ne_nil _ _
  have shallow : Shallow looseDocument := by
    unfold Shallow
    with_unfolding_all decide
  obtain ⟨⟨_, _, scopes, stored⟩, _, ⟨_, depth, _⟩, _, counts⟩ :=
    indexing_balanced (.new looseRules) configured shallow
  have elements := counts 0 _ rfl rfl
  have attributes := counts 1 _ rfl rfl
  refine ⟨configured, shallow, ?_⟩
  dsimp only
  rw [scopes, stored]
  refine ⟨depth, by with_unfolding_all rfl, elements.trans ?_, attributes.trans ?_⟩
  · with_unfolding_all rfl
  · with_unfolding_all rfl

end Sample

end RangeIndex.IndexingBalance
