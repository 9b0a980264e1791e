import RangeIndex.Entry.Collector
import RangeIndex.Location.Buffer
import RangeIndex.Location.Trail
import RangeIndex.Markup.Event
import RangeIndex.Name.Scopes

/-! Indexing walks a document once. The walk keeps the current location, the bindings in scope and
a collector for every node being indexed, and each event yields the entries it completes. Where
nothing is being indexed and no rule reaches, the walk only moves along a trail. -/
namespace RangeIndex

/-- What is stored for one node: which rule, where, and the fields. -/
structure IndexEntry where
  rule : Nat
  path : String
  fields : List Field
deriving DecidableEq, Repr

/-- A node being indexed. -/
structure ActiveNode where
  rule : Nat
  depth : Nat
  path : String
  collector : Collector
deriving DecidableEq, Repr

/-- The state of a walk; the active nodes are in the order they were reached. -/
structure Walk where
  location : Pattern
  scopes : Scopes
  active : List ActiveNode
deriving DecidableEq, Repr

/-- A walk that keeps its location as a trail, and the room that its cursor has. -/
structure TrailWalk where
  trail : Trail
  room : Nat
  scopes : Scopes
  active : List ActiveNode

/-- The label and namespace that an attribute declares, if it declares any; an empty label is
that of the default namespace. -/
def declaredBy? (a : Markup.Attribute) : Option (String × String) :=
  match splitLabel a.name with
  | (none, "xmlns") => some ("", a.value)
  | (some "xmlns", label) => some (label, a.value)
  | _ => none

namespace ActiveNode

/-- The node with its collector changed. -/
def update (change : Collector → Collector) (node : ActiveNode) : ActiveNode :=
  { node with collector := change node.collector }

/-- The entry of a node that ends; one without fields leaves none. -/
def complete (node : ActiveNode) : List IndexEntry :=
  let fields := node.collector.finish.1
  if fields.isEmpty then [] else [⟨node.rule, node.path, fields⟩]

end ActiveNode

namespace Walk

/-- The walk after something all active nodes are told of. -/
def tell (walk : Walk) (change : Collector → Collector) : Walk :=
  { walk with active := walk.active.map (ActiveNode.update change) }

/-- Start indexing the current element under the rules whose pattern and conditions it meets. -/
def activate (rules : RuleSet) (attributes : List AttributeValue) (walk : Walk) : Walk :=
  let met := (rules.forNode walk.location).filter fun (_, rule) => rule.conditionsHold attributes
  let nodes := met.map fun (index, rule) =>
    ⟨index, walk.location.length, walk.location.text,
      (Collector.ofRule rule).start walk.location⟩
  { walk with active := walk.active ++ nodes }

/-- The entries of simple rules for an attribute of the current element. -/
def attributeEntries (rules : RuleSet) (location : Pattern) (value : String) :
    List IndexEntry :=
  ((rules.forNode location).filter fun (_, rule) => !rule.isComplex).map fun (index, rule) =>
    ⟨index, location.text, (SimpleCollector.holding rule value).finish.1⟩

/-- Tell of one attribute, which is located below its element. -/
def visitAttribute (rules : RuleSet) (walk : Walk) (a : AttributeValue) :
    Walk × List IndexEntry :=
  let location := walk.location.push (.named a.name)
  (walk.tell (Collector.attributeValue a.value location),
    attributeEntries rules location a.value)

/-- Tell of attributes in order. -/
def visitAttributes (rules : RuleSet) : Walk → List AttributeValue → Walk × List IndexEntry
  | walk, [] => (walk, [])
  | walk, a :: rest =>
    let (walk, entries) := visitAttribute rules walk a
    let (walk, later) := visitAttributes rules walk rest
    (walk, entries ++ later)

/-- Enter an element: its declarations come into force, then its name and those of its other
attributes are resolved. -/
def enter (rules : RuleSet) (walk : Walk) (name : String) (attributes : List Markup.Attribute) :
    Walk × List IndexEntry :=
  let scopes := (attributes.filterMap declaredBy?).foldl
    (fun scopes (label, space) => scopes.declare label space) walk.scopes.push
  let location := walk.location.push (.named (scopes.elementName name))
  let values := (attributes.filter fun a => (declaredBy? a).isNone).map fun a =>
    ⟨scopes.attributeName a.name, a.value⟩
  let walk := { walk with scopes, location }
  visitAttributes rules ((walk.tell (Collector.start location)).activate rules values) values

/-- Leave the current element, if there is one: nodes that started in it are complete. -/
def leave (walk : Walk) : Walk × List IndexEntry :=
  if walk.location.isEmpty then (walk, [])
  else
    let told := walk.tell (Collector.close walk.location)
    let depth := walk.location.length
    let remaining := told.active.takeWhile fun node => decide (node.depth < depth)
    let ending := told.active.dropWhile fun node => decide (node.depth < depth)
    (⟨walk.location.pop, walk.scopes.pop, remaining⟩, ending.flatMap ActiveNode.complete)

/-- The walk after one more event, and the entries it completes. -/
def step (rules : RuleSet) (walk : Walk) : Markup.Event → Walk × List IndexEntry
  | .opened name attributes selfClosing =>
    let (walk, entries) := walk.enter rules name attributes
    if selfClosing then
      let (walk, later) := walk.leave
      (walk, entries ++ later)
    else (walk, entries)
  | .closed _ => walk.leave
  | .characters text => (walk.tell (Collector.characters text walk.location), [])

/-- The walk after a list of events, and the entries they complete. -/
def run (rules : RuleSet) : Walk → List Markup.Event → Walk × List IndexEntry
  | walk, [] => (walk, [])
  | walk, event :: rest =>
    let (walk, entries) := walk.step rules event
    let (walk, later) := run rules walk rest
    (walk, entries ++ later)

/-- Leave the elements still open, so many of them at most. -/
def leaveAll : Nat → Walk → Walk × List IndexEntry
  | 0, walk => (walk, [])
  | count + 1, walk =>
    let (walk, entries) := walk.leave
    let (walk, later) := leaveAll count walk
    (walk, entries ++ later)

section Closing
variable {rules : RuleSet}

theorem location_visitAttributes (walk : Walk) (values : List AttributeValue) :
    (visitAttributes rules walk values).1.location = walk.location := by
  induction values generalizing walk with
  | nil => rfl
  | cons a rest ih => exact ih (visitAttribute rules walk a).1

theorem closed_enter (walk : Walk) (name : String) (attributes : List Markup.Attribute) :
    (walk.enter rules name attributes).1.location.closed = walk.location.closed := by
  unfold enter
  dsimp only
  rw [location_visitAttributes]
  rfl

theorem closed_leave (walk : Walk) : walk.leave.1.location.closed = walk.location.closed := by
  unfold leave
  split <;> rfl

theorem closed_step (walk : Walk) (event : Markup.Event) :
    (walk.step rules event).1.location.closed = walk.location.closed := by
  cases event with
  | opened name attributes selfClosing =>
    cases selfClosing with
    | false => exact closed_enter walk name attributes
    | true => exact (closed_leave _).trans (closed_enter walk name attributes)
  | closed name => exact closed_leave walk
  | characters text => rfl

theorem closed_run (walk : Walk) (events : List Markup.Event) :
    (walk.run rules events).1.location.closed = walk.location.closed := by
  induction events generalizing walk with
  | nil => rfl
  | cons event rest ih => exact (ih _).trans (closed_step walk event)

theorem closed_leaveAll (count : Nat) (walk : Walk) :
    (leaveAll count walk).1.location.closed = walk.location.closed := by
  induction count generalizing walk with
  | zero => rfl
  | succ count ih => exact (ih _).trans (closed_leave walk)

end Closing

end Walk

namespace TrailWalk

/-- The walk itself. -/
def walk (kept : TrailWalk) : Walk := ⟨kept.trail.location, kept.scopes, kept.active⟩

def ofWalk (room : Nat) (walk : Walk) : TrailWalk :=
  ⟨.ofLocation walk.location, room, walk.scopes, walk.active⟩

/-- The location as it is kept from one document to the next. -/
def cursor (kept : TrailWalk) : PatternBuffer := ⟨kept.trail.location, kept.room⟩

/-- The room of the cursor after an event. It goes down to an element and to the attributes of it
that declare nothing. -/
def roomAfter (kept : TrailWalk) : Markup.Event → Nat
  | .opened _ attributes _ =>
    let bare := attributes.all fun a => (declaredBy? a).isSome
    PatternBuffer.roomBelow kept.trail.depth kept.room bare
  | .closed _ | .characters _ => kept.room

/-- Whether nothing is being indexed and no rule reaches the elements inside the current one or
their attributes. -/
def isIdle (rules : RuleSet) (kept : TrailWalk) : Bool :=
  kept.active.isEmpty && !rules.reaches (kept.trail.depth + 1) &&
    !rules.reaches (kept.trail.depth + 2)

/-- Enter an element where its name and attributes are of no interest but for the declarations. -/
def pass (kept : TrailWalk) (name : String) (attributes : List Markup.Attribute) : TrailWalk :=
  let scopes := (attributes.filterMap declaredBy?).foldl
    (fun scopes (label, space) => scopes.declare label space) kept.scopes.push
  ⟨kept.trail.enter (.named (scopes.elementName name)), kept.room, scopes, []⟩

/-- Leave the current element, if there is one, when nothing is being indexed. -/
def back (kept : TrailWalk) : TrailWalk :=
  if kept.trail.depth == 0 then kept else ⟨kept.trail.leave, kept.room, kept.scopes.pop, []⟩

/-- The walk after one more event, and the entries it completes. An idle walk only moves. -/
def step (rules : RuleSet) (kept : TrailWalk) (event : Markup.Event) :
    TrailWalk × List IndexEntry :=
  let room := kept.roomAfter event
  if kept.isIdle rules then
    match event with
    | .opened name attributes selfClosing =>
      let inner := { kept.pass name attributes with room }
      (if selfClosing then inner.back else inner, [])
    | .closed _ => (kept.back, [])
    | .characters _ => (kept, [])
  else
    let (walk, entries) := kept.walk.step rules event
    (ofWalk room walk, entries)

/-- The walk after a list of events, and the entries they complete. -/
def run (rules : RuleSet) : TrailWalk → List Markup.Event → TrailWalk × List IndexEntry
  | kept, [] => (kept, [])
  | kept, event :: rest =>
    let (kept, entries) := kept.step rules event
    let (kept, later) := run rules kept rest
    (kept, entries ++ later)

section Agreement
variable {rules : RuleSet} {kept : TrailWalk}

@[simp] theorem walk_ofWalk (room : Nat) (walk : Walk) : (ofWalk room walk).walk = walk := by
  simp [ofWalk, TrailWalk.walk]

/-- An idle walk has no active node, and no rule reaches an element inside the current one or an
attribute of it. -/
theorem isIdle_iff : kept.isIdle rules = true ↔
    kept.active = [] ∧ rules.reaches (kept.trail.depth + 1) = false ∧
      rules.reaches (kept.trail.depth + 2) = false := by
  simp [isIdle, and_assoc]

/-- Where nothing is active and no rule reaches, attributes complete nothing. -/
theorem visit_nothing {location : Pattern} (scopes : Scopes)
    (unreached : rules.reaches (location.length + 1) = false) (values : List AttributeValue) :
    Walk.visitAttributes rules ⟨location, scopes, []⟩ values = (⟨location, scopes, []⟩, []) := by
  induction values with
  | nil => rfl
  | cons a rest ih =>
    have none : rules.forNode (location.push (.named a.name)) = [] :=
      RuleSet.forNode_eq_nil (by rwa [Pattern.length_push])
    simp [Walk.visitAttributes, Walk.visitAttribute, Walk.attributeEntries, Walk.tell, none, ih]

/-- An idle walk enters an element without an entry. -/
theorem walk_pass (idle : kept.isIdle rules = true) (name : String)
    (attributes : List Markup.Attribute) :
    kept.walk.enter rules name attributes = ((kept.pass name attributes).walk, []) := by
  obtain ⟨trail, room, scopes, active⟩ := kept
  obtain ⟨rfl, elements, values⟩ := isIdle_iff.mp idle
  let inner := pass ⟨trail, room, scopes, []⟩ name attributes
  have depth : inner.walk.location.length = trail.depth + 1 := Trail.length_location _
  have none : rules.forNode inner.walk.location = [] := RuleSet.forNode_eq_nil (by rwa [depth])
  have below : rules.reaches (inner.walk.location.length + 1) = false := by rwa [depth]
  have nothing := visit_nothing inner.scopes below
  simp only [inner, pass, walk, Trail.location_enter] at none nothing
  simp [Walk.enter, Walk.tell, Walk.activate, pass, walk, none, nothing]

/-- Where nothing is active, an element is left without an entry. -/
theorem walk_back (idle : kept.active = []) : kept.walk.leave = (kept.back.walk, []) := by
  obtain ⟨trail, room, scopes, active⟩ := kept
  subst idle
  unfold back Walk.leave
  by_cases outside : trail.depth = 0
  · simp [walk, outside]
  · simp [walk, outside, Walk.tell]

/-- Keeping the trail changes nothing about a step. -/
theorem walk_step (rules : RuleSet) (kept : TrailWalk) (event : Markup.Event) :
    kept.walk.step rules event =
      ((kept.step rules event).1.walk, (kept.step rules event).2) := by
  unfold step
  split
  · rename_i idle
    have inactive : kept.active = [] := (isIdle_iff.mp idle).1
    cases event with
    | opened name attributes selfClosing =>
      let room := kept.roomAfter (.opened name attributes selfClosing)
      let inner : TrailWalk := { kept.pass name attributes with room }
      have entered : kept.walk.enter rules name attributes = (inner.walk, []) :=
        walk_pass idle name attributes
      have left : inner.walk.leave = (inner.back.walk, []) := walk_back rfl
      rw [Walk.step, entered]
      cases selfClosing with
      | false => rfl
      | true =>
        dsimp only
        rw [if_pos rfl, left]
        rfl
    | closed name => exact walk_back inactive
    | characters text => simp [Walk.step, Walk.tell, walk, inactive]
  · simp

/-- Keeping the trail changes nothing about a run. -/
theorem walk_run (rules : RuleSet) (kept : TrailWalk) (events : List Markup.Event) :
    kept.walk.run rules events = ((kept.run rules events).1.walk, (kept.run rules events).2) := by
  induction events generalizing kept with
  | nil => rfl
  | cons event rest ih =>
    rw [Walk.run, walk_step]
    dsimp only
    rw [ih]
    rfl

end Agreement

end TrailWalk

/-- An indexer for the documents of one collection. What a document leaves in the cursor and the
scopes is cleared before the next. A location in a document has no closed end. -/
structure Indexer where
  rules : RuleSet
  cursor : PatternBuffer
  scopes : Scopes
  isOpen : cursor.pattern.closed = false
deriving DecidableEq, Repr

namespace Indexer

/-- An indexer that has seen no document. -/
def new (rules : RuleSet) : Indexer := ⟨rules, .new false, .initial, rfl⟩

/-- The indexer without what the last document left in it. -/
def clear (indexer : Indexer) : Indexer where
  rules := indexer.rules
  cursor := indexer.cursor.reset
  scopes := indexer.scopes.clear
  isOpen := indexer.isOpen

/-- The walk at the beginning of a document. -/
def start (indexer : Indexer) : Walk := ⟨indexer.cursor.pattern, indexer.scopes, []⟩

/-- The walk through a document, from where the indexer is to the end of all elements. -/
def walkThrough (indexer : Indexer) (document : List UInt8) : TrailWalk × List IndexEntry :=
  let (kept, entries) := TrailWalk.run indexer.rules (.ofWalk indexer.cursor.room indexer.start)
    (Markup.events document)
  let (walk, later) := kept.walk.leaveAll kept.trail.depth
  (.ofWalk kept.room walk, entries ++ later)

/-- The walk through a document is that with plain locations. -/
theorem walkThrough_eq (indexer : Indexer) (document : List UInt8) :
    let walked := indexer.start.run indexer.rules (Markup.events document)
    let left := walked.1.leaveAll walked.1.location.length
    (indexer.walkThrough document).1.walk = left.1 ∧
      (indexer.walkThrough document).2 = walked.2 ++ left.2 := by
  have same := TrailWalk.walk_run indexer.rules (.ofWalk indexer.cursor.room indexer.start)
    (Markup.events document)
  rw [TrailWalk.walk_ofWalk] at same
  have depth (kept : TrailWalk) : kept.walk.location.length = kept.trail.depth :=
    Trail.length_location _
  simp [walkThrough, same, depth]

theorem walkThrough_open (indexer : Indexer) (document : List UInt8) :
    (indexer.walkThrough document).1.cursor.pattern.closed = false := by
  have last := (walkThrough_eq indexer document).1
  change (indexer.walkThrough document).1.walk.location.closed = false
  rw [last, Walk.closed_leaveAll, Walk.closed_run]
  exact indexer.isOpen

/-- The entries of a document, and the indexer after it. -/
def index (indexer : Indexer) (document : List UInt8) : Indexer × List IndexEntry :=
  let cleared := indexer.clear
  if cleared.rules.rules.isEmpty then (cleared, [])
  else
    let walked := cleared.walkThrough document
    ({ rules := cleared.rules
       cursor := walked.1.cursor
       scopes := walked.1.scopes
       isOpen := walkThrough_open cleared document }, walked.2)

section Documents
variable (indexer : Indexer) (document : List UInt8)

theorem clear_cursor : indexer.clear.cursor.pattern = .empty := by
  rw [clear, PatternBuffer.reset_pattern, indexer.isOpen]
  rfl

/-- Every document begins at no location, in no scope of an element and with nothing active. -/
theorem clear_start : indexer.clear.start = ⟨.empty, indexer.scopes.clear, []⟩ := by
  rw [start, clear_cursor]
  rfl

theorem index_rules : (indexer.index document).1.rules = indexer.rules := by
  simp only [index]
  split <;> rfl

/-- Indexing is walking through the document, along whatever trail and in whatever room. -/
theorem index_eq :
    let walked := Walk.run indexer.rules ⟨.empty, indexer.scopes.clear, []⟩ (Markup.events document)
    let left := walked.1.leaveAll walked.1.location.length
    let after := (indexer.index document).1
    if indexer.rules.rules.isEmpty then
      after.cursor.pattern = .empty ∧ after.scopes = indexer.scopes.clear ∧
        (indexer.index document).2 = []
    else
      after.cursor.pattern = left.1.location ∧ after.scopes = left.1.scopes ∧
        (indexer.index document).2 = walked.2 ++ left.2 := by
  obtain ⟨walk, entries⟩ := walkThrough_eq indexer.clear document
  rw [clear_start] at walk entries
  have location := congrArg Walk.location walk
  have scopes := congrArg Walk.scopes walk
  simp only [index]
  by_cases none : indexer.rules.rules.isEmpty = true
  · rw [if_pos none, if_pos (show indexer.clear.rules.rules.isEmpty = true from none)]
    exact ⟨clear_cursor indexer, rfl, rfl⟩
  · rw [if_neg none, if_neg (show ¬ indexer.clear.rules.rules.isEmpty = true from none)]
    exact ⟨location, scopes, entries⟩

end Documents

/-- The entries of documents indexed one after the other. -/
def indexAll : Indexer → List (List UInt8) → List (List IndexEntry)
  | _, [] => []
  | indexer, document :: rest =>
    let (indexer, entries) := indexer.index document
    entries :: indexAll indexer rest

end Indexer

end RangeIndex
