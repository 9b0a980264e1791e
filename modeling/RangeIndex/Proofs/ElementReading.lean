import RangeIndex.Proofs.IndexerReuse

/-! A document read element by element. The reader keeps the elements it is in, the innermost first,
each with the number of its start tag and with all that was met since. An end tag ends the innermost
element whatever its name, one outside all elements ends nothing, and elements still open at the end
of the document are ended there. So every element that starts ends, once, and the elements a reader
is in are one inside the other all the way. -/
namespace RangeIndex.ElementReading
open Markup ScopeNesting DocumentTrail IndexerReuse

section Definitions

/-- One thing done with a document. -/
inductive Act where
  | enter (name : String) (attributes : List Attribute)
  | leave
  | take (text : String)

/-- What an event has done. A self-closing element is left as soon as it is entered. -/
def actsOf : Event → List Act
  | .opened name attributes selfClosing =>
    .enter name attributes :: if selfClosing then [.leave] else []
  | .closed _ => [.leave]
  | .characters text => [.take text]

/-- Things done in order: the state after the last, and all that they yield. -/
def perform {State Result : Type} (act : State → Act → State × List Result) :
    State → List Act → State × List Result
  | state, [] => (state, [])
  | state, a :: rest =>
    let (next, results) := act state a
    let (last, later) := perform act next rest
    (last, results ++ later)

/-- How many elements are open afterwards. Outside all elements there is none to leave. -/
def levelBy (level : Nat) : Act → Nat
  | .enter _ _ => level + 1
  | .leave => level - 1
  | .take _ => level

/-- All that is done with a document: first what its events say, then leaving what is still open. -/
def acts (document : List UInt8) : List Act :=
  let told := (events document).flatMap actsOf
  told ++ .replicate (told.foldl levelBy 0) .leave

/-- There are never more elements open than scopes are counted. -/
def Roomy (level : Nat) (acts : List Act) : Prop :=
  ∀ done, done <+: acts → done.foldl levelBy level ≤ 65535

/-- A start tag where it is read: the location of its element, and those of its attributes that
declare nothing. -/
structure StartTag where
  location : Pattern
  values : List AttributeValue

namespace StartTag

/-- The start tag with a name and attributes at a position. -/
def read (position : Position) (name : String) (attributes : List Attribute) : StartTag :=
  let inner := (position.enter name attributes).1
  ⟨inner.location, (attributes.filter fun a => (declaredBy? a).isNone).map fun a =>
    ⟨inner.scopes.attributeName a.name, a.value⟩⟩

/-- The locations of the attributes. -/
def attributeLocations (tag : StartTag) : List Pattern :=
  tag.values.map fun a => tag.location.push (.named a.name)

/-- What is met in the tag. -/
def notices (tag : StartTag) : List Notice :=
  .start tag.location ::
    tag.values.map fun a => .attributeValue a.value (tag.location.push (.named a.name))

end StartTag

/-- The start tag that an event is, if it is one. -/
def startTag? (position : Position) : Event → Option StartTag
  | .opened name attributes _ => some (.read position name attributes)
  | _ => none

/-- The start tags among events, in order. -/
def startTags : Position → List Event → List StartTag
  | _, [] => []
  | position, event :: rest =>
    (startTag? position event).toList ++ startTags (position.step event).1 rest

/-- An element that has started: its start tag, how many came before that, and what was met in the
element so far. -/
structure Element where
  tag : StartTag
  number : Nat
  heard : List Notice

namespace Element

/-- The element after more was met. -/
def hear (notices : List Notice) (e : Element) : Element := { e with heard := e.heard ++ notices }

/-- The start tag with its number. -/
def numbered (e : Element) : StartTag × Nat := (e.tag, e.number)

end Element

/-- What a reader reports. -/
inductive Report where
  | started (tag : StartTag) (number : Nat)
  | ended (e : Element)

/-- The start tags of elements reported to start, with their numbers. -/
def startsIn (reports : List Report) : List (StartTag × Nat) :=
  reports.filterMap fun | .started tag number => some (tag, number) | .ended _ => none

/-- The start tags of elements reported to end, with their numbers. -/
def endsIn (reports : List Report) : List (StartTag × Nat) :=
  reports.filterMap fun | .started _ _ => none | .ended e => some e.numbered

/-- A reader: where it is, the elements it is in with the innermost first, and how many start tags
it has read. -/
structure Reading where
  position : Position
  inside : List Element
  started : Nat

namespace Reading

/-- Nothing has been read. -/
def begin (scopes : Scopes) : Reading := ⟨⟨.empty, scopes⟩, [], 0⟩

def enter (reading : Reading) (name : String) (attributes : List Attribute) :
    Reading × List Report :=
  let tag := StartTag.read reading.position name attributes
  let inside := (⟨tag, reading.started, []⟩ :: reading.inside).map (Element.hear tag.notices)
  (⟨(reading.position.enter name attributes).1, inside, reading.started + 1⟩,
    [.started tag reading.started])

def leave (reading : Reading) : Reading × List Report :=
  match reading.inside.map (Element.hear [.close reading.position.location]) with
  | [] => (reading, [])
  | last :: outer => (⟨reading.position.leave.1, outer, reading.started⟩, [.ended last])

def take (reading : Reading) (text : String) : Reading :=
  { reading with
    inside := reading.inside.map (Element.hear [.text text reading.position.location]) }

/-- The reader after one thing more is done, and what it reports. -/
def act (reading : Reading) : Act → Reading × List Report
  | .enter name attributes => reading.enter name attributes
  | .leave => reading.leave
  | .take text => (reading.take text, [])

/-- The elements a reader is in, as they were numbered. -/
def unended (reading : Reading) : List (StartTag × Nat) := reading.inside.map Element.numbered

end Reading

/-- Elements one inside the other, with the location of the innermost. -/
inductive Nest : List Element → Pattern → Prop where
  | outside : Nest [] .empty
  | inside {outer : List Element} {location : Pattern} (e : Element) (component : Component) :
    Nest outer location → e.tag.location = location.push component →
      Nest (e :: outer) e.tag.location

end Definitions

theorem perform_append {State Result : Type} (act : State → Act → State × List Result)
    (state : State) (before later : List Act) :
    perform act state (before ++ later) =
      ((perform act (perform act state before).1 later).1,
        (perform act state before).2 ++ (perform act (perform act state before).1 later).2) := by
  induction before generalizing state with
  | nil => rfl
  | cons a rest ih =>
    simp only [List.cons_append, perform]
    rw [ih]
    simp [List.append_assoc]

section Nesting
variable {inside : List Element} {location : Pattern} {reading : Reading}

theorem nest_hear (nest : Nest inside location) (notices : List Notice) :
    Nest (inside.map (Element.hear notices)) location := by
  induction nest with
  | outside => exact .outside
  | inside e component _ below ih => exact .inside (e.hear notices) component ih below

theorem nest_length (nest : Nest inside location) : location.length = inside.length := by
  induction nest with
  | outside => rfl
  | inside e component _ below ih => rw [below, Pattern.length_push, ih, List.length_cons]

theorem nest_outside (nest : Nest [] location) : location = .empty := by
  cases nest
  rfl

/-- The elements that a location is in are no deeper than it is. -/
theorem nest_around (nest : Nest inside location) :
    ∀ e ∈ inside, e.tag.location.length ≤ location.length := by
  induction nest with
  | outside => simp
  | inside e component _ below ih =>
    refine List.forall_mem_cons.mpr ⟨le_rfl, fun o outer => ?_⟩
    rw [below, Pattern.length_push]
    exact Nat.le_succ_of_le (ih o outer)

/-- Further out is less deep. -/
theorem nest_ordered (nest : Nest inside location) :
    inside.Pairwise fun inner outer => outer.tag.location.length ≤ inner.tag.location.length := by
  induction nest with
  | outside => exact .nil
  | inside e component outer below ih =>
    refine .cons (fun o member => ?_) ih
    rw [below, Pattern.length_push]
    exact Nat.le_succ_of_le (nest_around outer o member)

theorem enter_nests (nest : Nest reading.inside reading.position.location) (name : String)
    (attributes : List Attribute) :
    let entered := (reading.enter name attributes).1
    Nest entered.inside entered.position.location :=
  .inside _ _ (nest_hear nest _) rfl

theorem leave_nests (nest : Nest reading.inside reading.position.location) :
    Nest reading.leave.1.inside reading.leave.1.position.location := by
  obtain ⟨⟨location, scopes⟩, inside, started⟩ := reading
  cases nest with
  | outside => exact .outside
  | inside e component outer below =>
    change Nest (List.map _ _) (Position.leave ⟨e.tag.location, scopes⟩).1.location
    have left : (Position.leave ⟨e.tag.location, scopes⟩).1.location = e.tag.location.pop := by
      rw [below]
      simp [Position.leave, Pattern.isEmpty, Pattern.push]
    rw [left, below, Pattern.pop_push]
    exact nest_hear outer _

theorem act_nests (nest : Nest reading.inside reading.position.location) (a : Act) :
    Nest (reading.act a).1.inside (reading.act a).1.position.location := by
  cases a with
  | enter name attributes => exact enter_nests nest name attributes
  | leave => exact leave_nests nest
  | take text => exact nest_hear nest _

theorem perform_nests (nest : Nest reading.inside reading.position.location) (acts : List Act) :
    let last := (perform Reading.act reading acts).1
    Nest last.inside last.position.location := by
  induction acts generalizing reading with
  | nil => exact nest
  | cons a rest ih => exact ih (act_nests nest a)

end Nesting

section Levels
variable {reading : Reading}

theorem inside_after_act (reading : Reading) (a : Act) :
    (reading.act a).1.inside.length = levelBy reading.inside.length a := by
  cases a with
  | enter name attributes => simp [Reading.act, Reading.enter, levelBy]
  | leave =>
    obtain ⟨position, inside, started⟩ := reading
    cases inside <;> simp [Reading.act, Reading.leave, levelBy]
  | take text => simp [Reading.act, Reading.take, levelBy]

theorem inside_after (reading : Reading) (acts : List Act) :
    (perform Reading.act reading acts).1.inside.length =
      acts.foldl levelBy reading.inside.length := by
  induction acts generalizing reading with
  | nil => rfl
  | cons a rest ih =>
    rw [List.foldl_cons, ← inside_after_act]
    exact ih (reading.act a).1

theorem level_after_leaving (level count : Nat) :
    (List.replicate count Act.leave).foldl levelBy level = level - count := by
  induction count generalizing level with
  | zero => rfl
  | succ count ih =>
    rw [List.replicate_succ, List.foldl_cons, ih, levelBy]
    omega

/-- A document leaves nothing open. -/
theorem document_level (document : List UInt8) : (acts document).foldl levelBy 0 = 0 := by
  rw [acts, List.foldl_append, level_after_leaving, Nat.sub_self]

/-- Whatever the document, its reader ends outside all elements. -/
theorem document_ends (scopes : Scopes) (document : List UInt8) :
    (perform Reading.act (.begin scopes) (acts document)).1.inside = [] :=
  List.eq_nil_of_length_eq_zero ((inside_after _ _).trans (document_level document))

theorem level_by_acts (level : Nat) (event : Event) :
    (actsOf event).foldl levelBy level = levelAfter level event := by
  cases event with
  | opened name attributes selfClosing => cases selfClosing <;> rfl
  | closed name => rfl
  | characters text => rfl

theorem roomy_cons {level : Nat} {a : Act} {rest : List Act} (here : level ≤ 65535)
    (later : Roomy (levelBy level a) rest) : Roomy level (a :: rest) := by
  intro done first
  rcases List.prefix_cons_iff.mp first with rfl | ⟨more, rfl, within⟩
  · exact here
  · exact later more within

theorem roomy_uncons {level : Nat} {a : Act} {rest : List Act} (roomy : Roomy level (a :: rest)) :
    levelBy level a ≤ 65535 ∧ Roomy (levelBy level a) rest := by
  have later : Roomy (levelBy level a) rest := fun done first =>
    roomy (a :: done) ((List.prefix_cons_inj a).mpr first)
  exact ⟨later [] List.nil_prefix, later⟩

theorem roomy_nil {level : Nat} (here : level ≤ 65535) : Roomy level [] := by
  intro done first
  rw [List.prefix_nil.mp first]
  exact here

theorem roomy_append {level : Nat} {before later : List Act} (first : Roomy level before)
    (second : Roomy (before.foldl levelBy level) later) : Roomy level (before ++ later) := by
  intro done begins
  rcases List.prefix_or_prefix_of_prefix begins (List.prefix_append before later) with within | past
  · exact first done within
  · obtain ⟨more, rfl⟩ := past
    rw [List.foldl_append]
    exact second more ((List.prefix_append_right_inj before).mp begins)

theorem event_roomy {level : Nat} {event : Event} (room : levelIn level event ≤ 65535) :
    Roomy level (actsOf event) := by
  cases event with
  | opened name attributes selfClosing =>
    have outside : level ≤ 65535 := Nat.le_of_succ_le room
    cases selfClosing with
    | false => exact roomy_cons outside (roomy_nil room)
    | true => exact roomy_cons outside (roomy_cons room (roomy_nil outside))
  | closed name => exact roomy_cons room (roomy_nil ((Nat.sub_le _ _).trans room))
  | characters text => exact roomy_cons room (roomy_nil room)

theorem events_roomy {level : Nat} {events : List Event} (room : deepest level events ≤ 65535) :
    Roomy level (events.flatMap actsOf) := by
  induction events generalizing level with
  | nil => exact roomy_nil room
  | cons event rest ih =>
    obtain ⟨here, later⟩ := Nat.max_le.mp room
    rw [List.flatMap_cons]
    refine roomy_append (event_roomy here) ?_
    rw [level_by_acts]
    exact ih later

theorem leaving_roomy {level : Nat} (here : level ≤ 65535) (count : Nat) :
    Roomy level (.replicate count .leave) := by
  induction count generalizing level with
  | zero => exact roomy_nil here
  | succ count ih => exact roomy_cons here (ih ((Nat.sub_le _ _).trans here))

/-- A document that is not too deep never is on the way. -/
theorem document_roomy {document : List UInt8} (shallow : Shallow document) :
    Roomy 0 (acts document) := by
  have told := events_roomy shallow
  exact roomy_append told (leaving_roomy (told _ (List.prefix_refl _)) _)

end Levels

section Depth
variable {position : Position} {reading : Reading}

/-- The depth of the scopes at a position is that of its location. -/
def Counted (position : Position) : Prop :=
  position.scopes.depth.toNat = position.location.length

theorem depth_declare_all (scopes : Scopes) (declared : List (String × String)) :
    (declareAll scopes declared).depth = scopes.depth := by
  induction declared generalizing scopes with
  | nil => rfl
  | cons first rest ih =>
    have same : (scopes.declare first.1 first.2).depth = scopes.depth := by
      unfold Scopes.declare
      split <;> rfl
    exact (ih _).trans same

theorem enter_counted (counted : Counted position) (room : position.location.length < 65535)
    (name : String) (attributes : List Attribute) :
    Counted (position.enter name attributes).1 := by
  have declared : (position.enter name attributes).1.scopes.depth = position.scopes.push.depth :=
    depth_declare_all _ _
  unfold Counted at counted ⊢
  rw [declared, length_enter, depth_push (counted.trans_lt room), counted]

theorem leave_counted (counted : Counted position) : Counted position.leave.1 := by
  have shorter := length_leave position
  unfold Position.leave at shorter ⊢
  split at shorter
  · rename_i outside
    rw [if_pos outside]
    exact counted
  · rename_i within
    rw [if_neg within]
    exact (depth_pop position.scopes).trans ((congrArg (· - 1) counted).trans shorter.symm)

/-- A reader in the elements of its location leaves one when its position does. -/
theorem position_after_leave (nest : Nest reading.inside reading.position.location) :
    reading.leave.1.position = reading.position.leave.1 := by
  obtain ⟨⟨location, scopes⟩, inside, started⟩ := reading
  cases nest <;> rfl

theorem act_counted (nest : Nest reading.inside reading.position.location)
    (counted : Counted reading.position) {a : Act}
    (room : levelBy reading.inside.length a ≤ 65535) :
    Counted (reading.act a).1.position := by
  cases a with
  | enter name attributes =>
    rw [← nest_length nest] at room
    exact enter_counted counted room name attributes
  | leave =>
    rw [Reading.act, position_after_leave nest]
    exact leave_counted counted
  | take text => exact counted

theorem perform_counted (nest : Nest reading.inside reading.position.location)
    (counted : Counted reading.position) {acts : List Act}
    (roomy : Roomy reading.inside.length acts) :
    Counted (perform Reading.act reading acts).1.position := by
  induction acts generalizing reading with
  | nil => exact counted
  | cons a rest ih =>
    obtain ⟨here, later⟩ := roomy_uncons roomy
    rw [← inside_after_act] at later
    exact ih (act_nests nest a) (act_counted nest counted here) later

/-- The scopes are as deep as the location all the way through a document. -/
theorem document_counted {scopes : Scopes} (outermost : scopes.depth = 0) {document : List UInt8}
    (shallow : Shallow document) {done : List Act} (first : done <+: acts document) :
    Counted (perform Reading.act (.begin scopes) done).1.position := by
  have begun : Counted (Reading.begin scopes).position := congrArg UInt16.toNat outermost
  have roomy : Roomy 0 done := fun part within => document_roomy shallow part (within.trans first)
  exact perform_counted .outside begun roomy

end Depth

section Conservation
variable {reading : Reading} {reports : List Report} {tag : StartTag} {number : Nat} {e : Element}

@[simp] theorem starts_cons_started :
    startsIn (.started tag number :: reports) = (tag, number) :: startsIn reports := rfl

@[simp] theorem starts_cons_ended : startsIn (.ended e :: reports) = startsIn reports := rfl

@[simp] theorem ends_cons_started : endsIn (.started tag number :: reports) = endsIn reports := rfl

@[simp] theorem ends_cons_ended : endsIn (.ended e :: reports) = e.numbered :: endsIn reports := rfl

theorem starts_append (before later : List Report) :
    startsIn (before ++ later) = startsIn before ++ startsIn later := List.filterMap_append

theorem ends_append (before later : List Report) :
    endsIn (before ++ later) = endsIn before ++ endsIn later := List.filterMap_append

theorem numbered_hear (notices : List Notice) (inside : List Element) :
    (inside.map (Element.hear notices)).map Element.numbered = inside.map Element.numbered :=
  List.map_map

/-- With one thing done, an element that was open is open still or ends, and one that starts is
open. -/
theorem act_conserves (reading : Reading) (a : Act) :
    (endsIn (reading.act a).2 ++ (reading.act a).1.unended).Perm
      (reading.unended ++ startsIn (reading.act a).2) := by
  cases a with
  | enter name attributes =>
    have entered : (reading.enter name attributes).1.unended =
        (StartTag.read reading.position name attributes, reading.started) :: reading.unended :=
      congrArg (List.cons _) (numbered_hear _ _)
    rw [Reading.act, entered]
    exact (List.perm_append_singleton _ reading.unended).symm
  | leave =>
    obtain ⟨position, inside, started⟩ := reading
    cases inside with
    | nil => exact .refl _
    | cons e outer =>
      refine .of_eq ?_
      change e.numbered :: (outer.map _).map Element.numbered = e.numbered :: outer.map _ ++ []
      rw [numbered_hear, List.append_nil]
  | take text =>
    refine .of_eq ?_
    change (reading.inside.map _).map Element.numbered = reading.inside.map _ ++ []
    rw [numbered_hear, List.append_nil]

/-- What was open at first and what has started since are what has ended and what is open. -/
theorem perform_conserves (reading : Reading) (acts : List Act) :
    let last := perform Reading.act reading acts
    (endsIn last.2 ++ last.1.unended).Perm (reading.unended ++ startsIn last.2) := by
  induction acts generalizing reading with
  | nil => exact .of_eq (List.append_nil _).symm
  | cons a rest ih =>
    have now := act_conserves reading a
    have later := ih (reading.act a).1
    rw [perform]
    dsimp only
    rw [ends_append, starts_append, List.append_assoc, ← List.append_assoc reading.unended]
    refine (later.append_left _).trans ?_
    rw [← List.append_assoc]
    exact now.append_right _

/-- Each element of a document that starts ends, and none ends twice. -/
theorem starts_end (scopes : Scopes) (document : List UInt8) :
    let reports := (perform Reading.act (.begin scopes) (acts document)).2
    (endsIn reports).Perm (startsIn reports) := by
  intro reports
  let last := (perform Reading.act (.begin scopes) (acts document)).1
  have all : (endsIn reports ++ last.unended).Perm ([] ++ startsIn reports) :=
    perform_conserves (.begin scopes) (acts document)
  have nothing : last.unended = [] :=
    congrArg (List.map Element.numbered) (document_ends scopes document)
  rw [nothing, List.append_nil] at all
  exact all

end Conservation

section Order
variable {reading : Reading}

/-- Leaving starts nothing. -/
theorem leave_starts_nothing (reading : Reading) :
    startsIn reading.leave.2 = [] ∧ reading.leave.1.started = reading.started := by
  unfold Reading.leave
  split <;> exact ⟨rfl, rfl⟩

theorem leaving_starts_nothing (reading : Reading) (count : Nat) :
    startsIn (perform Reading.act reading (.replicate count .leave)).2 = [] := by
  induction count generalizing reading with
  | zero => rfl
  | succ count ih =>
    rw [List.replicate_succ, perform]
    dsimp only
    rw [starts_append, ih, List.append_nil]
    exact (leave_starts_nothing reading).1

theorem position_after_event (nest : Nest reading.inside reading.position.location)
    (event : Event) :
    (perform Reading.act reading (actsOf event)).1.position = (reading.position.step event).1 := by
  cases event with
  | opened name attributes selfClosing =>
    cases selfClosing with
    | false => rfl
    | true => exact position_after_leave (enter_nests nest name attributes)
  | closed name => exact position_after_leave nest
  | characters text => rfl

/-- An event starts the element of its start tag, which has the next number. -/
theorem event_starts (reading : Reading) (event : Event) :
    let tags := (startTag? reading.position event).toList
    startsIn (perform Reading.act reading (actsOf event)).2 = tags.zipIdx reading.started ∧
      (perform Reading.act reading (actsOf event)).1.started = reading.started + tags.length := by
  cases event with
  | opened name attributes selfClosing =>
    cases selfClosing with
    | false => exact ⟨rfl, rfl⟩
    | true =>
      let entered := reading.enter name attributes
      obtain ⟨silent, started⟩ := leave_starts_nothing entered.1
      refine ⟨?_, started⟩
      change startsIn (entered.2 ++ (entered.1.leave.2 ++ [])) = _
      rw [List.append_nil, starts_append, silent]
      rfl
  | closed name =>
    obtain ⟨silent, started⟩ := leave_starts_nothing reading
    refine ⟨?_, started⟩
    change startsIn (reading.leave.2 ++ []) = _
    rw [List.append_nil, silent]
    rfl
  | characters text => exact ⟨rfl, rfl⟩

theorem events_start (nest : Nest reading.inside reading.position.location) (events : List Event) :
    startsIn (perform Reading.act reading (events.flatMap actsOf)).2 =
      (startTags reading.position events).zipIdx reading.started := by
  induction events generalizing reading with
  | nil => rfl
  | cons event rest ih =>
    obtain ⟨now, next⟩ := event_starts reading event
    have later := ih (perform_nests nest (actsOf event))
    rw [List.flatMap_cons, perform_append, starts_append, later, now, next,
      position_after_event nest, startTags, List.zipIdx_append]

/-- The elements of a document start with its start tags, numbered in order. -/
theorem document_starts (scopes : Scopes) (document : List UInt8) :
    startsIn (perform Reading.act (.begin scopes) (acts document)).2 =
      (startTags ⟨.empty, scopes⟩ (events document)).zipIdx := by
  rw [acts, perform_append, starts_append, leaving_starts_nothing, List.append_nil]
  exact events_start .outside (events document)

end Order

end RangeIndex.ElementReading
