import RangeIndex.Entry.Indexer

/-! The trail of a document: the starts, attributes, texts and ends met in it, in order, each with
its location. An element is a stretch of the trail from its start to the end that belongs to it, and
what lies between never leaves its location. The trail depends on the document and the scopes it is
read in, not on any rules. Every document has one, whether or not it is well formed, and in each of
them all elements that start also end. -/
namespace RangeIndex.DocumentTrail

section Locations
variable {outer inner : Pattern}

/-- A location is another one or around it. -/
def Above (outer inner : Pattern) : Prop := ∃ below, inner = outer.joined below

theorem above_refl (location : Pattern) : Above location location :=
  ⟨.empty, by simp [Pattern.joined, Pattern.empty]⟩

theorem above_trans {middle : Pattern} (first : Above outer middle) (second : Above middle inner) :
    Above outer inner := by
  obtain ⟨upper, rfl⟩ := first
  obtain ⟨lower, rfl⟩ := second
  exact ⟨upper.joined lower, Pattern.joined_assoc _ _ _⟩

theorem above_push (location : Pattern) (component : Component) :
    Above location (location.push component) := ⟨⟨[component], false⟩, rfl⟩

theorem above_length (above : Above outer inner) : outer.length ≤ inner.length := by
  obtain ⟨below, rfl⟩ := above
  simp

/-- One level down there is one more location around: the location there. -/
theorem above_of_push {component : Component} (above : Above outer (inner.push component)) :
    outer = inner.push component ∨ Above outer inner := by
  obtain ⟨⟨below, ends⟩, same⟩ := above
  rcases List.eq_nil_or_concat below with rfl | ⟨upper, last, rfl⟩
  · exact .inl (by simpa [Pattern.joined] using same.symm)
  · right
    simp only [Pattern.push, Pattern.joined, Pattern.mk.injEq, List.concat_eq_append] at same
    obtain ⟨levels, closed⟩ := same
    rw [← List.append_assoc] at levels
    have upTo : inner.components = outer.components ++ upper := (List.append_inj' levels rfl).1
    exact ⟨⟨upper, ends⟩, by rw [Pattern.joined, ← upTo, ← closed]⟩

theorem above_parent {component : Component} (above : Above outer (inner.push component))
    (shallow : outer.length < (inner.push component).length) : Above outer inner := by
  refine (above_of_push above).resolve_left fun same => ?_
  exact absurd (congrArg Pattern.length same) (Nat.ne_of_lt shallow)

/-- Nothing around a location is as deep as the location itself. -/
theorem above_antisymm (above : Above outer inner) (deep : inner.length ≤ outer.length) :
    outer = inner := by
  obtain ⟨⟨below, ends⟩, rfl⟩ := above
  have nothing : below = [] := by
    rw [Pattern.length_joined] at deep
    exact List.eq_nil_of_length_eq_zero (by simp only [Pattern.length] at deep; omega)
  simp [nothing, Pattern.joined]

theorem nonempty_is_push {location : Pattern} (nonempty : location.isEmpty = false) :
    ∃ (upper : Pattern) (last : Component), location = upper.push last := by
  obtain ⟨components, closed⟩ := location
  rcases List.eq_nil_or_concat components with rfl | ⟨upper, last, rfl⟩
  · cases nonempty
  · exact ⟨⟨upper, closed⟩, last, by simp [Pattern.push]⟩

end Locations

/-- Something met in a document. -/
inductive Notice where
  /-- An element starts. -/
  | start (location : Pattern)
  | attributeValue (value : String) (location : Pattern)
  /-- Text right inside the element at the location. -/
  | text (content : String) (location : Pattern)
  /-- An element ends. -/
  | close (location : Pattern)
deriving DecidableEq

/-- What is met next, and the location after it. -/
inductive Moves : Pattern → Notice → Pattern → Prop where
  | start (here : Pattern) (component : Component) :
    Moves here (.start (here.push component)) (here.push component)
  | attributeValue (here : Pattern) (value : String) (component : Component) :
    Moves here (.attributeValue value (here.push component)) here
  | text (here : Pattern) (content : String) : Moves here (.text content here) here
  | close (here : Pattern) (component : Component) :
    Moves (here.push component) (.close (here.push component)) here

/-- A stretch of a trail from a location that never leaves it, and the location at its end. -/
inductive Inside (outer : Pattern) : List Notice → Pattern → Prop where
  | begin : Inside outer [] outer
  | next {trail : List Notice} {notice : Notice} {here there : Pattern} :
    Inside outer trail here → Moves here notice there → Above outer there →
      Inside outer (trail ++ [notice]) there

theorem inside_above {outer here : Pattern} {trail : List Notice}
    (inside : Inside outer trail here) : Above outer here := by
  cases inside with
  | begin => exact above_refl _
  | next _ _ above => exact above

/-- An element that has started at a location and not ended, and what was met in it so far. -/
def Opened (trail : List Notice) (location : Pattern) (inner : List Notice) (here : Pattern) : Prop :=
  (∃ before, trail = before ++ .start location :: inner) ∧ Inside location inner here

/-- An element of a trail, by its location and all that was met in it. -/
def IsElement (trail : List Notice) (location : Pattern) (inner : List Notice) : Prop :=
  (∃ before after, trail = before ++ .start location :: (inner ++ .close location :: after)) ∧
    Inside location inner location

section Elements
variable {trail inner : List Notice} {location here there : Pattern} {notice : Notice}

theorem opened_at_start (trail : List Notice) (location : Pattern) :
    Opened (trail ++ [.start location]) location [] location := ⟨⟨trail, rfl⟩, .begin⟩

/-- An open element takes in what is met next, as long as that is still in it. -/
theorem opened_next (opened : Opened trail location inner here) (moves : Moves here notice there)
    (stays : Above location there) :
    Opened (trail ++ [notice]) location (inner ++ [notice]) there := by
  obtain ⟨⟨before, same⟩, inside⟩ := opened
  exact ⟨⟨before, by simp [same]⟩, inside.next moves stays⟩

/-- An open element is complete when its end is met. -/
theorem element_of_opened (opened : Opened trail location inner location) :
    IsElement (trail ++ [.close location]) location inner := by
  obtain ⟨⟨before, same⟩, inside⟩ := opened
  exact ⟨⟨before, [], by simp [same]⟩, inside⟩

theorem element_append (element : IsElement trail location inner) (later : List Notice) :
    IsElement (trail ++ later) location inner := by
  obtain ⟨⟨before, after, same⟩, inside⟩ := element
  exact ⟨⟨before, after ++ later, by simp [same]⟩, inside⟩

/-- What is met in an element, its start and end included, is met in the trail. -/
theorem met_in_element (element : IsElement trail location inner)
    (met : notice ∈ Notice.start location :: (inner ++ [.close location])) : notice ∈ trail := by
  obtain ⟨⟨before, after, same⟩, _⟩ := element
  rw [same]
  refine List.mem_append_right before ?_
  rcases List.mem_cons.mp met with start | met
  · exact List.mem_cons.mpr (.inl start)
  · rcases List.mem_append.mp met with within | close
    · exact List.mem_cons_of_mem _ (List.mem_append_left _ within)
    · rw [List.mem_singleton.mp close]
      simp

end Elements

/-- Nested things are listed by depth, and those to be ended come first or last: where passing a test
carries over to all that stands before, nothing after the first failure passes. -/
theorem fails_once_failed {α : Type} {test : α → Bool} {items : List α}
    (ordered : items.Pairwise fun first second => test second = true → test first = true) :
    ∀ item ∈ items.dropWhile test, test item = false := by
  induction items with
  | nil => simp
  | cons first rest ih =>
    obtain ⟨before, ordered⟩ := List.pairwise_cons.mp ordered
    intro item member
    by_cases passes : test first = true
    · rw [List.dropWhile_cons_of_pos passes] at member
      exact ih ordered item member
    · rw [List.dropWhile_cons_of_neg passes] at member
      rcases List.mem_cons.mp member with rfl | later
      · simpa using passes
      · exact Bool.eq_false_iff.mpr fun passing => passes (before item later passing)

/-- Where a reader of a document is, and the scopes there. -/
structure Position where
  location : Pattern
  scopes : Scopes

namespace Position

/-- Enter an element: its start is met, then each attribute that declares nothing. -/
def enter (position : Position) (name : String) (attributes : List Markup.Attribute) :
    Position × List Notice :=
  let scopes := (attributes.filterMap declaredBy?).foldl
    (fun scopes (label, space) => scopes.declare label space) position.scopes.push
  let location := position.location.push (.named (scopes.elementName name))
  let values := (attributes.filter fun a => (declaredBy? a).isNone).map fun a =>
    .attributeValue a.value (location.push (.named (scopes.attributeName a.name)))
  (⟨location, scopes⟩, .start location :: values)

/-- Leave the current element, if there is one: its end is met. -/
def leave (position : Position) : Position × List Notice :=
  if position.location.isEmpty then (position, [])
  else (⟨position.location.pop, position.scopes.pop⟩, [.close position.location])

/-- The position after one more event, and what is met. -/
def step (position : Position) : Markup.Event → Position × List Notice
  | .opened name attributes selfClosing =>
    let (inner, met) := position.enter name attributes
    if selfClosing then
      let (outer, later) := inner.leave
      (outer, met ++ later)
    else (inner, met)
  | .closed _ => position.leave
  | .characters text => (position, [.text text position.location])

/-- The position after a list of events, and what is met. -/
def run : Position → List Markup.Event → Position × List Notice
  | position, [] => (position, [])
  | position, event :: rest =>
    let (next, met) := position.step event
    let (last, later) := run next rest
    (last, met ++ later)

/-- Leave the elements still open, so many of them at most. -/
def leaveAll : Nat → Position → Position × List Notice
  | 0, position => (position, [])
  | count + 1, position =>
    let (next, met) := position.leave
    let (last, later) := leaveAll count next
    (last, met ++ later)

end Position

/-- All that is met in a document read after others have left their scopes. -/
def trailOf (scopes : Scopes) (document : List UInt8) : List Notice :=
  let (last, met) := Position.run ⟨.empty, scopes.clear⟩ (Markup.events document)
  met ++ (last.leaveAll last.location.length).2

section Balance
variable {trail : List Notice} {here there : Pattern} {notice : Notice} {position : Position}

theorem moves_closed (moves : Moves here notice there) : there.closed = here.closed := by
  cases moves <;> rfl

theorem document_above (opened : here.closed = false) : Above .empty here := by
  obtain ⟨components, closed⟩ := here
  exact ⟨⟨components, closed⟩, congrArg (Pattern.mk components) opened⟩

/-- No step leads out of the document. -/
theorem document_next (inside : Inside .empty trail here) (moves : Moves here notice there) :
    Inside .empty (trail ++ [notice]) there := by
  obtain ⟨location, rfl⟩ := inside_above inside
  exact inside.next moves (document_above (moves_closed moves))

theorem document_stays {notices : List Notice} (inside : Inside .empty trail here)
    (stay : ∀ notice ∈ notices, Moves here notice here) : Inside .empty (trail ++ notices) here := by
  induction notices generalizing trail with
  | nil => simpa using inside
  | cons notice rest ih =>
    obtain ⟨first, others⟩ := List.forall_mem_cons.mp stay
    simpa using ih (document_next inside first) others

theorem enter_inside (inside : Inside .empty trail position.location) (name : String)
    (attributes : List Markup.Attribute) :
    Inside .empty (trail ++ (position.enter name attributes).2)
      (position.enter name attributes).1.location := by
  unfold Position.enter
  dsimp only
  rw [List.append_cons]
  refine document_stays (document_next inside (.start position.location _)) ?_
  exact List.forall_mem_map.mpr fun a _ => .attributeValue _ a.value _

theorem leave_inside (inside : Inside .empty trail position.location) :
    Inside .empty (trail ++ position.leave.2) position.leave.1.location := by
  unfold Position.leave
  split
  · simpa using inside
  · rename_i within
    obtain ⟨upper, last, same⟩ := nonempty_is_push (Bool.eq_false_iff.mpr within)
    rw [same] at inside ⊢
    simpa using document_next inside (.close upper last)

theorem step_inside (inside : Inside .empty trail position.location) (event : Markup.Event) :
    Inside .empty (trail ++ (position.step event).2) (position.step event).1.location := by
  cases event with
  | opened name attributes selfClosing =>
    have entered := enter_inside inside name attributes
    cases selfClosing with
    | false => exact entered
    | true =>
      have left := leave_inside entered
      rw [List.append_assoc] at left
      exact left
  | closed name => exact leave_inside inside
  | characters text => exact document_next inside (.text position.location text)

theorem run_inside (inside : Inside .empty trail position.location) (events : List Markup.Event) :
    Inside .empty (trail ++ (position.run events).2) (position.run events).1.location := by
  induction events generalizing trail position with
  | nil => simpa [Position.run] using inside
  | cons event rest ih =>
    have later := ih (step_inside inside event)
    rw [List.append_assoc] at later
    exact later

theorem leave_all_inside (inside : Inside .empty trail position.location) (count : Nat) :
    Inside .empty (trail ++ (position.leaveAll count).2) (position.leaveAll count).1.location := by
  induction count generalizing trail position with
  | zero => simpa [Position.leaveAll] using inside
  | succ count ih =>
    have later := ih (leave_inside inside)
    rw [List.append_assoc] at later
    exact later

theorem length_leave (position : Position) :
    position.leave.1.location.length = position.location.length - 1 := by
  unfold Position.leave
  split
  · rename_i outside
    have nothing : position.location.length = 0 := by simpa [Pattern.length, Pattern.isEmpty] using outside
    rw [nothing]
  · rename_i within
    obtain ⟨upper, last, same⟩ := nonempty_is_push (Bool.eq_false_iff.mpr within)
    simp [same]

theorem length_leave_all (count : Nat) (position : Position) :
    (position.leaveAll count).1.location.length = position.location.length - count := by
  induction count generalizing position with
  | zero => rfl
  | succ count ih =>
    have later := ih position.leave.1
    rw [length_leave] at later
    simpa [Position.leaveAll, Nat.sub_sub, Nat.add_comm] using later

/-- Leaving all that is open leads outside all elements. -/
theorem leave_all_outside (inside : Inside .empty trail position.location) :
    (position.leaveAll position.location.length).1.location = .empty := by
  have left := leave_all_inside inside position.location.length
  have outside : (position.leaveAll position.location.length).1.location.length = 0 := by
    rw [length_leave_all, Nat.sub_self]
  exact (above_antisymm (inside_above left) (Nat.le_of_eq outside)).symm

/-- In every document each element that starts also ends, and nothing around it ends before. -/
theorem trail_balanced (scopes : Scopes) (document : List UInt8) :
    Inside .empty (trailOf scopes document) .empty := by
  let start : Position := ⟨.empty, scopes.clear⟩
  let read := start.run (Markup.events document)
  have ran : Inside .empty ([] ++ read.2) read.1.location :=
    run_inside (.begin : Inside .empty [] start.location) (Markup.events document)
  have left := leave_all_inside ran read.1.location.length
  rw [leave_all_outside ran] at left
  exact left

end Balance

end RangeIndex.DocumentTrail
