import Mathlib.Data.List.Induction
import RangeIndex.Configuration.Reading
import RangeIndex.Proofs.TreeOutlines

/-! A configuration is accepted as a tree when it is one. As long as no fault is found, the outline
shows what the tags read so far belong to: trees that are finished, and the elements still open, each
with the trees finished in it. Faults stay, so an outline without any has been without at every step. -/
namespace RangeIndex.OutlineNesting
open Markup RangeIndex.Configuration ElementTrees TreeOutlines

section Definitions

/-- An element whose end tag is still to come, with the trees finished in it. -/
structure Frame where
  name : String
  attributes : List Attribute
  finished : List Tree

/-- The bindings in force inside open elements, the innermost first. -/
def bindingsIn : List Frame → Bindings
  | [] => .initial
  | frame :: outer => (Element.ofTag (bindingsIn outer) frame.name frame.attributes).bindings

/-- What open elements are outlined as. -/
def openElements : List Frame → List Element
  | [] => []
  | frame :: outer =>
    { Element.ofTag (bindingsIn outer) frame.name frame.attributes with
      children := outlinedAll (bindingsIn (frame :: outer)) frame.finished } :: openElements outer

/-- Tags of a document that may go on: those of finished trees, and then those of open elements from
the outermost on, each followed by the trees finished in it. -/
inductive Begins (finished : List Tree) : List Frame → List Event → Prop where
  | outside {events : List Event} (spelled : Spells finished events) : Begins finished [] events
  | inside {frame : Frame} {outer : List Frame} {events content : List Event}
      (before : Begins finished outer events) (spelled : Spells frame.finished content) :
      Begins finished (frame :: outer)
        (events ++ .opened frame.name frame.attributes false :: content)

/-- An outline that shows finished trees and open elements. More than one tree would be a fault. -/
structure Reads (finished : List Tree) (frames : List Frame) (outline : Outline) : Prop where
  opened : outline.opened = openElements frames
  root : outline.root = finished.head?.map (outlined .initial)
  single : finished.length ≤ 1

end Definitions

section Faults
variable {outline : Outline}

theorem faults_report (outline : Outline) (fault : NestingFault) :
    outline.faults <+: (outline.report fault).faults := List.prefix_append _ _

theorem faults_place (outline : Outline) (element : Element) :
    outline.faults <+: (outline.place element).faults := by
  unfold Outline.place
  split
  · exact List.prefix_refl _
  · exact List.prefix_refl _
  · exact faults_report outline _

/-- Faults stay. -/
theorem faults_add (outline : Outline) (event : Event) :
    outline.faults <+: (outline.add event).faults := by
  cases event with
  | characters text => exact List.prefix_refl _
  | opened name attributes short =>
    cases short with
    | true => exact faults_place outline _
    | false => exact List.prefix_refl _
  | closed name =>
    rw [Outline.add]
    dsimp only
    split
    · exact faults_report outline _
    · rename_i element outer _
      let closed : Outline := { outline with opened := outer }
      have stay : outline.faults <+: closed.faults := List.prefix_refl _
      split
      · exact stay.trans (faults_place closed element)
      · exact (stay.trans (faults_report closed _)).trans (faults_place _ element)

theorem close_one {element : Element} {outer : List Element} (count : Nat)
    (opened : outline.opened = element :: outer) :
    Outline.closeOpen (count + 1) outline =
      Outline.closeOpen count
        (({ outline with opened := outer }.report (.unclosed element.tag)).place element) := by
  rw [Outline.closeOpen, opened]

theorem faults_close (count : Nat) (outline : Outline) :
    outline.faults <+: (Outline.closeOpen count outline).faults := by
  induction count generalizing outline with
  | zero => exact List.prefix_refl _
  | succ count ih =>
    cases opened : outline.opened with
    | nil =>
      have stays : Outline.closeOpen (count + 1) outline = outline := by
        rw [Outline.closeOpen, opened]
      exact ⟨[], by rw [List.append_nil, stays]⟩
    | cons element outer =>
      rw [close_one count opened]
      have reported := faults_report { outline with opened := outer } (.unclosed element.tag)
      exact (List.IsPrefix.trans reported (faults_place _ element)).trans (ih _)

/-- An element left open is a fault. -/
theorem all_closed (faultless : (Outline.closeOpen outline.opened.length outline).faults = []) :
    outline.opened = [] := by
  cases opened : outline.opened with
  | nil => rfl
  | cons element outer =>
    rw [opened, List.length_cons, close_one outer.length opened] at faultless
    have stays := (faults_place _ element).trans (faults_close outer.length
      ((Outline.report { outline with opened := outer } (.unclosed element.tag)).place element))
    rw [faultless, List.prefix_nil] at stays
    simp [Outline.report] at stays

end Faults

section Steps
variable {finished : List Tree} {frames : List Frame} {outline : Outline} {events own : List Event}
  {tree : Tree}

theorem begun_outside (begins : Begins finished [] events) : Spells finished events := by
  cases begins with
  | outside spelled => exact spelled

theorem bindings_of_reads (reads : Reads finished frames outline) :
    outline.bindings = bindingsIn frames := by
  rw [Outline.bindings, reads.opened]
  cases frames <;> rfl

/-- Without a fault, a finished element is the first one or goes into an open one. -/
theorem place_cases {element : Element} (faultless : (outline.place element).faults = []) :
    (outline.opened = [] ∧ outline.root = none ∧
        outline.place element = { outline with root := some element }) ∨
      ∃ parent outer, outline.opened = parent :: outer ∧
        outline.place element = { outline with opened := parent.addChild element :: outer } := by
  cases opened : outline.opened with
  | cons parent outer => exact .inr ⟨parent, outer, rfl, by simp [Outline.place, opened]⟩
  | nil =>
    cases root : outline.root with
    | none => exact .inl ⟨rfl, rfl, by simp [Outline.place, opened, root]⟩
    | some first => simp [Outline.place, opened, root, Outline.report] at faultless

/-- A tree that ends is finished in the innermost open element, or else as the root. -/
theorem place_reads (before : Begins finished frames events) (reads : Reads finished frames outline)
    (spelled : Spells [tree] own)
    (faultless : (outline.place (outlined (bindingsIn frames) tree)).faults = []) :
    ∃ finished frames', Begins finished frames' (events ++ own) ∧
      Reads finished frames' (outline.place (outlined (bindingsIn frames) tree)) := by
  cases before with
  | outside spelledBefore =>
    rcases place_cases faultless with ⟨_, root, placed⟩ | ⟨parent, outer, opened, _⟩
    · have first : finished = [] := by
        rw [reads.root, Option.map_eq_none_iff] at root
        exact List.head?_eq_none_iff.mp root
      subst first
      refine ⟨[tree], [], .outside (spells_append spelledBefore spelled), ?_⟩
      rw [placed]
      exact ⟨reads.opened, rfl, Nat.le_refl 1⟩
    · rw [reads.opened] at opened
      cases opened
  | @inside frame outer earlier content inside spelledBefore =>
    rcases place_cases faultless with ⟨opened, _⟩ | ⟨parent, rest, opened, placed⟩
    · rw [reads.opened] at opened
      cases opened
    · refine ⟨finished, { frame with finished := frame.finished ++ [tree] } :: outer, ?_, ?_⟩
      · rw [List.append_assoc, List.cons_append]
        exact .inside inside (spells_append spelledBefore spelled)
      · rw [placed]
        rw [reads.opened, openElements, List.cons.injEq] at opened
        obtain ⟨rfl, rfl⟩ := opened
        refine ⟨?_, reads.root, reads.single⟩
        rw [openElements, outlined_all_append]
        rfl

/-- A start tag opens an element, which is finished at once if it is short. -/
theorem start_reads {name : String} {attributes : List Attribute} {short : Bool}
    (before : Begins finished frames events) (reads : Reads finished frames outline)
    (faultless : (outline.add (.opened name attributes short)).faults = []) :
    ∃ finished frames, Begins finished frames (events ++ [.opened name attributes short]) ∧
      Reads finished frames (outline.add (.opened name attributes short)) := by
  have added : outline.add (.opened name attributes short) =
      if short then outline.place (Element.ofTag (bindingsIn frames) name attributes)
      else { outline with
        opened := Element.ofTag (bindingsIn frames) name attributes :: outline.opened } := by
    rw [Outline.add, bindings_of_reads reads]
  cases short with
  | true =>
    rw [added, if_pos rfl] at faultless ⊢
    exact place_reads before reads (.short .nothing) faultless
  | false =>
    rw [added, if_neg (by simp)]
    refine ⟨finished, ⟨name, attributes, []⟩ :: frames, .inside before .nothing, ?_⟩
    refine ⟨?_, reads.root, reads.single⟩
    rw [openElements, ← reads.opened]
    rfl

/-- An end tag finishes the innermost open element, whose local name it has to have. -/
theorem end_reads {name : String} (before : Begins finished frames events)
    (reads : Reads finished frames outline)
    (faultless : (outline.add (.closed name)).faults = []) :
    ∃ finished frames, Begins finished frames (events ++ [.closed name]) ∧
      Reads finished frames (outline.add (.closed name)) := by
  cases before with
  | outside spelled =>
    have opened := reads.opened
    simp [Outline.add, opened, openElements, Outline.report] at faultless
  | @inside frame outer earlier content inside spelled =>
    let around : Outline := { outline with opened := openElements outer }
    let element := outlined (bindingsIn outer)
      (.element frame.name frame.attributes frame.finished)
    have within : Reads finished outer around := ⟨rfl, reads.root, reads.single⟩
    have added : outline.add (.closed name) =
        if (splitLabel frame.name).2 = (splitLabel name).2 then around.place element
        else (around.report (.mismatchedEnd (splitLabel name).2 element.tag)).place element := by
      rw [Outline.add, reads.opened]
      rfl
    rw [added] at faultless ⊢
    by_cases closes : (splitLabel frame.name).2 = (splitLabel name).2
    · rw [if_pos closes] at faultless ⊢
      have whole : Spells [.element frame.name frame.attributes frame.finished] _ :=
        spells_element spelled closes.symm
      rw [List.append_assoc, List.cons_append]
      exact place_reads inside within whole faultless
    · rw [if_neg closes] at faultless
      have stays := faults_place
        (around.report (.mismatchedEnd (splitLabel name).2 element.tag)) element
      rw [faultless, List.prefix_nil] at stays
      simp [Outline.report] at stays

/-- One more tag, if it is no fault, starts or ends an element. -/
theorem add_reads {event : Event} (tag : isTag event = true) (before : Begins finished frames events)
    (reads : Reads finished frames outline) (faultless : (outline.add event).faults = []) :
    ∃ finished frames, Begins finished frames (events ++ [event]) ∧
      Reads finished frames (outline.add event) := by
  cases event with
  | characters text => cases tag
  | opened name attributes short => exact start_reads before reads faultless
  | closed name => exact end_reads before reads faultless

end Steps

/-- Tags read without a fault begin with finished trees and go on with open elements. Induction is on
the tags from the last one on. -/
theorem run_reads {events : List Event} (only : ∀ event ∈ events, isTag event = true)
    (faultless : (events.foldl Outline.add .initial).faults = []) :
    ∃ finished frames, Begins finished frames events ∧
      Reads finished frames (events.foldl Outline.add .initial) := by
  induction events using List.reverseRecOn with
  | nil => exact ⟨[], [], .outside .nothing, rfl, rfl, Nat.zero_le 1⟩
  | append_singleton before event ih =>
    rw [List.foldl_append, List.foldl_cons, List.foldl_nil] at faultless ⊢
    have earlier := faults_add (before.foldl Outline.add .initial) event
    rw [faultless, List.prefix_nil] at earlier
    obtain ⟨finished, frames, begins, reads⟩ :=
      ih (fun event member => only event (List.mem_append_left _ member)) earlier
    exact add_reads (only event (by simp)) begins reads faultless

/-- An outline without a fault shows the trees of its tags, and there is one at most. -/
theorem trees_of_faultless {events : List Event} (faultless : (Outline.ofEvents events).faults = []) :
    ∃ trees, Spells trees (tags events) ∧ trees.length ≤ 1 ∧
      (Outline.ofEvents events).root = trees.head?.map (outlined .initial) := by
  rw [of_tags] at faultless ⊢
  have opened := all_closed faultless
  have earlier := faults_close ((tags events).foldl Outline.add .initial).opened.length
    ((tags events).foldl Outline.add .initial)
  rw [faultless, List.prefix_nil] at earlier
  have only : ∀ event ∈ tags events, isTag event = true := fun _ member =>
    (List.mem_filter.mp member).2
  obtain ⟨finished, frames, begins, reads⟩ := run_reads only earlier
  have ended : frames = [] := by
    cases frames with
    | nil => rfl
    | cons frame outer => cases opened.symm.trans reads.opened
  subst ended
  rw [opened, List.length_nil, Outline.closeOpen]
  exact ⟨finished, begun_outside begins, reads.single, reads.root⟩

/-- Whatever is wrong with an outline is among the errors. -/
theorem errors_of_outline {outline : Outline} (wrong : outline.faults ≠ [] ∨ outline.root = none)
    (collection : String) : (readOutline collection outline).errors ≠ [] := by
  cases root : outline.root with
  | none => simp [readOutline, root]
  | some element =>
    have faulty := wrong.resolve_right (by simp [root])
    simp only [readOutline, root]
    split <;> simp [faulty]

/-- A configuration document is accepted when its tags are those of one tree, and it is outlined as
that tree then: without what declares namespaces, which binds labels as the nearest declaration
does. In any other document an error is found, which is one of its nesting unless there are no tags
at all. -/
theorem one_tree_accepted (events : List Event) :
    let outline := Outline.ofEvents events
    (outline.faults = [] ∧ outline.root.isSome = true ↔ ∃! tree, Spells [tree] (tags events)) ∧
    (∀ tree, Spells [tree] (tags events) →
      ∃ root, outline.root = some root ∧ Shows [] tree root) ∧
    ((¬ ∃ tree, Spells [tree] (tags events)) →
      (outline.faults ≠ [] ∨ tags events = [] ∧ outline.root = none) ∧
      ∀ collection, (readOutline collection outline).errors ≠ []) := by
  intro outline
  have accepted : ∀ tree, Spells [tree] (tags events) →
      outline = { root := some (outlined .initial tree) } := fun _ => outline_of_tree
  refine ⟨⟨?_, ?_⟩, ?_, ?_⟩
  · rintro ⟨faultless, some⟩
    obtain ⟨trees, spelled, single, root⟩ := trees_of_faultless faultless
    match trees, single with
    | [], _ => rw [show outline.root = _ from root] at some; cases some
    | [tree], _ =>
      refine ⟨tree, spelled, ?_⟩
      intro other spelledToo
      exact (List.cons.inj (spelling_unique spelledToo spelled)).1
  · rintro ⟨tree, spelled, _⟩
    rw [accepted tree spelled]
    exact ⟨rfl, rfl⟩
  · intro tree spelled
    exact ⟨_, by rw [accepted tree spelled], outlined_shows resolve_initial tree⟩
  · intro none
    have faulty : outline.faults ≠ [] ∨ tags events = [] ∧ outline.root = Option.none := by
      by_cases faultless : outline.faults = []
      · obtain ⟨trees, spelled, single, root⟩ := trees_of_faultless faultless
        match trees, single with
        | [], _ => exact .inr ⟨spelled_nothing spelled, root⟩
        | [tree], _ => exact absurd ⟨tree, spelled⟩ none
      · exact .inl faultless
    exact ⟨faulty, errors_of_outline (faulty.imp_right And.right)⟩

section Sample

/-- The same label is bound anew inside, twice on one element, and the end tag has another label than
the start tag. -/
def nestedTree : Tree :=
  .element "c:collection" [⟨"xmlns:p", "u"⟩, ⟨"id", "1"⟩]
    [.element "index" [⟨"xmlns:p", "v"⟩, ⟨"xmlns:p", "w"⟩, ⟨"xmlns", "d"⟩] []]

def nestedDocument : List UInt8 :=
  bytesOf "<c:collection xmlns:p='u' id='1'> <index xmlns:p='v' xmlns:p='w' xmlns='d'/> </collection>"

theorem nested_document_accepted :
    Spells [nestedTree] (tags (events nestedDocument)) ∧
      (Outline.ofEvents (events nestedDocument)).faults = [] ∧
      ∃ root, (Outline.ofEvents (events nestedDocument)).root = some root ∧
        root.attributes = [("id", "1")] ∧ root.bindings.resolve "p" = some "u" ∧
        root.children.map (fun child => child.bindings.resolve "p") = [some "w"] := by
  have read : tags (events nestedDocument) =
      [.opened "c:collection" [⟨"xmlns:p", "u"⟩, ⟨"id", "1"⟩] false,
        .opened "index" [⟨"xmlns:p", "v"⟩, ⟨"xmlns:p", "w"⟩, ⟨"xmlns", "d"⟩] true,
        .closed "collection"] := by decide +kernel
  have spelled : Spells [nestedTree] (tags (events nestedDocument)) := by
    rw [read]
    exact .long (.short .nothing) (by decide) .nothing
  obtain ⟨accepted, shown, _⟩ := one_tree_accepted (events nestedDocument)
  have unique : ∃! tree, Spells [tree] (tags (events nestedDocument)) :=
    ⟨nestedTree, spelled, fun _ other => (List.cons.inj (spelling_unique other spelled)).1⟩
  obtain ⟨root, found, shows⟩ := shown nestedTree spelled
  obtain ⟨_, attributes, bound, children⟩ := shows
  refine ⟨spelled, (accepted.mpr unique).1, root, found, ?_, ?_, ?_⟩
  · rw [attributes]; with_unfolding_all rfl
  · rw [bound]; with_unfolding_all rfl
  · match root.children, children with
    | [index], ⟨⟨_, _, inside, _⟩, _⟩ =>
      have nearest := inside "p"
      exact congrArg (fun space => [space]) (nearest.trans (by with_unfolding_all rfl))

end Sample

end RangeIndex.OutlineNesting
