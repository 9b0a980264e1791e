import RangeIndex.Markup.Event
import RangeIndex.Name.Basic

/-! Element trees and the tags they are written with, read depth first. An end tag has to have the
local name of its start tag but may have another label, and an element without children may be
written as one tag. Tags belong to one list of trees at most. -/
namespace RangeIndex.ElementTrees
open Markup

/-- An element as it is written: the name and the attributes of its start tag, and the elements in
it. -/
inductive Tree where
  | element (name : String) (attributes : List Attribute) (children : List Tree)

namespace Tree

/-- The name without its label. -/
def tag : Tree → String
  | element name _ _ => (splitLabel name).2

end Tree

def isTag : Event → Bool
  | .characters _ => false
  | _ => true

/-- What is left of a document without its text. -/
def tags (events : List Event) : List Event := events.filter isTag

/-- Trees in order, and tags they are written with. -/
inductive Spells : List Tree → List Event → Prop where
  | nothing : Spells [] []
  | short {name : String} {attributes : List Attribute} {rest : List Tree} {later : List Event}
      (others : Spells rest later) :
      Spells (.element name attributes [] :: rest) (.opened name attributes true :: later)
  | long {name closing : String} {attributes : List Attribute} {children rest : List Tree}
      {inside later : List Event} (content : Spells children inside)
      (closes : (splitLabel closing).2 = (splitLabel name).2) (others : Spells rest later) :
      Spells (.element name attributes children :: rest)
        (.opened name attributes false :: (inside ++ .closed closing :: later))

/-- No element starts here. -/
def NoneStarts (events : List Event) : Prop :=
  ∀ name attributes short, events.head? ≠ some (.opened name attributes short)

section Spelling
variable {trees others : List Tree} {events later rest : List Event}

theorem spells_append (first : Spells trees events) (second : Spells others later) :
    Spells (trees ++ others) (events ++ later) := by
  induction first with
  | nothing => exact second
  | short _ ih => exact .short ih
  | long content closes _ _ ih =>
    rw [List.cons_append, List.cons_append, List.append_assoc, List.cons_append]
    exact .long content closes ih

/-- The tags of an element, from what is in it. -/
theorem spells_element {name closing : String} {attributes : List Attribute}
    (content : Spells trees events) (closes : (splitLabel closing).2 = (splitLabel name).2) :
    Spells [.element name attributes trees]
      (.opened name attributes false :: (events ++ [.closed closing])) :=
  .long content closes .nothing

theorem spelled_nothing (spelled : Spells [] events) : events = [] := by
  cases spelled
  rfl

theorem none_starts_nil : NoneStarts [] := by
  intro name attributes short front
  cases front

theorem none_starts_closed (name : String) (events : List Event) :
    NoneStarts (.closed name :: events) := by
  intro other attributes short front
  cases front

/-- Tags say which trees they belong to and where these end, as far as no other element starts
there. Induction is on the tags of the first reading; the second one has to begin alike. -/
theorem spelled_once (first : Spells trees events) (ends : NoneStarts rest)
    (second : Spells others later) {more : List Event} (endsToo : NoneStarts more)
    (same : events ++ rest = later ++ more) : trees = others ∧ events = later := by
  induction first generalizing others later rest more with
  | nothing =>
    cases second with
    | nothing => exact ⟨rfl, rfl⟩
    | short others => exact absurd (congrArg List.head? same) (ends _ _ _)
    | long content closes others => exact absurd (congrArg List.head? same) (ends _ _ _)
  | short _ ih =>
    cases second with
    | nothing => exact absurd (congrArg List.head? same).symm (endsToo _ _ _)
    | short others =>
      simp only [List.cons_append, List.cons.injEq, Event.opened.injEq] at same
      obtain ⟨⟨rfl, rfl, -⟩, same⟩ := same
      obtain ⟨rfl, rfl⟩ := ih ends others endsToo same
      exact ⟨rfl, rfl⟩
    | long content closes others => cases (List.cons.inj same).1
  | long content closes _ insideOnce ih =>
    cases second with
    | nothing => exact absurd (congrArg List.head? same).symm (endsToo _ _ _)
    | short others => cases (List.cons.inj same).1
    | long contentToo closesToo others =>
      simp only [List.cons_append, List.append_assoc, List.cons.injEq, Event.opened.injEq] at same
      obtain ⟨⟨rfl, rfl, -⟩, same⟩ := same
      obtain ⟨rfl, rfl⟩ := insideOnce (none_starts_closed _ _) contentToo
        (none_starts_closed _ _) same
      simp only [List.append_cancel_left_eq, List.cons.injEq, Event.closed.injEq] at same
      obtain ⟨rfl, same⟩ := same
      obtain ⟨rfl, rfl⟩ := ih ends others endsToo same
      exact ⟨rfl, rfl⟩

/-- Tags are those of one list of trees at most. -/
theorem spelling_unique (first : Spells trees events) (second : Spells others events) :
    trees = others :=
  (spelled_once first none_starts_nil second none_starts_nil rfl).1

end Spelling

end RangeIndex.ElementTrees
