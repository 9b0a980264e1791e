import Mathlib.Data.List.Forall2
import RangeIndex.Proofs.PatternContainment

/-! A pattern is read as a way to cut a location: into one piece for each component of the pattern,
in order, and a tail that only a closed pattern leaves. A gap takes any run of components, and every
other component takes a single name. Matching finds out whether such a cut exists, for locations
with gaps and wildcards of their own as well as for literal ones. -/
namespace RangeIndex.PatternCuts
open Pattern PatternContainment

/-- What one component of a pattern takes of a location. -/
inductive Takes : Component → List Component → Prop where
  /-- Whatever there is, or nothing. -/
  | run (taken : List Component) : Takes .gap taken
  /-- The same name, whatever its label. -/
  | name {expected actual : QName} (equal : actual.toNameIdentity = expected.toNameIdentity) :
      Takes (.named expected) [.named actual]
  /-- The name of an element. -/
  | element {actual : QName} (kind : actual.kind = .element) : Takes .wildcard [.named actual]

/-- A location cut into what the components of a pattern take and a tail. -/
structure Cut (pattern location : Pattern) (pieces : List (List Component))
    (tail : List Component) : Prop where
  whole : location.components = pieces.flatten ++ tail
  taken : List.Forall₂ Takes pattern.components pieces
  ends : tail = [] ∨ pattern.closed = true

/-- Whether a location can be cut as a pattern says. -/
def Cuttable (pattern location : Pattern) : Prop := ∃ pieces tail, Cut pattern location pieces tail

section Pieces
variable {component : Component} {piece : List Component}

/-- A wildcard accepts the names of elements. -/
theorem element_accepted {name : QName} :
    Component.wildcard.accepts (.named name) = true ↔ name.kind = .element := by
  cases kind : name.kind <;> simp [Component.accepts, QName.isAttribute, kind]

/-- A component other than a gap takes just what it accepts, one component of the location. -/
theorem level_takes (level : component.isGap = false) :
    Takes component piece ↔ ∃ actual, piece = [actual] ∧ component.accepts actual = true := by
  constructor
  · intro taken
    cases taken with
    | run => cases level
    | @name expected actual equal =>
      exact ⟨.named actual, rfl, (QName.same_iff actual expected).mpr equal⟩
    | @element actual kind =>
      exact ⟨.named actual, rfl, element_accepted.mpr kind⟩
  · rintro ⟨actual, rfl, accepted⟩
    cases component with
    | gap => cases level
    | named expected =>
      cases actual with
      | named other => exact .name ((QName.same_iff other expected).mp accepted)
      | wildcard | gap => cases accepted
    | wildcard =>
      cases actual with
      | named other =>
        exact .element (element_accepted.mp accepted)
      | wildcard | gap => cases accepted

/-- A gap or a wildcard of the location is taken by a gap only. -/
theorem unnamed_taken_by_gap (taken : Takes component piece) {actual : Component}
    (member : actual ∈ piece) (unnamed : actual.isNamed = false) : component = .gap := by
  cases taken with
  | run => rfl
  | name | element =>
    cases List.mem_singleton.mp member
    cases unnamed

end Pieces

section Cutting
variable {closed atEnd : Bool}

/-- Without components nothing is taken, and all of the location is the tail. -/
theorem cuttable_nil (location : List Component) :
    Cuttable ⟨[], closed⟩ ⟨location, atEnd⟩ ↔ location = [] ∨ closed = true := by
  constructor
  · rintro ⟨pieces, tail, whole, taken, ends⟩
    cases taken
    cases whole
    exact ends
  · intro ends
    exact ⟨[], location, rfl, .nil, ends⟩

/-- The first component takes a piece off the front, and the rest of the location is cut by the
components after it. -/
theorem cuttable_cons (component : Component) (later location : List Component) :
    Cuttable ⟨component :: later, closed⟩ ⟨location, atEnd⟩ ↔
      ∃ piece rest, location = piece ++ rest ∧ Takes component piece ∧
        Cuttable ⟨later, closed⟩ ⟨rest, atEnd⟩ := by
  constructor
  · rintro ⟨pieces, tail, whole, taken, ends⟩
    cases taken with
    | @cons _ piece _ others first othersTaken =>
      refine ⟨piece, others.flatten ++ tail, ?_, first, others, tail, rfl, othersTaken, ends⟩
      rw [← List.append_assoc]
      exact whole
  · rintro ⟨piece, rest, rfl, first, others, tail, whole, taken, ends⟩
    refine ⟨piece :: others, tail, ?_, .cons first taken, ends⟩
    rw [List.flatten_cons, List.append_assoc]
    exact congrArg (piece ++ ·) whole

/-- Matching, too, goes on below what the first component takes. -/
theorem match_cons (component : Component) (later location : List Component) :
    isMatch ⟨component :: later, closed⟩ ⟨location, atEnd⟩ = true ↔
      ∃ piece rest, location = piece ++ rest ∧ Takes component piece ∧
        isMatch ⟨later, closed⟩ ⟨rest, atEnd⟩ = true := by
  cases gap : component.isGap with
  | true =>
    cases component <;> cases gap
    rw [gap_leaves_suffix]
    constructor
    · rintro ⟨rest, ⟨piece, rfl⟩, found⟩
      exact ⟨piece, rest, rfl, .run piece, found⟩
    · rintro ⟨piece, rest, rfl, _, found⟩
      exact ⟨rest, List.suffix_append piece rest, found⟩
  | false =>
    rw [level_takes_head gap]
    constructor
    · rintro ⟨actual, rest, rfl, accepted, found⟩
      exact ⟨[actual], rest, rfl, (level_takes gap).mpr ⟨actual, rfl, accepted⟩, found⟩
    · rintro ⟨piece, rest, rfl, taken, found⟩
      obtain ⟨actual, rfl, accepted⟩ := (level_takes gap).mp taken
      exact ⟨actual, rest, rfl, accepted, found⟩

/-- Matching and cutting take the same steps, so the one succeeds where the other does. Induction is
on the components of the pattern. -/
theorem match_iff_cuttable (components location : List Component) :
    isMatch ⟨components, closed⟩ ⟨location, atEnd⟩ = true ↔
      Cuttable ⟨components, closed⟩ ⟨location, atEnd⟩ := by
  induction components generalizing location with
  | nil => rw [isMatch_nil, cuttable_nil, Bool.or_eq_true, List.isEmpty_iff]
  | cons component later ih =>
    rw [match_cons, cuttable_cons]
    simp only [ih]

end Cutting

/-- A location satisfies a pattern exactly when it can be cut into pieces that the components of the
pattern take, one each and in order, with nothing left behind them unless the pattern is closed. In
every such cut a gap or wildcard of the location lies in the piece of a gap or in the tail. -/
theorem satisfied_iff_cut (pattern location : Pattern) :
    (pattern.isMatch location = true ↔ ∃ pieces tail, Cut pattern location pieces tail) ∧
    ∀ pieces tail, Cut pattern location pieces tail →
      ∀ component piece, (component, piece) ∈ pattern.components.zip pieces →
        ∀ actual ∈ piece, actual.isNamed = false → component = .gap := by
  refine ⟨match_iff_cuttable pattern.components location.components, ?_⟩
  intro pieces tail cut component piece paired actual member unnamed
  exact unnamed_taken_by_gap (List.forall₂_iff_zip.mp cut.taken |>.2 paired) member unnamed

/-- The gap takes the wildcard of the location together with the name in front of it. -/
example :
    let name (text : String) : Component := .named (.unqualified .element text)
    isMatch ⟨[.gap, name "entry", .gap], false⟩
      ⟨[name "book", .wildcard, name "entry"], false⟩ = true := by
  decide

end RangeIndex.PatternCuts
