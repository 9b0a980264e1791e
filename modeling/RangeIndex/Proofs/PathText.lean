import RangeIndex.Proofs.PathGrammar

/-! The text of a path that was read. Whatever blanks and runs of slashes it was written with, the text
of the pattern has one segment for each component, and each segment is as it was written, less the
blanks around it. So the text is read to the same pattern again, provided that the empty label is not
bound: a name with that label is displayed with its namespace in braces, and is read as another. -/
namespace RangeIndex.PathText
open Pattern PathGrammar

/-- A component that its own text stands for, alone between two slashes. -/
structure Settled (bindings : Bindings) (component : Component) : Prop where
  stands : Stands bindings component.text.toList component
  inside : '/' ∉ component.text.toList
  trimmed : Text.trim component.text.toList = component.text.toList

section Components
variable {bindings : Bindings} {kind : NameKind} {written : String} {segment : List Char}

/-- The text of a name is what was written, behind a mark if it names an attribute. -/
theorem named_text (unlabelled : bindings.resolve "" = none) {name : QName}
    (named : Named bindings kind written name) :
    name.text = (if kind = .attribute then "@" else "") ++ written := by
  cases named with
  | plain _ => cases kind <;> rfl
  | @labelled label localPart space _ bound =>
    have nonempty : label ≠ "" := by
      rintro rfl
      rw [unlabelled] at bound
      cases bound
    have kept : presentText (some label) = some label := by simp [presentText, nonempty]
    rw [QName.ofParts, kept]
    cases kind <;> rfl

/-- What a segment stands for has that segment as its text. -/
theorem stands_text (unlabelled : bindings.resolve "" = none) {component : Component}
    (stands : Stands bindings segment component) : component.text.toList = segment := by
  cases stands with
  | gap => rfl
  | wildcard => rfl
  | name name named =>
    rw [Component.text, named_text unlabelled named]
    cases name with
    | marked _ => simp
    | unmarked _ _ _ => simp

theorem segment_settled {path : String} (member : segment ∈ segments path) :
    '/' ∉ segment ∧ Text.trim segment = segment := by
  obtain ⟨piece, cut, rfl⟩ := List.mem_map.mp member
  exact ⟨fun slash => Text.clear_of_mem_splitBy cut (Text.mem_of_mem_trimBy slash),
    Text.trimBy_trimBy _ _⟩

theorem collapse_subset (components : List Component) : collapseGaps components ⊆ components := by
  induction components with
  | nil => exact List.Subset.refl _
  | cons component rest ih =>
    unfold collapseGaps
    split
    · rename_i collapsed
      rw [← collapsed]
      exact List.subset_cons_of_subset _ ih
    · exact List.cons_subset_cons _ ih

/-- Every component of a pattern that was read is settled. -/
theorem read_settled {closed : Bool} {path : String} {pattern : Pattern}
    (unlabelled : bindings.resolve "" = none) (read : read bindings closed path = .ok pattern) :
    ∀ component ∈ pattern.components, Settled bindings component := by
  obtain ⟨_, components, all, rfl⟩ := read_ok_iff.mp read
  intro component member
  obtain ⟨place, bound, rfl⟩ := List.mem_iff_getElem.mp (collapse_subset components member)
  have paired := all.length_eq ▸ bound
  have stands := (List.forall₂_iff_get.mp all).2 place paired bound
  have text := stands_text unlabelled stands
  obtain ⟨inside, trimmed⟩ := segment_settled (List.get_mem (segments path) ⟨place, paired⟩)
  rw [← text] at stands inside trimmed
  exact ⟨stands, inside, trimmed⟩

end Components

section Text
variable {bindings : Bindings} {components : List Component} {closed : Bool}

/-- Pieces with a slash between neighbours are the pieces that the slashes cut. -/
theorem split_joined (piece : List Char) (others : List (List Char))
    (clear : ∀ each ∈ piece :: others, '/' ∉ each) :
    Text.splitBy (· == '/') (piece ++ others.flatMap ('/' :: ·)) = piece :: others := by
  induction others generalizing piece with
  | nil => simpa using Text.splitBy_clear (clear piece List.mem_cons_self)
  | cons next others ih =>
    obtain ⟨first, rest⟩ := List.forall_mem_cons.mp clear
    rw [List.flatMap_cons, List.cons_append, Text.splitBy_append first, ih next rest]

theorem text_of_components (nonempty : components ≠ []) :
    (text ⟨components, closed⟩).toList =
      (components.map (·.text.toList)).flatMap ('/' :: ·) := by
  have present : isEmpty ⟨components, closed⟩ = false := by simpa [isEmpty] using nonempty
  simp [text, present, String.toList_join, List.flatMap_map]

/-- The segments of the text of settled components are the texts of the components. -/
theorem segments_of_text (nonempty : components ≠ [])
    (settled : ∀ component ∈ components, Settled bindings component) :
    segments (text ⟨components, closed⟩) = components.map (·.text.toList) := by
  obtain ⟨first, others, rfl⟩ := List.exists_cons_of_ne_nil nonempty
  have written : body (text ⟨first :: others, closed⟩) =
      first.text.toList ++ (others.map (·.text.toList)).flatMap ('/' :: ·) := by
    rw [body, text_of_components nonempty]
    rfl
  have clear : ∀ each ∈ (first :: others).map (·.text.toList), '/' ∉ each :=
    List.forall_mem_map.mpr fun component member => (settled component member).inside
  have cut : Text.splitBy (· == '/') (body (text ⟨first :: others, closed⟩)) =
      (first :: others).map (·.text.toList) := by
    rw [written]
    exact split_joined _ _ clear
  rw [segments, cut, List.map_map]
  exact List.map_congr_left fun component member => (settled component member).trimmed

/-- Where no two gaps come together there is nothing to collapse. -/
theorem collapse_of_apart
    (apart : components.IsChain fun first second => ¬ (first.isGap = true ∧ second.isGap = true)) :
    collapseGaps components = components := by
  induction components with
  | nil => rfl
  | cons component rest ih =>
    have later := ih apart.tail
    unfold collapseGaps
    split
    · rename_i collapsed
      rw [later] at collapsed
      subst collapsed
      exact absurd ⟨rfl, rfl⟩ (List.isChain_cons_cons.mp apart).1
    · rw [later]

/-- Tidy components that are settled are read from their text. -/
theorem read_of_settled (closed : Bool) (tidy : Tidy components)
    (settled : ∀ component ∈ components, Settled bindings component) :
    read bindings closed (text ⟨components, closed⟩) = .ok ⟨components, closed⟩ := by
  rw [read_ok_iff, segments_of_text tidy.nonempty settled]
  refine ⟨?_, components, ?_, by rw [collapse_of_apart tidy.apart]⟩
  · intro empty
    obtain ⟨last, found, blank⟩ := Option.map_eq_some_iff.mp (List.getLast?_map ▸ empty)
    have stands := (settled last (List.mem_of_getLast? found)).stands
    rw [blank, ← read_segment_ok_iff] at stands
    cases stands
    cases tidy.ends _ found
  · exact List.forall₂_map_left_iff.mpr
      (List.forall₂_same.mpr fun component member => (settled component member).stands)

end Text

/-- A path that was read is read again from its text, to the same pattern. So its text is the same
again. -/
theorem read_text_again (bindings : Bindings) (closed : Bool) (path : String) (pattern : Pattern)
    (unlabelled : bindings.resolve "" = none) (found : read bindings closed path = .ok pattern) :
    read bindings closed pattern.text = .ok pattern ∧
      (read bindings closed pattern.text).map text = .ok pattern.text := by
  obtain ⟨_, components, _, rfl⟩ := read_ok_iff.mp found
  have again := read_of_settled closed (tidy_read found) (read_settled unlabelled found)
  exact ⟨again, by rw [again]; rfl⟩

section Sample

/-- Blanks and slashes to spare, a wildcard, a label, and an attribute with a blank in its name. -/
def roomyPath : String := "div///  tei:head / * //@my id "

def roomyPattern : Pattern :=
  ⟨[.named (.unqualified .element "div"), .gap, .named headName, .wildcard, .gap,
    .named (.unqualified .attribute "my id")], false⟩

theorem roomy_path_read_again :
    read textBindings false roomyPath = .ok roomyPattern ∧
      roomyPattern.text = "/div//tei:head/*//@my id" ∧
      read textBindings false "/div//tei:head/*//@my id" = .ok roomyPattern := by
  have first : read textBindings false roomyPath = .ok roomyPattern := by decide +kernel
  have written : roomyPattern.text = "/div//tei:head/*//@my id" := by decide +kernel
  have again := read_text_again textBindings false roomyPath roomyPattern (by decide +kernel) first
  exact ⟨first, written, written ▸ again.1⟩

/-- With the empty label bound, a name is displayed in a way that is read as another. -/
example :
    (read (Bindings.initial.declare "" "u") false ":head").map text = .ok "/\x7bu\x7dhead" ∧
      read (Bindings.initial.declare "" "u") false "/\x7bu\x7dhead" ≠
        read (Bindings.initial.declare "" "u") false ":head" := by
  decide +kernel

end Sample

end RangeIndex.PathText
