import Mathlib.Data.List.Chain
import Mathlib.Data.List.Forall2
import RangeIndex.Location.Reading

/-! Which texts are paths. A path text is cut at its slashes, and each of its segments stands for one
component: an empty one for a gap, a star for a wildcard, and everything else for a name, whose label
has to be bound. A text is a path when every segment stands for something and the last is not empty; its
pattern is what they stand for in order, with each run of gaps made one. In any other text the leftmost
segment at fault says what is wrong. -/
namespace RangeIndex.PathGrammar
open Pattern

section Definitions

/-- The pieces of a path text between slashes, without blanks around them. -/
def segments (path : String) : List (List Char) := (Text.splitBy (· == '/') (body path)).map Text.trim

/-- The components with every run of gaps made one gap. -/
def collapseGaps : List Component → List Component
  | [] => []
  | component :: rest =>
    match component, collapseGaps rest with
    | .gap, .gap :: later => .gap :: later
    | component, later => component :: later

/-- A segment that is a name, and what the name is of. -/
inductive Written : List Char → NameKind → String → Prop where
  /-- A mark makes everything behind it the name of an attribute. -/
  | marked {name : String} : name ≠ "" → Written ('@' :: name.toList) .attribute name
  /-- Everything else but a star is the name of an element. -/
  | unmarked {name : String} : name ≠ "" → name ≠ "*" → name.toList.head? ≠ some '@' →
    Written name.toList .element name

/-- What a written name is under bindings. Its label ends at the first colon. -/
inductive Named (bindings : Bindings) (kind : NameKind) : String → QName → Prop where
  | plain {name : String} : ':' ∉ name.toList → Named bindings kind name (.unqualified kind name)
  | labelled {label localPart space : String} : ':' ∉ label.toList →
    bindings.resolve label = some space →
      Named bindings kind (label ++ ":" ++ localPart)
        (.ofParts kind (some space) localPart (some label))

/-- What a segment stands for under bindings. -/
inductive Stands (bindings : Bindings) : List Char → Component → Prop where
  | gap : Stands bindings [] .gap
  | wildcard : Stands bindings ['*'] .wildcard
  | name {segment : List Char} {kind : NameKind} {written : String} {name : QName} :
    Written segment kind written → Named bindings kind written name →
      Stands bindings segment (.named name)

/-- A segment that may stand in a path: it is not a mark alone, and if it is a name with a label, the
label is bound. -/
structure Allowed (bindings : Bindings) (segment : List Char) : Prop where
  named : segment ≠ ['@']
  bound : ∀ kind label localPart, Written segment kind (label ++ ":" ++ localPart) →
    ':' ∉ label.toList → (bindings.resolve label).isSome

/-- A segment that may not, and why. -/
inductive Faulty (bindings : Bindings) : List Char → PathFault → Prop where
  | nameless : Faulty bindings ['@'] .emptyAttributeName
  | unbound {segment : List Char} {kind : NameKind} {label localPart : String} :
    Written segment kind (label ++ ":" ++ localPart) → ':' ∉ label.toList →
      bindings.resolve label = none →
        Faulty bindings segment (.unboundLabel (label ++ ":" ++ localPart))

/-- A segment at fault where it stands, behind some segments and before others. -/
inductive Offends (bindings : Bindings) (before : List (List Char)) :
    List Char → List (List Char) → PathFault → Prop where
  /-- There is nothing but one empty segment. -/
  | nothing : before = [] → Offends bindings before [] [] .noComponents
  /-- The last of several segments is empty. -/
  | ending : before ≠ [] → Offends bindings before [] [] .trailingSlash
  | faulty {segment : List Char} {after : List (List Char)} {fault : PathFault} :
    Faulty bindings segment fault → Offends bindings before segment after fault

/-- The leftmost segment at fault in a list of segments behind others, and what is wrong with it. -/
def Leftmost (bindings : Bindings) (before segments : List (List Char)) (fault : PathFault) : Prop :=
  ∃ front segment after, segments = front ++ segment :: after ∧
    (∀ earlier ∈ front, Allowed bindings earlier) ∧
    Offends bindings (before ++ front) segment after fault

/-- Components as a path may have them: some, with no two gaps side by side and none at the end. -/
structure Tidy (components : List Component) : Prop where
  nonempty : components ≠ []
  apart : components.IsChain fun first second => ¬ (first.isGap = true ∧ second.isGap = true)
  ends : ∀ last, components.getLast? = some last → last.isGap = false

/-- Read segments in order, with what is read already. -/
def readAll (bindings : Bindings) (before : Pattern) :
    List (List Char) → Except PathFault Pattern
  | [] => .ok before
  | [last] => readLast bindings before last
  | segment :: rest =>
    match readSegment bindings segment with
    | .error fault => .error fault
    | .ok component => readAll bindings (before.extend component) rest

end Definitions

section Names
variable {bindings : Bindings} {kind : NameKind} {written : String} {segment : List Char}

theorem qualify_some_iff {name : QName} :
    bindings.qualify kind written = some name ↔ Named bindings kind written name := by
  constructor
  · intro qualified
    unfold Bindings.qualify at qualified
    split at qualified
    · rename_i localPart split
      obtain ⟨rfl, clear⟩ := splitLabel_plain_iff.mp split
      cases qualified
      exact .plain clear
    · rename_i label localPart split
      obtain ⟨rfl, clear⟩ := splitLabel_labelled_iff.mp split
      obtain ⟨space, bound, rfl⟩ := Option.map_eq_some_iff.mp qualified
      exact .labelled clear bound
  · intro named
    cases named with
    | plain clear => rw [Bindings.qualify, splitLabel_plain_iff.mpr ⟨rfl, clear⟩]
    | labelled clear bound =>
      rw [Bindings.qualify, splitLabel_labelled_iff.mpr ⟨rfl, clear⟩]
      simp [bound]

theorem qualify_none_iff :
    bindings.qualify kind written = none ↔ ∃ label localPart, written = label ++ ":" ++ localPart ∧
      ':' ∉ label.toList ∧ bindings.resolve label = none := by
  constructor
  · intro unbound
    unfold Bindings.qualify at unbound
    split at unbound
    · cases unbound
    · rename_i label localPart split
      obtain ⟨same, clear⟩ := splitLabel_labelled_iff.mp split
      exact ⟨label, localPart, same, clear, Option.map_eq_none_iff.mp unbound⟩
  · rintro ⟨label, localPart, same, clear, unbound⟩
    rw [Bindings.qualify, splitLabel_labelled_iff.mpr ⟨same, clear⟩]
    simp [unbound]

/-- A segment is empty, a star, a mark alone, or a name. -/
theorem segment_cases (segment : List Char) :
    segment = [] ∨ segment = ['*'] ∨ segment = ['@'] ∨
      ∃ kind written, Written segment kind written := by
  obtain ⟨text, rfl⟩ : ∃ text : String, segment = text.toList := ⟨.ofList segment, by simp⟩
  by_cases empty : text = ""
  · exact .inl (by simp [empty])
  by_cases star : text = "*"
  · exact .inr (.inl (by simp [star]))
  by_cases mark : text.toList.head? = some '@'
  · obtain ⟨rest, same⟩ := List.head?_eq_some_iff.mp mark
    by_cases alone : rest = []
    · exact .inr (.inr (.inl (by rw [same, alone])))
    · have name : Written ('@' :: (String.ofList rest).toList) .attribute (.ofList rest) :=
        .marked (by simpa using alone)
      rw [String.toList_ofList, ← same] at name
      exact .inr (.inr (.inr ⟨_, _, name⟩))
  · exact .inr (.inr (.inr ⟨_, _, .unmarked empty star mark⟩))

theorem split_written (name : Written segment kind written) :
    splitMark segment = (kind, written.toList) := by
  cases name with
  | marked _ => rfl
  | unmarked _ _ unmarked =>
    unfold splitMark
    split
    · rename_i same
      exact absurd (congrArg List.head? same) unmarked
    · rfl

/-- A name is neither empty nor a star. -/
theorem segment_is_name (name : Written segment kind written) :
    readSegment bindings segment = readName bindings segment := by
  have proper : segment ≠ [] ∧ segment ≠ ['*'] := by
    cases name with
    | marked _ => simp
    | unmarked nonempty star _ =>
      exact ⟨by simpa using nonempty, fun same => star (String.toList_inj.mp same)⟩
  unfold readSegment
  split
  · exact absurd rfl proper.1
  · exact absurd rfl proper.2
  · rfl

/-- A name is read by qualifying it. -/
theorem read_written (name : Written segment kind written) :
    readSegment bindings segment =
      (bindings.qualify kind written).elim (.error (.unboundLabel written)) (.ok <| .named ·) := by
  have nonempty : written.toList.isEmpty = false := by
    cases name with
    | marked nonempty => simpa using nonempty
    | unmarked nonempty _ _ => simpa using nonempty
  rw [segment_is_name name, readName, split_written name]
  simp only [nonempty, String.ofList_toList, Bool.false_eq_true, if_false]
  cases bindings.qualify kind written <;> rfl

/-- What is read from a segment is what it stands for. -/
theorem read_segment_ok_iff {component : Component} :
    readSegment bindings segment = .ok component ↔ Stands bindings segment component := by
  constructor
  · intro read
    rcases segment_cases segment with rfl | rfl | rfl | ⟨kind, written, name⟩
    · cases read
      exact .gap
    · cases read
      exact .wildcard
    · cases read
    · rw [read_written name] at read
      cases qualified : bindings.qualify kind written with
      | none => rw [qualified] at read; cases read
      | some qname =>
        rw [qualified] at read
        cases read
        exact .name name (qualify_some_iff.mp qualified)
  · intro stands
    cases stands with
    | gap => rfl
    | wildcard => rfl
    | name name named => rw [read_written name, qualify_some_iff.mpr named]; rfl

/-- The fault found in a segment is the one that it has. -/
theorem read_segment_error_iff {fault : PathFault} :
    readSegment bindings segment = .error fault ↔ Faulty bindings segment fault := by
  constructor
  · intro read
    rcases segment_cases segment with rfl | rfl | rfl | ⟨kind, written, name⟩
    · cases read
    · cases read
    · cases read
      exact .nameless
    · rw [read_written name] at read
      cases qualified : bindings.qualify kind written with
      | none =>
        obtain ⟨label, localPart, rfl, clear, unbound⟩ := qualify_none_iff.mp qualified
        rw [qualified] at read
        cases read
        exact .unbound name clear unbound
      | some qname => rw [qualified] at read; cases read
  · intro faulty
    cases faulty with
    | nameless => rfl
    | unbound name clear unbound =>
      rw [read_written name, qualify_none_iff.mpr ⟨_, _, rfl, clear, unbound⟩]
      rfl

theorem stands_not_faulty {component : Component} {fault : PathFault}
    (stands : Stands bindings segment component) : ¬ Faulty bindings segment fault := by
  intro faulty
  have read := read_segment_ok_iff.mpr stands
  rw [read_segment_error_iff.mpr faulty] at read
  cases read

/-- A segment stands for something exactly when it is allowed. -/
theorem allowed_iff_stands : Allowed bindings segment ↔ ∃ component, Stands bindings segment component := by
  constructor
  · intro allowed
    cases read : readSegment bindings segment with
    | ok component => exact ⟨component, read_segment_ok_iff.mp read⟩
    | error fault =>
      cases read_segment_error_iff.mp read with
      | nameless => exact absurd rfl allowed.named
      | unbound name clear unbound =>
        have bound := allowed.bound _ _ _ name clear
        rw [unbound] at bound
        cases bound
  · rintro ⟨component, stands⟩
    constructor
    case named =>
      rintro rfl
      exact stands_not_faulty stands .nameless
    case bound =>
      intro kind label localPart name clear
      cases unbound : bindings.resolve label with
      | some space => rfl
      | none => exact absurd (.unbound name clear unbound) (stands_not_faulty stands)

theorem faulty_not_allowed {fault : PathFault} (faulty : Faulty bindings segment fault) :
    ¬ Allowed bindings segment := by
  intro allowed
  obtain ⟨component, stands⟩ := allowed_iff_stands.mp allowed
  exact stands_not_faulty stands faulty

end Names

section Gaps

theorem collapse_apart (components : List Component) :
    (collapseGaps components).IsChain fun first second =>
      ¬ (first.isGap = true ∧ second.isGap = true) := by
  induction components with
  | nil => exact .nil
  | cons component rest ih =>
    unfold collapseGaps
    split
    · rename_i later collapsed
      exact collapsed ▸ ih
    · rename_i component later _ different
      refine ih.cons fun next front gaps => ?_
      obtain ⟨later, collapsed⟩ := List.head?_eq_some_iff.mp front
      cases component <;> cases next <;> simp_all [Component.isGap]

/-- Of a run of gaps the last one is left. -/
theorem collapse_last (components : List Component) :
    (collapseGaps components).getLast? = components.getLast? := by
  induction components with
  | nil => rfl
  | cons component rest ih =>
    unfold collapseGaps
    split
    · rename_i later collapsed
      rw [collapsed] at ih
      rw [ih, List.getLast?_cons, ← ih, List.getLast?_cons]
      rfl
    · rw [List.getLast?_cons, List.getLast?_cons, ih]

theorem collapse_eq_nil_iff {components : List Component} :
    collapseGaps components = [] ↔ components = [] := by
  rw [← List.getLast?_eq_none_iff, collapse_last, List.getLast?_eq_none_iff]

/-- One component more is kept unless it is a gap behind a gap. -/
theorem collapse_append (components : List Component) (component : Component) :
    collapseGaps (components ++ [component]) =
      if component.isGap && components.getLast?.any Component.isGap then collapseGaps components
      else collapseGaps components ++ [component] := by
  induction components with
  | nil => cases component <;> rfl
  | cons first rest ih =>
    by_cases alone : rest = []
    · subst alone
      cases first <;> cases component <;> rfl
    · have present : collapseGaps rest ≠ [] := fun none => alone (collapse_eq_nil_iff.mp none)
      obtain ⟨next, later, collapsed⟩ := List.exists_cons_of_ne_nil present
      rw [List.cons_append, List.getLast?_cons_of_ne_nil alone]
      by_cases dropped : (component.isGap && rest.getLast?.any Component.isGap) = true
      · rw [if_pos dropped] at ih ⊢
        simp only [collapseGaps, ih]
      · rw [if_neg dropped] at ih ⊢
        simp only [collapseGaps, ih, collapsed]
        cases first <;> cases next <;> rfl

/-- Extending a collapsed pattern keeps it collapsed. -/
theorem extend_collapsed (components : List Component) (closed : Bool) (component : Component) :
    (Pattern.mk (collapseGaps components) closed).extend component =
      ⟨collapseGaps (components ++ [component]), closed⟩ := by
  rw [extend, last?, collapse_last, collapse_append]
  split
  · rfl
  · rfl

theorem extend_all (components : List Component) (closed : Bool) (before : List Component) :
    components.foldl extend ⟨collapseGaps before, closed⟩ =
      ⟨collapseGaps (before ++ components), closed⟩ := by
  induction components generalizing before with
  | nil => rw [List.append_nil, List.foldl_nil]
  | cons component rest ih => rw [List.foldl_cons, extend_collapsed, ih, List.append_assoc]; rfl

end Gaps

section Reading
variable {bindings : Bindings} {before pattern : Pattern} {segment : List Char}
  {earlier pieces : List (List Char)} {fault : PathFault}

/-- Reading a text character by character is reading its segments one by one. The first segment may
have been begun already. -/
theorem read_rest_eq (before : Pattern) (segment text : List Char) :
    ∃ piece pieces, Text.splitBy (· == '/') text = piece :: pieces ∧
      readRest bindings before segment text =
        readAll bindings before (((segment ++ piece) :: pieces).map Text.trim) := by
  induction text generalizing before segment with
  | nil => exact ⟨[], [], rfl, by rw [List.append_nil]; rfl⟩
  | cons c rest ih =>
    by_cases slash : c = '/'
    · obtain ⟨piece, pieces, split, _⟩ := ih before []
      refine ⟨[], piece :: pieces, by simp [Text.splitBy, slash, split], ?_⟩
      rw [readRest, if_pos slash, List.append_nil, List.map_cons, List.map_cons, readAll]
      cases readSegment bindings (Text.trim segment) with
      | error fault => rfl
      | ok component =>
        obtain ⟨_, _, again, read⟩ := ih (before.extend component) []
        rw [split] at again
        cases again
        exact read
      simp
    · obtain ⟨piece, pieces, split, read⟩ := ih before (segment ++ [c])
      refine ⟨c :: piece, pieces, Text.splitBy_other slash split, ?_⟩
      rw [readRest, if_neg slash, read, List.append_assoc]
      rfl

theorem segments_ne_nil (path : String) : segments path ≠ [] :=
  fun none => Text.splitBy_ne_nil _ _ (List.map_eq_nil_iff.mp none)

theorem read_eq (closed : Bool) (path : String) :
    read bindings closed path =
      (readAll bindings ⟨[], closed⟩ (segments path)).mapError (PathError.mk path) := by
  obtain ⟨piece, pieces, split, same⟩ := @read_rest_eq bindings ⟨[], closed⟩ [] (body path)
  rw [List.nil_append, ← split] at same
  rw [Pattern.read, same, segments]
  cases readAll bindings ⟨[], closed⟩ ((Text.splitBy (· == '/') (body path)).map Text.trim) <;> rfl

theorem read_all_cons (more : pieces ≠ []) :
    readAll bindings before (segment :: pieces) =
      match readSegment bindings segment with
      | .error fault => .error fault
      | .ok component => readAll bindings (before.extend component) pieces := by
  cases pieces with
  | nil => exact absurd rfl more
  | cons next rest => rfl

theorem read_last_ok_iff :
    readLast bindings before segment = .ok pattern ↔
      segment ≠ [] ∧ ∃ component, Stands bindings segment component ∧
        pattern = before.extend component := by
  by_cases empty : segment = []
  · simp [readLast, empty]
  · rw [readLast, if_neg (by simpa using empty)]
    constructor
    · intro read
      cases one : readSegment bindings segment with
      | error fault => rw [one] at read; cases read
      | ok component =>
        rw [one] at read
        cases read
        exact ⟨empty, component, read_segment_ok_iff.mp one, rfl⟩
    · rintro ⟨_, component, stands, rfl⟩
      rw [read_segment_ok_iff.mpr stands]
      rfl

/-- What is read is what the segments stand for, added in order. -/
theorem read_all_ok_iff (present : pieces ≠ []) :
    readAll bindings before pieces = .ok pattern ↔
      pieces.getLast? ≠ some [] ∧ ∃ components, List.Forall₂ (Stands bindings) pieces components ∧
        pattern = components.foldl extend before := by
  induction pieces generalizing before with
  | nil => exact absurd rfl present
  | cons segment rest ih =>
    by_cases last : rest = []
    · subst last
      rw [readAll, read_last_ok_iff]
      simp only [List.getLast?_singleton, ne_eq, Option.some.injEq]
      constructor
      · rintro ⟨nonempty, component, stands, same⟩
        exact ⟨nonempty, [component], .cons stands .nil, same⟩
      · rintro ⟨nonempty, components, all, same⟩
        obtain ⟨component, _, stands, ⟨⟩, rfl⟩ := List.forall₂_cons_left_iff.mp all
        exact ⟨nonempty, component, stands, same⟩
    · rw [read_all_cons last, List.getLast?_cons_of_ne_nil last]
      cases one : readSegment bindings segment with
      | error fault =>
        refine iff_of_false (by simp) ?_
        rintro ⟨_, components, all, _⟩
        obtain ⟨component, _, stands, _⟩ := List.forall₂_cons_left_iff.mp all
        exact stands_not_faulty stands (read_segment_error_iff.mp one)
      | ok component =>
        refine (ih last).trans (and_congr_right fun _ => ?_)
        constructor
        · rintro ⟨components, all, same⟩
          exact ⟨component :: components, .cons (read_segment_ok_iff.mp one) all, same⟩
        · rintro ⟨components, all, same⟩
          obtain ⟨first, later, stands, others, rfl⟩ := List.forall₂_cons_left_iff.mp all
          rw [read_segment_ok_iff.mpr stands] at one
          cases one
          exact ⟨later, others, same⟩

/-- An empty segment is a fault only at the end. -/
theorem offends_iff_faulty (inside : segment = [] → pieces ≠ []) :
    Offends bindings earlier segment pieces fault ↔ Faulty bindings segment fault := by
  constructor
  · intro offends
    cases offends with
    | nothing _ => exact absurd rfl (inside rfl)
    | ending _ => exact absurd rfl (inside rfl)
    | faulty faulty => exact faulty
  · exact .faulty

theorem read_last_error_iff (start : before.isEmpty = earlier.isEmpty) :
    readLast bindings before segment = .error fault ↔
      Offends bindings earlier segment [] fault := by
  by_cases empty : segment = []
  · subst empty
    rw [readLast, if_pos List.isEmpty_nil, start]
    constructor
    · intro read
      by_cases none : earlier = []
      · rw [if_pos (by simpa using none)] at read
        cases read
        exact .nothing none
      · rw [if_neg (by simpa using none)] at read
        cases read
        exact .ending none
    · intro offends
      cases offends with
      | nothing none => rw [none]; rfl
      | ending some => rw [if_neg (by simpa using some)]
      | faulty faulty => exact absurd faulty (stands_not_faulty .gap)
  · rw [offends_iff_faulty fun same => absurd same empty, readLast, if_neg (by simpa using empty),
      ← read_segment_error_iff]
    cases readSegment bindings segment <;> simp [Except.map]

/-- The leftmost fault is that of the first segment, or it is behind it. -/
theorem leftmost_cons :
    Leftmost bindings earlier (segment :: pieces) fault ↔
      Offends bindings earlier segment pieces fault ∨
        Allowed bindings segment ∧ Leftmost bindings (earlier ++ [segment]) pieces fault := by
  constructor
  · rintro ⟨front, at_fault, after, same, allowed, offends⟩
    cases front with
    | nil =>
      cases same
      rw [List.append_nil] at offends
      exact .inl offends
    | cons first front =>
      cases same
      rw [List.append_cons] at offends
      obtain ⟨first, others⟩ := List.forall_mem_cons.mp allowed
      exact .inr ⟨first, front, at_fault, after, rfl, others, offends⟩
  · rintro (offends | ⟨first, front, at_fault, after, rfl, others, offends⟩)
    · exact ⟨[], segment, pieces, rfl, by simp, by rwa [List.append_nil]⟩
    · refine ⟨segment :: front, at_fault, after, rfl, List.forall_mem_cons.mpr ⟨first, others⟩, ?_⟩
      rwa [List.append_assoc] at offends

theorem extend_present (before : Pattern) (component : Component) :
    (before.extend component).isEmpty = false := by
  unfold extend
  split
  · rename_i gaps
    cases components : before.components with
    | nil => simp [last?, components] at gaps
    | cons _ _ => simp [isEmpty, components]
  · simp [push, isEmpty]

/-- The error is that of the leftmost segment at fault. -/
theorem read_all_error_iff (start : before.isEmpty = earlier.isEmpty) :
    readAll bindings before pieces = .error fault ↔ Leftmost bindings earlier pieces fault := by
  induction pieces generalizing before earlier with
  | nil => simp [readAll, Leftmost]
  | cons segment rest ih =>
    rw [leftmost_cons]
    by_cases last : rest = []
    · subst last
      have behind : ¬ Leftmost bindings (earlier ++ [segment]) [] fault := by simp [Leftmost]
      rw [readAll, read_last_error_iff start]
      simp only [behind, and_false, or_false]
    · rw [read_all_cons last, offends_iff_faulty fun _ => last]
      cases one : readSegment bindings segment with
      | error other =>
        have faulty := read_segment_error_iff.mp one
        simp only [faulty_not_allowed faulty, false_and, or_false]
        simp [← read_segment_error_iff, one]
      | ok component =>
        have allowed := allowed_iff_stands.mpr ⟨component, read_segment_ok_iff.mp one⟩
        have faultless : ¬ Faulty bindings segment fault := fun faulty =>
          faulty_not_allowed faulty allowed
        simp only [faultless, allowed, true_and, false_or]
        exact ih (by simp [extend_present])

end Reading

section Paths
variable {bindings : Bindings} {closed : Bool} {path : String} {pattern : Pattern}
  {pieces : List (List Char)} {components : List Component}

theorem all_allowed_iff :
    (∀ segment ∈ pieces, Allowed bindings segment) ↔
      ∃ components, List.Forall₂ (Stands bindings) pieces components := by
  induction pieces with
  | nil => exact iff_of_true (by simp) ⟨[], .nil⟩
  | cons segment rest ih =>
    rw [List.forall_mem_cons, allowed_iff_stands, ih]
    constructor
    · rintro ⟨⟨component, stands⟩, components, others⟩
      exact ⟨component :: components, .cons stands others⟩
    · rintro ⟨_, all⟩
      obtain ⟨component, components, stands, others, _⟩ := List.forall₂_cons_left_iff.mp all
      exact ⟨⟨component, stands⟩, components, others⟩

theorem read_ok_iff :
    read bindings closed path = .ok pattern ↔
      (segments path).getLast? ≠ some [] ∧
        ∃ components, List.Forall₂ (Stands bindings) (segments path) components ∧
          pattern = ⟨collapseGaps components, closed⟩ := by
  have succeeds : read bindings closed path = .ok pattern ↔
      readAll bindings ⟨collapseGaps [], closed⟩ (segments path) = .ok pattern := by
    rw [read_eq, collapseGaps]
    cases readAll bindings ⟨[], closed⟩ (segments path) <;> simp [Except.mapError]
  rw [succeeds, read_all_ok_iff (segments_ne_nil path)]
  simp only [extend_all, List.nil_append]

theorem read_error_iff {error : PathError} :
    read bindings closed path = .error error ↔
      error.path = path ∧ Leftmost bindings [] (segments path) error.fault := by
  rw [← @read_all_error_iff _ ⟨[], closed⟩ _ _ _ rfl, read_eq]
  obtain ⟨text, fault⟩ := error
  cases readAll bindings ⟨[], closed⟩ (segments path) <;> simp [Except.mapError, eq_comm]

/-- The last component is what the last segment stands for. -/
theorem last_stands {last : Component} (all : List.Forall₂ (Stands bindings) pieces components)
    (found : components.getLast? = some last) :
    ∃ segment, pieces.getLast? = some segment ∧ Stands bindings segment last := by
  rw [← List.head?_reverse] at found
  obtain ⟨others, backwards⟩ := List.head?_eq_some_iff.mp found
  have both := List.forall₂_reverse_iff.mpr all
  rw [backwards] at both
  obtain ⟨segment, _, stands, _, same⟩ := List.forall₂_cons_right_iff.mp both
  exact ⟨segment, by rw [← List.head?_reverse, same]; rfl, stands⟩

theorem tidy_read (read : read bindings closed path = .ok pattern) : Tidy pattern.components := by
  obtain ⟨nonempty, components, all, rfl⟩ := read_ok_iff.mp read
  constructor
  case nonempty =>
    intro none
    rw [collapse_eq_nil_iff.mp none] at all
    exact segments_ne_nil path (List.forall₂_nil_right_iff.mp all)
  case apart => exact collapse_apart components
  case ends =>
    intro last found
    obtain ⟨segment, ends, stands⟩ := last_stands all (collapse_last components ▸ found)
    cases stands with
    | gap => exact absurd ends nonempty
    | wildcard => rfl
    | name _ _ => rfl

end Paths

/-- A text is read as a path exactly when its last segment is not empty and each of its segments is
allowed. The pattern is then what the segments stand for one by one, with every run of gaps made one,
so it is tidy. In any other text the error is that of the leftmost segment at fault. -/
theorem paths_follow_grammar (bindings : Bindings) (closed : Bool) (path : String) :
    ((∃ pattern, read bindings closed path = .ok pattern) ↔
      (segments path).getLast? ≠ some [] ∧ ∀ segment ∈ segments path, Allowed bindings segment) ∧
    (∀ pattern, read bindings closed path = .ok pattern ↔
      (segments path).getLast? ≠ some [] ∧
        ∃ components, List.Forall₂ (Stands bindings) (segments path) components ∧
          pattern = ⟨collapseGaps components, closed⟩) ∧
    (∀ pattern, read bindings closed path = .ok pattern → Tidy pattern.components) ∧
    ∀ error, read bindings closed path = .error error ↔
      error.path = path ∧ Leftmost bindings [] (segments path) error.fault := by
  refine ⟨?_, fun _ => read_ok_iff, fun _ => tidy_read, fun _ => read_error_iff⟩
  rw [all_allowed_iff]
  constructor
  · rintro ⟨pattern, read⟩
    obtain ⟨nonempty, components, all, _⟩ := read_ok_iff.mp read
    exact ⟨nonempty, components, all⟩
  · rintro ⟨nonempty, components, all⟩
    exact ⟨_, read_ok_iff.mpr ⟨nonempty, components, all, rfl⟩⟩

section Sample

/-- The label of text elements is bound, besides the initial one. -/
def textBindings : Bindings := Bindings.initial.declare "tei" "http://www.tei-c.org/ns/1.0"

def headName : QName :=
  ⟨⟨.element, some "http://www.tei-c.org/ns/1.0", "head"⟩, some "tei"⟩

/-- A run of gaps behind a name, and a text whose second segment is the first at fault. -/
theorem head_path_follows_grammar :
    read textBindings false "div// /tei:head" =
        .ok ⟨[.named (.unqualified .element "div"), .gap, .named headName], false⟩ ∧
      Tidy [.named (.unqualified .element "div"), .gap, .named headName] ∧
      read textBindings false "div/@/x:head/" = .error ⟨"div/@/x:head/", .emptyAttributeName⟩ := by
  obtain ⟨_, reads, tidy, _⟩ := paths_follow_grammar textBindings false "div// /tei:head"
  obtain ⟨_, _, _, fails⟩ := paths_follow_grammar textBindings false "div/@/x:head/"
  have div : Stands textBindings "div".toList (.named (.unqualified .element "div")) :=
    .name (.unmarked (by decide) (by decide) (by decide)) (.plain (by decide))
  have head : Stands textBindings "tei:head".toList (.named headName) :=
    .name (.unmarked (by decide) (by decide) (by decide)) (qualify_some_iff.mp (by decide +kernel))
  have cut : segments "div// /tei:head" = ["div".toList, [], [], "tei:head".toList] := by
    decide +kernel
  have read := (reads ⟨[.named (.unqualified .element "div"), .gap, .named headName], false⟩).mpr
    (by rw [cut]; exact ⟨by decide, _, .cons div (.cons .gap (.cons .gap (.cons head .nil))), rfl⟩)
  have allowed : ∀ earlier ∈ ["div".toList], Allowed textBindings earlier := by
    intro earlier member
    rw [List.mem_singleton.mp member]
    exact allowed_iff_stands.mpr ⟨_, div⟩
  have leftmost : Leftmost textBindings [] (segments "div/@/x:head/") .emptyAttributeName :=
    ⟨["div".toList], ['@'], ["x:head".toList, []], by decide +kernel, allowed, .faulty .nameless⟩
  exact ⟨read, tidy _ read, (fails _).mpr ⟨rfl, leftmost⟩⟩

end Sample

end RangeIndex.PathGrammar
