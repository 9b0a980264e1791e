import RangeIndex.Name.Bindings
import RangeIndex.Name.Scopes

/-! Scopes that open and close with the elements of a document hold, at every place, the bindings
of the elements around it. The depth of the scopes is counted in 16 bits, so this ends at a nesting
of 65535; up to there leaving an element takes away what it declared and nothing else. -/
namespace RangeIndex.ScopeNesting

/-- The scopes at a level below the document hold what has been bound around it. -/
structure Holds (scopes : Scopes) (bindings : Bindings) (level : Nat) : Prop where
  depth : scopes.depth.toNat = level
  above : ∀ declaration ∈ scopes.declarations, declaration.depth.toNat ≤ level
  bindings : scopes.declarations.map (fun d => (d.label, d.space)) = bindings.entries

section Boundary
variable {α : Type} {test : α → Bool} {first second : List α}

/-- A list whose first part passes a test that its second part fails is split between the two. -/
theorem takeWhile_at_boundary (passes : ∀ item ∈ first, test item = true)
    (fails : ∀ item ∈ second, test item = false) : (first ++ second).takeWhile test = first :=
  Text.takeWhile_run passes fun item front => fails item (List.mem_of_head? front)

theorem dropWhile_at_boundary (passes : ∀ item ∈ first, test item = true)
    (fails : ∀ item ∈ second, test item = false) : (first ++ second).dropWhile test = second :=
  Text.dropWhile_run passes fun item front => fails item (List.mem_of_head? front)

end Boundary

/-- Declare labels in order in the innermost scope. -/
def declareAll (scopes : Scopes) (declared : List (String × String)) : Scopes :=
  declared.foldl (fun scopes (label, space) => scopes.declare label space) scopes

/-- The declarations that are not ignored. -/
def effective (declared : List (String × String)) : List (String × String) :=
  declared.filter fun (label, _) => !Scopes.isReserved label

theorem initial_holds : Holds .initial .initial 0 := by
  constructor
  case depth => rfl
  case above => simp [Scopes.initial]
  case bindings => rfl

section Declaring
variable {scopes : Scopes} {bindings : Bindings} {level : Nat}

theorem declare_holds (holds : Holds scopes bindings level) (label space : String) :
    Holds (scopes.declare label space) (bindings.declareAll (effective [(label, space)])) level := by
  unfold Scopes.declare
  by_cases reserved : Scopes.isReserved label = true
  · simpa [effective, reserved, Bindings.declareAll] using holds
  · rw [if_neg reserved]
    constructor
    case depth => exact holds.depth
    case above =>
      intro declaration member
      rcases List.mem_cons.mp member with rfl | older
      · exact Nat.le_of_eq holds.depth
      · exact holds.above declaration older
    case bindings =>
      simp [effective, reserved, Bindings.declareAll, Bindings.declare, holds.bindings]

/-- Declaring in the innermost scope binds the labels that are not reserved. -/
theorem declare_all_holds (holds : Holds scopes bindings level)
    (declared : List (String × String)) :
    Holds (declareAll scopes declared) (bindings.declareAll (effective declared)) level := by
  induction declared generalizing scopes bindings with
  | nil => exact holds
  | cons first rest ih =>
    have next := ih (declare_holds holds first.1 first.2)
    have split : effective (first :: rest) = effective [first] ++ effective rest := by
      rw [effective, effective, effective, ← List.filter_append]
      rfl
    rw [split, Bindings.declareAll, List.foldl_append]
    exact next

theorem depth_push (room : scopes.depth.toNat < 65535) :
    scopes.push.depth.toNat = scopes.depth.toNat + 1 := by
  simp only [Scopes.push, UInt16.toNat_add, UInt16.toNat_one]
  omega

theorem push_holds (holds : Holds scopes bindings level) (room : level < 65535) :
    Holds scopes.push bindings (level + 1) := by
  have shallow : scopes.depth.toNat < 65535 := by rw [holds.depth]; exact room
  have depth := depth_push shallow
  constructor
  case depth => rw [depth, holds.depth]
  case above =>
    intro declaration member
    exact Nat.le_succ_of_le (holds.above declaration member)
  case bindings => exact holds.bindings

end Declaring

section Leaving

theorem depth_pop (scopes : Scopes) : scopes.pop.depth.toNat = scopes.depth.toNat - 1 := by
  unfold Scopes.pop
  by_cases outermost : scopes.depth = 0
  · simp [outermost]
  · have one : (1 : UInt16) ≤ scopes.depth := by
      rw [UInt16.le_iff_toNat_le, UInt16.toNat_one]
      exact Nat.pos_of_ne_zero fun zero => outermost (UInt16.toNat_inj.mp zero)
    dsimp only
    rw [if_neg outermost, UInt16.toNat_sub_of_le _ _ one, UInt16.toNat_one]

/-- Leaving a scope where none is counted takes away everything. -/
theorem pop_uncounted {scopes : Scopes} (uncounted : scopes.depth = 0) :
    scopes.pop = ⟨[], 0⟩ := by
  have ended : ∀ d ∈ scopes.declarations, decide (scopes.depth ≤ d.depth) = true := by
    intro d _
    rw [uncounted]
    exact decide_eq_true (UInt16.zero_le)
  have all := dropWhile_at_boundary ended (List.forall_mem_nil _)
  rw [List.append_nil] at all
  rw [Scopes.pop, all, if_pos uncounted]

end Leaving

/-- What is declared in a scope is put in front, at the depth of the scope. -/
theorem declare_all_in_front (scopes : Scopes) (declared : List (String × String)) :
    ∃ added, declareAll scopes declared = ⟨added ++ scopes.declarations, scopes.depth⟩ ∧
      ∀ declaration ∈ added, declaration.depth = scopes.depth := by
  induction declared generalizing scopes with
  | nil => exact ⟨[], rfl, by simp⟩
  | cons first rest ih =>
    obtain ⟨added, same, depths⟩ := ih (scopes.declare first.1 first.2)
    have unfolded : declareAll scopes (first :: rest) =
        declareAll (scopes.declare first.1 first.2) rest := rfl
    rw [unfolded, same]
    unfold Scopes.declare at depths ⊢
    by_cases reserved : Scopes.isReserved first.1 = true
    · simp only [reserved, if_true] at depths ⊢
      exact ⟨added, rfl, depths⟩
    · simp only [reserved, Bool.false_eq_true, if_false] at depths ⊢
      refine ⟨added ++ [⟨first.1, first.2, scopes.depth⟩], by simp, ?_⟩
      intro declaration member
      rcases List.mem_append.mp member with inner | own
      · exact depths declaration inner
      · rw [List.mem_singleton.mp own]

/-- Leaving a scope restores the scopes as they were when it was entered. -/
theorem leaving_restores_scopes {scopes : Scopes} {bindings : Bindings} {level : Nat}
    (holds : Holds scopes bindings level) (room : level < 65535)
    (declared : List (String × String)) : (declareAll scopes.push declared).pop = scopes := by
  obtain ⟨added, same, depths⟩ := declare_all_in_front scopes.push declared
  have shallow : scopes.depth.toNat < 65535 := by rw [holds.depth]; exact room
  have depth := depth_push shallow
  have ended : ∀ declaration ∈ added,
      decide (scopes.push.depth ≤ declaration.depth) = true := by
    intro declaration member
    simp [depths declaration member]
  have stays : ∀ declaration ∈ scopes.declarations,
      decide (scopes.push.depth ≤ declaration.depth) = false := by
    intro declaration member
    have older := holds.above declaration member
    rw [decide_eq_false_iff_not, UInt16.le_iff_toNat_le, depth, holds.depth]
    omega
  have positive : scopes.push.depth ≠ 0 := by
    intro zero
    rw [zero] at depth
    simp at depth
  have kept : scopes.push.declarations = scopes.declarations := rfl
  rw [same, kept, Scopes.pop]
  dsimp only
  rw [dropWhile_at_boundary ended stays, if_neg positive]
  simp [Scopes.push]

section Names

/-- The name of an element under bindings; without a label it is in the namespace bound to the
empty one. -/
def elementName (bindings : Bindings) (written : String) : QName :=
  let (label, localPart) := splitLabel written
  .ofParts .element (bindings.resolve (label.getD "")) localPart label

/-- The name of an attribute under bindings; without a label it is in no namespace. -/
def attributeName (bindings : Bindings) (written : String) : QName :=
  match splitLabel written with
  | (none, localPart) => .unqualified .attribute localPart
  | (some label, localPart) => .ofParts .attribute (bindings.resolve label) localPart (some label)

variable {scopes : Scopes} {bindings : Bindings} {level : Nat}

theorem lookup_declared (declarations : List Declaration) (label : String) :
    (declarations.find? fun d => d.label == label).map (·.space) =
      (declarations.map fun d => (d.label, d.space)).lookup label := by
  induction declarations with
  | nil => rfl
  | cons first rest ih =>
    rw [List.find?_cons, List.map_cons, List.lookup_cons]
    by_cases same : first.label = label
    · simp [same]
    · have differs : (label == first.label) = false := by simpa using Ne.symm same
      rw [differs, beq_eq_false_iff_ne.mpr same]
      exact ih

theorem resolve_by_bindings (holds : Holds scopes bindings level) (label : String) :
    scopes.resolve label = presentText (bindings.resolve label) := by
  rw [Scopes.resolve, lookup_declared, holds.bindings]
  rfl

/-- An empty namespace is none, whoever leaves it out. -/
theorem present_of_parts (kind : NameKind) (space : Option String) (localPart : String)
    (label : Option String) :
    QName.ofParts kind (presentText space) localPart label =
      QName.ofParts kind space localPart label := by
  simp [QName.ofParts, presentText, Option.filter_filter]

theorem element_name_by_bindings (holds : Holds scopes bindings level) (written : String) :
    scopes.elementName written = elementName bindings written := by
  simp only [Scopes.elementName, elementName, resolve_by_bindings holds, present_of_parts]

theorem attribute_name_by_bindings (holds : Holds scopes bindings level) (written : String) :
    scopes.attributeName written = attributeName bindings written := by
  unfold Scopes.attributeName attributeName
  rcases splitLabel written with ⟨_ | label, localPart⟩
  · rfl
  · dsimp only
    rw [resolve_by_bindings holds, present_of_parts]

end Names

end RangeIndex.ScopeNesting
