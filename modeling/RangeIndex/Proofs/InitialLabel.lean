import RangeIndex.Proofs.ScopeFrames

/-! How long `xml` is bound. Its declaration is the oldest and was made outside all scopes, and only
its place protects it: leaving a scope takes declarations away from the latest on, down to those less
deep than the scope, and starting over keeps the oldest. So it stays as long as no scope is left where
none is counted. Leaving one there takes away everything; no request binds `xml` again, and the label
that is declared next has its place. -/
namespace RangeIndex.InitialLabel
open ScopeNesting ScopeFrames

section Definitions

/-- Scopes after requests, in order. -/
def after (scopes : Scopes) (requests : List Request) : Scopes := (run serve scopes requests).1

/-- How many scopes are counted after a request. The count has 16 bits and does not fall below zero. -/
def countAfter (count : Nat) : Request → Nat
  | .push => (count + 1) % 65536
  | .pop => count - 1
  | .clear => 0
  | .declare _ _ => count
  | .resolve _ => count

/-- Where so many scopes are counted, requests leave none when none is counted. -/
def Matched : Nat → List Request → Prop
  | _, [] => True
  | count, request :: rest =>
    (request = .pop → count ≠ 0) ∧ Matched (countAfter count request) rest

/-- In every state that requests lead through `xml` has its namespace, and right after starting over
no other label has one. -/
structure Protected (requests : List Request) : Prop where
  bound : ∀ before, before <+: requests →
    (after .initial before).resolve "xml" = some xmlNamespace
  cleared : ∀ before, before ++ [.clear] <+: requests → ∀ label, label ≠ "xml" →
    (after .initial (before ++ [.clear])).resolve label = none

/-- A declaration made outside all scopes, with none older. -/
structure Oldest (first : Declaration) (scopes : Scopes) : Prop where
  outside : first.depth = 0
  newer : ∃ newer, scopes.declarations = newer ++ [first]

end Definitions

section Steps
variable {scopes : Scopes} {first : Declaration}

theorem after_cons (scopes : Scopes) (request : Request) (rest : List Request) :
    after scopes (request :: rest) = after (serve scopes request).1 rest := rfl

theorem after_append (scopes : Scopes) (before later : List Request) :
    after scopes (before ++ later) = after (after scopes before) later := by
  rw [after, run_append]
  rfl

theorem depth_served (scopes : Scopes) (request : Request) :
    (serve scopes request).1.depth.toNat = countAfter scopes.depth.toNat request := by
  cases request with
  | push => simp [serve, Scopes.push, countAfter, UInt16.toNat_add]
  | pop => exact depth_pop scopes
  | clear => rfl
  | declare label space =>
    change (scopes.declare label space).depth.toNat = _
    unfold Scopes.declare
    split <;> rfl
  | resolve label => rfl

theorem depth_after (scopes : Scopes) (requests : List Request) :
    (after scopes requests).depth.toNat = requests.foldl countAfter scopes.depth.toNat := by
  induction requests generalizing scopes with
  | nil => rfl
  | cons request rest ih => rw [after_cons, ih, depth_served, List.foldl_cons]

/-- What is in force was so before, or it is declared just now and its label is not reserved. -/
theorem served_declarations (scopes : Scopes) (request : Request) :
    ∀ d ∈ (serve scopes request).1.declarations,
      d ∈ scopes.declarations ∨ Scopes.isReserved d.label = false := by
  intro d member
  cases request with
  | push => exact .inl member
  | pop => exact .inl ((List.dropWhile_sublist _).subset member)
  | clear => exact .inl (List.mem_of_getLast? (Option.mem_toList.mp member))
  | declare label space =>
    change d ∈ (scopes.declare label space).declarations at member
    unfold Scopes.declare at member
    split at member
    · exact .inl member
    · rename_i free
      rcases List.mem_cons.mp member with rfl | older
      · exact .inr (Bool.eq_false_iff.mpr free)
      · exact .inl older
  | resolve label => exact .inl member

theorem clear_oldest (oldest : Oldest first scopes) : scopes.clear = ⟨[first], 0⟩ := by
  obtain ⟨newer, same⟩ := oldest.newer
  rw [Scopes.clear, same, List.getLast?_concat]
  rfl

/-- The oldest declaration stays, unless a scope is left where none is counted. -/
theorem serve_oldest (oldest : Oldest first scopes) (request : Request)
    (counted : request = .pop → scopes.depth ≠ 0) : Oldest first (serve scopes request).1 := by
  obtain ⟨outside, newer, same⟩ := oldest
  refine ⟨outside, ?_⟩
  cases request with
  | push => exact ⟨newer, same⟩
  | pop =>
    let ends := fun d : Declaration => decide (scopes.depth ≤ d.depth)
    have stays : ends first = false := by
      rw [decide_eq_false_iff_not, outside, UInt16.le_zero_iff]
      exact counted rfl
    refine ⟨newer.dropWhile ends, ?_⟩
    change scopes.declarations.dropWhile ends = _
    rw [same, Text.dropWhile_concat stays]
  | clear => exact ⟨[], congrArg Scopes.declarations (clear_oldest ⟨outside, newer, same⟩)⟩
  | declare label space =>
    change ∃ newer, (scopes.declare label space).declarations = newer ++ [first]
    unfold Scopes.declare
    split
    · exact ⟨newer, same⟩
    · exact ⟨_ :: newer, congrArg (List.cons _) same⟩
  | resolve label => exact ⟨newer, same⟩

end Steps

section Runs
variable {scopes : Scopes} {first : Declaration} {requests : List Request}

theorem after_declarations (scopes : Scopes) (requests : List Request) :
    ∀ d ∈ (after scopes requests).declarations,
      d ∈ scopes.declarations ∨ Scopes.isReserved d.label = false := by
  induction requests generalizing scopes with
  | nil => exact fun d member => .inl member
  | cons request rest ih =>
    intro d member
    rcases ih _ d member with earlier | free
    · exact served_declarations scopes request d earlier
    · exact .inr free

theorem after_oldest (oldest : Oldest first scopes)
    (matched : Matched scopes.depth.toNat requests) : Oldest first (after scopes requests) := by
  induction requests generalizing scopes with
  | nil => exact oldest
  | cons request rest ih =>
    obtain ⟨counted, later⟩ := matched
    rw [← depth_served] at later
    refine ih (serve_oldest oldest request fun pop none => counted pop ?_) later
    rw [none]
    rfl

theorem matched_append {count : Nat} {before later : List Request} :
    Matched count (before ++ later) ↔
      Matched count before ∧ Matched (before.foldl countAfter count) later := by
  induction before generalizing count with
  | nil => simp [Matched]
  | cons request rest ih => simp only [List.cons_append, Matched, ih, List.foldl_cons, and_assoc]

/-- Requests that are not matched leave a scope somewhere when none is counted. -/
theorem unmatched_split {count : Nat} (unmatched : ¬ Matched count requests) :
    ∃ before later, requests = before ++ .pop :: later ∧ before.foldl countAfter count = 0 := by
  induction requests generalizing count with
  | nil => exact absurd trivial unmatched
  | cons request rest ih =>
    by_cases here : request = .pop → count ≠ 0
    · have behind : ¬ Matched (countAfter count request) rest := fun later => unmatched ⟨here, later⟩
      obtain ⟨before, later, rfl, none⟩ := ih behind
      exact ⟨request :: before, later, rfl, none⟩
    · obtain ⟨rfl, none⟩ := Classical.not_imp.mp here
      exact ⟨[], rest, rfl, Decidable.of_not_not none⟩

/-- When a scope is left where none is counted, nothing is in force any more. -/
theorem emptied (scopes : Scopes) {before : List Request}
    (uncounted : before.foldl countAfter scopes.depth.toNat = 0) (later : List Request) :
    after scopes (before ++ .pop :: later) = after ⟨[], 0⟩ later := by
  have depth : (after scopes before).depth = 0 := by
    rw [← UInt16.toNat_inj, depth_after, uncounted]
    rfl
  have left : (serve (after scopes before) .pop).1 = ⟨[], 0⟩ := pop_uncounted depth
  rw [after_append, after_cons, left]

end Runs

section Labels
variable {scopes : Scopes} {first : Declaration} {requests : List Request}

theorem initial_oldest : Oldest ⟨"xml", xmlNamespace, 0⟩ .initial := ⟨rfl, [], rfl⟩

/-- A label has no namespace where no declaration has it. -/
theorem resolve_undeclared {label : String} (undeclared : ∀ d ∈ scopes.declarations, d.label ≠ label) :
    scopes.resolve label = none := by
  have nothing : scopes.declarations.find? (fun d => d.label == label) = none := by
    rw [List.find?_eq_none]
    intro d member
    simpa using undeclared d member
  rw [Scopes.resolve, nothing]
  rfl

/-- Whatever is declared for `xml` is its namespace. -/
theorem xml_space (requests : List Request) :
    ∀ d ∈ (after .initial requests).declarations, d.label = "xml" → d.space = xmlNamespace := by
  intro d member label
  rcases after_declarations _ requests d member with initial | free
  · rw [List.mem_singleton.mp initial]
  · rw [label] at free
    cases free

theorem xml_bound (matched : Matched 0 requests) :
    (after .initial requests).resolve "xml" = some xmlNamespace := by
  obtain ⟨_, newer, same⟩ := after_oldest initial_oldest matched
  let kept : Declaration := ⟨"xml", xmlNamespace, 0⟩
  have member : kept ∈ (after .initial requests).declarations := by
    rw [same]
    exact List.mem_append_right _ List.mem_cons_self
  cases found : (after .initial requests).declarations.find? fun d => d.label == "xml" with
  | none =>
    have other := List.find?_eq_none.mp found kept member
    simp [kept] at other
  | some d =>
    have label : d.label = "xml" := by simpa using List.find?_some found
    have space := xml_space requests d (List.mem_of_find?_eq_some found) label
    rw [Scopes.resolve, found, Option.map_some, space]
    decide

theorem xml_unbound (unmatched : ¬ Matched 0 requests) :
    (after .initial requests).resolve "xml" = none := by
  obtain ⟨before, later, rfl, uncounted⟩ := unmatched_split unmatched
  rw [emptied .initial uncounted]
  refine resolve_undeclared fun d member label => ?_
  rcases after_declarations _ later d member with nothing | free
  · cases nothing
  · rw [label] at free
    cases free

theorem protected_iff : Protected requests ↔ Matched 0 requests := by
  constructor
  · intro kept
    have bound := kept.bound requests List.prefix_rfl
    refine Classical.byContradiction fun unmatched => ?_
    rw [xml_unbound unmatched] at bound
    cases bound
  · intro matched
    constructor
    case bound =>
      rintro before ⟨later, rfl⟩
      exact xml_bound (matched_append.mp matched).1
    case cleared =>
      rintro before ⟨later, rfl⟩ label other
      rw [List.append_assoc] at matched
      have oldest := after_oldest initial_oldest (matched_append.mp matched).1
      have cleared : after .initial (before ++ [.clear]) = ⟨[⟨"xml", xmlNamespace, 0⟩], 0⟩ := by
        rw [after_append]
        exact clear_oldest oldest
      rw [cleared]
      exact resolve_undeclared (List.forall_mem_singleton.mpr other.symm)

/-- What is declared first where nothing is in force is kept like an oldest declaration. -/
theorem successor_kept {label space : String} (free : Scopes.isReserved label = false)
    (present : space ≠ "") (matched : Matched 0 requests) :
    (after ⟨[], 0⟩ (.declare label space :: requests ++ [.clear])).resolve label = some space := by
  let declared : Declaration := ⟨label, space, 0⟩
  have first : (serve ⟨[], 0⟩ (.declare label space)).1 = ⟨[declared], 0⟩ := by
    simp [serve, Scopes.declare, free, declared]
  have oldest : Oldest declared (after ⟨[declared], 0⟩ requests) :=
    after_oldest ⟨rfl, [], rfl⟩ matched
  have cleared : after ⟨[], 0⟩ (.declare label space :: requests ++ [.clear]) = ⟨[declared], 0⟩ := by
    rw [List.cons_append, after_cons, first, after_append]
    exact clear_oldest oldest
  rw [cleared]
  simp [Scopes.resolve, declared, presentText, present]

end Labels

/-- Scopes keep `xml` bound in every state, and nothing else where they start over, exactly if no scope
is left where none is counted. After one is left so `xml` has no namespace, whatever is asked for later,
and starting over keeps the label that is declared next instead. -/
theorem initial_label_protected_iff (requests : List Request) :
    (Protected requests ↔ Matched 0 requests) ∧
    ((after .initial requests).resolve "xml" = none ↔ ¬ Matched 0 requests) ∧
    ∀ before label space later, requests = before ++ .pop :: .declare label space :: later →
      before.foldl countAfter 0 = 0 → Matched 0 later →
      Scopes.isReserved label = false → space ≠ "" →
        (after .initial (requests ++ [.clear])).resolve label = some space := by
  refine ⟨protected_iff, ⟨?_, xml_unbound⟩, ?_⟩
  · intro unbound matched
    rw [xml_bound matched] at unbound
    cases unbound
  · rintro before label space later rfl uncounted matched free present
    rw [List.append_assoc, List.cons_append, emptied .initial uncounted]
    exact successor_kept free present matched

section Sample

/-- Two scopes, one in the other, are left with what they declare; what is declared outside is not. -/
def nestedScopes : List Request :=
  [.declare "p" "u", .push, .declare "q" "v", .push, .declare "p" "w", .pop, .pop, .clear]

/-- A scope is left that was not entered, and a label is declared in the place of `xml`. -/
def unmatchedScopes : List Request := [.pop, .declare "p" "u", .push, .declare "q" "v", .pop]

theorem nested_scopes_protected :
    Matched 0 nestedScopes ∧ (after .initial nestedScopes).resolve "xml" = some xmlNamespace ∧
      (after .initial nestedScopes).resolve "p" = none ∧
      (after .initial (unmatchedScopes ++ [.clear])).resolve "p" = some "u" := by
  have matched : Matched 0 nestedScopes := by simp [nestedScopes, Matched, countAfter]
  obtain ⟨kept, _⟩ := initial_label_protected_iff nestedScopes
  obtain ⟨_, _, leaks⟩ := initial_label_protected_iff unmatchedScopes
  refine ⟨matched, (kept.mpr matched).bound _ List.prefix_rfl,
    (kept.mpr matched).cleared (nestedScopes.take 7) List.prefix_rfl "p" (by decide), ?_⟩
  exact leaks [] "p" "u" [.push, .declare "q" "v", .pop] rfl rfl (by simp [Matched, countAfter])
    (by decide) (by decide)

/-- Leaving a scope that was not entered unbinds `xml`, and starting over then keeps another label. -/
theorem unmatched_scope_unprotected :
    ¬ Protected [.pop] ∧ (after .initial [.pop]).resolve "xml" = none ∧
      (after .initial [.pop, .declare "p" "u", .clear]).resolve "p" = some "u" := by
  have unbound : (after .initial [.pop]).resolve "xml" = none := rfl
  refine ⟨fun kept => ?_, unbound, by decide⟩
  have bound := kept.bound [.pop] List.prefix_rfl
  rw [unbound] at bound
  cases bound

end Sample

end RangeIndex.InitialLabel
