import RangeIndex.Proofs.LookupOrigins
import RangeIndex.Proofs.RenderedText

/-! Canonical trees are the expressions in which everything stands where the grammar has a place for
it: steps and calls behind slashes, predicates after what they filter, no minus sign beside a union.
Their text is read back as the tree it was written for. A lookup in it has no form of its own in the
grammar and is read as the call of a function. -/
namespace RangeIndex.CanonicalTrees
open Query TokenSpelling SpelledText RenderedForms RenderedText QueryWalk LookupOrigins

/-- A text that is cut into one token, which is the text as a name. -/
def SingleName (written : String) : Prop := tokenize written = .ok [.name written]

section Names

theorem single_of_name {written : String} (is : IsName written) : SingleName written := by
  have spelled : Spells true written [.name written] := spells_name is
  exact tokenize_spelled spelled

/-- A single name without a colon has no label. -/
theorem plain_of_single {label : String} (single : SingleName label) (whole : ':' ∉ label.toList) :
    IsPlain label.toList := by
  cases single_name_spelled single with
  | plain is => simpa using is
  | labelled before after => exact absurd (by simp) whole

end Names

/-- The node tests of canonical steps. -/
def CanonicalTest : NodeTest → Prop
  | .any | .text | .comment => True
  | .named written => SingleName written
  | .labelled label => SingleName label ∧ ':' ∉ label.toList
  | .node | .instruction _ => False

def isCall : Expr → Bool
  | .call _ _ | .lookup _ => true
  | _ => false

/-- Whether a canonical path may have the expression behind a slash: a step, a call, or a call with
predicates after it. -/
def isFollower : Expr → Bool
  | .step _ | .call _ _ | .lookup _ => true
  | .filter inner _ => isCall inner
  | _ => false

/-- Expressions that are written with the parentheses the grammar asks for. -/
inductive Canonical : Expr → Prop where
  | string (value : String) : Canonical (.string value)
  | var {name : String} (single : SingleName name) : Canonical (.var name)
  | call {function : String} {arguments : List Expr} (single : SingleName function)
      (other : isKindName function = false) (inside : ∀ x ∈ arguments, Canonical x) :
      Canonical (.call function arguments)
  | sequence {items : List Expr} (several : items.length ≠ 1) (inside : ∀ x ∈ items, Canonical x) :
      Canonical (.sequence items)
  | step {axis : Axis} {test : NodeTest} {predicates : List Predicate} (head : CanonicalTest test)
      (filled : ∀ p ∈ predicates, p ≠ []) (inside : ∀ p ∈ predicates, ∀ x ∈ p, Canonical x) :
      Canonical (.step ⟨axis, test, predicates⟩)
  | rooted {right : Expr} (follows : isFollower right = true) (after : Canonical right) :
      Canonical (.path .root right)
  | path {left right : Expr} (follows : isFollower right = true) (before : Canonical left)
      (after : Canonical right) : Canonical (.path left right)
  | rootDescent {right : Expr} (follows : isFollower right = true) (after : Canonical right) :
      Canonical (descend .root right)
  | descent {left right : Expr} (follows : isFollower right = true) (before : Canonical left)
      (after : Canonical right) : Canonical (descend left right)
  | filter {inner : Expr} {predicates : List Predicate} (takes : takesPredicates inner = true)
      (filtered : predicates ≠ []) (filled : ∀ p ∈ predicates, p ≠ []) (before : Canonical inner)
      (inside : ∀ p ∈ predicates, ∀ x ∈ p, Canonical x) : Canonical (.filter inner predicates)
  | binary {left right : Expr} (op : BinaryOp) (before : Canonical left) (after : Canonical right) :
      Canonical (.binary left op right)
  | union {left right : Expr} (first : isNegation left = false) (second : isNegation right = false)
      (before : Canonical left) (after : Canonical right) : Canonical (.union left right)
  | negate {inner : Expr} (inside : Canonical inner) : Canonical (.negate inner)
  | lookup {entries : List LookupEntry} (fallback : Step)
      (inside : ∀ entry ∈ entries, Canonical entry.key) : Canonical (.lookup ⟨entries, fallback⟩)

section Forms
variable {e : Expr} {axis : Axis} {test : NodeTest}

theorem canonical_test_spelled (canonical : CanonicalTest test) : SpelledTest test := by
  cases test with
  | named written => exact single_name_spelled canonical
  | labelled label => exact plain_of_single canonical.1 canonical.2
  | any | node | text | comment | instruction => trivial

theorem canonical_head (axis : Axis) (canonical : CanonicalTest test) : FaithfulHead axis test := by
  cases test with
  | node | instruction => exact canonical.elim
  | any | named | labelled | text | comment => exact ⟨nofun, nofun⟩

theorem call_begins_step (is : isCall e = true) : beginsStep e = true := by
  cases e with
  | call | lookup => rfl
  | _ => cases is

theorem follower_begins_step (follows : isFollower e = true) : beginsStep e = true := by
  cases e with
  | step | call | lookup => rfl
  | filter inner predicates => exact call_begins_step (e := inner) follows
  | _ => cases follows

/-- A canonical step is not the one that two slashes stand for, so it is written after a slash. -/
theorem follower_follows_slash (follows : isFollower e = true) (canonical : Canonical e) :
    followsSlash e = true := by
  cases canonical with
  | @step axis test predicates head filled inside =>
    have other : test ≠ .node := by
      rintro rfl
      exact head
    simp [followsSlash, Step.isAbbreviated, other]
  | call | lookup | filter => rfl
  | _ => cases follows

/-- The root stands in front of a slash only. -/
theorem canonical_no_root (canonical : Canonical e) : endsInRoot e = false := by
  induction canonical with
  | binary op before after first second => simp [endsInRoot, second]
  | union plain plain' before after first second => simp [endsInRoot, second]
  | negate inside ih => simp [endsInRoot, ih]
  | _ => rfl

theorem canonical_proper (canonical : Canonical e) : e.isRoot = false := by
  cases canonical <;> rfl

theorem canonical_spelled (canonical : Canonical e) : Spelled e := by
  have gap : Spelled (.step .descendantOrSelf) := .step trivial nofun nofun
  induction canonical with
  | string value => exact .string value
  | var single => exact .var (single_name_spelled single)
  | call single other inside ih => exact .call (single_name_spelled single) other ih
  | sequence several inside ih => exact .sequence several ih
  | step head filled inside ih => exact .step (canonical_test_spelled head) filled ih
  | rooted follows after ih => exact .path .root ih
  | path follows before after first second => exact .path first second
  | rootDescent follows after ih => exact .path (.path .root gap) ih
  | descent follows before after first second => exact .path (.path first gap) second
  | filter takes filtered filled before inside first ih => exact .filter first filtered filled ih
  | binary op before after first second => exact .binary first second
  | union plain plain' before after first second => exact .union first second
  | negate inside ih => exact .negate ih
  | lookup fallback inside ih => exact .lookup ih

theorem canonical_faithful (canonical : Canonical e) : Faithful e := by
  induction canonical with
  | string value => exact .string value
  | var single => exact .var _
  | call single other inside ih => exact .call ih
  | sequence several inside ih => exact .sequence ih
  | step head filled inside ih => exact .step (canonical_head _ head) ih
  | rooted follows after ih =>
    exact .rooted (follower_begins_step follows) (follower_follows_slash follows after) ih
  | path follows before after first second =>
    exact .path (canonical_proper before) (follower_follows_slash follows after) first second
  | rootDescent follows after ih => exact .descent (follower_follows_slash follows after) .root ih
  | descent follows before after first second =>
    exact .descent (follower_follows_slash follows after) first second
  | filter takes filtered filled before inside first ih => exact .filter takes first ih
  | binary op before after first second =>
    exact .binary (fun _ => .inr (canonical_no_root before)) first second
  | union plain plain' before after first second => exact .union plain plain' first second
  | negate inside ih => exact .negate ih
  | lookup fallback inside ih => exact .lookup ih

end Forms

section Lookups

theorem items_as_calls {items : List Expr} (each : ∀ x ∈ items, asCalls x = x) :
    allAsCalls items = items :=
  (all_as_calls_eq items).trans (map_unchanged each)

theorem predicates_as_calls {predicates : List Predicate}
    (each : ∀ p ∈ predicates, ∀ x ∈ p, asCalls x = x) : predicatesAsCalls predicates = predicates :=
  (predicates_as_calls_eq predicates).trans (map_predicates_unchanged each)

/-- Without lookups there are no calls in their place. -/
theorem as_calls_of_lookup_free {e : Expr} (free : LookupFree e) : asCalls e = e := by
  refine lookup_free_induction (fun e own _ inside => ?_) free
  cases e with
  | root | context | parent | string | number | var => rfl
  | lookup lookup => exact absurd rfl (own lookup)
  | path left right =>
    obtain ⟨before, after⟩ := forall_mem_pair.mp inside
    rw [asCalls, before, after]
  | step step =>
    obtain ⟨axis, test, predicates⟩ := step
    rw [asCalls, predicates_as_calls (forall_mem_flatten.mp inside)]
  | filter inner predicates =>
    obtain ⟨before, within⟩ := List.forall_mem_cons.mp inside
    rw [asCalls, before, predicates_as_calls (forall_mem_flatten.mp within)]
  | binary left op right =>
    obtain ⟨before, after⟩ := forall_mem_pair.mp inside
    rw [asCalls, before, after]
  | union left right =>
    obtain ⟨before, after⟩ := forall_mem_pair.mp inside
    rw [asCalls, before, after]
  | negate inner => rw [asCalls, List.forall_mem_singleton.mp inside]
  | call function arguments =>
    have each : ∀ x ∈ arguments, asCalls x = x := inside
    rw [asCalls, items_as_calls each]
  | sequence items =>
    have each : ∀ x ∈ items, asCalls x = x := inside
    rw [asCalls, items_as_calls each]

end Lookups

/-- The text of a canonical tree is read as the tree, with calls for its lookups if it has any. -/
theorem canonical_read_back {e : Expr} (canonical : Canonical e) :
    parse e.render = .ok (asCalls e) ∧ (LookupFree e → asCalls e = e) :=
  ⟨faithful_read_back (canonical_faithful canonical) (canonical_spelled canonical),
    as_calls_of_lookup_free⟩

section Sample

/-- The entries of one type. -/
def typedEntries : Expr :=
  .step ⟨.child, .named "entry",
    [[.binary (.step ⟨.attribute, .named "type", []⟩) .eq (.string "a \"b\"")]]⟩

/-- A difference to compare the field with. -/
def difference : Expr := .binary (.var "x") .sub (.negate (.var "y"))

def foundEntries : Expr :=
  .path (descend .root typedEntries) (.lookup ⟨[⟨"name", .eq, difference⟩], .descendantOrSelf⟩)

theorem single_word {word : String} (is : IsPlain word.toList) : SingleName word :=
  single_of_name (plain_is_name is)

theorem typed_entries_canonical : Canonical typedEntries := by
  have entry : SingleName "entry" := single_word (by decide)
  have type : SingleName "type" := single_word (by decide)
  have typed : Canonical (.binary (.step ⟨.attribute, .named "type", []⟩) .eq (.string "a \"b\"")) :=
    .binary .eq (.step type nofun nofun) (.string _)
  refine .step entry ?_ ?_ <;> simp [typed]

theorem typed_entries_lookup_free : LookupFree typedEntries := by
  have leaf (value : String) : LookupFree (.string value) := lookup_free_leaf rfl rfl
  have type : LookupFree (.step ⟨.attribute, .named "type", []⟩) := lookup_free_leaf rfl rfl
  have typed := lookup_free_pair (e := .binary _ .eq _) rfl rfl type (leaf "a \"b\"")
  exact lookup_free_of_parts rfl (List.forall_mem_singleton.mpr typed)

theorem found_entries_canonical : Canonical foundEntries := by
  have x : SingleName "x" := single_word (by decide)
  have y : SingleName "y" := single_word (by decide)
  have key : Canonical difference := .binary .sub (.var x) (.negate (.var y))
  exact .path rfl (.rootDescent rfl typed_entries_canonical)
    (.lookup _ (List.forall_mem_singleton.mpr key))

/-- The lookup is read back as a call, and the one name of a list as itself. -/
theorem found_entries_read_back :
    Canonical foundEntries ∧
      parse "//entry[@type = \"a \"\"b\"\"\"]/range:field((\"name\"), (\"eq\"), $x - -$y)" =
        .ok (.path (descend .root typedEntries)
          (.call "range:field" [.string "name", .string "eq", difference])) ∧
      LookupFree typedEntries ∧ asCalls typedEntries = typedEntries := by
  have text : foundEntries.render =
      "//entry[@type = \"a \"\"b\"\"\"]/range:field((\"name\"), (\"eq\"), $x - -$y)" := by
    with_unfolding_all rfl
  rw [← text]
  exact ⟨found_entries_canonical, (canonical_read_back found_entries_canonical).1,
    typed_entries_lookup_free,
    (canonical_read_back typed_entries_canonical).2 typed_entries_lookup_free⟩

end Sample

end RangeIndex.CanonicalTrees
