import RangeIndex.Proofs.PatternContainment
import RangeIndex.Proofs.PredicateConservation

/-! A rule chosen for a predicate covers every node the step can select. The rule was only tested
against the path of the step, whose gaps and wildcards stand for infinitely many locations; what
it accepts there it accepts at each of them. -/
namespace RangeIndex.StepCoverage
open Query PredicateFates PredicateConservation Examination PatternContainment RuleResolution

/-- A rule and a field of it that speak for the predicate at a place wherever the step leads. Each
condition of the rule is met by an earlier predicate that the giver names. -/
structure Covers (e : Examination) (place : Nat) (entry : LookupEntry) (shape : PredicateShape)
    (set : RuleSet) (rule : Rule) (field : FieldRule) (giver : Nat → Nat) : Prop where
  shaped : e.shapeAt? place = some shape
  columns : entry = ⟨field.name, shape.comparison.operator, shape.comparison.key⟩
  offered : set ∈ e.sets ∧ Collection.isSystem set.collection = false
  declared : rule ∈ set.rules ∧ rule.isComplex = true ∧ field ∈ rule.fields
  met : ∀ number condition, rule.conditions[number]? = some condition →
    giver number < place ∧
      ∃ given, e.shapeAt? (giver number) = some given ∧ given.satisfies condition = true
  apart : ∀ first second, first < rule.conditions.length → second < rule.conditions.length →
    giver first = giver second → first = second
  nodes : ∀ location, e.context.isMatch location = true → rule.path.isMatch location = true
  values : ∀ location, (e.context.joined shape.inner).isMatch location = true →
    field.path.isMatch location = true

section Resolved
variable {e : Examination} {place : Nat} {resolution : Resolution}

theorem resolved_from_public_set (resolved : e.resolvedAt? place = some resolution) :
    ∃ set ∈ e.sets, Collection.isSystem set.collection = false ∧ resolution.rule ∈ set.rules ∧
      resolution.rule.isComplex = true := by
  obtain ⟨shape, _, chosen⟩ := Option.bind_eq_some_iff.mp resolved
  have candidate := (resolve_own_offers chosen).1
  obtain ⟨set, member, visible, declared, complex, _⟩ := mem_candidates.mp candidate
  exact ⟨set, member, visible, declared, complex⟩

theorem taken_met_earlier {taken : Nat → Nat} (bound : place < e.predicates.length)
    (takes : e.Takes place resolution taken) {number : Nat} {condition : Condition}
    (found : resolution.rule.conditions[number]? = some condition) :
    taken number < place ∧
      ∃ given, e.shapeAt? (taken number) = some given ∧ given.satisfies condition = true := by
  obtain ⟨given, offered, satisfied⟩ := takes.satisfied number condition found
  have shaped := (offered_shape (Nat.le_of_lt bound) offered).1
  exact ⟨offered_is_earlier offered, given, shaped, satisfied⟩

/-- A field is found by its own pattern, which accepts all that the path compared leads to. -/
theorem located_field_covers {rule : Rule} {field : FieldRule} {path : Pattern}
    (opened : path.closed = false) (located : rule.fieldAt? path = some field) :
    field ∈ rule.fields ∧
      ∀ location, path.isMatch location = true → field.path.isMatch location = true := by
  have covers : field.path.isMatch path = true := by
    simpa [FieldRule.covers] using List.find?_some located
  refine ⟨List.mem_of_find?_eq_some located, ?_⟩
  intro location reached
  exact open_pattern_contained opened covers reached

end Resolved

/-- Whatever is found for a predicate of a step with an open path covers all that it leads to. -/
theorem served_is_covered {e : Examination} (opened : e.context.closed = false) {place : Nat}
    {entry : LookupEntry} {consumed : List Nat}
    (served : e.servedAt? place = some (entry, consumed)) :
    ∃ shape set rule field giver, Covers e place entry shape set rule field giver := by
  have bound := served_bound served
  obtain ⟨shape, resolution, field, serves, _⟩ := served_at_spec served
  obtain ⟨set, member, visible, declared, complex⟩ := resolved_from_public_set serves.resolved
  obtain ⟨taken, takes⟩ := conditions_taken e place
  have own := takes resolution serves.resolved
  have joinedOpen : (e.context.joined shape.inner).closed = false := opened
  obtain ⟨fieldDeclared, values⟩ := located_field_covers joinedOpen serves.located
  refine ⟨shape, set, resolution.rule, field, taken, ?_⟩
  constructor
  case shaped => exact serves.shaped
  case columns => exact serves.columns
  case offered => exact ⟨member, visible⟩
  case declared => exact ⟨declared, complex, fieldDeclared⟩
  case met =>
    intro number condition found
    exact taken_met_earlier bound own found
  case apart => exact own.apart
  case nodes =>
    intro location reached
    exact open_pattern_contained opened serves.covers reached
  case values => exact values

variable {sets : List RuleSet} {static : StaticContext} {context : Pattern} {step : Step}
  {result : Expr}

/-- Every entry of the lookup that replaces a step with an open path is backed by a rule and a
field that cover all locations the step and the path compared can lead to. -/
theorem rewritten_entries_covered (opened : context.closed = false)
    (ran : rewriteStep? sets static context step = some result) :
    let e : Examination := ⟨sets, static, context, step.predicates⟩
    ∃ lookup, Rewritten e step result lookup ∧
      ∀ place entry, e.fates[place]? = some (.served entry) →
        ∃ shape set rule field giver, Covers e place entry shape set rule field giver := by
  intro e
  obtain ⟨lookup, rewritten⟩ := rewrite_step_parts ran
  refine ⟨lookup, rewritten, ?_⟩
  intro place entry kept
  obtain ⟨⟨consumed, served⟩, _⟩ := served_iff.mp kept
  exact served_is_covered opened served

/-- The mixed step has an open path, and its one entry is backed by the rule for main entries. -/
theorem mixed_step_covered :
    (anywhere "entry").closed = false ∧
      rewriteStep? mainEntries {} (anywhere "entry") mixedStep = some mixedResult ∧
      ∃ shape set rule field giver,
        Covers ⟨mainEntries, {}, anywhere "entry", mixedStep.predicates⟩ 1
          ⟨"kind", .eq, .string "x"⟩ shape set rule field giver := by
  have ran : rewriteStep? mainEntries {} (anywhere "entry") mixedStep = some mixedResult := by
    with_unfolding_all rfl
  obtain ⟨lookup, _, covered⟩ := rewritten_entries_covered rfl ran
  exact ⟨rfl, ran, covered 1 _ (by with_unfolding_all rfl)⟩

end RangeIndex.StepCoverage
