import Mathlib.Data.Set.Function
import RangeIndex.Proofs.PredicateFates

/-! No predicate of a rewritten step is lost or used twice. Each becomes one entry of the lookup,
or stays in the filter as it was written, or is dropped because it meets a condition of the rule
resolved for a later one, and no two dropped predicates meet the same condition of the same rule. -/
namespace RangeIndex.PredicateConservation
open Query PredicateFates Examination

section Assignment
variable {e : Examination}

/-- What a consumed predicate was consumed for: a later place, and the number of the condition it
met there. -/
theorem consumed_meets {place later : Nat} {taken : Nat → Nat}
    (takes : ∀ resolution, e.resolvedAt? later = some resolution → e.Takes later resolution taken)
    (consumed : place ∈ e.consumedAt later) :
    ∃ number, taken number = place ∧ e.Meets place (later, number) := by
  obtain ⟨entry, places, served, member⟩ := mem_consumed_at.mp consumed
  obtain ⟨shape, resolution, field, serves, rfl⟩ := served_at_spec served
  have own := takes resolution serves.resolved
  obtain ⟨number, bound, rfl⟩ := (own.consumed place).mp member
  have condition := List.getElem?_eq_getElem bound
  obtain ⟨met, offered, satisfied⟩ := own.satisfied number _ condition
  have shaped := (offered_shape (Nat.le_of_lt (consumer_bound consumed)) offered).1
  exact ⟨number, rfl, met, resolution, _, shaped, serves.resolved, condition, satisfied⟩

/-- Every dropped predicate can be charged to a condition of its own: the later place that consumed
it, and the condition there it was given to. -/
theorem dropped_have_owners (e : Examination) : ∃ owner : Nat → Nat × Nat,
    Set.InjOn owner {place | e.fates[place]? = some .implied} ∧
    ∀ place, e.fates[place]? = some .implied →
      place ∈ e.consumedAt (owner place).1 ∧ e.Meets place (owner place) := by
  choose taken takes using conditions_taken e
  have charged : ∀ place, ∃ owner : Nat × Nat, e.fates[place]? = some .implied →
      place ∈ e.consumedAt owner.1 ∧ taken owner.1 owner.2 = place ∧ e.Meets place owner := by
    intro place
    by_cases implied : e.fates[place]? = some .implied
    · obtain ⟨later, consumed⟩ := implied_iff_consumed.mp implied
      obtain ⟨number, same, meets⟩ := consumed_meets (takes later) consumed
      exact ⟨(later, number), fun _ => ⟨consumed, same, meets⟩⟩
    · exact ⟨(0, 0), fun claimed => absurd claimed implied⟩
  choose owner owns using charged
  refine ⟨owner, ?_, ?_⟩
  · intro first firstImplied second secondImplied same
    have firstTaken := (owns first firstImplied).2.1
    have secondTaken := (owns second secondImplied).2.1
    rw [← firstTaken, same, secondTaken]
  · intro place implied
    have owned := owns place implied
    exact ⟨owned.1, owned.2.2⟩

end Assignment

/-- A labelling of the predicates of a step by their fates that accounts for all that the rewritten
step consists of. -/
structure Accounts (e : Examination) (step : Step) (result : Expr) (fates : List Fate)
    (lookup : FieldLookup) (owner : Nat → Nat × Nat) : Prop where
  labelled : fates.length = step.predicates.length
  form : result = filtered lookup (staying step.predicates fates)
  entries : lookup.entries = fates.filterMap Fate.entry?
  served : ∀ place entry, fates[place]? = some (.served entry) →
    ∃ shape resolution field, e.Serves place entry shape resolution field ∧
      entry.key.dependsOnContext = false
  shapeless : ∀ place < step.predicates.length, e.shapeAt? place = none →
    fates[place]? = some .residual
  consumed : ∀ place, fates[place]? = some .implied →
    place < (owner place).1 ∧ e.Meets place (owner place)
  apart : Set.InjOn owner {place | fates[place]? = some .implied}
  nonempty : lookup.entries ≠ []
  named : ∀ entry ∈ lookup.entries, entry.field ≠ ""
  fallback : lookup.fallback = step

/-- An entry kept takes its columns from the field found and from the comparison its predicate
makes, and the key of that is the same for every node. -/
theorem kept_entry_serves {e : Examination} {place : Nat} {entry : LookupEntry}
    (kept : e.fates[place]? = some (.served entry)) :
    ∃ shape resolution field, e.Serves place entry shape resolution field ∧
      entry.key.dependsOnContext = false := by
  obtain ⟨⟨_, served⟩, _⟩ := served_iff.mp kept
  obtain ⟨shape, resolution, field, serves, _⟩ := served_at_spec served
  obtain ⟨predicate, _, shaped⟩ := Option.bind_eq_some_iff.mp serves.shaped
  refine ⟨shape, resolution, field, serves, ?_⟩
  rw [serves.columns]
  exact (shape_of_iff.mp shaped).2.1

variable {sets : List RuleSet} {static : StaticContext} {context : Pattern} {step : Step}
  {result : Expr}

/-- Rewriting conserves predicates: every one is looked up, kept or charged to a condition of its
own, and the lookup and its filter consist of nothing else. -/
theorem rewriting_conserves_predicates
    (ran : rewriteStep? sets static context step = some result) :
    ∃ fates lookup owner,
      Accounts ⟨sets, static, context, step.predicates⟩ step result fates lookup owner := by
  let e : Examination := ⟨sets, static, context, step.predicates⟩
  obtain ⟨lookup, rewritten⟩ := rewrite_step_parts ran
  obtain ⟨owner, apart, owned⟩ := dropped_have_owners e
  refine ⟨e.fates, lookup, owner, ?_⟩
  constructor
  case labelled => exact length_fates
  case form => exact rewritten.form
  case entries => exact rewritten.entries
  case served =>
    intro place entry kept
    exact kept_entry_serves kept
  case shapeless =>
    intro place bound shapeless
    exact shapeless_stays bound shapeless
  case consumed =>
    intro place implied
    obtain ⟨consumed, meets⟩ := owned place implied
    exact ⟨consumed_is_earlier consumed, meets⟩
  case apart => exact apart
  case nonempty => exact rewritten.nonempty
  case named => exact rewritten.named
  case fallback => exact rewritten.fallback

section Sample

/-- Any element named so, anywhere. -/
def anywhere (name : String) : Pattern := ⟨[.gap, .named (.unqualified .element name)], false⟩

/-- The predicate that an attribute has a value. -/
def attributeIs (name value : String) : Predicate :=
  [.binary (.step ⟨.attribute, .named name, []⟩) .eq (.string value)]

/-- The predicate that there is a child element named so. -/
def hasChild (name : String) : Predicate := [.step ⟨.child, .named name, []⟩]

/-- A rule for entries whose attribute has a value. Its one field is the attribute given last. -/
def entryRule (subject value field : String) : Rule :=
  { path := anywhere "entry"
    conditions := [{ subject := .unqualified .attribute subject, value := value }]
    fields := [⟨field, (anywhere "entry").push (.named (.unqualified .attribute field)), {}⟩] }

/-- A step to the entries that pass predicates. -/
def entries (predicates : List Predicate) : Step := ⟨.child, .named "entry", predicates⟩

/-- One rule, for entries of the type main. -/
def mainEntries : List RuleSet := [⟨"/db", [entryRule "type" "main" "kind"]⟩]

/-- A step with a predicate of each fate: the first is dropped, the next looked up, the last kept. -/
def mixedStep : Step :=
  entries [attributeIs "type" "main", attributeIs "kind" "x", hasChild "author"]

def mixedResult : Expr :=
  .filter (.lookup ⟨[⟨"kind", .eq, .string "x"⟩], mixedStep⟩) [hasChild "author"]

theorem mixed_step_conserved :
    rewriteStep? mainEntries {} (anywhere "entry") mixedStep = some mixedResult ∧
      ∃ fates lookup owner,
        Accounts ⟨mainEntries, {}, anywhere "entry", mixedStep.predicates⟩ mixedStep mixedResult
          fates lookup owner := by
  have ran : rewriteStep? mainEntries {} (anywhere "entry") mixedStep = some mixedResult := by
    with_unfolding_all rfl
  exact ⟨ran, rewriting_conserves_predicates ran⟩

end Sample

end RangeIndex.PredicateConservation
