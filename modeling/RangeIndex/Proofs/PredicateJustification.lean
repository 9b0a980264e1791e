import Mathlib.Data.Set.Finite.Basic
import RangeIndex.Proofs.PredicateConservation

/-! When dropping predicates loses nothing. A dropped predicate is justified by an entry of the
lookup that implies it, and an entry of the lookup is withdrawn when its own predicate is consumed.
What the withdrawn entry consumed then stays dropped, so all dropped predicates are justified
exactly when consumption makes no chains. -/
namespace RangeIndex.PredicateJustification
open Query PredicateFates PredicateConservation Examination

/-- The places of the predicates dropped. -/
def dropped (e : Examination) : Set Nat := {place | e.fates[place]? = some .implied}

/-- Each dropped predicate meets a condition of the rule resolved for an entry of the lookup, each
by an entry or a condition of its own. -/
structure Justifies (e : Examination) (owner : Nat → Nat × Nat) : Prop where
  apart : Set.InjOn owner (dropped e)
  kept : ∀ place ∈ dropped e, ∃ entry, e.fates[(owner place).1]? = some (.served entry)
  met : ∀ place ∈ dropped e, e.Meets place (owner place)

/-- No dropped predicate consumed others when it was looked up itself. -/
def Unchained (e : Examination) : Prop := ∀ place ∈ dropped e, e.consumedAt place = []

section Chains
variable {e : Examination}

/-- A predicate that consumed others is dropped in its turn or looked up to the end. -/
theorem consumer_dropped_or_kept {place later : Nat} (consumed : place ∈ e.consumedAt later) :
    later ∈ dropped e ∨ ∃ entry, e.fates[later]? = some (.served entry) := by
  by_cases implied : e.fates[later]? = some .implied
  · exact .inl implied
  · obtain ⟨entry, places, served, _⟩ := mem_consumed_at.mp consumed
    exact .inr ⟨entry, served_iff.mpr ⟨⟨places, served⟩, implied⟩⟩

theorem justified_without_chains (unchained : Unchained e) : ∃ owner, Justifies e owner := by
  obtain ⟨owner, apart, owned⟩ := dropped_have_owners e
  refine ⟨owner, apart, ?_, ?_⟩
  · intro place implied
    have consumed := (owned place implied).1
    rcases consumer_dropped_or_kept consumed with again | kept
    · rw [unchained _ again] at consumed
      cases consumed
    · exact kept
  · intro place implied
    exact (owned place implied).2

theorem dropped_finite (e : Examination) : (dropped e).Finite := by
  apply (Set.finite_lt_nat e.predicates.length).subset
  intro place implied
  exact fate_bound implied

/-- Conditions of a rule resolved for an entry of the lookup each took a dropped predicate. -/
theorem taken_by_kept {place : Nat} {owner : Nat × Nat} {entry : LookupEntry}
    {taken : Nat → Nat}
    (takes : ∀ resolution, e.resolvedAt? owner.1 = some resolution →
      e.Takes owner.1 resolution taken)
    (kept : e.fates[owner.1]? = some (.served entry)) (met : e.Meets place owner) :
    taken owner.2 ∈ e.consumedAt owner.1 := by
  obtain ⟨⟨places, served⟩, _⟩ := served_iff.mp kept
  obtain ⟨_, resolution, _, serves, rfl⟩ := served_at_spec served
  obtain ⟨_, _, _, _, resolved, condition, _⟩ := met
  rw [serves.resolved, Option.some.injEq] at resolved
  subst resolved
  have bound := (List.getElem?_eq_some_iff.mp condition).1
  have member := ((takes _ serves.resolved).consumed (taken owner.2)).mpr ⟨owner.2, bound, rfl⟩
  exact mem_consumed_at.mpr ⟨entry, _, served, member⟩

/-- Two owners that took the same predicate are one. -/
theorem owner_of_taken {first second : Nat × Nat} {taken : Nat → Nat → Nat}
    (takes : ∀ place resolution, e.resolvedAt? place = some resolution →
      e.Takes place resolution (taken place))
    {met also : Nat} (metFirst : e.Meets met first) (metSecond : e.Meets also second)
    (consumedFirst : taken first.1 first.2 ∈ e.consumedAt first.1)
    (consumedSecond : taken second.1 second.2 ∈ e.consumedAt second.1)
    (same : taken first.1 first.2 = taken second.1 second.2) : first = second := by
  obtain ⟨later, number⟩ := first
  obtain ⟨other, number'⟩ := second
  rw [same] at consumedFirst
  have sameLater : later = other := consumed_once consumedFirst consumedSecond
  subst sameLater
  obtain ⟨_, resolution, _, _, resolved, condition, _⟩ := metFirst
  obtain ⟨_, resolution', _, _, resolved', condition', _⟩ := metSecond
  rw [resolved, Option.some.injEq] at resolved'
  subst resolved'
  have sameNumber := (takes later resolution resolved).apart number number'
    (List.getElem?_eq_some_iff.mp condition).1 (List.getElem?_eq_some_iff.mp condition').1 same
  rw [sameNumber]

/-- The conditions that justify dropped predicates took as many, so they took all of them, and
nothing is left for a predicate that was dropped itself. -/
theorem unchained_of_justified {owner : Nat → Nat × Nat} (justifies : Justifies e owner) :
    Unchained e := by
  choose taken takes using conditions_taken e
  let given (place : Nat) : Nat := taken (owner place).1 (owner place).2
  have consumed : ∀ place ∈ dropped e, given place ∈ e.consumedAt (owner place).1 := by
    intro place implied
    obtain ⟨entry, kept⟩ := justifies.kept place implied
    exact taken_by_kept (takes _) kept (justifies.met place implied)
  have stays : Set.MapsTo given (dropped e) (dropped e) := by
    intro place implied
    exact implied_iff_consumed.mpr ⟨_, consumed place implied⟩
  have apart : Set.InjOn given (dropped e) := by
    intro first firstImplied second secondImplied same
    apply justifies.apart firstImplied secondImplied
    exact owner_of_taken takes (justifies.met first firstImplied)
      (justifies.met second secondImplied) (consumed first firstImplied)
      (consumed second secondImplied) same
  have onto : Set.SurjOn given (dropped e) (dropped e) := by
    have finite := dropped_finite e
    have covered := Finset.surjOn_of_injOn_of_card_le (s := finite.toFinset)
      (t := finite.toFinset) given (by simpa using stays) (by simpa using apart) le_rfl
    simpa using covered
  intro place implied
  rw [List.eq_nil_iff_forall_not_mem]
  intro other claimed
  obtain ⟨source, sourceImplied, rfl⟩ := onto (implied_iff_consumed.mpr ⟨place, claimed⟩)
  have same : (owner source).1 = place := consumed_once (consumed source sourceImplied) claimed
  obtain ⟨entry, kept⟩ := justifies.kept source sourceImplied
  rw [same, implied] at kept
  cases kept

end Chains

variable {sets : List RuleSet} {static : StaticContext} {context : Pattern} {step : Step}
  {result : Expr}

/-- The predicates that are neither in the lookup nor in its filter are all justified by entries of
the lookup exactly when none of them had consumed another. -/
theorem dropped_justified_iff_unchained
    (ran : rewriteStep? sets static context step = some result) :
    let e : Examination := ⟨sets, static, context, step.predicates⟩
    (∃ lookup, Rewritten e step result lookup) ∧ ((∃ owner, Justifies e owner) ↔ Unchained e) := by
  intro e
  refine ⟨rewrite_step_parts ran, ?_, ?_⟩
  · rintro ⟨owner, justifies⟩
    exact unchained_of_justified justifies
  · intro unchained
    exact justified_without_chains unchained

/-- The examination of the mixed step. -/
def mixed : Examination := ⟨mainEntries, {}, anywhere "entry", mixedStep.predicates⟩

/-- The mixed step drops one predicate, which an entry of the lookup implies. -/
theorem mixed_step_justified :
    rewriteStep? mainEntries {} (anywhere "entry") mixedStep = some mixedResult ∧
      ∃ owner, Justifies mixed owner := by
  have ran : rewriteStep? mainEntries {} (anywhere "entry") mixedStep = some mixedResult := by
    with_unfolding_all rfl
  have fates : mixed.fates = [.implied, .served ⟨"kind", .eq, .string "x"⟩, .residual] := by
    with_unfolding_all rfl
  refine ⟨ran, (dropped_justified_iff_unchained ran).2.mpr ?_⟩
  intro place implied
  change mixed.fates[place]? = some .implied at implied
  rw [fates] at implied
  rcases place with _ | _ | _ | place
  case zero => with_unfolding_all rfl
  all_goals simp at implied

section Chain

/-- Two rules, the second for entries of a kind that the first has a field for. -/
def chainedEntries : List RuleSet :=
  [⟨"/db", [entryRule "type" "main" "kind", entryRule "kind" "x" "name"]⟩]

/-- A step whose second predicate consumes the first and whose last consumes the second. -/
def chainedStep : Step :=
  entries [attributeIs "type" "main", attributeIs "kind" "x", attributeIs "name" "n"]

/-- The lookup asks for the name alone, and there is no filter. -/
def chainedResult : Expr := .lookup ⟨[⟨"name", .eq, .string "n"⟩], chainedStep⟩

/-- The examination of the chained step. -/
def chained : Examination := ⟨chainedEntries, {}, anywhere "entry", chainedStep.predicates⟩

/-- Of the chained step the predicate on the type is dropped, and nothing left implies it. -/
theorem chained_step_unjustified :
    rewriteStep? chainedEntries {} (anywhere "entry") chainedStep = some chainedResult ∧
      ¬ ∃ owner, Justifies chained owner := by
  refine ⟨by with_unfolding_all rfl, ?_⟩
  rintro ⟨owner, justifies⟩
  have implied : 1 ∈ dropped chained := by with_unfolding_all rfl
  have consumed : chained.consumedAt 1 = [0] := by with_unfolding_all rfl
  have unchained := unchained_of_justified justifies 1 implied
  rw [consumed] at unchained
  cases unchained

end Chain

end RangeIndex.PredicateJustification
