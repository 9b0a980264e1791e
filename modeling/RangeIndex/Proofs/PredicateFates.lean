import Mathlib.Tactic.ByContra
import RangeIndex.Proofs.RuleResolution
import RangeIndex.Query.Rewriting

/-! What becomes of each predicate of a step. Examining one predicate can only change the fate of
earlier ones, and only from anything to implied; so the final fates are told by what every predicate
met when its turn came. The entries and the filter of the rewritten step are read off these fates. -/
namespace RangeIndex.PredicateFates
open Query RuleResolution ConditionAssignment

/-- One examination of the predicates of a step, from the rule sets and the path of the step. -/
structure Examination where
  sets : List RuleSet
  static : StaticContext
  context : Pattern
  predicates : List Predicate

namespace Examination
variable (e : Examination)

/-- The earlier predicates as they are when the turn comes to a place. -/
def before (place : Nat) : List Examined :=
  examineAll e.sets e.static e.context (e.predicates.take place)

/-- All predicates at the end. -/
def final : List Examined := examineAll e.sets e.static e.context e.predicates

def fates : List Fate := e.final.map (·.fate)

def shapeAt? (place : Nat) : Option PredicateShape :=
  (e.predicates[place]?).bind (PredicateShape.of? e.static)

/-- The rule resolved for the predicate at a place when its turn comes. -/
def resolvedAt? (place : Nat) : Option Resolution :=
  (e.shapeAt? place).bind fun shape =>
    Resolution.resolve? e.sets PredicateShape.satisfies (e.context.joined shape.inner)
      (offeredFrom (e.before place))

/-- The entry found for the predicate at a place when its turn comes, and what it consumes. The
entry is withdrawn when the predicate is consumed itself. -/
def servedAt? (place : Nat) : Option (LookupEntry × List Nat) :=
  (e.shapeAt? place).bind (serve? e.sets e.context (e.before place))

def consumedAt (place : Nat) : List Nat := ((e.servedAt? place).map (·.2)).getD []

/-- The fate of a predicate right after its turn. -/
def firstFate (place : Nat) : Fate :=
  ((e.servedAt? place).map fun served => Fate.served served.1).getD .residual

/-- Whether a predicate has been consumed when the turn comes to a later place. -/
def consumedBefore (later place : Nat) : Bool :=
  (List.range later).any fun other => (e.consumedAt other).contains place

/-- Everything that has to agree before an entry is found for the predicate at a place. -/
structure Serves (place : Nat) (entry : LookupEntry) (shape : PredicateShape)
    (resolution : Resolution) (field : FieldRule) : Prop where
  shaped : e.shapeAt? place = some shape
  resolved : e.resolvedAt? place = some resolution
  covers : resolution.rule.path.isMatch e.context = true
  located : resolution.rule.fieldAt? (e.context.joined shape.inner) = some field
  columns : entry = ⟨field.name, shape.comparison.operator, shape.comparison.key⟩

/-- The conditions of a resolved rule, by their numbers, each take a predicate of their own out of
those offered when the turn comes to a place. What is consumed are the predicates taken. -/
structure Takes (place : Nat) (resolution : Resolution) (taken : Nat → Nat) : Prop where
  apart : ∀ first second, first < resolution.rule.conditions.length →
    second < resolution.rule.conditions.length → taken first = taken second → first = second
  satisfied : ∀ number condition, resolution.rule.conditions[number]? = some condition →
    ∃ shape, (taken number, shape) ∈ offeredFrom (e.before place) ∧
      shape.satisfies condition = true
  consumed : ∀ other, other ∈ resolution.consumed ↔
    ∃ number, number < resolution.rule.conditions.length ∧ taken number = other

/-- The predicate meets a condition, given by its number, of the rule resolved for another. -/
def Meets (place : Nat) (owner : Nat × Nat) : Prop :=
  ∃ shape resolution condition, e.shapeAt? place = some shape ∧
    e.resolvedAt? owner.1 = some resolution ∧
    resolution.rule.conditions[owner.2]? = some condition ∧ shape.satisfies condition = true

end Examination

/-- The predicates that stay, in their order. -/
def staying (predicates : List Predicate) (fates : List Fate) : List Predicate :=
  ((predicates.zip fates).filter fun labelled => labelled.2.isResidual).map (·.1)

/-- A lookup filtered by predicates, or the lookup alone when there are none. -/
def filtered (lookup : FieldLookup) (predicates : List Predicate) : Expr :=
  if predicates.isEmpty then .lookup lookup else .filter (.lookup lookup) predicates

section Shapes
variable {static : StaticContext} {predicate : Predicate} {shape : PredicateShape}

/-- A predicate has a shape when it makes one comparison, of a plain path with a key that is the same
for every node. -/
theorem shape_of_iff : PredicateShape.of? static predicate = some shape ↔
    Comparison.ofPredicate? static predicate = some shape.comparison ∧
      shape.comparison.key.dependsOnContext = false ∧
      innerPath? static.bindings shape.comparison.path = some shape.inner := by
  obtain ⟨comparison, inner⟩ := shape
  rw [PredicateShape.of?, Option.bind_eq_some_iff]
  constructor
  · rintro ⟨other, compared, shaped⟩
    split at shaped
    · cases shaped
    · rename_i constant
      obtain ⟨_, relative, same⟩ := Option.map_eq_some_iff.mp shaped
      cases same
      exact ⟨compared, by simpa using constant, relative⟩
  · rintro ⟨compared, constant, relative⟩
    exact ⟨comparison, compared, by simp [constant, relative]⟩

/-- The comparison of a predicate is made by an operator, or by a function of two arguments. -/
theorem shape_forms (shaped : PredicateShape.of? static predicate = some shape) :
    (∃ op, predicate = [.binary shape.comparison.path op shape.comparison.key]) ∨
      ∃ function, predicate = [.call function [shape.comparison.path, shape.comparison.key]] ∧
        functionOperator? static function = some shape.comparison.operator := by
  have compared := (shape_of_iff.mp shaped).1
  unfold Comparison.ofPredicate? at compared
  split at compared
  · unfold Comparison.of? at compared
    split at compared
    · rename_i op _
      obtain ⟨_, _, same⟩ := Option.map_eq_some_iff.mp compared
      rw [← same]
      exact .inl ⟨op, rfl⟩
    · rename_i function _ _
      obtain ⟨_, found, same⟩ := Option.map_eq_some_iff.mp compared
      rw [← same]
      exact .inr ⟨function, rfl, found⟩
    · cases compared
  · cases compared

end Shapes

section Steps

@[simp] theorem length_consume (places : List Nat) (earlier : List Examined) :
    (consume places earlier).length = earlier.length := by
  simp [consume]

theorem getElem?_consume (places : List Nat) (earlier : List Examined) (place : Nat) :
    (consume places earlier)[place]? = (earlier[place]?).map fun examined =>
      if places.contains place then { examined with fate := .implied } else examined := by
  simp [consume, List.getElem?_map, List.getElem?_zipIdx, Option.map_map, Function.comp_def]

@[simp] theorem consume_nil (earlier : List Examined) : consume [] earlier = earlier := by
  apply List.ext_getElem?
  intro place
  rw [getElem?_consume]
  simp

/-- Examining a predicate consumes earlier ones and adds the predicate with its own fate. -/
theorem examine_eq (sets : List RuleSet) (static : StaticContext) (context : Pattern)
    (earlier : List Examined) (predicate : Predicate) :
    let shape := PredicateShape.of? static predicate
    let served := shape.bind (serve? sets context earlier)
    examine sets static context earlier predicate =
      consume ((served.map (·.2)).getD []) earlier ++
        [⟨predicate, shape, (served.map fun found => Fate.served found.1).getD .residual⟩] := by
  intro shape served
  cases found : served with
  | none =>
    simp only [served, shape] at found
    simp [examine, found, shape]
  | some result =>
    simp only [served, shape] at found
    simp [examine, found, shape]

theorem offer_place {examined : Examined} {place : Nat} {offer : Nat × PredicateShape}
    (offered : (if examined.fate.isImplied then none
      else examined.shape.map fun shape => (place, shape)) = some offer) : offer.1 = place := by
  split at offered
  · cases offered
  · obtain ⟨shape, _, rfl⟩ := Option.map_eq_some_iff.mp offered
    rfl

theorem mem_offered_from {earlier : List Examined} {place : Nat} {shape : PredicateShape} :
    (place, shape) ∈ offeredFrom earlier ↔ ∃ examined, earlier[place]? = some examined ∧
      examined.fate.isImplied = false ∧ examined.shape = some shape := by
  simp only [offeredFrom, List.mem_filterMap, Prod.exists, List.mem_zipIdx_iff_getElem?]
  constructor
  · rintro ⟨examined, index, found, offered⟩
    split at offered
    · cases offered
    · rename_i free
      obtain ⟨own, shaped, same⟩ := Option.map_eq_some_iff.mp offered
      cases same
      exact ⟨examined, found, by simpa using free, shaped⟩
  · rintro ⟨examined, found, free, shaped⟩
    exact ⟨examined, place, found, by simp [free, shaped]⟩

/-- Predicates are offered in their order, so no place is offered twice. -/
theorem offered_in_order (earlier : List Examined) :
    (offeredFrom earlier).Pairwise fun first second => first.1 < second.1 := by
  have places : earlier.zipIdx.Pairwise fun first second => first.2 < second.2 := by
    rw [← List.pairwise_map, List.zipIdx_map_snd]
    exact List.pairwise_lt_range'
  rw [offeredFrom, List.pairwise_filterMap]
  refine places.imp ?_
  rintro ⟨first, place⟩ ⟨second, other⟩ less offer offered offer' offered'
  rw [offer_place offered, offer_place offered']
  exact less

end Steps

namespace Examination
variable {e : Examination} {place : Nat}

theorem served_at_spec {entry : LookupEntry} {consumed : List Nat}
    (served : e.servedAt? place = some (entry, consumed)) :
    ∃ shape resolution field, e.Serves place entry shape resolution field ∧
      consumed = resolution.consumed := by
  obtain ⟨shape, shaped, served⟩ := Option.bind_eq_some_iff.mp served
  unfold serve? at served
  dsimp only at served
  by_cases root : (e.context.joined shape.inner).isEmpty = true
  · rw [if_pos root] at served
    cases served
  · rw [if_neg root] at served
    obtain ⟨resolution, resolved, served⟩ := Option.bind_eq_some_iff.mp served
    obtain ⟨_, covers, served⟩ := Option.bind_eq_some_iff.mp served
    obtain ⟨field, located, served⟩ := Option.bind_eq_some_iff.mp served
    cases served
    refine ⟨shape, resolution, field, ⟨shaped, ?_, ?_, located, rfl⟩, rfl⟩
    · simp only [resolvedAt?, shaped, Option.bind_some]
      exact resolved
    · change (if resolution.rule.path.isMatch e.context = true then pure () else failure) =
        some _ at covers
      split at covers
      · assumption
      · cases covers

theorem offered_once {first second : Nat} {earlier : List Examined}
    (boundFirst : first < (offeredFrom earlier).length)
    (boundSecond : second < (offeredFrom earlier).length)
    (same : (offeredFrom earlier)[first].1 = (offeredFrom earlier)[second].1) : first = second := by
  have ordered := List.pairwise_iff_getElem.mp (offered_in_order earlier)
  rcases Nat.lt_trichotomy first second with less | equal | greater
  · exact absurd same (Nat.ne_of_lt (ordered _ _ boundFirst boundSecond less))
  · exact equal
  · exact absurd same.symm (Nat.ne_of_lt (ordered _ _ boundSecond boundFirst greater))

theorem conditions_taken (e : Examination) (place : Nat) : ∃ taken : Nat → Nat,
    ∀ resolution, e.resolvedAt? place = some resolution → e.Takes place resolution taken := by
  cases resolved : e.resolvedAt? place with
  | none => exact ⟨id, fun _ impossible => by cases impossible⟩
  | some resolution =>
    obtain ⟨shape, _, chosen⟩ := Option.bind_eq_some_iff.mp resolved
    obtain ⟨_, slot, own⟩ := resolve_own_offers chosen
    let taken (number : Nat) : Nat :=
      if bound : number < resolution.rule.conditions.length then
        (offeredFrom (e.before place))[slot ⟨number, bound⟩].1
      else 0
    have taken_eq : ∀ number (bound : number < resolution.rule.conditions.length),
        taken number = (offeredFrom (e.before place))[slot ⟨number, bound⟩].1 :=
      fun number bound => dif_pos bound
    refine ⟨taken, fun other same => ?_⟩
    cases same
    refine ⟨?_, ?_, ?_⟩
    · intro first second boundFirst boundSecond same
      rw [taken_eq first boundFirst, taken_eq second boundSecond] at same
      have sameSlot := own.apart (Fin.ext (offered_once (slot _).isLt (slot _).isLt same))
      exact congrArg Fin.val sameSlot
    · intro number condition found
      obtain ⟨bound, rfl⟩ := List.getElem?_eq_some_iff.mp found
      rw [taken_eq number bound]
      exact ⟨_, List.getElem_mem _, own.satisfied ⟨number, bound⟩⟩
    · intro other
      rw [own.reported]
      constructor
      · rintro ⟨condition, same⟩
        exact ⟨condition, condition.isLt, (taken_eq condition condition.isLt).trans same⟩
      · rintro ⟨number, bound, same⟩
        exact ⟨⟨number, bound⟩, (taken_eq number bound).symm.trans same⟩

theorem length_examine_all (sets : List RuleSet) (static : StaticContext) (context : Pattern)
    (predicates : List Predicate) (earlier : List Examined) :
    (predicates.foldl (examine sets static context) earlier).length =
      earlier.length + predicates.length := by
  induction predicates generalizing earlier with
  | nil => rfl
  | cons predicate rest ih =>
    rw [List.foldl_cons, ih, examine_eq]
    simp only [List.length_append, length_consume, List.length_cons, List.length_nil]
    omega

theorem length_before : (e.before place).length = min place e.predicates.length := by
  rw [before, examineAll, length_examine_all]
  simp

/-- What one turn does to the fates before it. -/
theorem before_succ (bound : place < e.predicates.length) :
    e.before (place + 1) = consume (e.consumedAt place) (e.before place) ++
      [⟨e.predicates[place], e.shapeAt? place, e.firstFate place⟩] := by
  have shaped : e.shapeAt? place = PredicateShape.of? e.static e.predicates[place] := by
    simp [shapeAt?, List.getElem?_eq_getElem bound]
  rw [before, ← List.take_append_getElem bound, examineAll, List.foldl_append, List.foldl_cons,
    List.foldl_nil, examine_eq]
  simp only [consumedAt, firstFate, servedAt?, shaped]
  rfl

theorem mem_consumed_at {other : Nat} : other ∈ e.consumedAt place ↔
    ∃ entry consumed, e.servedAt? place = some (entry, consumed) ∧ other ∈ consumed := by
  cases served : e.servedAt? place with
  | none => simp [consumedAt, served]
  | some found =>
    obtain ⟨entry, consumed⟩ := found
    simp only [consumedAt, served, Option.map_some, Option.getD_some, Option.some.injEq]
    constructor
    · exact fun member => ⟨entry, consumed, rfl, member⟩
    · rintro ⟨_, _, same, member⟩
      cases same
      exact member

/-- A consumed predicate stood among the offered ones. -/
theorem consumed_was_offered {other : Nat} (consumed : other ∈ e.consumedAt place) :
    ∃ shape, (other, shape) ∈ offeredFrom (e.before place) := by
  obtain ⟨entry, places, served, member⟩ := mem_consumed_at.mp consumed
  obtain ⟨shape, resolution, field, serves, rfl⟩ := served_at_spec served
  obtain ⟨taken, takes⟩ := conditions_taken e place
  have takes := takes resolution serves.resolved
  obtain ⟨number, bound, rfl⟩ := (takes.consumed other).mp member
  obtain ⟨own, offered, _⟩ := takes.satisfied number _ (List.getElem?_eq_getElem bound)
  exact ⟨own, offered⟩

theorem offered_is_earlier {other : Nat} {shape : PredicateShape}
    (offered : (other, shape) ∈ offeredFrom (e.before place)) : other < place := by
  obtain ⟨examined, found, _, _⟩ := mem_offered_from.mp offered
  have bound := (List.getElem?_eq_some_iff.mp found).1
  rw [length_before] at bound
  omega

theorem consumed_is_earlier {other : Nat} (consumed : other ∈ e.consumedAt place) : other < place := by
  obtain ⟨shape, offered⟩ := consumed_was_offered consumed
  exact offered_is_earlier offered

theorem consumed_before_iff {later : Nat} : e.consumedBefore later place = true ↔
    ∃ other, other < later ∧ place ∈ e.consumedAt other := by
  simp [consumedBefore]

theorem unconsumed_until_next_turn {later : Nat} (bound : later ≤ place + 1) :
    e.consumedBefore later place = false := by
  rw [Bool.eq_false_iff, ne_eq, consumed_before_iff]
  rintro ⟨other, earlier, consumed⟩
  have := consumed_is_earlier consumed
  omega

/-- The state at any turn: a predicate before it is implied once some turn has consumed it, and
until then has the fate its own turn gave it. A turn touches what stood before it only by consuming
it. -/
theorem before_getElem? {later : Nat} (less : place < later) (bound : later ≤ e.predicates.length) :
    (e.before later)[place]? = some ⟨e.predicates[place], e.shapeAt? place,
      if e.consumedBefore later place then .implied else e.firstFate place⟩ := by
  induction later with
  | zero => omega
  | succ later ih =>
    rw [before_succ (by omega)]
    rcases Nat.lt_succ_iff_lt_or_eq.mp less with earlier | same
    · have step : e.consumedBefore (later + 1) place =
          (e.consumedBefore later place || (e.consumedAt later).contains place) := by
        simp [consumedBefore, List.range_succ]
      rw [List.getElem?_append_left (by rw [length_consume, length_before]; omega),
        getElem?_consume, ih earlier (by omega), step]
      cases e.consumedBefore later place <;> cases (e.consumedAt later).contains place <;> simp
    · subst same
      have width : (consume (e.consumedAt place) (e.before place)).length = place := by
        rw [length_consume, length_before]
        omega
      rw [List.getElem?_append_right (by omega), width, unconsumed_until_next_turn (Nat.le_refl _)]
      simp

theorem offered_shape {other : Nat} {shape : PredicateShape} (bound : place ≤ e.predicates.length)
    (offered : (other, shape) ∈ offeredFrom (e.before place)) :
    e.shapeAt? other = some shape ∧ e.consumedBefore place other = false := by
  obtain ⟨examined, found, free, shaped⟩ := mem_offered_from.mp offered
  rw [before_getElem? (offered_is_earlier offered) bound] at found
  cases found
  refine ⟨shaped, ?_⟩
  cases consumed : e.consumedBefore place other with
  | false => rfl
  | true => simp [consumed, Fate.isImplied] at free

theorem shaped_bound {shape : PredicateShape} (shaped : e.shapeAt? place = some shape) :
    place < e.predicates.length := by
  obtain ⟨predicate, found, _⟩ := Option.bind_eq_some_iff.mp shaped
  exact (List.getElem?_eq_some_iff.mp found).1

theorem served_bound {entry : LookupEntry} {consumed : List Nat}
    (served : e.servedAt? place = some (entry, consumed)) : place < e.predicates.length := by
  obtain ⟨shape, _, _, serves, _⟩ := served_at_spec served
  exact shaped_bound serves.shaped

theorem consumer_bound {other : Nat} (consumed : other ∈ e.consumedAt place) :
    place < e.predicates.length := by
  obtain ⟨_, _, served, _⟩ := mem_consumed_at.mp consumed
  exact served_bound served

/-- A predicate consumed at one turn is offered at no later one. -/
theorem consumed_by_one {other first second : Nat} (byFirst : other ∈ e.consumedAt first)
    (bySecond : other ∈ e.consumedAt second) : second ≤ first := by
  obtain ⟨shape, offered⟩ := consumed_was_offered bySecond
  have unconsumed := (offered_shape (Nat.le_of_lt (consumer_bound bySecond)) offered).2
  rw [Bool.eq_false_iff, ne_eq, consumed_before_iff] at unconsumed
  by_contra later
  exact unconsumed ⟨first, by omega, byFirst⟩

theorem consumed_once {other first second : Nat} (byFirst : other ∈ e.consumedAt first)
    (bySecond : other ∈ e.consumedAt second) : first = second :=
  Nat.le_antisymm (consumed_by_one bySecond byFirst) (consumed_by_one byFirst bySecond)

theorem final_getElem? (bound : place < e.predicates.length) :
    e.final[place]? = some ⟨e.predicates[place], e.shapeAt? place,
      if e.consumedBefore e.predicates.length place then .implied else e.firstFate place⟩ := by
  rw [← before_getElem? bound (Nat.le_refl _), before, List.take_length, final]

theorem length_fates : e.fates.length = e.predicates.length := by
  rw [fates, List.length_map, final, examineAll, length_examine_all]
  simp

theorem fate_eq (bound : place < e.predicates.length) :
    e.fates[place]? = some
      (if e.consumedBefore e.predicates.length place then .implied else e.firstFate place) := by
  rw [fates, List.getElem?_map, final_getElem? bound]
  rfl

theorem fate_bound {fate : Fate} (found : e.fates[place]? = some fate) :
    place < e.predicates.length := by
  rw [← length_fates]
  exact (List.getElem?_eq_some_iff.mp found).1

/-- The predicates dropped are those consumed at some turn. -/
theorem implied_iff_consumed :
    e.fates[place]? = some .implied ↔ ∃ other, place ∈ e.consumedAt other := by
  constructor
  · intro implied
    rw [fate_eq (fate_bound implied), Option.some.injEq] at implied
    split at implied
    · rename_i consumed
      obtain ⟨other, _, member⟩ := consumed_before_iff.mp consumed
      exact ⟨other, member⟩
    · unfold firstFate at implied
      cases served : e.servedAt? place <;> simp [served] at implied
  · rintro ⟨other, member⟩
    have bound := consumer_bound member
    have consumed := consumed_before_iff.mpr ⟨other, bound, member⟩
    rw [fate_eq (Nat.lt_trans (consumed_is_earlier member) bound), if_pos consumed]

/-- The entries of the lookup are those found at a turn and not withdrawn later. -/
theorem served_iff {entry : LookupEntry} : e.fates[place]? = some (.served entry) ↔
    (∃ consumed, e.servedAt? place = some (entry, consumed)) ∧ e.fates[place]? ≠ some .implied := by
  constructor
  · intro kept
    refine ⟨?_, by simp [kept]⟩
    rw [fate_eq (fate_bound kept), Option.some.injEq] at kept
    split at kept
    · cases kept
    · unfold firstFate at kept
      cases served : e.servedAt? place with
      | none => simp [served] at kept
      | some found =>
        simp only [served, Option.map_some, Option.getD_some, Fate.served.injEq] at kept
        exact ⟨found.2, by rw [← kept]⟩
  · rintro ⟨⟨consumed, served⟩, live⟩
    rw [fate_eq (served_bound served)] at live ⊢
    split
    · rename_i implied
      exact absurd (by rw [if_pos implied]) live
    · simp [firstFate, served]

/-- A predicate an index could not answer is never consumed, so it stays. -/
theorem shapeless_stays (bound : place < e.predicates.length) (shapeless : e.shapeAt? place = none) :
    e.fates[place]? = some .residual := by
  have unconsumed : e.consumedBefore e.predicates.length place = false := by
    rw [Bool.eq_false_iff, ne_eq, consumed_before_iff]
    rintro ⟨other, later, consumed⟩
    obtain ⟨shape, offered⟩ := consumed_was_offered consumed
    have shaped := (offered_shape (Nat.le_of_lt later) offered).1
    rw [shapeless] at shaped
    cases shaped
  rw [fate_eq bound, unconsumed]
  simp [firstFate, servedAt?, shapeless]

theorem final_predicates : e.final.map (·.predicate) = e.predicates := by
  apply List.ext_getElem?
  intro place
  rw [List.getElem?_map]
  by_cases bound : place < e.predicates.length
  · rw [final_getElem? bound, List.getElem?_eq_getElem bound]
    rfl
  · have width : e.final.length = e.predicates.length := by
      simpa [fates] using length_fates (e := e)
    rw [List.getElem?_eq_none (by omega), List.getElem?_eq_none (by omega)]
    rfl

/-- The filter of the rewritten step holds the predicates labelled so, as they were written. -/
theorem staying_eq : (e.final.filter fun examined => examined.fate.isResidual).map (·.predicate) =
    staying e.predicates e.fates := by
  have paired : e.predicates.zip e.fates = e.final.map fun examined =>
      (examined.predicate, examined.fate) := by
    rw [fates, ← List.zip_map', final_predicates]
  rw [staying, paired, List.filter_map, List.map_map]
  rfl

end Examination

/-- What a rewritten step consists of. -/
structure Rewritten (e : Examination) (step : Step) (result : Expr) (lookup : FieldLookup) :
    Prop where
  form : result = filtered lookup (staying step.predicates e.fates)
  entries : lookup.entries = e.fates.filterMap Fate.entry?
  nonempty : lookup.entries ≠ []
  named : ∀ entry ∈ lookup.entries, entry.field ≠ ""
  fallback : lookup.fallback = step

/-- Entries make a lookup when there are any and each of them has a name. -/
theorem of_entries_iff {entries : List LookupEntry} {fallback : Step} {lookup : FieldLookup} :
    FieldLookup.ofEntries? entries fallback = .ok lookup ↔
      entries ≠ [] ∧ (∀ entry ∈ entries, entry.field ≠ "") ∧ lookup = ⟨entries, fallback⟩ := by
  have named : (entries.findIdx? fun entry => entry.field.isEmpty) = none ↔
      ∀ entry ∈ entries, entry.field ≠ "" := by
    simp [List.findIdx?_eq_none_iff]
  rw [FieldLookup.ofEntries?, ← named, ne_eq, ← List.isEmpty_iff]
  cases entries.isEmpty with
  | true => simp
  | false =>
    cases entries.findIdx? fun entry => entry.field.isEmpty with
    | none => simp [eq_comm]
    | some index => simp

/-- The rewriting of a step, told by what becomes of its predicates. -/
theorem rewrite_step_eq (sets : List RuleSet) (static : StaticContext) (context : Pattern)
    (step : Step) :
    let e : Examination := ⟨sets, static, context, step.predicates⟩
    rewriteStep? sets static context step =
      if (staying step.predicates e.fates).any Predicate.mayDependOnPosition then none
      else match FieldLookup.ofEntries? (e.fates.filterMap Fate.entry?) step with
        | .error _ => none
        | .ok lookup => some (filtered lookup (staying step.predicates e.fates)) := by
  intro e
  have stays : ((examineAll sets static context step.predicates).filter
      fun examined => examined.fate.isResidual).map (·.predicate) = _ := e.staying_eq
  have kept : (examineAll sets static context step.predicates).filterMap (fun examined =>
      examined.fate.entry?) = e.fates.filterMap Fate.entry? := by
    rw [Examination.fates, List.filterMap_map]
    rfl
  rw [rewriteStep?, stays, kept]
  rfl

/-- A step is rewritten when there are entries, all of them with a name, and no predicate that stays may
select by position. -/
theorem rewrite_step_some_iff (sets : List RuleSet) (static : StaticContext) (context : Pattern)
    (step : Step) :
    let e : Examination := ⟨sets, static, context, step.predicates⟩
    let entries := e.fates.filterMap Fate.entry?
    (rewriteStep? sets static context step).isSome = true ↔
      entries ≠ [] ∧ (∀ entry ∈ entries, entry.field ≠ "") ∧
        (staying step.predicates e.fates).any Predicate.mayDependOnPosition = false := by
  intro e entries
  rw [rewrite_step_eq]
  cases positional : (staying step.predicates e.fates).any Predicate.mayDependOnPosition with
  | true => simp
  | false =>
    rw [if_neg Bool.false_ne_true]
    cases built : FieldLookup.ofEntries? entries step with
    | error error =>
      refine iff_of_false Bool.false_ne_true fun ⟨present, named, _⟩ => ?_
      rw [of_entries_iff.mpr ⟨present, named, rfl⟩] at built
      cases built
    | ok lookup =>
      obtain ⟨present, named, _⟩ := of_entries_iff.mp built
      exact iff_of_true rfl ⟨present, named, rfl⟩

/-- A step is rewritten to the lookup of the entries kept, filtered by the predicates that stay. -/
theorem rewrite_step_parts {sets : List RuleSet} {static : StaticContext} {context : Pattern}
    {step : Step} {result : Expr} (ran : rewriteStep? sets static context step = some result) :
    ∃ lookup, Rewritten ⟨sets, static, context, step.predicates⟩ step result lookup := by
  rw [rewrite_step_eq] at ran
  split at ran
  · cases ran
  · split at ran
    · cases ran
    · rename_i lookup built
      cases ran
      obtain ⟨nonempty, named, rfl⟩ := of_entries_iff.mp built
      exact ⟨_, rfl, rfl, nonempty, named, rfl⟩

end RangeIndex.PredicateFates
