import RangeIndex.Proofs.PathGrammar
import RangeIndex.Proofs.RuleElements
import RangeIndex.Proofs.StepCoverage

/-! What can be relied on in a rule that was loaded. Its paths are open and have a level to match at
their ends, its fields are named, and its conditions can be decided. So the entries of a rewritten step
always make a lookup: a step with an entry stays as it is only for a filter that may count
positions. -/
namespace RangeIndex.LoadedRules
open RangeIndex.Configuration Query RuleElements PredicateFates PredicateConservation

section Definitions

/-- A pattern as a rule may have it. -/
structure Settled (pattern : Pattern) : Prop where
  isOpen : pattern.closed = false
  nonempty : pattern.components ≠ []
  apart : pattern.components.IsChain fun first second =>
    ¬ (first.isGap = true ∧ second.isGap = true)
  ends : ∀ component, pattern.last? = some component → component.isGap = false

/-- A condition that can be decided from one attribute of an element. -/
structure Decided (condition : Condition) : Prop where
  operator : condition.operator ≠ .matches
  ofAttribute : condition.subject.kind = .attribute
  path : condition.path = ⟨[.named condition.subject], false⟩

/-- A field of a rule: named, at the node of the rule or below it. -/
structure Placed (rule : Rule) (field : FieldRule) : Prop where
  named : field.name ≠ ""
  below : field.path = rule.path ∨ ∃ inner, field.path = rule.path.joined inner
  settled : Settled field.path

structure WellFormed (rule : Rule) : Prop where
  path : Settled rule.path
  fields : ∀ field ∈ rule.fields, Placed rule field
  complex : rule.conditions ≠ [] → rule.fields ≠ []
  conditions : ∀ condition ∈ rule.conditions, Decided condition

/-- A rule set that some document was loaded to. -/
def Loaded (set : RuleSet) : Prop :=
  ∃ collection document, set = (load collection document).ruleSet

end Definitions

section Patterns
variable {bindings : Bindings} {pattern : Pattern}

/-- Below a pattern that does not end in a gap no two gaps come together. -/
theorem settled_joined {inner : Pattern} (outside : Settled pattern) (inside : Settled inner) :
    Settled (pattern.joined inner) := by
  refine ⟨outside.isOpen, ?_, ?_, ?_⟩
  · exact List.append_ne_nil_of_left_ne_nil outside.nonempty _
  · refine outside.apart.append inside.apart fun last found first _ gaps => ?_
    rw [outside.ends last found] at gaps
    cases gaps.1
  · intro component found
    rw [Pattern.last?, Pattern.joined, List.getLast?_append_of_ne_nil _ inside.nonempty] at found
    exact inside.ends component found

theorem settled_read {written : String} (read : Pattern.read bindings false written = .ok pattern) :
    Settled pattern := by
  have tidy := PathGrammar.tidy_read read
  obtain ⟨_, components, _, rfl⟩ := PathGrammar.read_ok_iff.mp read
  exact ⟨rfl, tidy.nonempty, tidy.apart, tidy.ends⟩

end Patterns

section Rules
variable {create : Element} {rule : Rule}

theorem qualified_kind {bindings : Bindings} {kind : NameKind} {written : String} {name : QName}
    (qualified : bindings.qualify kind written = some name) : name.kind = kind := by
  unfold Bindings.qualify at qualified
  split at qualified
  · cases qualified
    rfl
  · obtain ⟨space, _, rfl⟩ := Option.map_eq_some_iff.mp qualified
    rfl

theorem stated_path (gives : GivesPath create rule.path) : Settled rule.path := by
  cases gives with
  | named _ _ read => exact settled_read read
  | absolute _ _ _ read => exact settled_read read
  | anywhere _ _ _ read => exact settled_read read

theorem stated_condition {element : Element} {condition : Condition}
    (states : StatesCondition element condition) : Decided condition := by
  obtain ⟨_, _, _, qualified⟩ := states.subject
  exact ⟨states.decidable, qualified_kind qualified, rfl⟩

theorem stated_field {element : Element} {field : FieldRule} (path : Settled rule.path)
    (states : StatesField rule.path rule.options element field) : Placed rule field := by
  have located := states.path
  split at located
  · exact ⟨states.named, .inl located, located ▸ path⟩
  · obtain ⟨inner, read, joined⟩ := located
    exact ⟨states.named, .inr ⟨inner, joined⟩, joined ▸ settled_joined path (settled_read read)⟩

theorem stated_all {α β : Type} {P : β → Prop} {States : α → β → Prop} {elements : List α}
    {stated : List β} (all : List.Forall₂ States elements stated)
    (each : ∀ element part, States element part → P part) : ∀ part ∈ stated, P part := by
  induction all with
  | nil => exact fun _ member => absurd member List.not_mem_nil
  | cons states _ ih => exact List.forall_mem_cons.mpr ⟨each _ _ states, ih⟩

theorem stated_well_formed (states : StatesRule create rule) : WellFormed rule where
  path := stated_path states.path
  fields := stated_all states.fields fun _ _ => stated_field (stated_path states.path)
  complex := states.complex
  conditions := stated_all states.conditions fun _ _ => stated_condition

/-- A rule of an outlined document is stated by an element in it. -/
theorem stated_in_outline {collection : String} {outline : Outline}
    (member : rule ∈ (readOutline collection outline).ruleSet.rules) :
    ∃ create, StatesRule create rule := by
  unfold readOutline at member
  dsimp only at member
  split at member
  · cases member
  · split at member
    · obtain ⟨result, read, taken⟩ := List.mem_filterMap.mp member
      obtain ⟨create, _, rfl⟩ := List.mem_map.mp read
      split at taken
      · rename_i read
        cases taken
        exact ⟨create, rule_iff.mp read⟩
      · cases taken
    · cases member

/-- Whatever the document, the rules it is loaded to are well formed. -/
theorem loaded_well_formed {set : RuleSet} (loaded : Loaded set) (member : rule ∈ set.rules) :
    WellFormed rule := by
  obtain ⟨collection, document, rfl⟩ := loaded
  obtain ⟨create, states⟩ := stated_in_outline member
  exact stated_well_formed states

end Rules

section Lookups
variable {sets : List RuleSet} {static : StaticContext} {context : Pattern} {step : Step}

/-- An entry has the name of a field. -/
theorem entry_named {e : Examination} (loaded : ∀ set ∈ e.sets, Loaded set) {entry : LookupEntry}
    (member : entry ∈ e.fates.filterMap Fate.entry?) : entry.field ≠ "" := by
  obtain ⟨fate, found, kept⟩ := List.mem_filterMap.mp member
  cases fate with
  | residual => cases kept
  | implied => cases kept
  | served entry =>
    cases kept
    obtain ⟨place, located⟩ := List.mem_iff_getElem?.mp found
    obtain ⟨shape, resolution, field, serves, _⟩ := kept_entry_serves located
    obtain ⟨set, source, _, rule, _⟩ := StepCoverage.resolved_from_public_set serves.resolved
    have wellFormed := loaded_well_formed (loaded set source) rule
    have placed := wellFormed.fields field (List.mem_of_find?_eq_some serves.located)
    rw [serves.columns]
    exact placed.named

/-- The columns of entries, put together again. -/
theorem rows_of_columns (entries : List LookupEntry) :
    ((entries.map (·.field)).zip ((entries.map (·.operator)).zip (entries.map (·.key)))).map
      (fun (field, operator, key) => LookupEntry.mk field operator key) = entries := by
  induction entries with
  | nil => rfl
  | cons entry rest ih =>
    simp only [List.map_cons, List.zip_cons_cons]
    rw [ih]
    cases entry
    rfl

theorem columns_make_lookup {entries : List LookupEntry} (present : entries ≠ [])
    (named : ∀ entry ∈ entries, entry.field ≠ "") :
    FieldLookup.ofColumns? (entries.map (·.field)) (entries.map (·.operator))
      (entries.map (·.key)) step = .ok ⟨entries, step⟩ := by
  rw [FieldLookup.ofColumns?, if_neg (by simpa using present), if_neg (by simp), rows_of_columns]
  exact of_entries_iff.mpr ⟨present, named, rfl⟩

/-- With names for its entries a step stays as it is for two reasons only. -/
theorem rewrite_step_none_iff (sets : List RuleSet) (static : StaticContext) (context : Pattern)
    (step : Step) :
    let e : Examination := ⟨sets, static, context, step.predicates⟩
    let entries := e.fates.filterMap Fate.entry?
    (∀ entry ∈ entries, entry.field ≠ "") →
      (rewriteStep? sets static context step = none ↔
        entries = [] ∨
          (staying step.predicates e.fates).any Predicate.mayDependOnPosition = true) := by
  intro e entries named
  have rewritten := not_congr (rewrite_step_some_iff sets static context step)
  refine Option.not_isSome_iff_eq_none.symm.trans (rewritten.trans ?_)
  rw [not_and_or, not_and_or, not_not, Bool.not_eq_false]
  exact or_congr_right (or_iff_right (not_not.mpr named))

end Lookups

/-- Every rule that a document is loaded to is well formed. With such rules only, whatever the step,
its entries make a lookup if there are any, and the step is left as it is just when there are none or
a predicate that stays may count positions. -/
theorem loaded_rules_make_lookups :
    (∀ collection document, ∀ rule ∈ (load collection document).ruleSet.rules, WellFormed rule) ∧
    ∀ sets static context (step : Step), (∀ set ∈ sets, Loaded set) →
      let e : Examination := ⟨sets, static, context, step.predicates⟩
      let entries := e.fates.filterMap Fate.entry?
      (entries ≠ [] →
        FieldLookup.ofColumns? (entries.map (·.field)) (entries.map (·.operator))
          (entries.map (·.key)) step = .ok ⟨entries, step⟩) ∧
      (rewriteStep? sets static context step = none ↔
        entries = [] ∨
          (staying step.predicates e.fates).any Predicate.mayDependOnPosition = true) := by
  refine ⟨fun collection document rule => loaded_well_formed ⟨collection, document, rfl⟩, ?_⟩
  intro sets static context step loaded e entries
  have named : ∀ entry ∈ entries, entry.field ≠ "" := fun entry => entry_named loaded
  exact ⟨fun present => columns_make_lookup present named, rewrite_step_none_iff _ _ _ _ named⟩

section Sample
open Markup

/-- A rule for entries of the type main, with their kind as its field. -/
def entryDocument : List UInt8 :=
  bytesOf ("<collection><index><range><create qname='entry'>" ++
    "<condition attribute='type' value='main'/><field name='kind' match='@kind'/>" ++
    "</create></range></index></collection>")

theorem entry_document_makes_lookup :
    (load "/db" entryDocument).ruleSet = ⟨"/db", [entryRule "type" "main" "kind"]⟩ ∧
      WellFormed (entryRule "type" "main" "kind") ∧
      FieldLookup.ofColumns? ["kind"] [.eq] [.string "x"] mixedStep =
        .ok ⟨[⟨"kind", .eq, .string "x"⟩], mixedStep⟩ ∧
      rewriteStep? mainEntries {} (anywhere "entry") mixedStep ≠ none := by
  have read : (load "/db" entryDocument).ruleSet = ⟨"/db", [entryRule "type" "main" "kind"]⟩ := by
    decide +kernel
  have loaded : ∀ set ∈ mainEntries, Loaded set := by
    intro set member
    rw [List.mem_singleton.mp member, ← read]
    exact ⟨_, _, rfl⟩
  have fates : (Examination.mk mainEntries {} (anywhere "entry") mixedStep.predicates).fates =
      [.implied, .served ⟨"kind", .eq, .string "x"⟩, .residual] := by with_unfolding_all rfl
  obtain ⟨wellFormed, lookups⟩ := loaded_rules_make_lookups
  have rule := wellFormed "/db" entryDocument
  rw [read] at rule
  have lookup := lookups mainEntries {} (anywhere "entry") mixedStep loaded
  dsimp only at lookup
  rw [fates] at lookup
  refine ⟨read, rule _ (List.mem_singleton.mpr rfl), lookup.1 (List.cons_ne_nil _ _), ?_⟩
  rw [ne_eq, lookup.2]
  rintro (none | positional)
  · cases none
  · cases positional.symm.trans (by with_unfolding_all rfl : _ = false)

end Sample

end RangeIndex.LoadedRules
