import RangeIndex.Proofs.LookupOrigins
import RangeIndex.Proofs.PredicateConservation
import RangeIndex.Proofs.StepCoverage

/-! Which collections are indexed for a step that is replaced. The rules in effect for all collections
a path starts from are put together, and each entry of a lookup needs only one of them. So some
collection is indexed for the entry, and all of them are where they have the same configuration in
effect; but a collection that contributes no rules does not keep the step from being replaced. -/
namespace RangeIndex.CollectionCoverage
open Query PredicateFates Examination QueryWalk LookupOrigins PredicateConservation StepCoverage

section Effect
variable {registry : Registry} {static : StaticContext}

/-- The collections a path starts from. -/
def startsFrom (static : StaticContext) (path : Expr) : List String :=
  ((pathRoot? path).map (rootCollections static)).getD []

/-- What one more collection adds to the publications found. -/
def contribute (registry : Registry) (found : List Publication) (collection : String) :
    List Publication :=
  if Collection.isSystem collection then found
  else match registry.inEffect? collection with
    | some publication => Registry.addOnce found publication
    | none => found

theorem mem_contribute {found : List Publication} {collection : String} {publication : Publication}
    (member : publication ∈ contribute registry found collection) :
    publication ∈ found ∨
      Collection.isSystem collection = false ∧ registry.inEffect? collection = some publication := by
  unfold contribute at member
  split at member
  · exact .inl member
  · rename_i visible
    split at member
    · rename_i other inEffect
      unfold Registry.addOnce at member
      split at member
      · exact .inl member
      · rcases List.mem_append.mp member with earlier | added
        · exact .inl earlier
        · rw [List.mem_singleton.mp added]
          exact .inr ⟨by simpa using visible, inEffect⟩
    · exact .inl member

theorem mem_contributions {collections : List String} {found : List Publication}
    {publication : Publication}
    (member : publication ∈ collections.foldl (contribute registry) found) :
    publication ∈ found ∨ ∃ collection ∈ collections,
      Collection.isSystem collection = false ∧ registry.inEffect? collection = some publication := by
  induction collections generalizing found with
  | nil => exact .inl member
  | cons collection rest ih =>
    rcases ih member with earlier | ⟨other, listed, inEffect⟩
    · rcases mem_contribute earlier with before | inEffect
      · exact .inl before
      · exact .inr ⟨collection, List.mem_cons_self, inEffect⟩
    · exact .inr ⟨other, List.mem_cons_of_mem _ listed, inEffect⟩

/-- A rule set consulted for a path is in effect for a public collection the path starts from. -/
theorem consulted_set_in_effect {path : Expr} {set : RuleSet}
    (consulted : set ∈ setsFor registry static path) :
    ∃ collection ∈ startsFrom static path, Collection.isSystem collection = false ∧
      ∃ publication, registry.inEffect? collection = some publication ∧ publication.ruleSet = set := by
  obtain ⟨publication, found, rfl⟩ := List.mem_map.mp consulted
  rcases mem_contributions found with nothing | ⟨collection, listed, visible, inEffect⟩
  · cases nothing
  · exact ⟨collection, listed, visible, publication, inEffect, rfl⟩

/-- All but the root of the document lead to the documents of one collection at most. -/
theorem one_collection_elsewhere (static : StaticContext) {origin : Expr} (elsewhere : origin ≠ .root) :
    ∃ known : Option String, rootCollections static origin = known.toList := by
  unfold rootCollections
  split
  · exact absurd rfl elsewhere
  · split
    · exact ⟨some _, rfl⟩
    · exact ⟨documentCollection? _, rfl⟩
    · exact ⟨none, rfl⟩
  · exact ⟨none, rfl⟩

theorem starts_from_one {path : Expr} (elsewhere : pathRoot? path ≠ some .root)
    {first second : String} (listed : first ∈ startsFrom static path)
    (listedToo : second ∈ startsFrom static path) : first = second := by
  unfold startsFrom at listed listedToo
  cases root : pathRoot? path with
  | none => simp [root] at listed
  | some origin =>
    have other : origin ≠ .root := fun same => elsewhere (same ▸ root)
    obtain ⟨known, collections⟩ := one_collection_elsewhere static other
    rw [root, Option.map_some, Option.getD_some, collections, Option.mem_toList] at listed listedToo
    exact Option.some.inj (listed.symm.trans listedToo)

end Effect

/-- The configuration in effect for a collection has a complex rule for what a pattern leads to, and
that rule a field of the name for a location. -/
def Indexed (registry : Registry) (collection : String) (context location : Pattern)
    (name : String) : Prop :=
  ∃ publication, registry.inEffect? collection = some publication ∧
    ∃ rule ∈ publication.ruleSet.rules, rule.isComplex = true ∧ rule.path.isMatch context = true ∧
      ∃ field ∈ rule.fields, field.name = name ∧ field.covers location = true

/-- Every collection has the same configuration in effect among those a path starts from, which is
more than one only when it starts from the default collections. -/
def Uniform (registry : Registry) (static : StaticContext) (path : Expr) : Prop :=
  pathRoot? path = some .root → ∀ first ∈ static.defaultCollections,
    ∀ second ∈ static.defaultCollections, registry.inEffect? first = registry.inEffect? second

/-- What indexes an entry of a lookup: the configuration in effect for a collection the path starts
from, or for all of them where they share one. -/
structure Backed (registry : Registry) (static : StaticContext) (path : Expr) (context location : Pattern)
    (name : String) : Prop where
  somewhere : ∃ collection ∈ startsFrom static path, Collection.isSystem collection = false ∧
    Indexed registry collection context location name
  everywhere : Uniform registry static path →
    ∀ collection ∈ startsFrom static path, Indexed registry collection context location name

section Backing
variable {registry : Registry} {static : StaticContext} {path : Expr}

theorem uniform_in_effect (uniform : Uniform registry static path) {first second : String}
    (listed : first ∈ startsFrom static path) (listedToo : second ∈ startsFrom static path) :
    registry.inEffect? first = registry.inEffect? second := by
  by_cases root : pathRoot? path = some .root
  · rw [startsFrom, root] at listed listedToo
    exact uniform root first listed second listedToo
  · rw [starts_from_one root listed listedToo]

/-- An entry found among the rules in effect where a path starts is backed by one of its
collections. -/
theorem served_entry_backed {context : Pattern} {predicates : List Predicate} {place : Nat}
    {entry : LookupEntry} {consumed : List Nat}
    (served : servedAt? ⟨setsFor registry static path, static, context, predicates⟩ place =
      some (entry, consumed)) :
    ∃ shape, shapeAt? ⟨setsFor registry static path, static, context, predicates⟩ place =
        some shape ∧
      Backed registry static path context (context.joined shape.inner) entry.field := by
  obtain ⟨shape, resolution, field, serves, _⟩ := served_at_spec served
  obtain ⟨set, consulted, _, declared, complex⟩ := resolved_from_public_set serves.resolved
  obtain ⟨collection, listed, visible, publication, inEffect, rfl⟩ := consulted_set_in_effect consulted
  have known : field ∈ resolution.rule.fields := List.mem_of_find?_eq_some serves.located
  have covers : field.covers (context.joined shape.inner) = true := by
    simpa using List.find?_some serves.located
  have name : field.name = entry.field := by rw [serves.columns]
  have indexed : ∀ other, registry.inEffect? other = registry.inEffect? collection →
      Indexed registry other context (context.joined shape.inner) entry.field := by
    intro other same
    exact ⟨publication, same.trans inEffect, resolution.rule, declared, complex, serves.covers,
      field, known, name, covers⟩
  refine ⟨shape, serves.shaped, ?_⟩
  constructor
  case somewhere => exact ⟨collection, listed, visible, indexed collection rfl⟩
  case everywhere =>
    intro uniform other listedToo
    exact indexed other (uniform_in_effect uniform listedToo listed)

end Backing

/-- A step is replaced by a lookup whose entries, in the order of the predicates they serve, are each
indexed for some collection the path of the step starts from, and for all of them where they have
the same configuration in effect. No other lookup is new in an optimized query. -/
theorem replaced_steps_indexed (registry : Registry) (static : StaticContext) (query : Expr) :
    (∀ lookup, Occurs (.lookup lookup) (optimize registry static query) →
      ComesFrom registry static lookup query) ∧
    ∀ left step lookup, Replaces registry static left step lookup →
      ∃ context, contextPath? static.bindings (.path left (.step step)) = some context ∧
        let e : Examination := ⟨setsFor registry static (.path left (.step step)), static, context,
          (seenTo registry static step).predicates⟩
        lookup.entries = e.fates.filterMap Fate.entry? ∧
          ∀ place entry, e.fates[place]? = some (.served entry) →
            ∃ shape, e.shapeAt? place = some shape ∧
              Backed registry static (.path left (.step step)) context
                (context.joined shape.inner) entry.field := by
  constructor
  · intro lookup occurs
    unfold optimize at occurs
    split at occurs
    · exact .inl occurs
    · exact lookup_origin query occurs
  · intro left step lookup replaced
    obtain ⟨context, known, rewritten⟩ := replaced_parts replaced
    refine ⟨context, known, rewritten.entries, ?_⟩
    intro place entry kept
    obtain ⟨⟨_, served⟩, _⟩ := served_iff.mp kept
    exact served_entry_backed served

section Sample

/-- The field path of the names of entries. -/
def entryNames : Pattern := (anywhere "entry").push (.named (.unqualified .element "name"))

/-- Only one collection is configured: its entries are indexed by name. -/
def oneConfigured : Registry :=
  Registry.empty.publish
    ⟨"/db/a", [{ path := anywhere "entry", fields := [⟨"name", entryNames, {}⟩] }]⟩

def fromAnywhere : Expr := .path .root (.step ⟨.descendantOrSelf, .node, []⟩)

/-- A step to the entries of one name. -/
def namedEntries : Step :=
  entries [[.binary (.step ⟨.child, .named "name", []⟩) .eq (.string "x")]]

def namedQuery : Expr := .path fromAnywhere (.step namedEntries)

def namedLookup : FieldLookup := ⟨[⟨"name", .eq, .string "x"⟩], namedEntries⟩

/-- The configured collection and one below it share its configuration. -/
def sharing : StaticContext := { defaultCollections := ["/db/a", "/db/a/more"] }

/-- Where all collections share a configuration, the lookup is indexed for each of them. -/
theorem shared_entries_indexed :
    Replaces oneConfigured sharing fromAnywhere namedEntries namedLookup ∧
      (∀ collection ∈ startsFrom sharing namedQuery,
        Indexed oneConfigured collection (anywhere "entry") entryNames "name") ∧
      Occurs (.lookup namedLookup) (optimize oneConfigured sharing namedQuery) ∧
      ComesFrom oneConfigured sharing namedLookup namedQuery := by
  have replaced : Replaces oneConfigured sharing fromAnywhere namedEntries namedLookup :=
    ⟨[], by with_unfolding_all rfl⟩
  have occurs : Occurs (.lookup namedLookup) (optimize oneConfigured sharing namedQuery) := by
    have optimized : optimize oneConfigured sharing namedQuery =
        .path fromAnywhere (.lookup namedLookup) := by with_unfolding_all rfl
    rw [optimized]
    exact .inside (by simp [parts]) (.self _)
  have uniform : Uniform oneConfigured sharing namedQuery := by
    have below : oneConfigured.inEffect? "/db/a/more" = oneConfigured.inEffect? "/db/a" := by
      with_unfolding_all rfl
    intro _
    simp [sharing, below]
  obtain ⟨origins, replacements⟩ := replaced_steps_indexed oneConfigured sharing namedQuery
  obtain ⟨context, known, _, backed⟩ := replacements _ _ _ replaced
  obtain rfl : context = anywhere "entry" :=
    Option.some.inj (known.symm.trans (by with_unfolding_all rfl))
  obtain ⟨shape, shaped, backed⟩ := backed 0 ⟨"name", .eq, .string "x"⟩ (by with_unfolding_all rfl)
  obtain rfl := Option.some.inj (shaped.symm.trans (by with_unfolding_all rfl))
  exact ⟨replaced, backed.everywhere uniform, occurs, origins namedLookup occurs⟩

/-- With the documents of a second collection, which has no configuration, the step is replaced all
the same: nothing indexes the entries of the second collection. -/
theorem unconfigured_entries_not_indexed :
    let static : StaticContext := { defaultCollections := ["/db/a", "/db/b"] }
    optimize oneConfigured static namedQuery = .path fromAnywhere (.lookup namedLookup) ∧
      Replaces oneConfigured static fromAnywhere namedEntries namedLookup ∧
      "/db/b" ∈ startsFrom static namedQuery ∧
      oneConfigured.inEffect? "/db/b" = none ∧
      ∀ context location name, ¬ Indexed oneConfigured "/db/b" context location name := by
  have unconfigured : oneConfigured.inEffect? "/db/b" = none := by with_unfolding_all rfl
  refine ⟨by with_unfolding_all rfl, ⟨[], by with_unfolding_all rfl⟩, by with_unfolding_all decide,
    unconfigured, ?_⟩
  rintro context location name ⟨publication, inEffect, _⟩
  rw [unconfigured] at inEffect
  cases inEffect

end Sample

end RangeIndex.CollectionCoverage
