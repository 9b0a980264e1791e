import Mathlib.Data.List.Induction
import RangeIndex.Proofs.SystemCollections

/-! The publications in effect for a list of collections. A publication is put on the list when its key
is first met as the nearest one of a public collection. It is told from the others by its stamp alone,
while it is registered by its key; after any history each publication stands under one key, so the two
come to the same. Hence the keys of the list are the nearest ones, each once, in the order they are first
met, and two collections have the same entry just when they inherit from the same publication, whatever
the rules say. -/
namespace RangeIndex.SharedPublications
open Collection RegistryHistory NearestConfiguration SystemCollections CollectionCoverage

section Definitions

/-- Of two results of items in order, the first is met at some item, and the second not before it. -/
def MetBefore {α β : Type} (meets : α → β → Prop) (items : List α) (first second : β) : Prop :=
  ∃ before item after, items = before ++ item :: after ∧ meets item first ∧
    ∀ earlier ∈ before, ¬ meets earlier second

/-- What is met at the items of a list, each once, in the order it is first met. -/
structure FirstMet {α β : Type} (meets : α → β → Prop) (items : List α) (found : List β) : Prop where
  distinct : found.Nodup
  complete : ∀ result, result ∈ found ↔ ∃ item ∈ items, meets item result
  ordered : found.Pairwise (MetBefore meets items)

/-- A collection that has a part in queries: it is neither the internal one nor below it. -/
def Public (collection : String) : Prop := ¬ AtOrAbove system collection.toList

/-- The key that a public collection inherits from after a history: of those that something stands
under, the longest at or above the collection. -/
structure NearestKey (changes : List Change) (collection : String) (key : List Char) : Prop where
  visible : Public collection
  above : AtOrAbove key (keyOf collection)
  published : ∃ ruleSet, Standing changes key ruleSet
  longest : ∀ other ruleSet, AtOrAbove other (keyOf collection) → Standing changes other ruleSet →
    other.length ≤ key.length

/-- A collection inherits from the publication that follows this part of a history. -/
def InheritsFrom (changes : List Change) (collection : String) (before : List Change) : Prop :=
  ∃ ruleSet later, changes = before ++ .publish ruleSet :: later ∧
    (∀ change ∈ later, change.key ≠ keyOf ruleSet.collection) ∧
    NearestKey changes collection (keyOf ruleSet.collection)

/-- The key that a publication is registered under. -/
def keyed (publication : Publication) : List Char := keyOf publication.ruleSet.collection

/-- The entry of a collection in a list of publications: what is in effect for it stands there. -/
def EntryOf (registry : Registry) (found : List Publication) (collection : String) (place : Nat) :
    Prop :=
  ∃ publication, registry.inEffect? collection = some publication ∧ found[place]? = some publication

/-- Publications that are held under their keys, as they are first met along collections. -/
structure Listed (changes : List Change) (collections : List String) (found : List Publication) :
    Prop where
  held : ∀ publication ∈ found, (after changes).get? (keyed publication) = some publication
  met : FirstMet (NearestKey changes) collections (found.map keyed)

end Definitions

section Meeting
variable {α β : Type} {meets : α → β → Prop} {items : List α} {item : α} {found : List β}

theorem met_before_append {first second : β} (earlier : MetBefore meets items first second)
    (item : α) : MetBefore meets (items ++ [item]) first second := by
  obtain ⟨before, met, later, rfl, here, clear⟩ := earlier
  exact ⟨before, met, later ++ [item], by simp, here, clear⟩

/-- An item at which nothing new is met adds nothing. -/
theorem first_met_known (met : FirstMet meets items found)
    (known : ∀ result, meets item result → result ∈ found) :
    FirstMet meets (items ++ [item]) found := by
  constructor
  case distinct => exact met.distinct
  case complete =>
    intro result
    rw [met.complete]
    constructor
    · rintro ⟨earlier, member, here⟩
      exact ⟨earlier, List.mem_append_left _ member, here⟩
    · rintro ⟨other, member, here⟩
      rcases List.mem_append.mp member with earlier | last
      · exact ⟨other, earlier, here⟩
      · rw [List.mem_singleton.mp last] at here
        exact (met.complete result).mp (known result here)
  case ordered => exact met.ordered.imp fun earlier => met_before_append earlier item

/-- What is met at an item for the first time comes last. -/
theorem first_met_new (met : FirstMet meets items found) {result : β} (here : meets item result)
    (only : ∀ other, meets item other → other = result) (fresh : result ∉ found) :
    FirstMet meets (items ++ [item]) (found ++ [result]) := by
  constructor
  case distinct =>
    refine List.nodup_append.mpr ⟨met.distinct, by simp, ?_⟩
    intro first member second last
    rw [List.mem_singleton.mp last]
    rintro rfl
    exact fresh member
  case complete =>
    intro other
    rw [List.mem_append, met.complete, List.mem_singleton]
    constructor
    · rintro (⟨earlier, member, there⟩ | rfl)
      · exact ⟨earlier, List.mem_append_left _ member, there⟩
      · exact ⟨item, by simp, here⟩
    · rintro ⟨somewhere, member, there⟩
      rcases List.mem_append.mp member with earlier | last
      · exact .inl ⟨somewhere, earlier, there⟩
      · rw [List.mem_singleton.mp last] at there
        exact .inr (only other there)
  case ordered =>
    refine List.pairwise_append.mpr ⟨?_, List.pairwise_singleton _ _, ?_⟩
    · exact met.ordered.imp fun earlier => met_before_append earlier item
    · intro first member second last
      rw [List.mem_singleton.mp last]
      obtain ⟨there, among, meetsFirst⟩ := (met.complete first).mp member
      obtain ⟨before, later, rfl⟩ := List.append_of_mem among
      refine ⟨before, there, later ++ [item], by simp, meetsFirst, ?_⟩
      intro earlier inside meetsToo
      exact fresh ((met.complete result).mpr ⟨earlier, List.mem_append_left _ inside, meetsToo⟩)

end Meeting

section Keys
variable {changes : List Change} {collection : String} {key other : List Char}
  {one two publication : Publication}

theorem public_iff : Public collection ↔ isSystem collection = false := by
  have internal := @internal_iff collection.toList
  rw [Internal, String.ofList_toList] at internal
  rw [Public, ← internal, Bool.not_eq_true]

theorem front_of_above {whole : List Char} (above : AtOrAbove key whole) : key <+: whole := by
  rcases above with rfl | below | ⟨rfl, topmost⟩
  · exact List.prefix_rfl
  · exact (List.prefix_append key ['/']).trans below
  · exact topmost

/-- A collection has one nearest key at most: those at or above it differ in length. -/
theorem nearest_key_unique (nearest : NearestKey changes collection key)
    (nearestToo : NearestKey changes collection other) : key = other := by
  obtain ⟨ruleSet, standing⟩ := nearest.published
  obtain ⟨ruleSetToo, standingToo⟩ := nearestToo.published
  have longer := nearest.longest other ruleSetToo nearestToo.above standingToo
  have shorter := nearestToo.longest key ruleSet nearest.above standing
  have within := List.prefix_of_prefix_length_le (front_of_above nearest.above)
    (front_of_above nearestToo.above) shorter
  exact within.eq_of_length (Nat.le_antisymm shorter longer)

/-- After a history a publication stands under the key of its own collection, and under no other. -/
theorem keyed_of_held (held : (after changes).get? key = some publication) :
    keyed publication = key := by
  obtain ⟨_, _, _, own, _⟩ := standing_of_held held
  exact own

theorem in_effect_iff_nearest_key (visible : Public collection) :
    (after changes).inEffect? collection = some publication ↔
      NearestKey changes collection (keyed publication) ∧
        (after changes).get? (keyed publication) = some publication := by
  rw [in_effect_iff_longest]
  constructor
  · rintro ⟨key, above, held, longest⟩
    obtain rfl := keyed_of_held held
    exact ⟨⟨visible, above, ⟨_, standing_of_held held⟩, longest⟩, held⟩
  · rintro ⟨nearest, held⟩
    exact ⟨_, nearest.above, held, nearest.longest⟩

theorem none_in_effect (none : (after changes).inEffect? collection = none) (key : List Char) :
    ¬ NearestKey changes collection key := by
  intro nearest
  obtain ⟨ruleSet, standing⟩ := nearest.published
  exact none_in_effect_iff.mp none key ruleSet nearest.above standing

/-- Publications that are held have the same stamp when they have the same key. -/
theorem stamps_iff (held : (after changes).get? (keyed one) = some one)
    (heldToo : (after changes).get? (keyed two) = some two) :
    one.stamp = two.stamp ↔ keyed one = keyed two := by
  constructor
  · exact (after_stamped changes).apart _ _ one two held heldToo
  · intro same
    rw [same] at held
    rw [Option.some.inj (held.symm.trans heldToo)]

/-- Two collections inherit from one publication when they have the same nearest key. -/
theorem same_publication_iff {first second : String} (nearest : NearestKey changes first key)
    (nearestToo : NearestKey changes second other) :
    (∃ before, InheritsFrom changes first before ∧ InheritsFrom changes second before) ↔
      key = other := by
  constructor
  · rintro ⟨before, ⟨ruleSet, _, same, _, own⟩, ⟨ruleSetToo, _, sameToo, _, ownToo⟩⟩
    have published := (List.append_inj (same.symm.trans sameToo) rfl).2
    obtain ⟨⟨⟩, _⟩ := List.cons.inj published
    exact (nearest_key_unique nearest own).trans (nearest_key_unique nearestToo ownToo).symm
  · rintro rfl
    obtain ⟨ruleSet, before, later, same, rfl, untouched⟩ := nearest.published
    exact ⟨before, ⟨ruleSet, later, same, untouched, nearest⟩,
      ⟨ruleSet, later, same, untouched, nearestToo⟩⟩

end Keys

section Lists
variable {changes : List Change} {collections : List String} {found : List Publication}

theorem add_once_listed (listed : Listed changes collections found) {collection : String}
    {publication : Publication} (nearest : NearestKey changes collection (keyed publication))
    (held : (after changes).get? (keyed publication) = some publication) :
    Listed changes (collections ++ [collection]) (Registry.addOnce found publication) := by
  have only : ∀ key, NearestKey changes collection key → key = keyed publication :=
    fun key nearestToo => nearest_key_unique nearestToo nearest
  unfold Registry.addOnce
  split
  · rename_i known
    obtain ⟨other, member, same⟩ := List.any_eq_true.mp known
    have key := (stamps_iff (listed.held other member) held).mp (by simpa using same)
    refine ⟨listed.held, first_met_known listed.met fun result nearestToo => ?_⟩
    rw [only result nearestToo, ← key]
    exact List.mem_map_of_mem member
  · rename_i new
    constructor
    case held =>
      intro other member
      rcases List.mem_append.mp member with earlier | last
      · exact listed.held other earlier
      · rwa [List.mem_singleton.mp last]
    case met =>
      rw [List.map_append]
      refine first_met_new listed.met nearest only fun member => new ?_
      obtain ⟨other, among, key⟩ := List.mem_map.mp member
      have same := (stamps_iff (listed.held other among) held).mpr key
      exact List.any_eq_true.mpr ⟨other, among, by simpa using same⟩

/-- One collection more is met last. -/
theorem contribute_listed (listed : Listed changes collections found) (collection : String) :
    Listed changes (collections ++ [collection])
      (contribute (after changes) found collection) := by
  unfold contribute
  by_cases internal : isSystem collection = true
  · rw [if_pos internal]
    refine ⟨listed.held, first_met_known listed.met fun key nearest => ?_⟩
    have visible := public_iff.mp nearest.visible
    rw [internal] at visible
    cases visible
  · rw [if_neg internal]
    cases inEffect : (after changes).inEffect? collection with
    | none =>
      refine ⟨listed.held, first_met_known listed.met fun key nearest => ?_⟩
      exact absurd nearest (none_in_effect inEffect key)
    | some publication =>
      have visible := public_iff.mpr (Bool.eq_false_iff.mpr internal)
      obtain ⟨nearest, held⟩ := (in_effect_iff_nearest_key visible).mp inEffect
      exact add_once_listed listed nearest held

theorem in_effect_for_listed (changes : List Change) (collections : List String) :
    Listed changes collections ((after changes).inEffectFor collections) := by
  induction collections using List.reverseRecOn with
  | nil =>
    refine ⟨List.forall_mem_nil _, ⟨List.nodup_nil, ?_, .nil⟩⟩
    simp [Registry.inEffectFor]
  | append_singleton collections collection ih =>
    have last : (after changes).inEffectFor (collections ++ [collection]) =
        contribute (after changes) ((after changes).inEffectFor collections) collection := by
      rw [Registry.inEffectFor, List.foldl_append]
      rfl
    rw [last]
    exact contribute_listed ih collection

/-- A key stands at one place in a list without repeats. -/
theorem place_iff_key (listed : Listed changes collections found) {place other : Nat}
    {one two : Publication} (here : found[place]? = some one) (there : found[other]? = some two) :
    place = other ↔ keyed one = keyed two := by
  constructor
  · rintro rfl
    rw [Option.some.inj (here.symm.trans there)]
  · intro same
    have key : (found.map keyed)[place]? = some (keyed one) := by rw [List.getElem?_map, here]; rfl
    have keyToo : (found.map keyed)[other]? = some (keyed two) := by
      rw [List.getElem?_map, there]
      rfl
    obtain ⟨within, _⟩ := List.getElem?_eq_some_iff.mp key
    exact (List.getElem?_inj within listed.met.distinct).mp (key.trans (same ▸ keyToo.symm))

theorem entry_iff_nearest {collection : String} (member : collection ∈ collections)
    (visible : Public collection) :
    (∃ place, EntryOf (after changes) ((after changes).inEffectFor collections) collection place) ↔
      ∃ key, NearestKey changes collection key := by
  have listed := in_effect_for_listed changes collections
  constructor
  · rintro ⟨_, publication, inEffect, _⟩
    exact ⟨_, ((in_effect_iff_nearest_key visible).mp inEffect).1⟩
  · rintro ⟨key, nearest⟩
    cases inEffect : (after changes).inEffect? collection with
    | none => exact absurd nearest (none_in_effect inEffect key)
    | some publication =>
      obtain ⟨own, held⟩ := (in_effect_iff_nearest_key visible).mp inEffect
      have listedKey := (listed.met.complete _).mpr ⟨collection, member, own⟩
      obtain ⟨other, among, same⟩ := List.mem_map.mp listedKey
      have heldToo := listed.held other among
      rw [same, held] at heldToo
      cases heldToo
      obtain ⟨place, here⟩ := List.mem_iff_getElem?.mp among
      exact ⟨place, publication, inEffect, here⟩

theorem entries_shared_iff {first second : String} (visible : Public first)
    (visibleToo : Public second) {place other : Nat}
    (entry : EntryOf (after changes) ((after changes).inEffectFor collections) first place)
    (entryToo : EntryOf (after changes) ((after changes).inEffectFor collections) second other) :
    place = other ↔
      ∃ before, InheritsFrom changes first before ∧ InheritsFrom changes second before := by
  obtain ⟨one, inEffect, here⟩ := entry
  obtain ⟨two, inEffectToo, there⟩ := entryToo
  have nearest := ((in_effect_iff_nearest_key visible).mp inEffect).1
  have nearestToo := ((in_effect_iff_nearest_key visibleToo).mp inEffectToo).1
  rw [place_iff_key (in_effect_for_listed changes collections) here there,
    same_publication_iff nearest nearestToo]

end Lists

/-- After any history the publications in effect for a list of collections are those under the nearest
keys of its public collections, each key once, in the order the keys are first met. A public collection
of the list has an entry when it has a nearest key, and two of them have the same entry exactly if they
inherit from the same publication. -/
theorem publications_shared (changes : List Change) (collections : List String) :
    let registry := after changes
    let found := registry.inEffectFor collections
    FirstMet (NearestKey changes) collections (found.map keyed) ∧
    (∀ publication ∈ found, Standing changes (keyed publication) publication.ruleSet) ∧
    ∀ first ∈ collections, ∀ second ∈ collections, Public first → Public second →
      ((∃ place, EntryOf registry found first place) ↔ ∃ key, NearestKey changes first key) ∧
      ∀ place other, EntryOf registry found first place → EntryOf registry found second other →
        (place = other ↔
          ∃ before, InheritsFrom changes first before ∧ InheritsFrom changes second before) := by
  intro registry found
  have listed := in_effect_for_listed changes collections
  refine ⟨listed.met, fun publication member => standing_of_held (listed.held _ member), ?_⟩
  intro first member second _ visible visibleToo
  exact ⟨entry_iff_nearest member visible, fun _ _ => entries_shared_iff visible visibleToo⟩

section Sample

/-- Two collections are given the same rules, one of them under another spelling, and the topmost one
and an internal one are given some as well. -/
def alikeChanges : List Change :=
  [.publish ⟨"/db/a", []⟩, .publish ⟨"/db/b/", []⟩, .publish ⟨"/db/system/config", []⟩,
    .publish ⟨"/", []⟩]

/-- Two collections inherit from the first publication, and one each from two others. -/
def mixedCollections : List String :=
  ["/db/a/x", "/db/b", "/db/a/", "/db/system/config", "/db/home"]

/-- What is in effect for these collections. -/
def alikePublications : List Publication :=
  [⟨0, "/db/a", []⟩, ⟨1, "/db/b/", []⟩, ⟨3, "/", []⟩]

theorem mixed_collections_shared :
    (after alikeChanges).inEffectFor mixedCollections = alikePublications ∧
      FirstMet (NearestKey alikeChanges) mixedCollections
        ["/db/a".toList, "/db/b".toList, "/".toList] ∧
      (∃ before, InheritsFrom alikeChanges "/db/a/x" before ∧
        InheritsFrom alikeChanges "/db/a/" before) ∧
      ¬ ∃ before, InheritsFrom alikeChanges "/db/a/x" before ∧
        InheritsFrom alikeChanges "/db/b" before := by
  have found : (after alikeChanges).inEffectFor mixedCollections = alikePublications := by
    with_unfolding_all rfl
  obtain ⟨met, _, shared⟩ := publications_shared alikeChanges mixedCollections
  rw [found] at met shared
  have visible : ∀ collection ∈ ["/db/a/x", "/db/a/", "/db/b"],
      collection ∈ mixedCollections ∧ Public collection := by
    simp only [public_iff]
    decide
  have inner := visible "/db/a/x" (by decide)
  have outer := visible "/db/a/" (by decide)
  have other := visible "/db/b" (by decide)
  have entry : EntryOf (after alikeChanges) alikePublications "/db/a/x" 0 :=
    ⟨_, by with_unfolding_all rfl, rfl⟩
  have same : EntryOf (after alikeChanges) alikePublications "/db/a/" 0 :=
    ⟨_, by with_unfolding_all rfl, rfl⟩
  have apart : EntryOf (after alikeChanges) alikePublications "/db/b" 1 :=
    ⟨_, by with_unfolding_all rfl, rfl⟩
  have together := (shared _ inner.1 _ outer.1 inner.2 outer.2).2 _ _ entry same
  have separate := (shared _ inner.1 _ other.1 inner.2 other.2).2 _ _ entry apart
  refine ⟨found, met, together.mp rfl, fun inherited => ?_⟩
  cases separate.mpr inherited

end Sample

end RangeIndex.SharedPublications
