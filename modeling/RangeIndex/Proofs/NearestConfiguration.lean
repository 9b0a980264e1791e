import Mathlib.Data.List.TakeWhile
import RangeIndex.Proofs.RegistryHistory

/-! Which configuration is in effect for a collection, said by the history of its registry alone. A
lookup goes from the collection to those above it, each cut off at its last slash and so shorter
than the one before; on its way it meets every key at or above the collection, the longest first. So
it finds what stands under the longest of them, however the collection is spelled. -/
namespace RangeIndex.NearestConfiguration
open Collection RegistryHistory

section Definitions

/-- A key is what is left of a collection without the slashes at its end; of slashes alone one is
left. -/
def Trimmed (collection key : List Char) : Prop :=
  (∀ c ∈ collection, c = '/') ∧ key = ['/'] ∨
    key ≠ [] ∧ key.getLast? ≠ some '/' ∧
      ∃ slashes, collection = key ++ slashes ∧ ∀ c ∈ slashes, c = '/'

/-- A key is a collection's own or that of one above it: the collection goes on after it with a
slash, or the key is the topmost one of all collections that begin with a slash. -/
def AtOrAbove (key collection : List Char) : Prop :=
  key = collection ∨ key ++ ['/'] <+: collection ∨ key = ['/'] ∧ ['/'] <+: collection

/-- What a history leaves under the longest key at or above a collection that it leaves anything
under. -/
def Nearest (changes : List Change) (collection : List Char) (ruleSet : RuleSet) : Prop :=
  ∃ key, AtOrAbove key collection ∧ Standing changes key ruleSet ∧
    ∀ other standing, AtOrAbove other collection → Standing changes other standing →
      other.length ≤ key.length

end Definitions

section Parents
variable {key collection above rest : List Char}

/-- A collection is a last segment below whatever stands before its last slash. -/
theorem last_slash (collection : List Char) :
    '/' ∉ collection ∨
      ∃ above rest, collection = above ++ '/' :: rest ∧ '/' ∉ rest := by
  by_cases slashed : '/' ∈ collection
  · obtain ⟨rest, above, split, clear⟩ :=
      List.eq_append_cons_of_mem (List.mem_reverse.mpr slashed)
    refine .inr ⟨above.reverse, rest.reverse, ?_, by simpa using clear⟩
    simpa using congrArg List.reverse split
  · exact .inl slashed

theorem parent_without_slash (clear : '/' ∉ collection) : parent? collection = none := by
  have nothing : collection.reverse.dropWhile (· != '/') = [] := by
    rw [List.dropWhile_eq_nil_iff]
    intro c member
    have other : c ≠ '/' := fun same => clear (same ▸ List.mem_reverse.mp member)
    simpa using other
  rw [parent?, nothing]

theorem cut_at_last_slash (clear : '/' ∉ rest) :
    (above ++ '/' :: rest).reverse.dropWhile (· != '/') = '/' :: above.reverse := by
  have passes : ∀ c ∈ rest.reverse, (c != '/') = true := by
    intro c member
    have other : c ≠ '/' := fun same => clear (same ▸ List.mem_reverse.mp member)
    simpa using other
  have stops : ∀ c, ('/' :: above.reverse).head? = some c → (c != '/') = false := by
    intro c first
    obtain rfl := Option.some.inj first
    rfl
  rw [List.reverse_append, List.reverse_cons, List.append_assoc]
  exact Text.dropWhile_run passes stops

theorem parent_below (nonempty : above ≠ []) (clear : '/' ∉ rest) :
    parent? (above ++ '/' :: rest) = some above := by
  rw [parent?, cut_at_last_slash clear]
  cases reversed : above.reverse with
  | nil => exact absurd (List.reverse_eq_nil_iff.mp reversed) nonempty
  | cons last others =>
    dsimp only
    rw [← reversed, List.reverse_reverse]

theorem parent_topmost (clear : '/' ∉ rest) :
    parent? ('/' :: rest) = if rest = [] then none else some ['/'] := by
  have cut : ([] ++ '/' :: rest).reverse.dropWhile (· != '/') = '/' :: [].reverse :=
    cut_at_last_slash clear
  rw [List.nil_append] at cut
  rw [parent?, cut]
  cases rest <;> simp

/-- The three kinds of collections: those with none above, those right below the topmost, and those
below another. -/
theorem parent_cases (collection : List Char) :
    (parent? collection = none ∧ ('/' ∉ collection ∨ collection = ['/'])) ∨
      (∃ rest, '/' ∉ rest ∧ collection = '/' :: rest ∧ parent? collection = some ['/']) ∨
      ∃ above rest, above ≠ [] ∧ '/' ∉ rest ∧ collection = above ++ '/' :: rest ∧
        parent? collection = some above := by
  rcases last_slash collection with clear | ⟨above, rest, rfl, clear⟩
  · exact .inl ⟨parent_without_slash clear, .inl clear⟩
  · by_cases nothing : above = []
    · subst nothing
      have above := parent_topmost clear
      by_cases topmost : rest = []
      · subst topmost
        exact .inl ⟨above, .inr rfl⟩
      · rw [if_neg topmost] at above
        exact .inr (.inl ⟨rest, clear, rfl, above⟩)
    · exact .inr (.inr ⟨above, rest, nothing, clear, rfl, parent_below nothing clear⟩)

end Parents

section Lineage
variable {key collection parent : List Char}

/-- Whatever is at or above a collection is so for the collections below it. -/
theorem at_or_above_trans {middle : List Char} (above : AtOrAbove key middle)
    (further : AtOrAbove middle collection) : AtOrAbove key collection := by
  rcases further with rfl | below | ⟨rfl, topmost⟩
  · exact above
  · have inside : middle <+: collection := (List.prefix_append middle ['/']).trans below
    rcases above with rfl | under | ⟨rfl, slashed⟩
    · exact .inr (.inl below)
    · exact .inr (.inl (under.trans inside))
    · exact .inr (.inr ⟨rfl, slashed.trans inside⟩)
  · rcases above with rfl | under | ⟨rfl, _⟩
    · exact .inr (.inr ⟨rfl, topmost⟩)
    · exact .inr (.inl (under.trans topmost))
    · exact .inr (.inr ⟨rfl, topmost⟩)

/-- Nothing but the collection itself is at or above one that has none above. -/
theorem at_or_above_orphan (nonempty : key ≠ []) (orphan : parent? collection = none) :
    AtOrAbove key collection ↔ key = collection := by
  have alone : '/' ∉ collection ∨ collection = ['/'] := by
    rcases parent_cases collection with ⟨_, alone⟩ | ⟨_, _, _, above⟩ | ⟨_, _, _, _, _, above⟩
    · exact alone
    · simp [orphan] at above
    · simp [orphan] at above
  constructor
  · rintro (same | below | ⟨rfl, topmost⟩)
    · exact same
    · rcases alone with clear | rfl
      · exact absurd (below.mem (by simp)) clear
      · have short := below.length_le
        simp [nonempty] at short
    · rcases alone with clear | rfl
      · exact absurd (topmost.mem (by simp)) clear
      · rfl
  · exact .inl

theorem up_to_slash (above rest : List Char) : above ++ ['/'] <+: above ++ '/' :: rest := by
  rw [List.prefix_append_right_inj]
  exact List.prefix_append ['/'] rest

/-- A key that goes on with a slash in a collection ends where its last segment begins, or goes on
so before: there is no slash in the segment. -/
theorem below_last_slash {above rest : List Char} (clear : '/' ∉ rest)
    (below : key ++ ['/'] <+: above ++ '/' :: rest) : key = above ∨ key ++ ['/'] <+: above := by
  rcases List.prefix_or_prefix_of_prefix below (up_to_slash above rest) with shorter | longer
  · rcases List.prefix_concat_iff.mp shorter with same | inside
    · exact .inl (List.append_cancel_right same)
    · exact .inr inside
  · rcases List.prefix_concat_iff.mp longer with same | ⟨more, rfl⟩
    · exact .inl (List.append_cancel_right same).symm
    · have last : more ++ ['/'] <+: rest := by
        simpa [List.append_assoc, List.prefix_append_right_inj] using below
      exact absurd (last.mem (a := '/') (by simp)) clear

/-- What is at or above a collection is the collection, or at or above its parent. -/
theorem at_or_above_parent (nonempty : key ≠ []) (above : parent? collection = some parent) :
    AtOrAbove key collection ↔ key = collection ∨ AtOrAbove key parent := by
  rcases parent_cases collection with
    ⟨orphan, _⟩ | ⟨rest, clear, rfl, up⟩ | ⟨upper, rest, inner, clear, rfl, up⟩
  · simp [orphan] at above
  · obtain rfl := Option.some.inj (up.symm.trans above)
    have orphan : parent? ['/'] = none := parent_topmost List.not_mem_nil
    have topmost := at_or_above_orphan nonempty orphan
    rw [topmost]
    constructor
    · rintro (same | below | ⟨topmost, _⟩)
      · exact .inl same
      · have upper : key = [] ∨ key ++ ['/'] <+: [] := below_last_slash clear below
        rcases upper with none | none
        · exact absurd none nonempty
        · simp at none
      · exact .inr topmost
    · rintro (same | rfl)
      · exact .inl same
      · exact .inr (.inr ⟨rfl, by simp⟩)
  · obtain rfl := Option.some.inj (up.symm.trans above)
    have inside : upper <+: upper ++ '/' :: rest := List.prefix_append _ _
    constructor
    · rintro (same | below | ⟨rfl, topmost⟩)
      · exact .inl same
      · rcases below_last_slash clear below with same | further
        · exact .inr (.inl same)
        · exact .inr (.inr (.inl further))
      · cases upper with
        | nil => exact absurd rfl inner
        | cons c others =>
          rw [List.cons_append, List.cons_prefix_cons] at topmost
          exact .inr (.inr (.inr ⟨rfl, List.cons_prefix_cons.mpr ⟨topmost.1, List.nil_prefix⟩⟩))
    · rintro (same | rfl | further | ⟨rfl, topmost⟩)
      · exact .inl same
      · exact .inr (.inl (up_to_slash key rest))
      · exact .inr (.inl (further.trans inside))
      · exact .inr (.inr ⟨rfl, topmost.trans inside⟩)

/-- A lookup meets the keys at or above a collection and nothing else. -/
theorem mem_lineage_iff (nonempty : key ≠ []) (collection : List Char) :
    key ∈ lineage collection ↔ AtOrAbove key collection := by
  fun_induction lineage collection with
  | case1 collection orphan =>
    rw [at_or_above_orphan nonempty orphan, List.mem_singleton]
  | case2 collection parent above _ ih =>
    rw [at_or_above_parent nonempty above, List.mem_cons, ih]

theorem lineage_bound (collection : List Char) :
    ∀ other ∈ lineage collection, other.length ≤ collection.length := by
  fun_induction lineage collection with
  | case1 collection orphan => simp
  | case2 collection parent above shorter ih =>
    intro other member
    rcases List.mem_cons.mp member with rfl | further
    · exact Nat.le_refl _
    · exact Nat.le_trans (ih other further) (Nat.le_of_lt shorter)

/-- Each collection on the way is shorter than those met before. -/
theorem lineage_shortens (collection : List Char) :
    (lineage collection).Pairwise fun nearer further => further.length < nearer.length := by
  fun_induction lineage collection with
  | case1 collection orphan => simp
  | case2 collection parent above shorter ih =>
    refine List.pairwise_cons.mpr ⟨?_, ih⟩
    intro further member
    exact Nat.lt_of_le_of_lt (lineage_bound parent further member) shorter

theorem parent_nonempty (above : parent? collection = some parent) : parent ≠ [] := by
  rcases parent_cases collection with
    ⟨orphan, _⟩ | ⟨_, _, _, up⟩ | ⟨upper, _, inner, _, _, up⟩
  · simp [orphan] at above
  · obtain rfl := Option.some.inj (up.symm.trans above)
    simp
  · obtain rfl := Option.some.inj (up.symm.trans above)
    exact inner

/-- A lookup ends after no more steps than the collection has characters. -/
theorem lineage_ends (nonempty : collection ≠ []) :
    (lineage collection).length ≤ collection.length := by
  fun_induction lineage collection with
  | case1 collection orphan => exact List.length_pos_iff.mpr nonempty
  | case2 collection parent above shorter ih =>
    exact Nat.le_trans (Nat.succ_le_succ (ih (parent_nonempty above))) shorter

end Lineage

section Lookup

/-- Collections are registered and looked up without the slashes at their ends. -/
theorem key_trimmed (collection : String) : Trimmed collection.toList (keyOf collection) := by
  let slashes := collection.toList.reverse.takeWhile (· == '/')
  let trimmed := collection.toList.reverse.dropWhile (· == '/')
  have split : collection.toList = trimmed.reverse ++ slashes.reverse := by
    rw [← List.reverse_append, List.takeWhile_append_dropWhile, List.reverse_reverse]
  have cut : ∀ c ∈ slashes.reverse, c = '/' := by
    intro c member
    simpa using List.mem_takeWhile_imp (List.mem_reverse.mp member)
  have own : keyOf collection = Collection.normalize collection.toList := rfl
  cases rest : trimmed.reverse with
  | nil =>
    refine .inl ⟨?_, ?_⟩
    · rw [split, rest]
      exact cut
    · rw [own, Collection.normalize, rest]
  | cons first others =>
    have same : keyOf collection = trimmed.reverse := by
      rw [own, Collection.normalize, rest]
    refine .inr ⟨?_, ?_, slashes.reverse, ?_, cut⟩
    · simp [same, rest]
    · rw [same, List.getLast?_reverse]
      intro slash
      have stops := List.head?_dropWhile_not (· == '/') collection.toList.reverse
      simp [trimmed, slash] at stops
    · rw [same, split]

theorem key_nonempty (collection : String) : keyOf collection ≠ [] := by
  rcases key_trimmed collection with ⟨_, topmost⟩ | ⟨nonempty, _⟩
  · simp [topmost]
  · exact nonempty

/-- On a way that gets shorter, the first that something is found for is the longest. -/
theorem first_is_longest {way : List (List Char)}
    (shortens : way.Pairwise fun nearer further => further.length < nearer.length)
    {held : List Char → Option Publication} {publication : Publication} :
    way.findSome? held = some publication ↔
      ∃ key ∈ way, held key = some publication ∧
        ∀ other ∈ way, held other ≠ none → other.length ≤ key.length := by
  induction way with
  | nil => simp
  | cons first rest ih =>
    obtain ⟨shorter, later⟩ := List.pairwise_cons.mp shortens
    rw [List.findSome?_cons]
    cases here : held first with
    | none =>
      dsimp only
      rw [ih later]
      constructor
      · rintro ⟨key, member, found, longest⟩
        refine ⟨key, List.mem_cons_of_mem _ member, found, List.forall_mem_cons.mpr ⟨?_, longest⟩⟩
        exact fun something => absurd here something
      · rintro ⟨key, member, found, longest⟩
        refine ⟨key, ?_, found, (List.forall_mem_cons.mp longest).2⟩
        rcases List.mem_cons.mp member with rfl | further
        · simp [here] at found
        · exact further
    | some other =>
      dsimp only
      constructor
      · intro same
        refine ⟨first, List.mem_cons_self, here.trans same, List.forall_mem_cons.mpr ⟨?_, ?_⟩⟩
        · exact fun _ => Nat.le_refl _
        · exact fun further member _ => Nat.le_of_lt (shorter further member)
      · rintro ⟨key, member, found, longest⟩
        rcases List.mem_cons.mp member with rfl | further
        · exact here.symm.trans found
        · have longer := longest first List.mem_cons_self (by simp [here])
          exact absurd (shorter key further) (Nat.not_lt.mpr longer)

variable {changes : List Change} {collection : String}

theorem standing_key_nonempty {key : List Char} {ruleSet : RuleSet}
    (standing : Standing changes key ruleSet) : key ≠ [] := by
  obtain ⟨_, _, _, rfl, _⟩ := standing
  exact key_nonempty ruleSet.collection

theorem standing_of_held {key : List Char} {publication : Publication}
    (held : (after changes).get? key = some publication) :
    Standing changes key publication.ruleSet :=
  (held_iff_standing changes key publication.ruleSet).mp (by rw [held, Option.map_some])

theorem held_of_standing {key : List Char} {ruleSet : RuleSet}
    (standing : Standing changes key ruleSet) :
    ∃ publication, (after changes).get? key = some publication ∧ publication.ruleSet = ruleSet :=
  Option.map_eq_some_iff.mp ((held_iff_standing changes key ruleSet).mpr standing)

/-- A key that the lookup of a collection meets has something under it after a history exactly when
the history leaves something there. -/
theorem met_iff_standing {key : List Char} :
    key ∈ lineage (keyOf collection) ∧ (after changes).get? key ≠ none ↔
      AtOrAbove key (keyOf collection) ∧ ∃ ruleSet, Standing changes key ruleSet := by
  constructor
  · rintro ⟨met, something⟩
    obtain ⟨publication, held⟩ := Option.ne_none_iff_exists'.mp something
    have standing := standing_of_held held
    exact ⟨(mem_lineage_iff (standing_key_nonempty standing) _).mp met, _, standing⟩
  · rintro ⟨above, ruleSet, standing⟩
    obtain ⟨publication, held, _⟩ := held_of_standing standing
    exact ⟨(mem_lineage_iff (standing_key_nonempty standing) _).mpr above, by simp [held]⟩

/-- What is in effect is held under the longest key at or above the collection that a history leaves
anything under. -/
theorem in_effect_iff_longest {publication : Publication} :
    (after changes).inEffect? collection = some publication ↔
      ∃ key, AtOrAbove key (keyOf collection) ∧ (after changes).get? key = some publication ∧
        ∀ other standing, AtOrAbove other (keyOf collection) → Standing changes other standing →
          other.length ≤ key.length := by
  have first := @first_is_longest _ (lineage_shortens (keyOf collection)) (after changes).get?
  refine first.trans ?_
  constructor
  · rintro ⟨key, met, held, longest⟩
    have something : (after changes).get? key ≠ none := by simp [held]
    refine ⟨key, (met_iff_standing.mp ⟨met, something⟩).1, held, ?_⟩
    intro other ruleSet above standing
    obtain ⟨metToo, something⟩ := met_iff_standing.mpr ⟨above, ruleSet, standing⟩
    exact longest other metToo something
  · rintro ⟨key, above, held, longest⟩
    have met := (met_iff_standing.mpr ⟨above, _, standing_of_held held⟩).1
    refine ⟨key, met, held, ?_⟩
    intro other metToo something
    obtain ⟨aboveToo, ruleSet, standing⟩ := met_iff_standing.mp ⟨metToo, something⟩
    exact longest other ruleSet aboveToo standing

theorem in_effect_iff_nearest (ruleSet : RuleSet) :
    ((after changes).inEffect? collection).map (·.ruleSet) = some ruleSet ↔
      Nearest changes (keyOf collection) ruleSet := by
  rw [Option.map_eq_some_iff]
  constructor
  · rintro ⟨publication, inEffect, rfl⟩
    obtain ⟨key, above, held, longest⟩ := in_effect_iff_longest.mp inEffect
    exact ⟨key, above, standing_of_held held, longest⟩
  · rintro ⟨key, above, standing, longest⟩
    obtain ⟨publication, held, same⟩ := held_of_standing standing
    exact ⟨publication, in_effect_iff_longest.mpr ⟨key, above, held, longest⟩, same⟩

theorem none_in_effect_iff :
    (after changes).inEffect? collection = none ↔
      ∀ key ruleSet, AtOrAbove key (keyOf collection) → ¬ Standing changes key ruleSet := by
  rw [Registry.inEffect?, List.findSome?_eq_none_iff]
  constructor
  · intro nothing key ruleSet above standing
    obtain ⟨met, something⟩ := met_iff_standing.mpr ⟨above, ruleSet, standing⟩
    exact something (nothing key met)
  · intro nothing key met
    by_contra something
    obtain ⟨above, ruleSet, standing⟩ := met_iff_standing.mp ⟨met, something⟩
    exact nothing key ruleSet above standing

end Lookup

/-- After any history the configuration in effect for a collection is what stands under the longest
key at or above it, and there is none exactly when nothing stands under such a key. The lookup ends
after no more steps than the trimmed collection has characters. -/
theorem nearest_configuration_in_effect (changes : List Change) (collection : String) :
    (∀ ruleSet, ((after changes).inEffect? collection).map (·.ruleSet) = some ruleSet ↔
      Nearest changes (keyOf collection) ruleSet) ∧
    ((after changes).inEffect? collection = none ↔
      ∀ key ruleSet, AtOrAbove key (keyOf collection) → ¬ Standing changes key ruleSet) ∧
    (∀ written : String, Trimmed written.toList (keyOf written)) ∧
    (lineage (keyOf collection)).length ≤ (keyOf collection).length :=
  ⟨in_effect_iff_nearest, none_in_effect_iff, key_trimmed, lineage_ends (key_nonempty collection)⟩

/-- Each is registered without the slash at its end, and the second is withdrawn under another spelling. -/
example :
    let changes : List Change :=
      [.publish ⟨"/db/", []⟩, .publish ⟨"/db/apps/", []⟩, .remove "/db/apps//"]
    ((after changes).inEffect? "/db/apps/demo/").map (·.ruleSet.collection) = some "/db/" ∧
      (after changes).inEffect? "/dbs" = none := by
  with_unfolding_all exact ⟨rfl, rfl⟩

end RangeIndex.NearestConfiguration
