import Mathlib.Data.List.Induction
import RangeIndex.Collection.Registry

/-! What a registry holds after any history of publishing and withdrawing. The history alone says
what stands under a key: the rule set last published there, unless the key was withdrawn after it.
Every publication has a stamp of its own, so no two of them in one registry are taken for one. -/
namespace RangeIndex.RegistryHistory

section Definitions

/-- One change of a registry. -/
inductive Change where
  | publish (ruleSet : RuleSet)
  | remove (collection : String)

/-- The key that a collection is registered under. -/
def keyOf (collection : String) : List Char := Collection.normalize collection.toList

/-- The key whose publication a change replaces or withdraws. -/
def Change.key : Change → List Char
  | .publish ruleSet => keyOf ruleSet.collection
  | .remove collection => keyOf collection

/-- A registry after one more change. -/
def Change.apply (registry : Registry) : Change → Registry
  | .publish ruleSet => registry.publish ruleSet
  | .remove collection => (registry.remove collection).2

/-- The registry after a history of changes. -/
def after (changes : List Change) : Registry := changes.foldl Change.apply .empty

/-- A history leaves a rule set under a key: it was published there, and nothing was published or
withdrawn there since. -/
def Standing (changes : List Change) (key : List Char) (ruleSet : RuleSet) : Prop :=
  ∃ before later, changes = before ++ .publish ruleSet :: later ∧
    keyOf ruleSet.collection = key ∧ ∀ change ∈ later, change.key ≠ key

/-- Publications under different keys have different stamps, all of them used up. -/
structure Stamped (registry : Registry) : Prop where
  used : ∀ key publication, registry.get? key = some publication →
    publication.stamp < registry.nextStamp
  apart : ∀ first second one other, registry.get? first = some one →
    registry.get? second = some other → one.stamp = other.stamp → first = second

end Definitions

section Changes
variable {registry : Registry} {key : List Char}

theorem get_erase_of_ne {other : List Char} (differs : key ≠ other) :
    (registry.erase other).get? key = registry.get? key := by
  obtain ⟨entries, _⟩ := registry
  simp only [Registry.erase, Registry.get?]
  induction entries with
  | nil => rfl
  | cons entry rest ih =>
    obtain ⟨own, publication⟩ := entry
    by_cases erased : own = other
    · have passed : (key == other) = false := beq_eq_false_iff_ne.mpr differs
      simpa [erased, List.lookup_cons, passed] using ih
    · simp [erased, List.lookup_cons, ih]

/-- A change leaves every key alone but its own. -/
theorem get_apply_of_ne {change : Change} (differs : change.key ≠ key) :
    (change.apply registry).get? key = registry.get? key := by
  cases change with
  | publish ruleSet =>
    have passed : (key == keyOf ruleSet.collection) = false := beq_eq_false_iff_ne.mpr differs.symm
    have behind : (Change.apply registry (.publish ruleSet)).get? key =
        (registry.erase (keyOf ruleSet.collection)).get? key := by
      change List.lookup key ((keyOf ruleSet.collection, _) :: _) = _
      rw [List.lookup_cons, passed]
      rfl
    rw [behind]
    exact get_erase_of_ne differs.symm
  | remove collection => exact get_erase_of_ne differs.symm

theorem get_publish (ruleSet : RuleSet) :
    (Change.apply registry (.publish ruleSet)).get? (keyOf ruleSet.collection) =
      some ⟨registry.nextStamp, ruleSet⟩ :=
  registry.get?_publish_self ruleSet

theorem get_remove (collection : String) :
    (Change.apply registry (.remove collection)).get? (keyOf collection) = none :=
  registry.get?_erase_self (keyOf collection)

theorem after_concat (changes : List Change) (change : Change) :
    after (changes ++ [change]) = change.apply (after changes) := by
  simp [after]

end Changes

section Standing
variable {changes : List Change} {change : Change} {key : List Char} {ruleSet : RuleSet}

theorem standing_concat_of_ne (differs : change.key ≠ key) :
    Standing (changes ++ [change]) key ruleSet ↔ Standing changes key ruleSet := by
  constructor
  · rintro ⟨before, later, same, own, untouched⟩
    rcases List.eq_nil_or_concat later with rfl | ⟨earlier, last, rfl⟩
    · obtain ⟨_, rfl⟩ := List.concat_inj.mp (by simpa using same)
      exact absurd own differs
    · rw [List.concat_eq_append, ← List.cons_append, ← List.append_assoc] at same
      obtain ⟨rfl, _⟩ := List.append_inj' same rfl
      exact ⟨before, earlier, rfl, own, fun change member => untouched change (by simp [member])⟩
  · rintro ⟨before, later, rfl, own, untouched⟩
    refine ⟨before, later ++ [change], by simp, own, ?_⟩
    intro other member
    rcases List.mem_append.mp member with earlier | last
    · exact untouched other earlier
    · rw [List.mem_singleton.mp last]
      exact differs

theorem standing_concat_self (own : change.key = key) :
    Standing (changes ++ [change]) key ruleSet ↔ change = .publish ruleSet := by
  constructor
  · rintro ⟨before, later, same, _, untouched⟩
    rcases List.eq_nil_or_concat later with rfl | ⟨earlier, last, rfl⟩
    · exact (List.append_inj' same rfl).2 |> List.singleton_inj.mp
    · rw [List.concat_eq_append, ← List.cons_append, ← List.append_assoc] at same
      obtain rfl := List.singleton_inj.mp (List.append_inj' same rfl).2
      exact absurd own (untouched change (by simp))
  · rintro rfl
    exact ⟨changes, [], rfl, own, by simp⟩

/-- After any history a key holds the rule set that the history leaves there, and no other. -/
theorem held_iff_standing (changes : List Change) (key : List Char) (ruleSet : RuleSet) :
    ((after changes).get? key).map (·.ruleSet) = some ruleSet ↔ Standing changes key ruleSet := by
  induction changes using List.reverseRecOn with
  | nil => simp [after, Registry.empty, Registry.get?, Standing]
  | append_singleton changes change ih =>
    rw [after_concat]
    by_cases own : change.key = key
    · rw [standing_concat_self own]
      subst own
      cases change with
      | publish published => simp [Change.key, get_publish]
      | remove collection => simp [Change.key, get_remove]
    · rw [get_apply_of_ne own, standing_concat_of_ne own]
      exact ih

end Standing

section Stamps
variable {registry : Registry}

/-- What a key holds after a change it held before, or it is published with a new stamp. -/
theorem get_apply_cases {change : Change} {key : List Char} {publication : Publication}
    (held : (change.apply registry).get? key = some publication) :
    registry.get? key = some publication ∨
      change.key = key ∧ publication.stamp = registry.nextStamp ∧
        registry.nextStamp < (change.apply registry).nextStamp := by
  by_cases own : change.key = key
  · subst own
    cases change with
    | publish ruleSet =>
      obtain rfl := Option.some.inj ((get_publish ruleSet).symm.trans held)
      exact .inr ⟨rfl, rfl, Nat.lt_succ_self _⟩
    | remove collection =>
      rw [Change.key, get_remove] at held
      cases held
  · rw [get_apply_of_ne own] at held
    exact .inl held

theorem stamp_le_apply (registry : Registry) (change : Change) :
    registry.nextStamp ≤ (change.apply registry).nextStamp := by
  cases change with
  | publish ruleSet => exact Nat.le_succ _
  | remove collection => exact Nat.le_refl _

theorem apply_stamped (stamped : Stamped registry) (change : Change) :
    Stamped (change.apply registry) := by
  constructor
  case used =>
    intro key publication held
    rcases get_apply_cases held with before | ⟨_, stamp, fresh⟩
    · exact Nat.lt_of_lt_of_le (stamped.used key publication before) (stamp_le_apply registry change)
    · rw [stamp]
      exact fresh
  case apart =>
    intro first second one other held heldToo same
    rcases get_apply_cases held with before | ⟨own, stamp, _⟩ <;>
      rcases get_apply_cases heldToo with earlier | ⟨ownToo, stampToo, _⟩
    · exact stamped.apart first second one other before earlier same
    · have used := stamped.used first one before
      omega
    · have used := stamped.used second other earlier
      omega
    · exact own.symm.trans ownToo

theorem after_stamped (changes : List Change) : Stamped (after changes) := by
  induction changes using List.reverseRecOn with
  | nil => constructor <;> simp [after, Registry.empty, Registry.get?]
  | append_singleton changes change ih =>
    rw [after_concat]
    exact apply_stamped ih change

end Stamps

end RangeIndex.RegistryHistory
