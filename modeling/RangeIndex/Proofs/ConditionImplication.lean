import RangeIndex.Rule.Condition

/-! A predicate that a condition accepts is dropped from the query, on the ground that the elements
stored under the condition meet it. They do when the condition compares texts as they are, for then
it is the predicate. A condition that ignores case says less than the predicate, and implies it only
where the comparison cannot tell texts apart that differ in case. -/
namespace RangeIndex.ConditionImplication
open Condition

/-- The comparison of an attribute with a key as queries make it: of texts, as they are. -/
def comparing (subject : QName) (op : Operator) (key : String) : Condition :=
  { subject, value := key, operator := op }

/-- What compares with the key in lower case compares with it as it is. -/
def CaseBlind (op : Operator) (key : String) : Prop :=
  ∀ actual, op.onText (Text.lowercase actual) (Text.lowercase key) = true → op.onText actual key = true

section Accepting
variable {condition other : Condition} {op : Operator} {key : String}

theorem accepts_iff (textual : condition.numeric = false) :
    condition.accepts op key = true ↔
      op = condition.operator ∧ condition.fold key = condition.fold condition.value := by
  by_cases same : op = condition.operator <;> simp [accepts, same, textual]

/-- The key of an accepted predicate stands for the value of the condition. -/
theorem test_of_accepted (textual : condition.numeric = false)
    (accepted : condition.accepts op key = true) (actual : String) :
    condition.test actual = op.onText (condition.fold actual) (condition.fold key) := by
  obtain ⟨rfl, same⟩ := (accepts_iff textual).mp accepted
  simp [test, textual, same]

theorem test_comparing (subject : QName) (actual : String) :
    (comparing subject op key).test actual = op.onText actual key := rfl

theorem holds_iff {attributes : List AttributeValue} :
    condition.holds attributes = true ↔
      ∃ first, attributes.find? (fun a => a.name.same condition.subject) = some first ∧
        condition.test first.value = true := by
  unfold holds
  cases attributes.find? (fun a => a.name.same condition.subject) <;> simp

theorem holds_alone (actual : String) :
    condition.holds [⟨condition.subject, actual⟩] = condition.test actual := by
  have same : condition.subject.same condition.subject = true := (QName.same_iff _ _).mpr rfl
  simp [holds, same]

/-- Conditions on the same attribute look at the same value of it, which may be any. -/
theorem implied_iff_on_values (sameSubject : other.subject = condition.subject) :
    (∀ attributes, condition.holds attributes = true → other.holds attributes = true) ↔
      ∀ actual, condition.test actual = true → other.test actual = true := by
  constructor
  · intro implied actual met
    have found := implied [⟨condition.subject, actual⟩] ((holds_alone actual).trans met)
    rwa [← sameSubject, holds_alone] at found
  · intro implied attributes met
    obtain ⟨first, found, met⟩ := holds_iff.mp met
    exact holds_iff.mpr ⟨first, sameSubject ▸ found, implied _ met⟩

end Accepting

section Blindness
variable {op : Operator}

theorem unequal_case_blind (key : String) : CaseBlind .ne key := by
  intro actual differ
  simp only [Operator.onText, bne_iff_ne] at differ ⊢
  exact fun same => differ (congrArg Text.lowercase same)

theorem matches_case_blind (key : String) : CaseBlind .matches key := fun _ met => met

/-- Every other comparison notices case with some key. -/
theorem case_noticed (equality : op ≠ .ne) (pattern : op ≠ .matches) : ∃ key, ¬ CaseBlind op key := by
  have noticed (actual key : String)
      (folded : op.onText (Text.lowercase actual) (Text.lowercase key) = true)
      (plain : op.onText actual key = false) : ∃ key, ¬ CaseBlind op key :=
    ⟨key, fun blind => by simp [blind actual folded] at plain⟩
  have lowerA : Text.lowercase "A" = "a" := by decide +kernel
  have lowerB : Text.lowercase "B" = "b" := by decide +kernel
  have small : Text.lowercase "a" = "a" := by decide +kernel
  cases op with
  | eq | startsWith | endsWith | contains =>
    exact noticed "A" "a" (by rw [lowerA, small]; decide) (by decide)
  | gt | ge => exact noticed "B" "a" (by rw [lowerB, small]; decide) (by decide)
  | lt | le => exact noticed "a" "B" (by rw [lowerB, small]; decide) (by decide)
  | ne => exact absurd rfl equality
  | «matches» => exact absurd rfl pattern

theorem case_blind_iff : (∀ key, CaseBlind op key) ↔ op = .ne ∨ op = .matches := by
  constructor
  · intro blind
    by_cases equality : op = .ne
    · exact .inl equality
    by_cases pattern : op = .matches
    · exact .inr pattern
    obtain ⟨key, notices⟩ := case_noticed equality pattern
    exact absurd (blind key) notices
  · rintro (rfl | rfl)
    · exact unequal_case_blind
    · exact matches_case_blind

end Blindness

section Consuming
variable {condition : Condition} {op : Operator} {key : String}

/-- A condition that compares texts as they are is the predicate it accepts. -/
theorem holds_of_case_sensitive (textual : condition.numeric = false)
    (accepted : condition.accepts op key = true) (sensitive : condition.caseSensitive = true)
    (attributes : List AttributeValue) :
    condition.holds attributes = (comparing condition.subject op key).holds attributes := by
  have same : condition.test = (comparing condition.subject op key).test := by
    funext actual
    simp [test_of_accepted textual accepted, test_comparing, fold, sensitive]
  simp only [holds, same]
  rfl

/-- The predicate that a condition consumes is implied by it exactly when the condition compares texts
as they are or the predicate is blind to case. Then the first makes them one and the same; the second
is so with every key for the comparison by unequal and for pattern matching, which no condition
decides, and for no other operator. -/
theorem consumed_implied_iff (textual : condition.numeric = false)
    (accepted : condition.accepts op key = true) :
    ((∀ attributes, condition.holds attributes = true →
        (comparing condition.subject op key).holds attributes = true) ↔
      condition.caseSensitive = true ∨ CaseBlind op key) ∧
    (condition.caseSensitive = true → ∀ attributes,
      condition.holds attributes = (comparing condition.subject op key).holds attributes) ∧
    ((∀ other, CaseBlind op other) ↔ op = .ne ∨ op = .matches) := by
  refine ⟨?_, holds_of_case_sensitive textual accepted, case_blind_iff⟩
  have sameSubject : (comparing condition.subject op key).subject = condition.subject := rfl
  simp only [implied_iff_on_values sameSubject, test_of_accepted textual accepted, test_comparing]
  cases sensitive : condition.caseSensitive with
  | true => simp [fold, sensitive]
  | false => simp [fold, sensitive, CaseBlind]

end Consuming

section Sample

theorem main_in_capitals : Text.lowercase "MAIN" = "main" := by decide +kernel

theorem main_capitalized : Text.lowercase "Main" = "main" := by decide +kernel

/-- The attribute `type` compared with `Main`, ignoring case. -/
def foldedType (op : Operator) : Condition :=
  { subject := .unqualified .attribute "type", value := "Main", operator := op, caseSensitive := false }

/-- A type unequal to `Main` in lower case is unequal to `MAIN`. -/
theorem unequal_type_implied :
    (foldedType .ne).numeric = false ∧ (foldedType .ne).accepts .ne "MAIN" = true ∧
      ∀ attributes, (foldedType .ne).holds attributes = true →
        (comparing (foldedType .ne).subject .ne "MAIN").holds attributes = true := by
  have accepted : (foldedType .ne).accepts .ne "MAIN" = true :=
    (accepts_iff rfl).mpr ⟨rfl, main_in_capitals.trans main_capitalized.symm⟩
  exact ⟨rfl, accepted, (consumed_implied_iff rfl accepted).1.mpr (.inr (unequal_case_blind _))⟩

/-- The type `MAIN` is `Main` in lower case, and so is the key `main`; but the two are not equal. -/
theorem folded_type_not_implied :
    (foldedType .eq).numeric = false ∧ (foldedType .eq).accepts .eq "main" = true ∧
      (foldedType .eq).holds [⟨.unqualified .attribute "type", "MAIN"⟩] = true ∧
      (comparing (foldedType .eq).subject .eq "main").holds
        [⟨.unqualified .attribute "type", "MAIN"⟩] = false := by
  have small : Text.lowercase "main" = "main" := by decide +kernel
  have met : (foldedType .eq).test "MAIN" = true := by
    simp [test, fold, foldedType, Operator.onText, main_in_capitals, main_capitalized]
  exact ⟨rfl, (accepts_iff rfl).mpr ⟨rfl, small.trans main_capitalized.symm⟩,
    (holds_alone "MAIN").trans met, by decide⟩

end Sample

end RangeIndex.ConditionImplication
