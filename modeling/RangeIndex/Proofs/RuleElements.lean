import Mathlib.Data.List.Forall2
import RangeIndex.Configuration.Reading

/-! What a `create` element says when it stands for a rule. Its own attributes give the path and the
options, its children the conditions and the fields, each on its own; nothing else has a part in it.
The reader finds a rule exactly where there is one to find. -/
namespace RangeIndex.RuleElements
open RangeIndex.Configuration Text

section Definitions

/-- The words for yes and for no. -/
def yesOrNo? (word : String) : Option Bool :=
  if word = "yes" ∨ word = "true" then some true
  else if word = "no" ∨ word = "false" then some false
  else none

/-- An element gives a setting a value by its name, or leaves it as it is. -/
def Sets {α : Type} (element : Element) (setting : String) (ofName? : String → Option α)
    (default value : α) : Prop :=
  match element.get? setting with
  | none => value = default
  | some word => ofName? (trimmed word) = some value

/-- Text options, each as an element sets it or as it is inherited. -/
structure SetsOptions (element : Element) (inherited options : TextOptions) : Prop where
  whiteSpace : Sets element "whitespace" WhiteSpace.ofName? inherited.whiteSpace options.whiteSpace
  type : Sets element "type" ValueType.ofName? inherited.type options.type
  caseSensitive : Sets element "case" yesOrNo? inherited.caseSensitive options.caseSensitive
  nested : Sets element "nested" yesOrNo? inherited.nested options.nested

/-- The path of a rule: a name that may be anywhere, or a path from the document, or one that may
start anywhere. -/
inductive GivesPath (element : Element) (path : Pattern) : Prop where
  | named {name : String} (given : element.get? "qname" = some name)
      (alone : element.get? "match" = none)
      (read : Pattern.read element.bindings false ("//" ++ trimmed name) = .ok path)
  | absolute {written : String} (given : element.get? "match" = some written)
      (alone : element.get? "qname" = none) (slash : (trimmed written).toList.head? = some '/')
      (read : Pattern.read element.bindings false (trimmed written) = .ok path)
  | anywhere {written : String} (given : element.get? "match" = some written)
      (alone : element.get? "qname" = none) (noSlash : (trimmed written).toList.head? ≠ some '/')
      (read : Pattern.read element.bindings false ("//" ++ trimmed written) = .ok path)

/-- A name without the mark of attributes in front. -/
def unmarked (written : String) : String :=
  match written.toList with
  | '@' :: name => String.ofList name
  | _ => written

/-- A condition as a `condition` element states it. -/
structure StatesCondition (element : Element) (condition : Condition) : Prop where
  subject : ∃ written, element.get? "attribute" = some written ∧ trimmed written ≠ "" ∧
    element.bindings.qualify .attribute (unmarked (trimmed written)) = some condition.subject
  value : element.get? "value" = some condition.value
  operator : Sets element "operator" Operator.ofName? .eq condition.operator
  decidable : condition.operator ≠ .matches
  caseSensitive : Sets element "case" yesOrNo? true condition.caseSensitive
  numeric : Sets element "numeric" yesOrNo? false condition.numeric

/-- A field as a `field` element states it, in a rule with the given path and options. -/
structure StatesField (path : Pattern) (options : TextOptions) (element : Element)
    (field : FieldRule) : Prop where
  name : ∃ written, element.get? "name" = some written ∧ field.name = trimmed written
  named : field.name ≠ ""
  path : match element.get? "match" with
    | none => field.path = path
    | some written => ∃ below, Pattern.read element.bindings false written = .ok below ∧
        field.path = path.joined below
  options : SetsOptions element options field.options

/-- A rule as a `create` element states it. -/
structure StatesRule (create : Element) (rule : Rule) : Prop where
  path : GivesPath create rule.path
  options : SetsOptions create {} rule.options
  conditions : List.Forall₂ StatesCondition (create.childrenTagged "condition") rule.conditions
  fields : List.Forall₂ (StatesField rule.path rule.options) (create.childrenTagged "field")
    rule.fields
  complex : rule.conditions ≠ [] → rule.fields ≠ []

end Definitions

section Results
variable {ε α β : Type}

theorem bind_ok_iff {x : Except ε α} {f : α → Except ε β} {b : β} :
    (x >>= f) = .ok b ↔ ∃ a, x = .ok a ∧ f a = .ok b := by
  cases x <;> simp [bind, Except.bind]

theorem pure_ok_iff {a b : α} : (pure a : Except ε α) = .ok b ↔ a = b := by
  simp [pure, Except.pure]

theorem applied_ok_iff {f : α → β} {x : Except ε α} {b : β} :
    (f <$> x) = .ok b ↔ ∃ a, x = .ok a ∧ f a = b := by
  cases x <;> simp [Functor.map, Except.map]

/-- A list is read when each of its items is. -/
theorem map_ok_iff {f : α → Except ε β} {items : List α} {results : List β} :
    items.mapM f = .ok results ↔
      List.Forall₂ (fun item result => f item = .ok result) items results := by
  induction items generalizing results with
  | nil => simp [pure, Except.pure, eq_comm]
  | cons item rest ih =>
    rw [List.mapM_cons, List.forall₂_cons_left_iff]
    simp only [bind_ok_iff, pure_ok_iff, ih]
    constructor
    · rintro ⟨first, read, others, readOthers, rfl⟩
      exact ⟨first, others, read, readOthers, rfl⟩
    · rintro ⟨first, others, read, readOthers, rfl⟩
      exact ⟨first, read, others, readOthers, rfl⟩

end Results

section Settings
variable {element : Element} {setting : String}

theorem flag_iff {default value : Bool} :
    readFlag element setting default = .ok value ↔ Sets element setting yesOrNo? default value := by
  unfold readFlag Sets yesOrNo?
  cases element.get? setting with
  | none => simp [eq_comm]
  | some word =>
    simp only [Option.map_some]
    split
    · simp
    · split <;> simp

theorem named_iff {α : Type} {ofName? : String → Option α} {unknown : String → Fault}
    {default value : α} :
    readNamed element setting ofName? unknown default = .ok value ↔
      Sets element setting ofName? default value := by
  unfold readNamed Sets
  cases element.get? setting with
  | none => simp [eq_comm]
  | some word => cases found : ofName? (trimmed word) <;> simp [found]

theorem options_iff {inherited options : TextOptions} :
    readOptions element inherited = .ok options ↔ SetsOptions element inherited options := by
  simp only [readOptions, bind_ok_iff, pure_ok_iff, flag_iff, named_iff]
  constructor
  · rintro ⟨_, whiteSpace, _, type, _, caseSensitive, _, nested, rfl⟩
    exact ⟨whiteSpace, type, caseSensitive, nested⟩
  · rintro ⟨whiteSpace, type, caseSensitive, nested⟩
    exact ⟨_, whiteSpace, _, type, _, caseSensitive, _, nested, rfl⟩

end Settings

section Parts
variable {element : Element}

theorem path_ok_iff {bindings : Bindings} {written : String} {path : Pattern} :
    readPath bindings written = .ok path ↔ Pattern.read bindings false written = .ok path := by
  unfold readPath
  cases Pattern.read bindings false written <;> simp

theorem rule_path_iff {path : Pattern} :
    readRulePath element = .ok path ↔ GivesPath element path := by
  unfold readRulePath
  constructor
  · intro read
    split at read
    · rename_i given alone
      exact .named given alone (path_ok_iff.mp read)
    · rename_i alone given
      dsimp only at read
      split at read
      · rename_i slash
        exact .absolute given alone slash (path_ok_iff.mp read)
      · rename_i noSlash
        exact .anywhere given alone noSlash (path_ok_iff.mp read)
    · cases read
    · cases read
  · intro gives
    cases gives with
    | named given alone read => simp only [given, alone, path_ok_iff, read]
    | absolute given alone slash read => simp only [given, alone, slash, if_true, path_ok_iff, read]
    | anywhere given alone noSlash read =>
      simp only [given, alone, noSlash, if_false, path_ok_iff, read]

theorem condition_name_iff {name : String} :
    readConditionName element = .ok name ↔ ∃ written, element.get? "attribute" = some written ∧
      trimmed written ≠ "" ∧ unmarked (trimmed written) = name := by
  unfold readConditionName
  cases element.get? "attribute" with
  | none => simp
  | some written =>
    by_cases empty : trimmed written = ""
    · simp [empty, Option.filter]
    · have kept : (some (trimmed written)).filter (· != "") = some (trimmed written) := by
        simp [empty]
      simp only [Option.map_some, kept, Option.some.injEq, exists_eq_left', ne_eq, empty,
        not_false_eq_true, true_and]
      unfold unmarked
      split <;> simp [*]

theorem condition_operator_iff {op : Operator} :
    readConditionOperator element = .ok op ↔
      Sets element "operator" Operator.ofName? .eq op ∧ op ≠ .matches := by
  rw [readConditionOperator, named_iff, Sets, Sets]
  cases element.get? "operator" with
  | none =>
    constructor
    · rintro rfl
      exact ⟨rfl, by decide⟩
    · exact And.left
  | some word => simp [Option.filter_eq_some_iff]

theorem condition_iff {condition : Condition} :
    readCondition element = .ok condition ↔ StatesCondition element condition := by
  simp only [readCondition, bind_ok_iff, condition_name_iff]
  constructor
  · rintro ⟨name, ⟨written, given, nonempty, rfl⟩, read⟩
    split at read
    · rename_i subject bound
      split at read
      · rename_i value valued
        simp only [bind_ok_iff, condition_operator_iff, flag_iff, pure_ok_iff] at read
        obtain ⟨op, ⟨operator, decidable⟩, _, caseSensitive, _, numeric, rfl⟩ := read
        exact ⟨⟨written, given, nonempty, bound⟩, valued, operator, decidable, caseSensitive, numeric⟩
      · cases read
    · cases read
  · intro states
    obtain ⟨written, given, nonempty, bound⟩ := states.subject
    refine ⟨_, ⟨written, given, nonempty, rfl⟩, ?_⟩
    simp only [bound, states.value, bind_ok_iff, condition_operator_iff, flag_iff, pure_ok_iff]
    exact ⟨_, ⟨states.operator, states.decidable⟩, _, states.caseSensitive, _, states.numeric, rfl⟩

/-- A text that is not to be empty, as it is without the blanks around it. -/
theorem given_iff {setting value : String} :
    ((element.get? setting).map trimmed).filter (· != "") = some value ↔
      ∃ written, element.get? setting = some written ∧ trimmed written = value ∧ value ≠ "" := by
  simp only [Option.filter_eq_some_iff, Option.map_eq_some_iff, bne_iff_ne]
  rw [← exists_and_right]
  simp only [and_assoc]

theorem with_field_eq (rule : Rule) (name : String) (below : Option Pattern)
    (options : TextOptions) :
    rule.withField name below options =
      { rule with
        fields := rule.fields ++ [⟨name, below.elim rule.path rule.path.joined, options⟩] } := by
  cases below <;> rfl

theorem field_path_iff {path located : Pattern} :
    (∃ below, (element.get? "match").mapM (readPath element.bindings) = .ok below ∧
        located = below.elim path path.joined) ↔
      match element.get? "match" with
      | none => located = path
      | some written => ∃ below, Pattern.read element.bindings false written = .ok below ∧
          located = path.joined below := by
  cases element.get? "match" with
  | none => simp [pure, Except.pure]
  | some written => simp [Option.mapM_some, applied_ok_iff, path_ok_iff]

/-- A field is added behind those there are. -/
theorem add_field_iff {path : Pattern} {conditions : List Condition} {fields : List FieldRule}
    {options : TextOptions} {rule : Rule} :
    addField ⟨path, conditions, fields, options⟩ element = .ok rule ↔
      ∃ field, StatesField path options element field ∧
        rule = ⟨path, conditions, fields ++ [field], options⟩ := by
  simp only [addField]
  constructor
  · intro read
    split at read
    · rename_i name found
      simp only [bind_ok_iff, options_iff, pure_ok_iff, with_field_eq] at read
      obtain ⟨below, readBelow, own, set, rfl⟩ := read
      obtain ⟨written, given, named, nonempty⟩ := given_iff.mp found
      have located := field_path_iff.mp ⟨below, readBelow, Eq.refl (below.elim path path.joined)⟩
      exact ⟨_, ⟨⟨written, given, named.symm⟩, nonempty, located, set⟩, rfl⟩
    · cases read
  · rintro ⟨field, states, rfl⟩
    obtain ⟨written, given, named⟩ := states.name
    have found := given_iff.mpr ⟨written, given, named.symm, states.named⟩
    obtain ⟨below, read, located⟩ := field_path_iff.mpr states.path
    simp only [found, bind_ok_iff, options_iff, pure_ok_iff, with_field_eq]
    exact ⟨below, read, _, states.options, by rw [← located]⟩

/-- The fields of a rule are those its elements state, in order. -/
theorem fields_iff {elements : List Element} {path : Pattern} {conditions : List Condition}
    {fields : List FieldRule} {options : TextOptions} {rule : Rule} :
    elements.foldlM addField ⟨path, conditions, fields, options⟩ = .ok rule ↔
      ∃ added, List.Forall₂ (StatesField path options) elements added ∧
        rule = ⟨path, conditions, fields ++ added, options⟩ := by
  induction elements generalizing fields with
  | nil =>
    rw [List.foldlM_nil, pure_ok_iff]
    simp [eq_comm]
  | cons element rest ih =>
    rw [List.foldlM_cons]
    simp only [bind_ok_iff, add_field_iff]
    constructor
    · rintro ⟨_, ⟨field, states, rfl⟩, later⟩
      obtain ⟨added, others, rfl⟩ := ih.mp later
      exact ⟨field :: added, .cons states others, by simp⟩
    · rintro ⟨added, all, rfl⟩
      cases all with
      | @cons _ field _ added states others =>
        exact ⟨_, ⟨field, states, rfl⟩, ih.mpr ⟨added, others, by simp⟩⟩

end Parts

/-- A rule is read from a `create` element just when the element states it. -/
theorem rule_iff {create : Element} {rule : Rule} :
    readRule create = .ok rule ↔ StatesRule create rule := by
  simp only [readRule, bind_ok_iff, rule_path_iff, options_iff, map_ok_iff, condition_iff,
    fields_iff]
  constructor
  · rintro ⟨path, gives, options, set, conditions, stated, _, ⟨fields, fieldsStated, rfl⟩, read⟩
    split at read
    · cases read
    · rename_i guarded
      obtain rfl := pure_ok_iff.mp read
      refine ⟨gives, set, stated, fieldsStated, ?_⟩
      intro conditional
      simpa [Rule.isComplex, conditional] using guarded
  · intro states
    refine ⟨_, states.path, _, states.options, _, states.conditions, rule,
      ⟨_, states.fields, rfl⟩, ?_⟩
    split
    · rename_i guarded
      simp only [Rule.isComplex, Bool.and_eq_true, Bool.not_eq_true', Bool.not_eq_false',
        List.isEmpty_iff, List.isEmpty_eq_false_iff] at guarded
      exact absurd guarded.2 (states.complex guarded.1)
    · rfl

end RangeIndex.RuleElements
