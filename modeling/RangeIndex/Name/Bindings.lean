import RangeIndex.Name.Basic

/-! The bindings of labels to namespaces that hold throughout one configuration element or one
query. The latest binding of a label counts, the initial one of `xml` included. -/
namespace RangeIndex

/-- Bindings of labels to namespaces, the latest first. -/
structure Bindings where
  entries : List (String × String)
deriving DecidableEq, Repr

namespace Bindings

/-- Only `xml` is bound. -/
def initial : Bindings := ⟨[("xml", xmlNamespace)]⟩

instance : Inhabited Bindings := ⟨initial⟩

/-- Bind a label, hiding what it was bound to. -/
def declare (bindings : Bindings) (label space : String) : Bindings :=
  ⟨(label, space) :: bindings.entries⟩

/-- The namespace a label is bound to. -/
def resolve (bindings : Bindings) (label : String) : Option String :=
  bindings.entries.lookup label

/-- The name of the given kind that a text stands for, unless its label is not bound. A text
without a label is in no namespace. -/
def qualify (bindings : Bindings) (kind : NameKind) (written : String) : Option QName :=
  match splitLabel written with
  | (none, localPart) => some (.unqualified kind localPart)
  | (some label, localPart) =>
    (bindings.resolve label).map fun space => .ofParts kind (some space) localPart (some label)

/-- The bindings after a list of declarations, in order. -/
def declareAll (bindings : Bindings) (declarations : List (String × String)) : Bindings :=
  declarations.foldl (fun bound (label, space) => bound.declare label space) bindings

@[simp] theorem resolve_declare_self (bindings : Bindings) (label space : String) :
    (bindings.declare label space).resolve label = some space := by
  simp [declare, resolve]

theorem resolve_declare_of_ne (bindings : Bindings) {label other : String} (space : String)
    (differs : other ≠ label) :
    (bindings.declare label space).resolve other = bindings.resolve other := by
  simp [declare, resolve, List.lookup_cons, beq_eq_false_iff_ne.mpr differs]

end Bindings

end RangeIndex
