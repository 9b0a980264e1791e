import RangeIndex.Text.Pieces

/-! A qualified name identifies an element or an attribute by namespace and local part. The label
it was written with is kept for display and takes no part in identity. -/
namespace RangeIndex

/-- What a name addresses. -/
inductive NameKind where
  | element
  | attribute
deriving DecidableEq, Repr

/-- What a name is compared by. -/
structure NameIdentity where
  kind : NameKind
  space : Option String
  localPart : String
deriving DecidableEq, Repr

/-- A qualified name with the label in front of its colon, if it was written with one. -/
structure QName extends NameIdentity where
  label : Option String
deriving DecidableEq, Repr

/-- The namespace that the label `xml` is bound to from the start. -/
def xmlNamespace : String := "http://www.w3.org/XML/1998/namespace"

/-- An optional text without the empty one, which stands for absence. -/
def presentText (text : Option String) : Option String := text.filter (· != "")

namespace QName

/-- The name with the given parts; an empty namespace or label is none at all. -/
def ofParts (kind : NameKind) (space : Option String) (localPart : String)
    (label : Option String) : QName :=
  ⟨⟨kind, presentText space, localPart⟩, presentText label⟩

/-- The name of a kind in no namespace. -/
def unqualified (kind : NameKind) (localPart : String) : QName := ⟨⟨kind, none, localPart⟩, none⟩

/-- Whether two names are the same name, whatever their labels. -/
def same (a b : QName) : Bool := decide (a.toNameIdentity = b.toNameIdentity)

/-- Whether the name addresses an attribute. -/
def isAttribute (name : QName) : Bool := decide (name.kind = .attribute)

/-- The name as it is displayed: by its label where it has one, else by its namespace in braces,
else by its local part alone, with a mark in front of an attribute. -/
def text (name : QName) : String :=
  (if name.isAttribute then "@" else "") ++
    match name.label, name.space with
    | some label, _ => label ++ ":" ++ name.localPart
    | none, some space => "\x7b" ++ space ++ "\x7d" ++ name.localPart
    | none, none => name.localPart

theorem same_iff (a b : QName) : a.same b = true ↔ a.toNameIdentity = b.toNameIdentity := by
  simp [same]

end QName

/-- The label and local part of a written name: the label ends at the first colon. -/
def splitLabel (written : String) : Option String × String :=
  match Text.cutAt ':' written.toList with
  | none => (none, written)
  | some (label, localPart) => (some (String.ofList label), String.ofList localPart)

/-- A written name has a label when there is a colon in it; the label is clear of colons. -/
theorem splitLabel_labelled_iff {written label localPart : String} :
    splitLabel written = (some label, localPart) ↔
      written = label ++ ":" ++ localPart ∧ ':' ∉ label.toList := by
  unfold splitLabel
  constructor
  · intro split
    cases cut : Text.cutAt ':' written.toList with
    | none => simp [cut] at split
    | some sides =>
      simp only [cut, Prod.mk.injEq, Option.some.injEq] at split
      obtain ⟨rfl, rfl⟩ := split
      refine ⟨String.toList_inj.mp ?_, by simpa using Text.clear_of_cutAt cut⟩
      simpa using Text.eq_of_cutAt cut
  · rintro ⟨rfl, clear⟩
    have text : (label ++ ":" ++ localPart).toList = label.toList ++ ':' :: localPart.toList := by
      simp
    rw [text, Text.cutAt_append clear]
    simp

theorem splitLabel_plain_iff {written localPart : String} :
    splitLabel written = (none, localPart) ↔ localPart = written ∧ ':' ∉ written.toList := by
  unfold splitLabel
  rw [← Text.cutAt_eq_none_iff]
  cases cut : Text.cutAt ':' written.toList <;> simp [eq_comm]

end RangeIndex
