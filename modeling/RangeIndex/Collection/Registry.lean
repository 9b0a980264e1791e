import RangeIndex.Rule.Basic
import RangeIndex.Text.Pieces

/-! Which rules are in effect for a collection: its own, or those of the nearest collection above
it that has some. A rule set is published as a whole and never changed; each publication has a
stamp, so two of them are told apart even when they say the same. -/
namespace RangeIndex

namespace Collection

/-- The internal collections are this one and those below it. -/
def system : List Char := "/db/system".toList

/-- Whether a collection is internal; such collections have no part in queries. -/
def isSystem (collection : String) : Bool :=
  system.isPrefixOf collection.toList &&
    match collection.toList.drop system.length with
    | [] => true
    | c :: _ => c == '/'

/-- A collection's text without slashes at the end; the topmost collection keeps its slash. -/
def normalize (collection : List Char) : List Char :=
  match (collection.reverse.dropWhile (· == '/')).reverse with
  | [] => ['/']
  | trimmed => trimmed

/-- The collection above another, if there is one. -/
def parent? (collection : List Char) : Option (List Char) :=
  match collection.reverse.dropWhile (· != '/') with
  | [] => none
  | [_] => if 1 < collection.length then some ['/'] else none
  | _ :: above => some above.reverse

theorem parent?_length_lt {collection parent : List Char}
    (above : parent? collection = some parent) : parent.length < collection.length := by
  have bound : (collection.reverse.dropWhile (· != '/')).length ≤ collection.length := by
    have shorter : (collection.reverse.dropWhile (· != '/')).length ≤ collection.reverse.length :=
      (List.dropWhile_suffix _).length_le
    simpa using shorter
  unfold parent? at above
  split at above
  · cases above
  · split at above
    · cases above; assumption
    · cases above
  · next slash rest _ shape =>
    cases above
    rw [shape] at bound
    simp only [List.length_cons, List.length_reverse] at *
    omega

/-- A collection and those above it, the nearest first. -/
def lineage (collection : List Char) : List (List Char) :=
  match above : parent? collection with
  | none => [collection]
  | some parent =>
    have := parent?_length_lt above
    collection :: lineage parent
termination_by collection.length

end Collection

/-- A rule set as it was published. -/
structure Publication where
  stamp : Nat
  ruleSet : RuleSet
deriving DecidableEq, Repr

/-- The publications in effect, by the normal form of their collection. -/
structure Registry where
  entries : List (List Char × Publication) := []
  nextStamp : Nat := 0
deriving Repr

namespace Registry

/-- Nothing is published. -/
def empty : Registry := {}

instance : Inhabited Registry := ⟨empty⟩

def size (registry : Registry) : Nat := registry.entries.length

def isEmpty (registry : Registry) : Bool := registry.entries.isEmpty

/-- The publication for exactly this normal form. -/
def get? (registry : Registry) (key : List Char) : Option Publication :=
  registry.entries.lookup key

/-- The registry without a publication for this normal form. -/
def erase (registry : Registry) (key : List Char) : Registry :=
  { registry with entries := registry.entries.filter fun entry => entry.1 != key }

/-- Publish a rule set for its collection in place of the one before, if any. -/
def publish (registry : Registry) (ruleSet : RuleSet) : Registry :=
  let key := Collection.normalize ruleSet.collection.toList
  { entries := (key, ⟨registry.nextStamp, ruleSet⟩) :: (registry.erase key).entries
    nextStamp := registry.nextStamp + 1 }

/-- Withdraw the rules of a collection: the publication withdrawn, if any, and the registry
after. -/
def remove (registry : Registry) (collection : String) : Option Publication × Registry :=
  let key := Collection.normalize collection.toList
  (registry.get? key, registry.erase key)

/-- The publication in effect for a collection. -/
def inEffect? (registry : Registry) (collection : String) : Option Publication :=
  (Collection.lineage (Collection.normalize collection.toList)).findSome? registry.get?

/-- Add a publication at the end unless it is there already. -/
def addOnce (found : List Publication) (publication : Publication) : List Publication :=
  if found.any fun other => other.stamp == publication.stamp then found
  else found ++ [publication]

/-- The publications in effect for a list of collections, each once, in the order they are first
met. Internal collections contribute none. -/
def inEffectFor (registry : Registry) (collections : List String) : List Publication :=
  collections.foldl
    (fun found collection =>
      if Collection.isSystem collection then found
      else match registry.inEffect? collection with
        | some publication => addOnce found publication
        | none => found)
    []

theorem get?_erase_self (registry : Registry) (key : List Char) :
    (registry.erase key).get? key = none := by
  simp only [erase, get?, List.lookup_eq_none_iff, List.mem_filter]
  intro entry kept
  have other : entry.1 ≠ key := by simpa using kept.2
  simpa using other.symm

/-- What is published is found under the normal form of its collection. -/
theorem get?_publish_self (registry : Registry) (ruleSet : RuleSet) :
    (registry.publish ruleSet).get? (Collection.normalize ruleSet.collection.toList) =
      some ⟨registry.nextStamp, ruleSet⟩ := by
  simp [publish, get?]

end Registry

end RangeIndex
