import RangeIndex.Query.Parsing
import RangeIndex.Query.RecentlyUsed

/-! Queries parsed before. A cache keeps a bounded number of them, the ones asked for most
recently, and each carries a stamp that tells it from every other parse of the same text. -/
namespace RangeIndex.Query

/-- A parsed query. -/
structure ParsedQuery where
  stamp : Nat
  expr : Expr

/-- The parsed queries by their texts. -/
structure Cache where
  kept : RecentlyUsed String ParsedQuery
  nextStamp : Nat := 0

namespace Cache

/-- How many queries a cache keeps unless told otherwise. -/
def defaultCapacity : Nat := 256

/-- An empty cache; it keeps at least one query. -/
def new (capacity : Nat) : Cache := { kept := .new (max capacity 1) (Nat.le_max_right capacity 1) }

instance : Inhabited Cache := ⟨new defaultCapacity⟩

def size (cache : Cache) : Nat := cache.kept.size

/-- The cache with nothing in it. -/
def clear (cache : Cache) : Cache := { cache with kept := cache.kept.clear }

/-- The parsed form of a query, from the cache if it is there, and the cache after. A text that is
no query is not put in. -/
def get (cache : Cache) (query : String) : Except QueryError ParsedQuery × Cache :=
  match cache.kept.get? query with
  | (some parsed, kept) => (.ok parsed, { cache with kept })
  | (none, kept) =>
    match parse query with
    | .error error => (.error error, { cache with kept })
    | .ok expr =>
      let parsed : ParsedQuery := ⟨cache.nextStamp, expr⟩
      (.ok parsed, ⟨kept.put query parsed, cache.nextStamp + 1⟩)

end Cache

end RangeIndex.Query
