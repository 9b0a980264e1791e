import RangeIndex.Entry.Indexer
import RangeIndex.Query.Cache
import RangeIndex.Query.Optimizing
import RangeIndex.Query.Printing

/-! Many documents or many queries at once. Documents are indexed by workers that each use one indexer
again and again, and queries share nothing but the cache, so the answer at each place depends on the
input at that place alone. -/
namespace RangeIndex.Batch

/-- A worker takes the document at a place of a list. -/
structure Turn where
  worker : Nat
  place : Nat

/-- Turns of workers that take each of so many documents once. -/
structure Schedule (count : Nat) where
  turns : List Turn
  complete : (turns.map Turn.place).Perm (List.range count)

/-- One worker takes all documents in order. -/
def Schedule.inOrder (count : Nat) : Schedule count where
  turns := (List.range count).map (Turn.mk 0)
  complete := by simp [Function.comp_def]

/-- The indexer of every worker, and the answers given so far, each with its place. -/
structure Pool where
  indexers : Nat → Indexer
  answers : List (Nat × List IndexEntry)

namespace Pool

/-- No worker has taken a document. -/
def new (rules : RuleSet) : Pool := ⟨fun _ => .new rules, []⟩

/-- A worker indexes one more document with the indexer it has; there is nothing to do at a place
past the end. -/
def take (documents : List (List UInt8)) (pool : Pool) (turn : Turn) : Pool :=
  match documents[turn.place]? with
  | none => pool
  | some document =>
    let (indexer, entries) := (pool.indexers turn.worker).index document
    { indexers := fun worker => if worker = turn.worker then indexer else pool.indexers worker
      answers := pool.answers ++ [(turn.place, entries)] }

/-- The pool after turns of its workers in any order. -/
def run (documents : List (List UInt8)) (pool : Pool) (turns : List Turn) : Pool :=
  turns.foldl (take documents) pool

/-- The answers in the order of the documents. -/
def gathered (pool : Pool) (documents : List (List UInt8)) : List (Option (List IndexEntry)) :=
  (List.range documents.length).map fun place => pool.answers.lookup place

end Pool

/-- The entries of every document, in order, when workers take the documents on a schedule. -/
def extractBy (rules : RuleSet) (documents : List (List UInt8))
    (schedule : Schedule documents.length) : List (List IndexEntry) :=
  (((Pool.new rules).run documents schedule.turns).gathered documents).filterMap id

/-- The entries of every document, in order. -/
def extract (rules : RuleSet) (documents : List (List UInt8)) : List (List IndexEntry) :=
  extractBy rules documents (.inOrder documents.length)

/-- The optimized text of a query, and the cache after it was looked up. -/
def optimizeText (registry : Registry) (static : Query.StaticContext) (cache : Query.Cache)
    (query : String) : Except Query.QueryError String × Query.Cache :=
  let (parsed, cache) := cache.get query
  (parsed.map fun parsed => (Query.optimize registry static parsed.expr).render, cache)

/-- The optimized text of every query, in order, and the cache after all were looked up. -/
def optimizeTexts (registry : Registry) (static : Query.StaticContext) :
    Query.Cache → List String → List (Except Query.QueryError String) × Query.Cache
  | cache, [] => ([], cache)
  | cache, query :: rest =>
    let (text, cache) := optimizeText registry static cache query
    let (texts, cache) := optimizeTexts registry static cache rest
    (text :: texts, cache)

end RangeIndex.Batch
