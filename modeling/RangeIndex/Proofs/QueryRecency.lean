import Mathlib.Data.List.Dedup
import Mathlib.Data.List.DropRight
import Mathlib.Data.List.Induction
import RangeIndex.Query.Cache

/-! Which queries a cache holds after any history of requests and clearings. The history alone says
it: of the queries asked for since the last clearing, those asked for most recently, as many as there
is room for. A text that is no query leaves no trace. A parsed form is the one made before as long as
its query has been held since, and a new one otherwise, which its stamp tells. -/
namespace RangeIndex.QueryRecency
open Query

section Definitions

/-- One use of a cache. -/
inductive Use where
  | request (text : String)
  | clear
deriving DecidableEq

/-- A cache after one more use. -/
def Use.apply (cache : Cache) : Use → Cache
  | .request text => (cache.get text).2
  | .clear => cache.clear

/-- A cache after a history of uses, with nothing in it at first. -/
def after (capacity : Nat) (uses : List Use) : Cache := uses.foldl Use.apply (.new capacity)

/-- The query asked for, unless the text is none. -/
def Use.query? : Use → Option String
  | .request text => if (parse text).isOk then some text else none
  | .clear => none

/-- The queries asked for since the last clearing, in order and with repetitions. -/
def asked (uses : List Use) : List String := (uses.rtakeWhile (· ≠ .clear)).filterMap Use.query?

/-- The same queries, each once where it was asked for last, and the latest first. -/
def recent (uses : List Use) : List String := (asked uses).dedup.reverse

/-- The queries a cache holds, in its order. -/
def texts (cache : Cache) : List String := cache.kept.keys

/-- The stamps in a cache are used up. -/
def Stamped (cache : Cache) : Prop :=
  ∀ entry ∈ cache.kept.entries, entry.2.stamp < cache.nextStamp

/-- What is kept for a query is what parsing the query makes. -/
def Coherent (kept : RecentlyUsed String ParsedQuery) : Prop :=
  ∀ entry ∈ kept.entries, parse entry.1 = .ok entry.2.expr

end Definitions

section Histories
variable {uses : List Use} {text : String}

/-- A name asked for once more moves behind the others. -/
theorem dedup_concat (names : List String) (name : String) :
    (names ++ [name]).dedup = names.dedup.filter (· != name) ++ [name] := by
  induction names with
  | nil => rfl
  | cons first rest ih =>
    by_cases repeated : first ∈ rest
    · rw [List.cons_append, List.dedup_cons_of_mem (List.mem_append_left _ repeated), ih,
        List.dedup_cons_of_mem repeated]
    · rw [List.dedup_cons_of_notMem repeated]
      by_cases same : first = name
      · have again : first ∈ rest ++ [name] := by simp [same]
        rw [List.cons_append, List.dedup_cons_of_mem again, ih]
        simp [same]
      · have fresh : first ∉ rest ++ [name] := by simp [repeated, same]
        rw [List.cons_append, List.dedup_cons_of_notMem fresh, ih]
        simp [same]

theorem asked_request (uses : List Use) (text : String) :
    asked (uses ++ [.request text]) = asked uses ++ (Use.query? (.request text)).toList := by
  rw [asked, List.rtakeWhile_concat_pos _ _ _ (by simp), List.filterMap_append]
  cases query : Use.query? (.request text) <;> simp [asked, query]

theorem recent_clear (uses : List Use) : recent (uses ++ [.clear]) = [] := by
  rw [recent, asked, List.rtakeWhile_concat_neg _ _ _ (by simp)]
  rfl

theorem recent_query (query : (parse text).isOk = true) :
    recent (uses ++ [.request text]) = text :: (recent uses).filter (· != text) := by
  have told : Use.query? (.request text) = some text := if_pos query
  rw [recent, asked_request, told, Option.toList_some, dedup_concat, List.reverse_append, recent,
    List.filter_reverse]
  rfl

theorem recent_no_query (noQuery : (parse text).isOk = false) :
    recent (uses ++ [.request text]) = recent uses := by
  have told : Use.query? (.request text) = none := if_neg (by simp [noQuery])
  rw [recent, asked_request, told, Option.toList_none, List.append_nil, recent]

theorem recent_nodup (uses : List Use) : (recent uses).Nodup :=
  List.nodup_reverse.mpr (List.nodup_dedup _)

theorem after_concat (capacity : Nat) (uses : List Use) (use : Use) :
    after capacity (uses ++ [use]) = use.apply (after capacity uses) := by
  simp [after]

end Histories

section Caches
variable {cache : Cache} {kept : RecentlyUsed String ParsedQuery} {text : String}
  {parsed : ParsedQuery}

/-- A request answers from the cache, or it parses and answers with a new stamp, or there is no
query to answer. -/
theorem get_cases (cache : Cache) (text : String) :
    (∃ parsed, (text, parsed) ∈ cache.kept.entries ∧
        cache.get text = (.ok parsed, { cache with kept := cache.kept.promote text })) ∨
      (∃ expr, text ∉ texts cache ∧ parse text = .ok expr ∧
        cache.get text = (.ok ⟨cache.nextStamp, expr⟩,
          ⟨cache.kept.put text ⟨cache.nextStamp, expr⟩, cache.nextStamp + 1⟩)) ∨
      ∃ error, text ∉ texts cache ∧ parse text = .error error ∧
        cache.get text = (.error error, cache) := by
  unfold Cache.get
  cases found : cache.kept.entries.lookup text with
  | some parsed =>
    have held := RecentlyUsed.lookup_eq_some_iff.mp found
    refine .inl ⟨parsed, held, ?_⟩
    rw [RecentlyUsed.get?, found]
  | none =>
    have absent := RecentlyUsed.lookup_eq_none_iff.mp found
    rw [RecentlyUsed.get_absent absent]
    cases parse text with
    | ok expr => exact .inr (.inl ⟨expr, absent, rfl, rfl⟩)
    | error error => exact .inr (.inr ⟨error, absent, rfl, rfl⟩)

theorem cleared_coherent (kept : RecentlyUsed String ParsedQuery) : Coherent kept.clear := by
  simp [Coherent, RecentlyUsed.clear, RecentlyUsed.new]

theorem new_coherent (capacity : Nat) : Coherent (Cache.new capacity).kept := by
  simp [Coherent, Cache.new, RecentlyUsed.new]

theorem promote_coherent (coherent : Coherent kept) (text : String) :
    Coherent (kept.promote text) :=
  fun entry held => coherent entry (RecentlyUsed.mem_promote.mp held)

theorem put_coherent (coherent : Coherent kept) (parses : parse text = .ok parsed.expr) :
    Coherent (kept.put text parsed) := by
  intro entry held
  rcases RecentlyUsed.mem_put held with rfl | ⟨before, _⟩
  · exact parses
  · exact coherent entry before

theorem get_coherent (coherent : Coherent cache.kept) (text : String) :
    Coherent (cache.get text).2.kept := by
  rcases get_cases cache text with ⟨_, _, got⟩ | ⟨_, _, parses, got⟩ | ⟨_, _, _, got⟩ <;> rw [got]
  · exact promote_coherent coherent text
  · exact put_coherent coherent parses
  · exact coherent

/-- The answers of a coherent cache are those of parsing. -/
theorem get_parses (coherent : Coherent cache.kept) (text : String) :
    (cache.get text).1.map ParsedQuery.expr = parse text := by
  rcases get_cases cache text with ⟨_, held, got⟩ | ⟨_, _, parses, got⟩ | ⟨_, _, fails, got⟩
  · rw [got, coherent _ held]
    rfl
  · rw [got, parses]
    rfl
  · rw [got, fails]
    rfl

/-- A text that is no query changes nothing. -/
theorem get_no_query (coherent : Coherent cache.kept) {error : QueryError}
    (fails : parse text = .error error) : cache.get text = (.error error, cache) := by
  rcases get_cases cache text with ⟨_, held, _⟩ | ⟨_, _, parses, _⟩ | ⟨_, _, same, got⟩
  · have parses := coherent _ held
    rw [fails] at parses
    cases parses
  · rw [fails] at parses
    cases parses
  · rw [got, Except.error.inj (fails.symm.trans same)]

theorem get_stamped (stamped : Stamped cache) (text : String) : Stamped (cache.get text).2 := by
  rcases get_cases cache text with ⟨_, _, got⟩ | ⟨_, _, _, got⟩ | ⟨_, _, _, got⟩ <;> rw [got]
  · exact fun entry held => stamped entry (RecentlyUsed.mem_promote.mp held)
  · intro entry held
    rcases RecentlyUsed.mem_put held with rfl | ⟨before, _⟩
    · exact Nat.lt_succ_self _
    · exact Nat.lt_succ_of_lt (stamped entry before)
  · exact stamped

/-- The stamp of an answer is used up. -/
theorem answer_stamped (stamped : Stamped cache) (answer : (cache.get text).1 = .ok parsed) :
    parsed.stamp < (cache.get text).2.nextStamp := by
  rcases get_cases cache text with ⟨own, held, got⟩ | ⟨expr, _, _, got⟩ | ⟨_, _, _, got⟩
  · rw [got] at answer ⊢
    cases answer
    exact stamped _ held
  · rw [got] at answer ⊢
    cases answer
    exact Nat.lt_succ_self _
  · rw [got] at answer
    cases answer

theorem stamps_go_up (cache : Cache) (use : Use) : cache.nextStamp ≤ (use.apply cache).nextStamp := by
  cases use with
  | clear => exact Nat.le_refl _
  | request text =>
    rcases get_cases cache text with ⟨_, _, got⟩ | ⟨_, _, _, got⟩ | ⟨_, _, _, got⟩ <;>
      simp [Use.apply, got]

/-- After an answer the cache holds nothing else for the query. -/
theorem held_is_answer {first : ParsedQuery} (answer : (cache.get text).1 = .ok first)
    (held : (text, parsed) ∈ (cache.get text).2.kept.entries) : parsed = first := by
  rcases get_cases cache text with ⟨own, before, got⟩ | ⟨expr, _, _, got⟩ | ⟨_, _, _, got⟩ <;>
    rw [got] at answer held
  · cases answer
    have found := RecentlyUsed.lookup_of_mem before
    have again := RecentlyUsed.lookup_of_mem (RecentlyUsed.mem_promote.mp held)
    exact Option.some.inj (again.1.symm.trans found.1)
  · cases answer
    rcases RecentlyUsed.mem_put held with same | ⟨_, differs⟩
    · exact congrArg Prod.snd same
    · exact absurd rfl differs
  · cases answer

/-- A use other than a request for a query gives the cache nothing new for it. -/
theorem held_before {use : Use} (differs : use ≠ .request text)
    (held : (text, parsed) ∈ (use.apply cache).kept.entries) :
    (text, parsed) ∈ cache.kept.entries := by
  cases use with
  | clear => cases held
  | request other =>
    have apart : text ≠ other := fun same => differs (same ▸ rfl)
    rcases get_cases cache other with ⟨_, _, got⟩ | ⟨_, _, _, got⟩ | ⟨_, _, _, got⟩ <;>
      rw [Use.apply, got] at held
    · exact RecentlyUsed.mem_promote.mp held
    · rcases RecentlyUsed.mem_put held with own | ⟨before, _⟩
      · exact absurd (congrArg Prod.fst own) apart
      · exact before
    · exact held

/-- The queries a cache holds after a request for a query, in their order. -/
theorem texts_get (cache : Cache) (query : (parse text).isOk = true) :
    texts (cache.get text).2 =
      (text :: (texts cache).filter (· != text)).take cache.kept.capacity := by
  rcases get_cases cache text with ⟨_, held, got⟩ | ⟨_, _, _, got⟩ | ⟨_, _, fails, _⟩
  · have moved := RecentlyUsed.keys_promote (List.mem_map_of_mem held)
    have bounded := (cache.kept.promote text).length_keys.trans_le (cache.kept.promote text).bounded
    rw [got, texts, texts]
    dsimp only
    rw [moved] at bounded ⊢
    exact (List.take_of_length_le bounded).symm
  · rw [got]
    exact cache.kept.keys_put text _
  · rw [fails] at query
    cases query

end Caches

section Recency
variable {capacity : Nat} {uses : List Use} {cache : Cache} {text : String}

/-- A cache after a history holds the most recent queries of it. -/
structure Follows (capacity : Nat) (uses : List Use) (cache : Cache) : Prop where
  room : cache.kept.capacity = max capacity 1
  texts : texts cache = (recent uses).take (max capacity 1)
  stamped : Stamped cache
  coherent : Coherent cache.kept

/-- Of distinct names the first few are the same whether one of them is moved to the front before
or after the others are cut off. -/
theorem take_moved_to_front {names : List String} (distinct : names.Nodup) (count : Nat)
    (name : String) :
    (name :: (names.take count).filter (· != name)).take count =
      (name :: names.filter (· != name)).take count := by
  cases count with
  | zero => rfl
  | succ count =>
    rw [List.take_succ_cons, List.take_succ_cons]
    congr 1
    induction names generalizing count with
    | nil => simp
    | cons first rest ih =>
      obtain ⟨fresh, distinct⟩ := List.nodup_cons.mp distinct
      by_cases same : first = name
      · have others : ∀ other ∈ rest, (other != name) = true := by
          intro other member
          exact bne_iff_ne.mpr fun again => fresh (same ▸ again ▸ member)
        have front : ∀ other ∈ rest.take count, (other != name) = true := fun other member =>
          others other (List.mem_of_mem_take member)
        simp [same, List.filter_eq_self.mpr others, List.filter_eq_self.mpr front, List.take_take]
      · cases count with
        | zero => rfl
        | succ count => simp [same, ih distinct count]

theorem request_follows (follows : Follows capacity uses cache) (text : String) :
    Follows capacity (uses ++ [.request text]) (cache.get text).2 := by
  constructor
  case stamped => exact get_stamped follows.stamped text
  case coherent => exact get_coherent follows.coherent text
  case room =>
    rcases get_cases cache text with ⟨_, _, got⟩ | ⟨_, _, _, got⟩ | ⟨_, _, _, got⟩ <;>
      (rw [got]; exact follows.room)
  case texts =>
    cases parses : parse text with
    | ok expr =>
      have query : (parse text).isOk = true := by rw [parses]; rfl
      rw [texts_get cache query, follows.texts, follows.room, recent_query query,
        take_moved_to_front (recent_nodup uses)]
    | error error =>
      rw [get_no_query follows.coherent parses, recent_no_query (by rw [parses]; rfl)]
      exact follows.texts

theorem apply_follows (follows : Follows capacity uses cache) (use : Use) :
    Follows capacity (uses ++ [use]) (use.apply cache) := by
  cases use with
  | request text => exact request_follows follows text
  | clear =>
    constructor
    case room => exact follows.room
    case texts =>
      rw [recent_clear, List.take_nil]
      rfl
    case stamped => simp [Stamped, Use.apply, Cache.clear, RecentlyUsed.clear, RecentlyUsed.new]
    case coherent => exact cleared_coherent cache.kept

theorem after_follows (capacity : Nat) (uses : List Use) :
    Follows capacity uses (after capacity uses) := by
  induction uses using List.reverseRecOn with
  | nil =>
    constructor
    case room => rfl
    case texts => simp [texts, after, Cache.new, RecentlyUsed.keys, RecentlyUsed.new, recent, asked]
    case stamped => simp [Stamped, after, Cache.new, RecentlyUsed.new]
    case coherent => exact new_coherent capacity
  | append_singleton uses use ih =>
    rw [after_concat]
    exact apply_follows ih use

/-- What a cache holds for a query after some uses it held right after the query's last request. -/
theorem held_since_request {before later : List Use} {parsed : ParsedQuery}
    (last : .request text ∉ later)
    (held : (text, parsed) ∈ (after capacity (before ++ .request text :: later)).kept.entries) :
    (text, parsed) ∈ ((after capacity before).get text).2.kept.entries := by
  induction later using List.reverseRecOn with
  | nil =>
    rw [after_concat] at held
    exact held
  | append_singleton later use ih =>
    rw [List.mem_append, not_or, List.mem_singleton] at last
    rw [← List.cons_append, ← List.append_assoc, after_concat] at held
    exact ih last.1 (held_before (Ne.symm last.2) held)

theorem stamps_go_up_after (before later : List Use) :
    (after capacity before).nextStamp ≤ (after capacity (before ++ later)).nextStamp := by
  induction later using List.reverseRecOn with
  | nil => rw [List.append_nil]
  | append_singleton later use ih =>
    rw [← List.append_assoc, after_concat]
    exact ih.trans (stamps_go_up _ use)

/-- A request is answered with the object of the query's last request if the cache still holds the
query, and otherwise with an object of its own. -/
theorem same_object_iff_held {before later : List Use} {first : ParsedQuery}
    (last : .request text ∉ later)
    (answered : ((after capacity before).get text).1 = .ok first) :
    let cache := after capacity (before ++ .request text :: later)
    ∃ again, (cache.get text).1 = .ok again ∧ (again.stamp = first.stamp ↔ text ∈ texts cache) := by
  intro cache
  have used : first.stamp < cache.nextStamp := by
    have stamped := answer_stamped (after_follows capacity before).stamped answered
    have up : (after capacity (before ++ [.request text])).nextStamp ≤ _ :=
      stamps_go_up_after (before ++ [.request text]) later
    rw [after_concat, List.append_assoc] at up
    exact stamped.trans_le up
  rcases get_cases cache text with ⟨again, held, got⟩ | ⟨expr, absent, _, got⟩ | ⟨_, _, fails, _⟩
  · have same : again = first := held_is_answer answered (held_since_request last held)
    have known : text ∈ texts cache := List.mem_map_of_mem held
    exact ⟨again, by rw [got], by simp [same, known]⟩
  · refine ⟨⟨cache.nextStamp, expr⟩, by rw [got], ?_⟩
    exact ⟨fun same => absurd same (Nat.ne_of_gt used), fun held => absurd held absent⟩
  · have parses := get_parses (after_follows capacity before).coherent text
    rw [answered, fails] at parses
    cases parses

end Recency

/-- After any history a cache holds the queries of the history asked for most recently, in that
order and as many as there is room for. It answers as parsing does, and what is no query changes
nothing. Asked again for a query it gives out the very object of the last request exactly if it
still holds the query. -/
theorem most_recent_queries_held (capacity : Nat) (uses : List Use) :
    let cache := after capacity uses
    texts cache = (recent uses).take (max capacity 1) ∧
      cache.size = min (max capacity 1) (recent uses).length ∧
      ∀ text,
        (cache.get text).1.map ParsedQuery.expr = parse text ∧
        (∀ error, parse text = .error error → cache.get text = (.error error, cache)) ∧
        ∀ before later first, uses = before ++ .request text :: later → .request text ∉ later →
          ((after capacity before).get text).1 = .ok first →
            ∃ again, (cache.get text).1 = .ok again ∧
              (again.stamp = first.stamp ↔ text ∈ texts cache) := by
  intro cache
  have follows := after_follows capacity uses
  have size : cache.size = (texts cache).length := cache.kept.length_keys.symm
  refine ⟨follows.texts, ?_, fun text => ⟨get_parses follows.coherent text, ?_, ?_⟩⟩
  · rw [size, follows.texts, List.length_take]
  · intro error fails
    exact get_no_query follows.coherent fails
  · rintro before later first rfl last answered
    exact same_object_iff_held last answered

section Sample

/-- Three queries, one of them asked for twice, and a text that is none. -/
def someUses : List Use := ["a", "b", "a", "c", "a["].map .request

/-- With room for two queries, `a` is still the object it was first, `b` is dropped, and the text
that is no query gets its error. -/
theorem some_queries_held :
    let cache := after 2 someUses
    texts cache = ["c", "a"] ∧
      (∃ error, parse "a[" = .error error ∧ cache.get "a[" = (.error error, cache)) ∧
      ∃ first, ((after 2 [.request "a", .request "b"]).get "a").1 = .ok first ∧
        ∃ again, (cache.get "a").1 = .ok again ∧ again.stamp = first.stamp := by
  intro cache
  obtain ⟨held, _, each⟩ := most_recent_queries_held 2 someUses
  have texts : texts cache = ["c", "a"] := held.trans (by with_unfolding_all rfl)
  have fails : ∃ error, parse "a[" = .error error := by with_unfolding_all exact ⟨_, rfl⟩
  have answered : ∃ first, ((after 2 [.request "a", .request "b"]).get "a").1 = .ok first := by
    with_unfolding_all exact ⟨_, rfl⟩
  obtain ⟨error, fails⟩ := fails
  obtain ⟨first, answered⟩ := answered
  obtain ⟨again, answer, same⟩ := (each "a").2.2 [.request "a", .request "b"]
    [.request "c", .request "a["] first rfl (by decide) answered
  exact ⟨texts, ⟨error, fails, (each "a[").2.1 error fails⟩, first, answered, again, answer,
    same.mpr (by rw [texts]; decide)⟩

end Sample

end RangeIndex.QueryRecency
