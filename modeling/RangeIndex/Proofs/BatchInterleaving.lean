import Mathlib.Logic.Function.Iterate
import RangeIndex.Batch
import RangeIndex.Proofs.CanonicalTrees
import RangeIndex.Proofs.QueryRecency

/-! Queries answered by workers that share one cache. A worker holds the cache for one lookup or for
one insertion and parses in between, so several may miss the same query, parse it each for itself and
put it in one after the other, while insertions push other queries out. Whatever the turns, the cache
holds for a query only what parsing the query makes, so every answer is the one that the query gets
on its own. -/
namespace RangeIndex.BatchInterleaving
open Query QueryRecency

section Definitions

/-- Look a query up. One that is found becomes the most recent. -/
def look (cache : Cache) (text : String) : Option ParsedQuery × Cache :=
  let (found, kept) := cache.kept.get? text
  (found, { cache with kept })

/-- What may happen to a cache at one time. -/
inductive Touch where
  | look (text : String)
  /-- Put in what a parse of the text made, if it made anything. -/
  | put (text : String) (stamp : Nat)
  | clear
deriving DecidableEq

def Touch.apply (cache : Cache) : Touch → Cache
  | .look text => (BatchInterleaving.look cache text).2
  | .put text stamp =>
    match parse text with
    | .ok expr => { cache with kept := cache.kept.put text ⟨stamp, expr⟩ }
    | .error _ => cache
  | .clear => cache.clear

/-- A cache that has been used in any way, empty at first. -/
def used (capacity : Nat) (touches : List Touch) : Cache :=
  touches.foldl Touch.apply (.new capacity)

/-- How far the work on one query has come. -/
inductive Stage where
  | waiting
  /-- The cache did not have the query. -/
  | missed
  /-- The query is parsed but not in the cache. -/
  | fresh (parsed : ParsedQuery)
  /-- The parsed query is at hand, and the cache is not needed any more. -/
  | ready (parsed : ParsedQuery)
  | answered (answer : Except QueryError String)

def Stage.answer? : Stage → Option (Except QueryError String)
  | .answered answer => some answer
  | _ => none

/-- The next step of the work on a query. Every parse makes an object of its own. -/
def proceed (registry : Registry) (static : StaticContext) (text : String) :
    Stage × Cache → Stage × Cache
  | (.waiting, cache) =>
    match look cache text with
    | (some parsed, cache) => (.ready parsed, cache)
    | (none, cache) => (.missed, cache)
  | (.missed, cache) =>
    match parse text with
    | .error error => (.answered (.error error), cache)
    | .ok expr =>
      (.fresh ⟨cache.nextStamp, expr⟩, { cache with nextStamp := cache.nextStamp + 1 })
  | (.fresh parsed, cache) => (.ready parsed, { cache with kept := cache.kept.put text parsed })
  | (.ready parsed, cache) =>
    (.answered (.ok (optimize registry static parsed.expr).render), cache)
  | (.answered answer, cache) => (.answered answer, cache)

/-- One turn: the next step for the query at a place, or some other use of the cache. -/
inductive Turn where
  | work (place : Nat)
  | other (touch : Touch)
deriving DecidableEq

/-- The cache, and the work on the query at every place. -/
structure State where
  cache : Cache
  stages : Nat → Stage

namespace State

/-- No work is done yet. -/
def begin (cache : Cache) : State := ⟨cache, fun _ => .waiting⟩

/-- The state after one turn; there is nothing to do at a place past the end. -/
def take (registry : Registry) (static : StaticContext) (queries : List String) (state : State) :
    Turn → State
  | .work place =>
    match queries[place]? with
    | none => state
    | some text =>
      let (stage, cache) := proceed registry static text (state.stages place, state.cache)
      ⟨cache, Function.update state.stages place stage⟩
  | .other touch => { state with cache := touch.apply state.cache }

/-- The state after turns in any order. -/
def run (registry : Registry) (static : StaticContext) (queries : List String) (state : State)
    (turns : List Turn) : State :=
  turns.foldl (take registry static queries) state

end State

/-- What a query is answered on its own, with a new cache. -/
def alone (registry : Registry) (static : StaticContext) (text : String) :
    Except QueryError String :=
  (Batch.optimizeText registry static default text).1

/-- The turns of one worker that takes a number of queries in order, from a place on. -/
def inOrder (first count : Nat) : List Turn :=
  (List.range' first count).flatMap fun place => List.replicate 4 (.work place)

/-- How many steps are left at most. -/
def Stage.left : Stage → Nat
  | .waiting => 4
  | .missed => 3
  | .fresh _ => 2
  | .ready _ => 1
  | .answered _ => 0

/-- What has been made of a query is what parsing it makes, and its answer is the one it gets on its
own. -/
def Stage.Sound (registry : Registry) (static : StaticContext) (text : String) : Stage → Prop
  | .waiting | .missed => True
  | .fresh parsed | .ready parsed => parse text = .ok parsed.expr
  | .answered answer => answer = alone registry static text

/-- The work on all queries is sound, and so is the cache that it shares. -/
structure Sound (registry : Registry) (static : StaticContext) (queries : List String)
    (state : State) : Prop where
  cache : Coherent state.cache.kept
  stages : ∀ place text, queries[place]? = some text →
    (state.stages place).Sound registry static text

end Definitions

section Caches
variable {cache : Cache} {text : String}

theorem look_cases (cache : Cache) (text : String) :
    (∃ parsed, (text, parsed) ∈ cache.kept.entries ∧
        look cache text = (some parsed, { cache with kept := cache.kept.promote text })) ∨
      text ∉ texts cache ∧ look cache text = (none, cache) := by
  unfold look
  cases found : cache.kept.entries.lookup text with
  | some parsed =>
    refine .inl ⟨parsed, RecentlyUsed.lookup_eq_some_iff.mp found, ?_⟩
    rw [RecentlyUsed.get?, found]
  | none =>
    have absent := RecentlyUsed.lookup_eq_none_iff.mp found
    refine .inr ⟨absent, ?_⟩
    rw [RecentlyUsed.get_absent absent]

theorem look_coherent (coherent : Coherent cache.kept) (text : String) :
    Coherent (look cache text).2.kept := by
  rcases look_cases cache text with ⟨_, _, looked⟩ | ⟨_, looked⟩ <;> rw [looked]
  · exact promote_coherent coherent text
  · exact coherent

theorem touch_coherent (coherent : Coherent cache.kept) (touch : Touch) :
    Coherent (touch.apply cache).kept := by
  cases touch with
  | look text => exact look_coherent coherent text
  | put text stamp =>
    cases parses : parse text with
    | ok expr =>
      simp only [Touch.apply, parses]
      exact put_coherent coherent parses
    | error error =>
      simp only [Touch.apply, parses]
      exact coherent
  | clear => exact cleared_coherent cache.kept

theorem used_coherent (capacity : Nat) (touches : List Touch) :
    Coherent (used capacity touches).kept := by
  have all (cache : Cache) (coherent : Coherent cache.kept) :
      Coherent (touches.foldl Touch.apply cache).kept := by
    induction touches generalizing cache with
    | nil => exact coherent
    | cons touch rest ih => exact ih _ (touch_coherent coherent touch)
  exact all _ (new_coherent capacity)

end Caches

section Answers
variable {registry : Registry} {static : StaticContext} {cache : Cache} {text : String}

/-- With a coherent cache a query gets its parse error, or what optimizing its parsed form makes. -/
theorem optimize_text_answer (registry : Registry) (static : StaticContext)
    (coherent : Coherent cache.kept) (text : String) :
    (Batch.optimizeText registry static cache text).1 =
      (parse text).map fun expr => (optimize registry static expr).render := by
  rw [← get_parses coherent text, Batch.optimizeText]
  rcases cache.get text with ⟨_ | parsed, _⟩ <;> rfl

theorem alone_answer (registry : Registry) (static : StaticContext) (text : String) :
    alone registry static text =
      (parse text).map fun expr => (optimize registry static expr).render :=
  optimize_text_answer registry static (new_coherent Cache.defaultCapacity) text

theorem optimize_texts_alone (registry : Registry) (static : StaticContext)
    (coherent : Coherent cache.kept) (queries : List String) :
    (Batch.optimizeTexts registry static cache queries).1 = queries.map (alone registry static) := by
  induction queries generalizing cache with
  | nil => rfl
  | cons text rest ih =>
    have later := ih (get_coherent coherent text)
    rw [List.map_cons, alone_answer, ← optimize_text_answer registry static coherent, ← later]
    rfl

end Answers

section Steps
variable {registry : Registry} {static : StaticContext} {queries : List String} {text : String}
  {stage : Stage} {cache : Cache} {state : State}

theorem proceed_sound (coherent : Coherent cache.kept)
    (sound : stage.Sound registry static text) :
    Coherent (proceed registry static text (stage, cache)).2.kept ∧
      (proceed registry static text (stage, cache)).1.Sound registry static text := by
  cases stage with
  | waiting =>
    rcases look_cases cache text with ⟨parsed, held, looked⟩ | ⟨_, looked⟩ <;>
      simp only [proceed, looked]
    · exact ⟨promote_coherent coherent text, coherent _ held⟩
    · exact ⟨coherent, trivial⟩
  | missed =>
    cases parses : parse text with
    | error error =>
      simp only [proceed, parses]
      refine ⟨coherent, ?_⟩
      rw [Stage.Sound, alone_answer, parses]
      rfl
    | ok expr =>
      simp only [proceed, parses]
      exact ⟨coherent, parses⟩
  | fresh parsed => exact ⟨put_coherent coherent sound, sound⟩
  | ready parsed =>
    refine ⟨coherent, ?_⟩
    have parses : parse text = .ok parsed.expr := sound
    rw [proceed, Stage.Sound, alone_answer, parses]
    rfl
  | answered answer => exact ⟨coherent, sound⟩

/-- Every step leaves less to do. -/
theorem proceed_left (registry : Registry) (static : StaticContext) (text : String) (stage : Stage)
    (cache : Cache) :
    (proceed registry static text (stage, cache)).1.left ≤ stage.left - 1 := by
  cases stage with
  | waiting =>
    rcases look_cases cache text with ⟨_, _, looked⟩ | ⟨_, looked⟩ <;>
      simp [proceed, looked, Stage.left]
  | missed => cases parses : parse text <;> simp [proceed, parses, Stage.left]
  | fresh parsed => exact Nat.le_refl _
  | ready parsed => exact Nat.le_refl _
  | answered answer => exact Nat.le_refl _

theorem answer_of_sound {answer : Except QueryError String}
    (sound : stage.Sound registry static text) (answered : stage.answer? = some answer) :
    answer = alone registry static text := by
  cases stage with
  | answered own => exact (Option.some.inj answered).symm.trans sound
  | _ => cases answered

theorem answered_of_none_left (none : stage.left = 0) (sound : stage.Sound registry static text) :
    stage.answer? = some (alone registry static text) := by
  cases stage with
  | answered answer => exact congrArg some sound
  | _ => cases none

theorem take_work (state : State) {place : Nat} (listed : queries[place]? = some text) :
    state.take registry static queries (.work place) =
      let next := proceed registry static text (state.stages place, state.cache)
      ⟨next.2, Function.update state.stages place next.1⟩ := by
  simp [State.take, listed]

theorem take_past_end (state : State) {place : Nat} (past : queries[place]? = none) :
    state.take registry static queries (.work place) = state := by
  simp [State.take, past]

theorem take_sound (sound : Sound registry static queries state) (turn : Turn) :
    Sound registry static queries (state.take registry static queries turn) := by
  cases turn with
  | other touch => exact ⟨touch_coherent sound.cache touch, sound.stages⟩
  | work place =>
    cases listed : queries[place]? with
    | none =>
      rw [take_past_end state listed]
      exact sound
    | some text =>
      obtain ⟨coherent, own⟩ := proceed_sound sound.cache (sound.stages place text listed)
      rw [take_work state listed]
      refine ⟨coherent, fun other otherText otherListed => ?_⟩
      dsimp only
      by_cases same : other = place
      · subst same
        obtain rfl := Option.some.inj (listed.symm.trans otherListed)
        rw [Function.update_self]
        exact own
      · rw [Function.update_of_ne same]
        exact sound.stages other otherText otherListed

/-- A turn at a place leaves less to do there, and no turn makes more work. -/
theorem take_left (state : State) (turn : Turn) {place : Nat}
    (listed : queries[place]? = some text) :
    ((state.take registry static queries turn).stages place).left ≤
      (state.stages place).left - [turn].count (.work place) := by
  cases turn with
  | other touch => simp [State.take]
  | work other =>
    by_cases same : other = place
    · subst same
      rw [take_work state listed]
      simpa using proceed_left registry static text (state.stages other) state.cache
    · have apart : place ≠ other := Ne.symm same
      cases otherListed : queries[other]? with
      | none => simp [take_past_end state otherListed, same]
      | some otherText => simp [take_work state otherListed, same, apart]

end Steps

section Runs
variable {registry : Registry} {static : StaticContext} {queries : List String} {text : String}
  {state : State}

theorem run_sound (sound : Sound registry static queries state) (turns : List Turn) :
    Sound registry static queries (state.run registry static queries turns) := by
  induction turns generalizing state with
  | nil => exact sound
  | cons turn rest ih => exact ih (take_sound sound turn)

theorem run_left (state : State) (turns : List Turn) {place : Nat}
    (listed : queries[place]? = some text) :
    ((state.run registry static queries turns).stages place).left ≤
      (state.stages place).left - turns.count (.work place) := by
  induction turns generalizing state with
  | nil => exact Nat.le_refl _
  | cons turn rest ih =>
    let taken := state.take registry static queries turn
    have first : (taken.stages place).left ≤
        (state.stages place).left - [turn].count (.work place) := take_left state turn listed
    have later := ih taken
    have both : (turn :: rest).count (.work place) =
        [turn].count (.work place) + rest.count (.work place) := by
      rw [← List.count_append, List.singleton_append]
    rw [both]
    exact later.trans (by omega)

theorem run_append (state : State) (first second : List Turn) :
    state.run registry static queries (first ++ second) =
      (state.run registry static queries first).run registry static queries second :=
  List.foldl_append

/-- Turns at one place alone are steps of the work there. -/
theorem run_at_place (state : State) {place : Nat} (listed : queries[place]? = some text)
    (count : Nat) :
    state.run registry static queries (List.replicate count (.work place)) =
      let reached := (proceed registry static text)^[count] (state.stages place, state.cache)
      ⟨reached.2, Function.update state.stages place reached.1⟩ := by
  induction count generalizing state with
  | zero => simp [State.run]
  | succ count ih =>
    have first : state.run registry static queries [.work place] =
        state.take registry static queries (.work place) := rfl
    rw [List.replicate_succ, ← List.singleton_append, run_append, first, take_work state listed, ih]
    simp [Function.iterate_succ_apply]

/-- Four steps without a turn in between are what one worker alone does. -/
theorem four_steps_alone (registry : Registry) (static : StaticContext) (text : String)
    (cache : Cache) :
    (proceed registry static text)^[4] (.waiting, cache) =
      (.answered (Batch.optimizeText registry static cache text).1,
        (Batch.optimizeText registry static cache text).2) := by
  have made : Batch.optimizeText registry static cache text =
      ((cache.get text).1.map fun parsed => (optimize registry static parsed.expr).render,
        (cache.get text).2) := rfl
  rw [made]
  rcases look_cases cache text with ⟨parsed, held, looked⟩ | ⟨absent, looked⟩
  · have got : cache.get text = (.ok parsed, { cache with kept := cache.kept.promote text }) := by
      rw [Cache.get, RecentlyUsed.get?, (RecentlyUsed.lookup_of_mem held).1]
    simp [proceed, looked, got, Except.map]
  · cases parses : parse text with
    | error error =>
      simp [proceed, looked, Cache.get, RecentlyUsed.get_absent absent, parses, Except.map]
    | ok expr =>
      simp [proceed, looked, Cache.get, RecentlyUsed.get_absent absent, parses, Except.map]

/-- One worker that takes the queries in order leaves the cache that answering them one after the
other leaves. -/
theorem in_order_cache (before rest : List String) (state : State)
    (waits : ∀ place, before.length ≤ place → state.stages place = .waiting) :
    (state.run registry static (before ++ rest) (inOrder before.length rest.length)).cache =
      (Batch.optimizeTexts registry static state.cache rest).2 := by
  induction rest generalizing before state with
  | nil => rfl
  | cons text rest ih =>
    have listed : (before ++ text :: rest)[before.length]? = some text := by simp
    have turns : inOrder before.length (text :: rest).length =
        List.replicate 4 (.work before.length) ++ inOrder (before ++ [text]).length rest.length := by
      simp [inOrder, List.range'_succ]
    rw [turns, run_append, run_at_place state listed, waits before.length (Nat.le_refl _),
      four_steps_alone, List.append_cons]
    refine (ih (before ++ [text]) _ ?_).trans rfl
    intro place beyond
    rw [List.length_append, List.length_singleton] at beyond
    have apart : place ≠ before.length := by omega
    dsimp only
    rw [Function.update_of_ne apart]
    exact waits place (by omega)

end Runs

/-- Workers that share a cache, however it has been used and whatever else uses it, leave for every
query no other answer than the one the query gets on its own, and after four turns they leave it.
That answer is the parse error or the text of the optimized query. One worker that takes the queries
in order does so too, and leaves the cache as answering them one after the other. -/
theorem batches_answer_separately (registry : Registry) (static : StaticContext) (capacity : Nat)
    (touches : List Touch) (queries : List String) (turns : List Turn) :
    let cache := used capacity touches
    let last := (State.begin cache).run registry static queries turns
    (∀ place text, queries[place]? = some text →
        (∀ answer, (last.stages place).answer? = some answer → answer = alone registry static text) ∧
        (4 ≤ turns.count (.work place) →
          (last.stages place).answer? = some (alone registry static text))) ∧
      (∀ text, alone registry static text =
        (parse text).map fun expr => (optimize registry static expr).render) ∧
      (Batch.optimizeTexts registry static cache queries).1 = queries.map (alone registry static) ∧
      (Batch.optimizeTexts registry static cache queries).2 =
        ((State.begin cache).run registry static queries (inOrder 0 queries.length)).cache := by
  intro cache last
  have coherent : Coherent cache.kept := used_coherent capacity touches
  have begun : Sound registry static queries (State.begin cache) :=
    ⟨coherent, fun _ _ _ => trivial⟩
  have sound : Sound registry static queries last := run_sound begun turns
  refine ⟨fun place text listed => ⟨?_, ?_⟩, alone_answer registry static,
    optimize_texts_alone registry static coherent queries,
    (in_order_cache [] queries (.begin cache) fun _ _ => rfl).symm⟩
  · intro answer answered
    exact answer_of_sound (sound.stages place text listed) answered
  · intro enough
    have left : (last.stages place).left ≤ _ := run_left (.begin cache) turns listed
    have none : (last.stages place).left = 0 :=
      Nat.eq_zero_of_le_zero (left.trans (Nat.sub_eq_zero_of_le enough).le)
    exact answered_of_none_left none (sound.stages place text listed)

section Sample
open CanonicalTrees RenderedForms RenderedText

/-- Entries of one collection are indexed by name. -/
def namedEntries : Registry :=
  let path : Pattern := ⟨[.gap, .named (.unqualified .element "entry")], false⟩
  Registry.empty.publish ⟨"/db/a", [{
    path
    fields := [⟨"name", path.push (.named (.unqualified .element "name")), {}⟩] }]⟩

def fromConfigured : StaticContext := { defaultCollections := ["/db/a"] }

/-- The entries of one name. -/
def namedQuery : Expr :=
  descend .root (.step ⟨.child, .named "entry",
    [[.binary (.step ⟨.child, .named "name", []⟩) .eq (.string "x")]]⟩)

theorem named_query_parses : parse "//entry[name = \"x\"]" = .ok namedQuery := by
  have entry : SingleName "entry" := single_word (by decide)
  have name : SingleName "name" := single_word (by decide)
  have compares : Canonical (.binary (.step ⟨.child, .named "name", []⟩) .eq (.string "x")) :=
    .binary .eq (.step name nofun nofun) (.string _)
  have canonical : Canonical namedQuery :=
    .rootDescent rfl (.step entry (by simp) (by simpa using compares))
  have text : namedQuery.render = "//entry[name = \"x\"]" := by with_unfolding_all rfl
  have plain : asCalls namedQuery = namedQuery := by with_unfolding_all rfl
  have read := faithful_read_back (canonical_faithful canonical) (canonical_spelled canonical)
  rwa [text, plain] at read

/-- A query twice, and a text that is none. -/
def repeatedQueries : List String := ["//entry[name = \"x\"]", "//entry[name = \"x\"]", "a["]

/-- Two workers both miss the query before either has put it in; the first insertion is lost at
once, and the text that is none is parsed in between. -/
def crossedTurns : List Turn :=
  [.work 0, .work 1, .work 0, .work 2, .work 1, .work 0, .other .clear, .work 2, .work 1, .work 0,
    .work 1, .work 2, .work 2]

/-- What the turns leave, with room for one query and another one in the cache before. -/
def crossed : State :=
  (State.begin (used 1 [.put "a" 7, .look "a"])).run namedEntries fromConfigured repeatedQueries
    crossedTurns

/-- Both workers give the same answer, and the text that is none gets its error. -/
theorem repeated_queries_answered :
    (crossed.stages 0).answer? = some (.ok "//range:field((\"name\"), (\"eq\"), \"x\")") ∧
      (crossed.stages 1).answer? = some (.ok "//range:field((\"name\"), (\"eq\"), \"x\")") ∧
      ∃ error, parse "a[" = .error error ∧ (crossed.stages 2).answer? = some (.error error) := by
  obtain ⟨each, separately, _⟩ := batches_answer_separately namedEntries fromConfigured 1
    [.put "a" 7, .look "a"] repeatedQueries crossedTurns
  have found : alone namedEntries fromConfigured "//entry[name = \"x\"]" =
      .ok "//range:field((\"name\"), (\"eq\"), \"x\")" := by
    rw [separately, named_query_parses]
    with_unfolding_all rfl
  have fails : ∃ error, parse "a[" = .error error := by with_unfolding_all exact ⟨_, rfl⟩
  obtain ⟨error, fails⟩ := fails
  have first := (each 0 "//entry[name = \"x\"]" rfl).2 (by decide)
  have second := (each 1 "//entry[name = \"x\"]" rfl).2 (by decide)
  have third := (each 2 "a[" rfl).2 (by decide)
  rw [found] at first second
  rw [separately, fails] at third
  rw [crossed]
  exact ⟨first, second, error, fails, third⟩

end Sample

end RangeIndex.BatchInterleaving
