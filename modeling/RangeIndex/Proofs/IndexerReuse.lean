import Mathlib.Data.List.Induction
import RangeIndex.Batch
import RangeIndex.Proofs.IndexingSemantics
import RangeIndex.Proofs.NodeTrails
import RangeIndex.Proofs.ScopeNesting

/-! Indexers that are used again. All that an indexer keeps from one document to the next are its
cursor and its scopes. A document may leave elements open, close others that never started and declare
what it likes: whatever is open at its end is left then, and with tags nested at most 65535 deep each
element that is left takes away what it declared. So a walk ends at the location and in the scopes it
began with, after every document an indexer is as it was made but for the room of its cursor, and
workers that each use one again and again give the same answers, in whatever order they take the
documents. -/
namespace RangeIndex.IndexerReuse
open Batch Markup ScopeNesting DocumentTrail NodeTrails
open IndexingSemantics (start)

section Definitions

/-- How many elements are open at an event, also one that ends with it. -/
def levelIn (level : Nat) : Event → Nat
  | .opened _ _ _ => level + 1
  | .closed _ => level
  | .characters _ => level

/-- How many elements are open after an event. An end tag that ends nothing is passed over. -/
def levelAfter (level : Nat) : Event → Nat
  | .opened _ _ selfClosing => if selfClosing then level else level + 1
  | .closed _ => level - 1
  | .characters _ => level

/-- How many elements are ever open at once. -/
def deepest (level : Nat) : List Event → Nat
  | [] => level
  | event :: rest => max (levelIn level event) (deepest (levelAfter level event) rest)

/-- The tags of a document are nested no deeper than scopes are counted. -/
def Shallow (document : List UInt8) : Prop := deepest 0 (events document) ≤ 65535

/-- Scopes inside so many elements, entered one after the other with what each declares. -/
inductive Nested : Nat → Scopes → Prop where
  | document : Nested 0 .initial
  | inside {level : Nat} {scopes : Scopes} (declared : List (String × String)) :
    Nested level scopes → Nested (level + 1) (declareAll scopes.push declared)

/-- The scopes of a reader are those of the elements that are open where it is. -/
def InStep (position : Position) : Prop := Nested position.location.length position.scopes

/-- An indexer is as it was made, but for the room of its cursor. -/
structure Returned (rules : RuleSet) (indexer : Indexer) : Prop where
  rules : indexer.rules = rules
  cursor : indexer.cursor.pattern = .empty
  scopes : indexer.scopes = .initial

/-- What a new indexer makes of a document. -/
def alone (rules : RuleSet) (document : List UInt8) : List IndexEntry :=
  ((Indexer.new rules).index document).2

end Definitions

section Scoping
variable {level : Nat} {scopes : Scopes}

theorem nested_holds (nested : Nested level scopes) (room : level ≤ 65535) :
    ∃ bindings, Holds scopes bindings level := by
  induction nested with
  | document => exact ⟨.initial, initial_holds⟩
  | inside declared _ ih =>
    obtain ⟨bindings, holds⟩ := ih (Nat.le_of_succ_le room)
    exact ⟨_, declare_all_holds (push_holds holds room) declared⟩

/-- Leaving the innermost element leaves the scopes of those around it. -/
theorem nested_pop (nested : Nested (level + 1) scopes) (room : level < 65535) :
    Nested level scopes.pop := by
  cases nested with
  | inside declared outer =>
    obtain ⟨bindings, holds⟩ := nested_holds outer (Nat.le_of_lt room)
    rw [leaving_restores_scopes holds room declared]
    exact outer

theorem nested_outside (nested : Nested 0 scopes) : scopes = .initial := by
  cases nested
  rfl

end Scoping

section Reading
variable {position : Position}

theorem enter_in_step (inStep : InStep position) (name : String) (attributes : List Attribute) :
    InStep (position.enter name attributes).1 := by
  unfold InStep Position.enter
  rw [Pattern.length_push]
  exact .inside _ inStep

theorem length_enter (position : Position) (name : String) (attributes : List Attribute) :
    (position.enter name attributes).1.location.length = position.location.length + 1 :=
  Pattern.length_push _ _

theorem leave_in_step (inStep : InStep position) (room : position.location.length ≤ 65535) :
    InStep position.leave.1 := by
  unfold Position.leave
  split
  · exact inStep
  · rename_i within
    obtain ⟨upper, last, same⟩ := nonempty_is_push (Bool.eq_false_iff.mpr within)
    unfold InStep at inStep ⊢
    dsimp only
    rw [same, Pattern.length_push] at inStep room
    rw [same, Pattern.pop_push]
    exact nested_pop inStep room

/-- One event keeps a reader in step with what is open. A short tag is deeper for a moment, which is
the level counted at the event. -/
theorem step_in_step (inStep : InStep position) {event : Event}
    (room : levelIn position.location.length event ≤ 65535) :
    InStep (position.step event).1 ∧
      (position.step event).1.location.length = levelAfter position.location.length event := by
  cases event with
  | opened name attributes selfClosing =>
    have entered := enter_in_step inStep name attributes
    have inner := length_enter position name attributes
    cases selfClosing with
    | false => exact ⟨entered, inner⟩
    | true =>
      have left := length_leave (position.enter name attributes).1
      rw [inner, Nat.add_sub_cancel] at left
      exact ⟨leave_in_step entered (inner.trans_le room), left⟩
  | closed name => exact ⟨leave_in_step inStep room, length_leave position⟩
  | characters text => exact ⟨inStep, rfl⟩

theorem run_in_step (inStep : InStep position) {events : List Event}
    (room : deepest position.location.length events ≤ 65535) :
    InStep (position.run events).1 ∧ (position.run events).1.location.length ≤ 65535 := by
  induction events generalizing position with
  | nil => exact ⟨inStep, room⟩
  | cons event rest ih =>
    obtain ⟨here, later⟩ := Nat.max_le.mp room
    obtain ⟨next, level⟩ := step_in_step inStep here
    rw [← level] at later
    exact ih next later

theorem leave_all_in_step (inStep : InStep position) (room : position.location.length ≤ 65535)
    (count : Nat) : InStep (position.leaveAll count).1 := by
  induction count generalizing position with
  | zero => exact inStep
  | succ count ih =>
    apply ih (leave_in_step inStep room)
    rw [length_leave]
    exact Nat.le_trans (Nat.sub_le _ _) room

/-- Where reading a document begins. -/
def outside : Position := ⟨.empty, .initial⟩

/-- Reading a document and leaving what is open at its end leads back to where it began. -/
theorem reading_returns {document : List UInt8} (shallow : Shallow document) :
    let last := (outside.run (events document)).1
    (last.leaveAll last.location.length).1 = outside := by
  intro last
  have begun : InStep outside := .document
  obtain ⟨inStep, room⟩ := run_in_step begun shallow
  have location : (last.leaveAll last.location.length).1.location = .empty :=
    leave_all_outside (run_inside .begin (events document))
  have scopes := leave_all_in_step inStep room last.location.length
  rw [InStep, location] at scopes
  calc (last.leaveAll last.location.length).1
    _ = ⟨.empty, (last.leaveAll last.location.length).1.scopes⟩ := by rw [← location]
    _ = outside := by rw [nested_outside scopes, outside]

end Reading

section Reuse
variable {rules : RuleSet}

/-- The walk of a document ends where it began, at no location and in the scopes of no element. -/
theorem walk_returns (rules : RuleSet) {document : List UInt8} (shallow : Shallow document) :
    let walked := start.run rules (events document)
    positionOf (walked.1.leaveAll walked.1.location.length).1 = outside := by
  intro walked
  let read := outside.run (events document)
  have nothing : Tracks rules [] start := ⟨by simp [start], List.Pairwise.nil⟩
  have ran : Agrees rules [] read walked := run_agrees nothing (events document)
  have left := leave_all_agrees ran.tracks walked.1.location.length
  rw [ran.position] at left
  have last : walked.1.location = read.1.location := congrArg Position.location ran.position
  rw [left.position, last]
  exact reading_returns shallow

theorem new_returned (rules : RuleSet) : Returned rules (.new rules) := ⟨rfl, rfl, rfl⟩

/-- An indexer that is as it was made does with a document what a new one does, and is so again after
it. -/
theorem index_returned {indexer : Indexer} (returned : Returned rules indexer)
    {document : List UInt8} (shallow : Shallow document) :
    Returned rules (indexer.index document).1 ∧ (indexer.index document).2 = alone rules document := by
  have same := returned.rules
  have reused := indexer.index_eq document
  have made := (Indexer.new rules).index_eq document
  dsimp only at reused made
  rw [same, returned.scopes] at reused
  change if rules.rules.isEmpty = true then _ else _ at made
  by_cases none : rules.rules.isEmpty = true
  · rw [if_pos none] at reused made
    obtain ⟨cursor, scopes, entries⟩ := reused
    exact ⟨⟨(indexer.index_rules document).trans same, cursor, scopes⟩,
      entries.trans made.2.2.symm⟩
  · rw [if_neg none] at reused made
    obtain ⟨cursor, scopes, entries⟩ := reused
    have last : Position.mk _ _ = outside := walk_returns rules shallow
    exact ⟨⟨(indexer.index_rules document).trans same,
      cursor.trans (congrArg Position.location last),
      scopes.trans (congrArg Position.scopes last)⟩, entries.trans made.2.2.symm⟩

/-- Documents indexed one after the other give the same answers as each on its own. -/
theorem index_all_separately {indexer : Indexer} (returned : Returned rules indexer)
    {documents : List (List UInt8)} (shallow : ∀ document ∈ documents, Shallow document) :
    indexer.indexAll documents = documents.map (alone rules) := by
  induction documents generalizing indexer with
  | nil => rfl
  | cons document rest ih =>
    obtain ⟨here, later⟩ := List.forall_mem_cons.mp shallow
    obtain ⟨again, entries⟩ := index_returned returned here
    rw [Indexer.indexAll]
    dsimp only
    rw [entries, ih again later, List.map_cons]

end Reuse

section Workers
variable {rules : RuleSet} {documents : List (List UInt8)} {turns : List Turn} {pool : Pool}

/-- The answers that turns give when each document is indexed on its own. -/
def separately (rules : RuleSet) (documents : List (List UInt8)) (turns : List Turn) :
    List (Nat × List IndexEntry) :=
  turns.filterMap fun turn => documents[turn.place]?.map fun document =>
    (turn.place, alone rules document)

theorem separately_concat (turn : Turn) :
    separately rules documents (turns ++ [turn]) = separately rules documents turns ++
      (documents[turn.place]?.map fun document => (turn.place, alone rules document)).toList := by
  rw [separately, List.filterMap_append, separately, List.filterMap_cons]
  cases documents[turn.place]? <;> rfl

/-- A pool has answered turns when every indexer is as it was made and every answer is that of an
indexer of its own. -/
structure Answered (rules : RuleSet) (documents : List (List UInt8)) (turns : List Turn)
    (pool : Pool) : Prop where
  indexers : ∀ worker, Returned rules (pool.indexers worker)
  answers : pool.answers = separately rules documents turns

theorem take_answers (shallow : ∀ document ∈ documents, Shallow document)
    (answered : Answered rules documents turns pool) (turn : Turn) :
    Answered rules documents (turns ++ [turn]) (pool.take documents turn) := by
  unfold Pool.take
  cases found : documents[turn.place]? with
  | none =>
    constructor
    case indexers => exact answered.indexers
    case answers =>
      rw [answered.answers, separately_concat, found]
      exact (List.append_nil _).symm
  | some document =>
    have listed : document ∈ documents := List.mem_of_getElem? found
    obtain ⟨again, entries⟩ :=
      index_returned (answered.indexers turn.worker) (shallow document listed)
    constructor
    case indexers =>
      intro worker
      dsimp only
      split
      · exact again
      · exact answered.indexers worker
    case answers =>
      dsimp only
      rw [separately_concat, found, answered.answers, entries]
      rfl

theorem run_answers (shallow : ∀ document ∈ documents, Shallow document) (turns : List Turn) :
    Answered rules documents turns ((Pool.new rules).run documents turns) := by
  induction turns using List.reverseRecOn with
  | nil => exact ⟨fun _ => new_returned rules, rfl⟩
  | append_singleton turns turn ih =>
    rw [Pool.run, List.foldl_append]
    exact take_answers shallow ih turn

/-- A place that had a turn has the answer of its document. -/
theorem lookup_separately {place : Nat} {document : List UInt8}
    (listed : documents[place]? = some document) (taken : place ∈ turns.map Turn.place) :
    (separately rules documents turns).lookup place = some (alone rules document) := by
  induction turns with
  | nil => cases taken
  | cons turn rest ih =>
    rw [separately, List.filterMap_cons]
    by_cases own : turn.place = place
    · simp [own, listed]
    · have later : place ∈ rest.map Turn.place :=
        (List.mem_cons.mp taken).resolve_left (Ne.symm own)
      have passed : (place == turn.place) = false := beq_eq_false_iff_ne.mpr (Ne.symm own)
      cases documents[turn.place]? with
      | none => exact ih later
      | some other =>
        rw [Option.map_some, List.lookup_cons, passed]
        exact ih later

/-- When every place has had a turn, the answers gathered are those of documents indexed on their
own. -/
theorem gathered_separately (answered : Answered rules documents turns pool)
    (all : (turns.map Turn.place).Perm (List.range documents.length)) :
    pool.gathered documents = (documents.map (alone rules)).map some := by
  apply List.ext_getElem?
  intro place
  by_cases within : place < documents.length
  · have range := List.getElem?_range within
    have taken : place ∈ turns.map Turn.place := all.mem_iff.mpr (List.mem_range.mpr within)
    have listed := List.getElem?_eq_getElem within
    rw [Pool.gathered, List.getElem?_map, range, Option.map_some, answered.answers,
      lookup_separately listed taken, List.getElem?_map, List.getElem?_map, listed,
      Option.map_some, Option.map_some]
  · have past := Nat.not_lt.mp within
    rw [List.getElem?_eq_none (by simpa [Pool.gathered] using past),
      List.getElem?_eq_none (by simpa using past)]

theorem extract_separately (shallow : ∀ document ∈ documents, Shallow document)
    (schedule : Schedule documents.length) :
    extractBy rules documents schedule = documents.map (alone rules) := by
  have answered : Answered rules documents schedule.turns
      ((Pool.new rules).run documents schedule.turns) := run_answers shallow schedule.turns
  have gathered := gathered_separately answered schedule.complete
  rw [extractBy, gathered, List.filterMap_map]
  exact List.filterMap_some

end Workers

/-- Workers that each use one indexer again and again, in turns of any order that take each document
once, leave at every place what a new indexer makes of the document there. So does one worker alone
that takes the documents in order. -/
theorem reused_indexers_agree (rules : RuleSet) (documents : List (List UInt8))
    (shallow : ∀ document ∈ documents, Shallow document) (turns : List Turn)
    (all : (turns.map Turn.place).Perm (List.range documents.length)) :
    let separate := documents.map fun document => ((Indexer.new rules).index document).2
    ((Pool.new rules).run documents turns).gathered documents = separate.map some ∧
      extractBy rules documents ⟨turns, all⟩ = separate ∧
      extract rules documents = separate ∧
      Indexer.indexAll (.new rules) documents = separate := by
  intro separate
  exact ⟨gathered_separately (run_answers shallow turns) all, extract_separately shallow _,
    extract_separately shallow _, index_all_separately (new_returned rules) shallow⟩

section Sample

/-- Entries in no namespace are indexed by their text. -/
def plainEntries : RuleSet :=
  ⟨"/db", [{ path := ⟨[.gap, .named (.unqualified .element "entry")], false⟩ }]⟩

/-- One document leaves an element open that puts names in a namespace, and the next begins with the
end of an element that never started. -/
def brokenDocuments : List (List UInt8) :=
  ["<a xmlns='u'><entry>x", "</a><entry>y</entry>", "<entry>z"].map bytesOf

/-- One worker takes the first two documents, and another the last one in between. -/
def twoWorkers : List Turn := [⟨0, 0⟩, ⟨1, 2⟩, ⟨0, 1⟩]

/-- What the first document declares is not in force in the second. -/
theorem broken_documents_agree :
    (∀ document ∈ brokenDocuments, Shallow document) ∧
      (twoWorkers.map Turn.place).Perm (List.range brokenDocuments.length) ∧
      ((Pool.new plainEntries).run brokenDocuments twoWorkers).gathered brokenDocuments =
        [some [], some [⟨0, "/entry", [⟨none, "y", {}⟩]⟩],
          some [⟨0, "/entry", [⟨none, "z", {}⟩]⟩]] := by
  have shallow : ∀ document ∈ brokenDocuments, Shallow document := by
    unfold Shallow
    with_unfolding_all decide
  have all : (twoWorkers.map Turn.place).Perm (List.range brokenDocuments.length) := by decide
  have agrees := (reused_indexers_agree plainEntries brokenDocuments shallow twoWorkers all).1
  exact ⟨shallow, all, agrees.trans (by with_unfolding_all rfl)⟩

end Sample

end RangeIndex.IndexerReuse
