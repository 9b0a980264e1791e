import RangeIndex.Proofs.IndexingBalance
import RangeIndex.Proofs.ScopeFrames
import RangeIndex.Proofs.WrittenDocument

/-! The scopes of an indexer along a document. The depth is counted in 16 bits, and the reader puts
no bound on how deep elements are nested. As long as never more than 65535 are open, the depth is
their number, and the scopes hold what each of them declares, frame by frame. With one more the
count starts over, and the next element that is left takes away the declarations of all that are
still open. -/
namespace RangeIndex.ScopeDepth
open Markup DocumentTrail NodeTrails ElementReading IndexingBalance ScopeFrames WrittenDocument
open ScopeNesting (declareAll depth_pop pop_uncounted)
open WrittenText (IsName Escaped)

section Definitions

/-- The frames of the open elements after one thing more is done, each with what its element
declares. -/
def framesAfter (frames : Stack) : Act → Stack
  | .enter _ attributes => (attributes.filterMap declaredBy?).foldl
      (fun frames (label, space) => frames.declare label space) frames.push
  | .leave => frames.pop
  | .take _ => frames

/-- What an indexer keeps of the documents before, as the frame outside all elements. -/
def keptFrame (indexer : Indexer) : Stack :=
  ⟨indexer.scopes.clear.declarations.map fun d => (d.label, d.space), []⟩

/-- A new indexer after documents. -/
def used (rules : RuleSet) (documents : List (List UInt8)) : Indexer :=
  documents.foldl (fun indexer document => (indexer.index document).1) (.new rules)

/-- The scopes of a walk are as deep as its location, and a label has the namespace that the frames
of the open elements give it. -/
structure Kept (walk : Walk) (frames : Stack) : Prop where
  depth : walk.scopes.depth.toNat = walk.location.length
  labels : ∀ label, walk.scopes.resolve label = frames.resolve label

/-- Nothing is done but to enter elements. -/
def Entering (acts : List Act) : Prop := ∀ a ∈ acts, ∃ name attributes, a = .enter name attributes

/-- The scopes at a position are frames one behind the other, one for each open element. -/
structure Framed (position : Position) (frames : Stack) : Prop where
  scopes : position.scopes = flat frames
  height : position.location.length = frames.outer.length

/-- No declaration is deeper than the scopes, or than one that was made after it. -/
structure Ordered (scopes : Scopes) : Prop where
  bounded : ∀ d ∈ scopes.declarations, d.depth ≤ scopes.depth
  descending : scopes.declarations.Pairwise fun later earlier => earlier.depth ≤ later.depth

/-- The depth of scopes is not ahead of the number of open elements. It may have fallen behind;
where it has not, the declarations are ordered. -/
structure Behind (scopes : Scopes) (level : Nat) : Prop where
  depth : scopes.depth.toNat ≤ level
  ordered : scopes.depth.toNat = level → Ordered scopes

end Definitions

section Frames
variable {position : Position} {frames : Stack} {reading : Reading}

theorem declare_all_flat (frames : Stack) (declared : List (String × String)) :
    declareAll (flat frames) declared =
      flat (declared.foldl (fun frames (label, space) => frames.declare label space) frames) := by
  induction declared generalizing frames with
  | nil => rfl
  | cons first rest ih =>
    rw [List.foldl_cons, ← ih, ← flat_declare]
    rfl

theorem height_declare (frames : Stack) (declared : List (String × String)) :
    (declared.foldl (fun frames (label, space) => frames.declare label space) frames).outer =
      frames.outer := by
  induction declared generalizing frames with
  | nil => rfl
  | cons first rest ih =>
    have same : (frames.declare first.1 first.2).outer = frames.outer := by
      unfold Stack.declare
      split <;> rfl
    exact (ih _).trans same

theorem height_pop (frames : Stack) : frames.pop.outer.length = frames.outer.length - 1 := by
  obtain ⟨top, outer⟩ := frames
  cases outer <;> rfl

/-- Entering an element needs no room: the count may start over. -/
theorem enter_framed (framed : Framed position frames) (name : String)
    (attributes : List Attribute) :
    Framed (position.enter name attributes).1 (framesAfter frames (.enter name attributes)) := by
  constructor
  case scopes =>
    have pushed : position.scopes.push = flat frames.push := by rw [framed.scopes, flat_push]
    exact (congrArg (declareAll · _) pushed).trans (declare_all_flat _ _)
  case height =>
    rw [framesAfter, height_declare, IndexerReuse.length_enter, framed.height]
    rfl

theorem leave_framed (framed : Framed position frames) (room : frames.outer.length ≤ 65535) :
    Framed position.leave.1 (framesAfter frames .leave) := by
  obtain ⟨location, scopes⟩ := position
  obtain ⟨rfl, height⟩ := framed
  dsimp only at height
  unfold Position.leave
  split
  · rename_i outside
    have outermost : frames.outer = [] :=
      List.eq_nil_of_length_eq_zero (height.symm.trans (Pattern.isEmpty_iff.mp outside))
    have stays : framesAfter frames .leave = frames := by
      rw [framesAfter, Stack.pop, outermost]
    rw [stays]
    exact ⟨rfl, height⟩
  · rename_i within
    have inside : 0 < frames.outer.length := by
      rw [← height]
      exact Nat.pos_of_ne_zero fun none => within (Pattern.isEmpty_iff.mpr none)
    constructor
    case scopes => exact flat_pop inside room
    case height =>
      rw [framesAfter, height_pop, ← height]
      simp [Pattern.pop, Pattern.length]

theorem act_framed (nest : Nest reading.inside reading.position.location)
    (framed : Framed reading.position frames) (room : frames.outer.length ≤ 65535) (a : Act) :
    Framed (reading.act a).1.position (framesAfter frames a) := by
  cases a with
  | enter name attributes => exact enter_framed framed name attributes
  | leave =>
    rw [Reading.act, position_after_leave nest]
    exact leave_framed framed room
  | take text => exact framed

/-- While no more elements are open than are counted, the scopes are the frames of the open
elements. -/
theorem perform_framed (nest : Nest reading.inside reading.position.location)
    (framed : Framed reading.position frames) {acts : List Act}
    (roomy : Roomy reading.inside.length acts) :
    Framed (perform Reading.act reading acts).1.position (acts.foldl framesAfter frames) := by
  induction acts generalizing reading frames with
  | nil => exact framed
  | cons a rest ih =>
    have here : reading.inside.length ≤ 65535 := roomy [] List.nil_prefix
    have room : frames.outer.length ≤ 65535 := by rwa [← framed.height, nest_length nest]
    obtain ⟨-, later⟩ := roomy_uncons roomy
    rw [← inside_after_act] at later
    exact ih (act_nests nest a) (act_framed nest framed room a) later

/-- Only leaving needs room: after nothing but start tags the scopes are the frames, however many
they are. -/
theorem entering_framed (framed : Framed reading.position frames) {acts : List Act}
    (entering : Entering acts) :
    Framed (perform Reading.act reading acts).1.position (acts.foldl framesAfter frames) := by
  induction acts generalizing reading frames with
  | nil => exact framed
  | cons a rest ih =>
    obtain ⟨⟨name, attributes, rfl⟩, later⟩ := List.forall_mem_cons.mp entering
    exact ih (enter_framed framed name attributes) later

theorem level_entering {acts : List Act} (entering : Entering acts) (level : Nat) :
    acts.foldl levelBy level = level + acts.length := by
  induction acts generalizing level with
  | nil => rfl
  | cons a rest ih =>
    obtain ⟨⟨name, attributes, rfl⟩, later⟩ := List.forall_mem_cons.mp entering
    rw [List.foldl_cons, ih later, levelBy, List.length_cons]
    omega

/-- An element that declares nothing changes the meaning of no label. -/
theorem resolve_push (frames : Stack) (label : String) :
    frames.push.resolve label = frames.resolve label := rfl

theorem resolve_nested (frames : Stack) (name label : String) (count : Nat) :
    ((List.replicate count (Act.enter name [])).foldl framesAfter frames).resolve label =
      frames.resolve label := by
  induction count generalizing frames with
  | zero => rfl
  | succ count ih =>
    rw [List.replicate_succ, List.foldl_cons, ih]
    exact resolve_push frames label

end Frames

section Counting
variable {scopes : Scopes} {level : Nat} {position : Position} {reading : Reading}

theorem push_behind (behind : Behind scopes level) : Behind scopes.push (level + 1) := by
  have counted : scopes.depth.toNat < 65536 := scopes.depth.toNat_lt
  have depth : scopes.push.depth.toNat = (scopes.depth.toNat + 1) % 65536 := by
    simp [Scopes.push, UInt16.toNat_add]
  have below := behind.depth
  constructor
  case depth =>
    rw [depth]
    omega
  case ordered =>
    intro even
    rw [depth] at even
    have ordered := behind.ordered (by omega)
    constructor
    case bounded =>
      intro d member
      have within := UInt16.le_iff_toNat_le.mp (ordered.bounded d member)
      rw [UInt16.le_iff_toNat_le, depth]
      omega
    case descending => exact ordered.descending

theorem declare_behind (behind : Behind scopes level) (label space : String) :
    Behind (scopes.declare label space) level := by
  unfold Scopes.declare
  split
  · exact behind
  · constructor
    case depth => exact behind.depth
    case ordered =>
      intro even
      have ordered := behind.ordered even
      constructor
      case bounded => exact List.forall_mem_cons.mpr ⟨UInt16.le_refl _, ordered.bounded⟩
      case descending => exact .cons ordered.bounded ordered.descending

theorem declare_all_behind (behind : Behind scopes level) (declared : List (String × String)) :
    Behind (declareAll scopes declared) level := by
  induction declared generalizing scopes with
  | nil => exact behind
  | cons first rest ih => exact ih (declare_behind behind first.1 first.2)

/-- Where leaving a scope takes from the front what is as deep, less deep declarations remain. -/
theorem pop_ordered (ordered : Ordered scopes) (counted : 0 < scopes.depth.toNat) :
    Ordered scopes.pop := by
  have monotone : scopes.declarations.Pairwise fun later earlier =>
      decide (scopes.depth ≤ earlier.depth) = true →
        decide (scopes.depth ≤ later.depth) = true := by
    refine ordered.descending.imp fun below deep => ?_
    rw [decide_eq_true_eq] at deep ⊢
    exact UInt16.le_trans deep below
  constructor
  case bounded =>
    intro d member
    have less := of_decide_eq_false (fails_once_failed monotone d member)
    rw [UInt16.le_iff_toNat_le] at less ⊢
    rw [depth_pop]
    omega
  case descending => exact ordered.descending.sublist (List.dropWhile_sublist _)

/-- A depth that has fallen behind may be zero. Then nothing is left that could be out of order. -/
theorem pop_behind (behind : Behind scopes (level + 1)) : Behind scopes.pop level := by
  have below := behind.depth
  by_cases uncounted : scopes.depth = 0
  · rw [pop_uncounted uncounted]
    exact ⟨Nat.zero_le _, fun _ => ⟨List.forall_mem_nil _, .nil⟩⟩
  · have counted : 0 < scopes.depth.toNat :=
      Nat.pos_of_ne_zero fun zero => uncounted (UInt16.toNat_inj.mp zero)
    constructor
    case depth =>
      rw [depth_pop]
      omega
    case ordered =>
      intro even
      rw [depth_pop] at even
      exact pop_ordered (behind.ordered (by omega)) counted

theorem leave_behind (behind : Behind position.scopes position.location.length) :
    Behind position.leave.1.scopes position.leave.1.location.length := by
  rw [length_leave]
  unfold Position.leave
  split
  · rename_i outside
    rw [Pattern.isEmpty_iff.mp outside] at behind ⊢
    exact behind
  · rename_i within
    have nonempty : position.location.length ≠ 0 := fun none =>
      within (Pattern.isEmpty_iff.mpr none)
    obtain ⟨level, same⟩ := Nat.exists_eq_succ_of_ne_zero nonempty
    rw [same] at behind ⊢
    exact pop_behind behind

theorem act_behind (nest : Nest reading.inside reading.position.location)
    (behind : Behind reading.position.scopes reading.position.location.length) (a : Act) :
    let next := (reading.act a).1.position
    Behind next.scopes next.location.length := by
  cases a with
  | enter name attributes =>
    have pushed := declare_all_behind (push_behind behind) (attributes.filterMap declaredBy?)
    have length := IndexerReuse.length_enter reading.position name attributes
    intro next
    rw [show next.location.length = reading.position.location.length + 1 from length]
    exact pushed
  | leave =>
    rw [Reading.act, position_after_leave nest]
    exact leave_behind behind
  | take text => exact behind

theorem perform_behind (nest : Nest reading.inside reading.position.location)
    (behind : Behind reading.position.scopes reading.position.location.length) (acts : List Act) :
    let last := (perform Reading.act reading acts).1.position
    Behind last.scopes last.location.length := by
  induction acts generalizing reading with
  | nil => exact behind
  | cons a rest ih => exact ih (act_nests nest a) (act_behind nest behind a)

end Counting

section Documents
variable {rules : RuleSet} {indexer : Indexer} {document : List UInt8}

/-- A walk is where a reader of the same things is. -/
theorem walk_position (indexer : Indexer) (acts : List Act) :
    positionOf (perform (act indexer.rules) (outside indexer) acts).1 =
      (perform Reading.act (.begin indexer.scopes.clear) acts).1.position :=
  (perform_mirrors (outside_mirrors indexer) acts).1.position

theorem clear_behind (behind : Behind indexer.scopes 0) : Behind indexer.scopes.clear 0 := by
  have even : indexer.scopes.depth.toNat = 0 := Nat.eq_zero_of_le_zero behind.depth
  have bounded := (behind.ordered even).bounded
  constructor
  case depth => exact Nat.le_refl 0
  case ordered =>
    intro _
    constructor
    case bounded =>
      intro d member
      have kept : d ∈ indexer.scopes.declarations :=
        List.mem_of_getLast? (Option.mem_toList.mp member)
      have zero : indexer.scopes.depth = 0 := UInt16.toNat_inj.mp even
      have within := bounded d kept
      rwa [zero] at within
    case descending =>
      rw [Scopes.clear]
      cases indexer.scopes.declarations.getLast? <;> simp

/-- Whatever the document, an indexer is outside all scopes after it. -/
theorem index_behind (configured : indexer.rules.rules ≠ []) (behind : Behind indexer.scopes 0)
    (document : List UInt8) : Behind (indexer.index document).1.scopes 0 := by
  let last := (perform (act indexer.rules) (outside indexer) (acts document)).1
  let read := (perform Reading.act (.begin indexer.scopes.clear) (acts document)).1.position
  have here : positionOf last = read := walk_position indexer (acts document)
  have counted : Behind read.scopes read.location.length := by
    have begun : Behind (Reading.begin indexer.scopes.clear).position.scopes 0 :=
      clear_behind behind
    exact perform_behind .outside begun (acts document)
  have outside : last.location = .empty := (walk_ends_outside indexer document).1
  rw [← here] at counted
  change Behind last.scopes last.location.length at counted
  rw [outside] at counted
  rw [(index_performs configured document).2.2.1]
  exact counted

theorem used_concat (rules : RuleSet) (before : List (List UInt8)) (last : List UInt8) :
    used rules (before ++ [last]) = ((used rules before).index last).1 := by
  simp [used]

theorem used_rules (rules : RuleSet) (documents : List (List UInt8)) :
    (used rules documents).rules = rules := by
  induction documents using List.reverseRecOn with
  | nil => rfl
  | append_singleton before last ih => rw [used_concat, Indexer.index_rules, ih]

theorem used_behind (configured : rules.rules ≠ []) (documents : List (List UInt8)) :
    Behind (used rules documents).scopes 0 := by
  induction documents using List.reverseRecOn with
  | nil =>
    refine ⟨Nat.le_refl 0, fun _ => ⟨?_, List.pairwise_singleton _ _⟩⟩
    exact List.forall_mem_singleton.mpr (UInt16.le_refl _)
  | append_singleton before last ih =>
    rw [used_concat]
    exact index_behind (by rwa [used_rules]) ih last

/-- What is kept of the documents before has the depth of no scope. -/
theorem outside_framed (behind : Behind indexer.scopes 0) :
    Framed (positionOf (outside indexer)) (keptFrame indexer) := by
  have even : indexer.scopes.clear.depth.toNat = 0 := rfl
  have bounded := ((clear_behind behind).ordered even).bounded
  constructor
  case scopes =>
    have declared : tagged (keptFrame indexer).frames = indexer.scopes.clear.declarations := by
      simp only [keptFrame, Stack.frames, tagged, taggedFrame, List.map_map, List.append_nil]
      refine List.map_congr_left (fun d member => ?_) |>.trans (List.map_id _)
      have zero : d.depth = 0 := UInt16.le_zero_iff.mp (bounded d member)
      simp [← zero]
    rw [flat, declared]
    rfl
  case height => rfl

/-- As long as no more elements are open than are counted, a walk has the scopes of the open
elements. -/
theorem walk_kept (behind : Behind indexer.scopes 0) {done : List Act} (roomy : Roomy 0 done) :
    Kept (perform (act indexer.rules) (outside indexer) done).1
      (done.foldl framesAfter (keptFrame indexer)) := by
  let walk := (perform (act indexer.rules) (outside indexer) done).1
  let frames := done.foldl framesAfter (keptFrame indexer)
  have framed : Framed (positionOf walk) frames := by
    rw [walk_position]
    exact perform_framed .outside (outside_framed behind) roomy
  have scopes : walk.scopes = flat frames := framed.scopes
  have location : walk.location.length = frames.outer.length := framed.height
  have counted : frames.outer.length < UInt16.size := by
    rw [← location, length_after]
    exact Nat.lt_succ_of_le (roomy done (List.prefix_refl _))
  constructor
  case depth =>
    rw [scopes, location]
    exact UInt16.toNat_ofNat_of_lt' counted
  case labels =>
    intro label
    rw [scopes, flat_resolve]

/-- With 65536 elements open none is counted, since the height of the frames is a multiple of the
counter's range. Leaving one takes away what all of them declare, and what is declared outside. -/
theorem overcounted_forgets (same : indexer.rules = rules) (behind : Behind indexer.scopes 0)
    {starts : List Act} (entering : Entering starts) (many : starts.length = 65536) :
    let left := (perform (act rules) (outside indexer) (starts ++ [.leave])).1
    left.location.length = 65535 ∧ left.scopes = ⟨[], 0⟩ := by
  subst same
  intro left
  let read := (perform Reading.act (.begin indexer.scopes.clear) starts).1
  have nest : Nest read.inside read.position.location := perform_nests .outside starts
  have framed : Framed read.position (starts.foldl framesAfter (keptFrame indexer)) :=
    entering_framed (outside_framed behind) entering
  have level : read.position.location.length = 65536 := by
    rw [nest_length nest, inside_after, level_entering entering, many]
    exact Nat.zero_add _
  have uncounted : read.position.scopes.depth = 0 := by
    rw [framed.scopes, flat, ← framed.height, level]
    rfl
  have position : positionOf left = read.position.leave.1 := by
    rw [walk_position, perform_append]
    exact position_after_leave nest
  have within : ¬ read.position.location.isEmpty = true := by
    rw [Pattern.isEmpty_iff, level]
    decide
  constructor
  · have length : left.location.length = read.position.leave.1.location.length :=
      congrArg (fun p => p.location.length) position
    rw [length, length_leave, level]
  · have scopes : left.scopes = read.position.leave.1.scopes := congrArg Position.scopes position
    rw [scopes, Position.leave, if_neg within]
    exact pop_uncounted uncounted

/-- Where the depth is right all the way, no more elements are open than are counted. -/
theorem roomy_of_kept {acts : List Act}
    (kept : ∀ done, done <+: acts → Kept (perform (act indexer.rules) (outside indexer) done).1
      (done.foldl framesAfter (keptFrame indexer))) : Roomy 0 acts := by
  intro done first
  rw [← length_after indexer done, ← (kept done first).depth]
  exact Nat.le_of_lt_succ (UInt16.toNat_lt _)

end Documents

/-- The scopes of an indexer are as deep as elements are open, and hold what each open element
declares, all the way through a document exactly if never more than 65535 elements are open at once.
This is so whatever documents the indexer had before. -/
theorem scopes_kept_iff {rules : RuleSet} (configured : rules.rules ≠ [])
    (earlier : List (List UInt8)) (document : List UInt8) :
    let indexer := used rules earlier
    let walk := perform (act rules) (outside indexer)
    let last := walk (acts document)
    let after := (indexer.index document).1
    (after.rules = rules ∧ after.cursor.pattern = last.1.location ∧ after.scopes = last.1.scopes ∧
        (indexer.index document).2 = last.2) ∧
      (∀ done, (walk done).1.location.length = done.foldl levelBy 0) ∧
      ((∀ done, done <+: acts document →
          Kept (walk done).1 (done.foldl framesAfter (keptFrame indexer))) ↔
        Roomy 0 (acts document)) := by
  intro indexer walk last after
  have same : indexer.rules = rules := used_rules rules earlier
  have behind : Behind indexer.scopes 0 := used_behind configured earlier
  have performed : walk = perform (act indexer.rules) (outside indexer) := by rw [same]
  refine ⟨?_, ?_, ?_, ?_⟩
  · have indexed := index_performs (by rwa [same]) document
    rwa [same] at indexed
  · rw [performed]
    exact length_after indexer
  · rw [performed]
    exact roomy_of_kept
  · intro roomy done first
    rw [performed]
    exact walk_kept behind fun part within => roomy part (within.trans first)

section Sample

/-- The elements `b` of the namespace `u` in elements `a` are indexed. -/
def labelledRules : RuleSet :=
  ⟨"/db", [{ path := ⟨[.named (.unqualified .element "a"),
    .named (.ofParts .element (some "u") "b" (some "p"))], false⟩ }]⟩

/-- The label that the root declares has its namespace after an inner element, which declares it
anew, has ended. -/
def shadowedDocument : List UInt8 := bytesOf "<a xmlns:p='u'><a xmlns:p='v'/><p:b/></a>"

theorem shadowed_label_kept :
    labelledRules.rules ≠ [] ∧ Roomy 0 (acts shadowedDocument) ∧
      let walk := perform (act labelledRules) (outside (.new labelledRules))
      ∃ done, done <+: acts shadowedDocument ∧ done.length = 3 ∧
        (walk done).1.scopes.depth.toNat = 1 ∧ (walk done).1.scopes.resolve "p" = some "u" := by
  have configured : labelledRules.rules ≠ [] := List.cons_ne_nil _ _
  have roomy : Roomy 0 (acts shadowedDocument) := by
    refine document_roomy ?_
    unfold IndexerReuse.Shallow
    with_unfolding_all decide
  obtain ⟨-, levels, -, kept⟩ := scopes_kept_iff configured [] shadowedDocument
  have first : (acts shadowedDocument).take 3 <+: acts shadowedDocument := List.take_prefix _ _
  have here := kept roomy _ first
  refine ⟨configured, roomy, _, first, ?_, ?_, ?_⟩
  · with_unfolding_all rfl
  · refine here.depth.trans ((levels _).trans ?_)
    with_unfolding_all rfl
  · refine (here.labels "p").trans ?_
    with_unfolding_all rfl

/-- Elements one inside the other, so many of them in the root, which declares a label. -/
def nestedStarts (count : Nat) : List Act :=
  .enter "a" [⟨"xmlns:p", "u"⟩] :: .replicate count (.enter "a" [])

/-- The document of these elements; behind them the root has an element with the label. -/
def nestedDocument (count : Nat) : List UInt8 :=
  startTag "a" (bytesOf " xmlns:p='u'") false ++
    ((List.replicate count (startTag "a" [] false)).flatten ++
      ((List.replicate count (endTag "a" [])).flatten ++ bytesOf "<p:b>x</p:b></a>"))

theorem root_event (rest : List UInt8) :
    events (startTag "a" (bytesOf " xmlns:p='u'") false ++ rest) =
      .opened "a" [⟨"xmlns:p", "u"⟩] false :: events rest := by
  have a : IsName "a" := ⟨0x61, [], by decide, rfl, List.forall_mem_nil _⟩
  have label : IsName "xmlns:p" :=
    ⟨0x78, bytesOf "mlns:p", by decide, rfl, List.all_eq_true.mp rfl⟩
  have value : Escaped ['&', '\''] ['u'] _ := .plain (by decide) .nil
  have attributes : WrittenAttributes [⟨"xmlns:p", "u"⟩] (bytesOf " xmlns:p='u'") := by
    have written : WrittenAttributes [⟨"xmlns:p", "u"⟩] _ :=
      .more blank_gap (by simp) (.quoted (.inr rfl) nothing_gap nothing_gap value)
        (.none nothing_gap)
    refine Eq.subst (motive := WrittenAttributes _) ?_ written
    decide
  exact start_tag_event a (List.forall_mem_singleton.mpr label) attributes false rest

theorem nested_events (count : Nat) (rest : List UInt8) :
    events ((List.replicate count (startTag "a" [] false)).flatten ++ rest) =
      List.replicate count (.opened "a" [] false) ++ events rest := by
  have a : IsName "a" := ⟨0x61, [], by decide, rfl, List.forall_mem_nil _⟩
  induction count with
  | zero => rfl
  | succ count ih =>
    rw [List.replicate_succ, List.flatten_cons, List.append_assoc,
      start_tag_event a (List.forall_mem_nil _) (.none nothing_gap), ih]
    rfl

theorem nested_starts_first {count : Nat} (nested : count ≠ 0) :
    nestedStarts count ++ [Act.leave] <+: acts (nestedDocument count) := by
  obtain ⟨count, rfl⟩ := Nat.exists_eq_succ_of_ne_zero nested
  have a : IsName "a" := ⟨0x61, [], by decide, rfl, List.forall_mem_nil _⟩
  let after := (List.replicate count (endTag "a" [])).flatten ++ bytesOf "<p:b>x</p:b></a>"
  have ends : (List.replicate (count + 1) (endTag "a" [])).flatten ++ bytesOf "<p:b>x</p:b></a>" =
      endTag "a" [] ++ after := by
    rw [List.replicate_succ, List.flatten_cons, List.append_assoc]
  have told : (events (nestedDocument (count + 1))).flatMap actsOf =
      nestedStarts (count + 1) ++ [.leave] ++ (events after).flatMap actsOf := by
    rw [nestedDocument, ends, root_event, nested_events, end_tag_event a nothing_gap,
      List.flatMap_cons, List.flatMap_append, List.flatMap_cons, List.flatMap_replicate]
    change _ :: ((List.replicate (count + 1) [Act.enter "a" []]).flatten ++ (.leave :: _)) = _
    rw [List.flatten_replicate_singleton, nestedStarts, List.append_assoc]
    rfl
  rw [acts, told, List.append_assoc]
  exact List.prefix_append _ _

theorem nested_entering (count : Nat) : Entering (nestedStarts count) := by
  refine List.forall_mem_cons.mpr ⟨⟨_, _, rfl⟩, fun a member => ⟨"a", [], ?_⟩⟩
  exact List.eq_of_mem_replicate member

/-- In the frames the root has its label when an element in it is left. -/
theorem nested_label {count : Nat} (nested : count ≠ 0) :
    ((nestedStarts count ++ [Act.leave]).foldl framesAfter
      (keptFrame (.new labelledRules))).resolve "p" = some "u" := by
  obtain ⟨count, rfl⟩ := Nat.exists_eq_succ_of_ne_zero nested
  let root := framesAfter (keptFrame (.new labelledRules)) (.enter "a" [⟨"xmlns:p", "u"⟩])
  have declared : root.resolve "p" = some "u" := by with_unfolding_all rfl
  have frames : (nestedStarts (count + 1) ++ [Act.leave]).foldl framesAfter
      (keptFrame (.new labelledRules)) =
        (List.replicate count (.enter "a" [])).foldl framesAfter root := by
    rw [nestedStarts, List.replicate_succ', List.cons_append, List.foldl_cons, List.foldl_append,
      List.foldl_append]
    rfl
  rw [frames, resolve_nested, declared]

/-- The label of the root is lost with an inner element when as many are open that none is
counted. -/
theorem nested_label_lost {count : Nat} (full : count + 1 = 65536) :
    let left := (perform (act labelledRules) (outside (.new labelledRules))
      (nestedStarts count ++ [.leave])).1
    left.location.length = 65535 ∧ left.scopes.depth = 0 ∧ left.scopes.resolve "p" = none := by
  have behind : Behind (Indexer.new labelledRules).scopes 0 :=
    used_behind (List.cons_ne_nil _ _) []
  have same : (Indexer.new labelledRules).rules = labelledRules := rfl
  have many : (nestedStarts count).length = 65536 := by
    rw [nestedStarts, List.length_cons, List.length_replicate, full]
  obtain ⟨length, scopes⟩ := overcounted_forgets same behind (nested_entering count) many
  refine ⟨length, ?_, ?_⟩
  · rw [scopes]
  · rw [scopes]
    rfl

/-- With 65536 elements open no scope is counted. When the innermost is left, the label of the root
loses the namespace that it has in the frames. -/
theorem overcounted_label_lost :
    let walk := perform (act labelledRules) (outside (.new labelledRules))
    let done := nestedStarts 65535 ++ [.leave]
    labelledRules.rules ≠ [] ∧ done <+: acts (nestedDocument 65535) ∧
      ((walk done).1.location.length = 65535 ∧ (walk done).1.scopes.depth = 0 ∧
        (walk done).1.scopes.resolve "p" = none) ∧
      (done.foldl framesAfter (keptFrame (.new labelledRules))).resolve "p" = some "u" := by
  have nested : 65535 ≠ 0 := by decide
  exact ⟨List.cons_ne_nil _ _, nested_starts_first nested, nested_label_lost rfl,
    nested_label nested⟩

end Sample

end RangeIndex.ScopeDepth
