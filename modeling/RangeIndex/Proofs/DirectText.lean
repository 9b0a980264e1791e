import RangeIndex.Proofs.IndexingBalance
import RangeIndex.Proofs.PatternContainment

/-! The text that a simple rule takes from an element when nested text is left out. A text of a document
is directly in the innermost element that is open around it. The collector of a simple rule does not
know which element that is: it takes a text wherever the rule's path matches the location. So it takes
all that is directly in its element, and besides that the text of elements further in whose locations
the path matches too. The paths that keep to the direct text are those for which there is no such text,
and a path without gaps is always one of them. -/
namespace RangeIndex.DirectText
open Markup DocumentTrail FieldSources ElementReading IndexingBalance
open ComplexRuleNodes (flatMap_chosen met_at_place)

section Definitions

/-- A text of a document, with the numbers of the elements it is in, the innermost first. -/
structure Passage where
  around : List Nat
  location : Pattern
  content : String
deriving DecidableEq, Repr

namespace Passage

/-- Whether the text is in an element. -/
def isIn (number : Nat) (passage : Passage) : Bool := passage.around.contains number

/-- Whether an element is the innermost around the text. -/
def isDirectlyIn (number : Nat) (passage : Passage) : Bool := passage.around.head? == some number

/-- What nodes are told of the text. -/
def notice (passage : Passage) : Notice := .text passage.content passage.location

end Passage

/-- The text that is met when one thing is done. -/
def passageOf (reading : Reading) : Act → List Passage
  | .take text => [⟨reading.inside.map Element.number, reading.position.location, text⟩]
  | _ => []

/-- The texts that are met, in order. -/
def passages : Reading → List Act → List Passage
  | _, [] => []
  | reading, a :: rest => passageOf reading a ++ passages (reading.act a).1 rest

/-- The contents of texts, one after the other. -/
def joined (passages : List Passage) : String := String.join (passages.map Passage.content)

/-- The text directly in an element. -/
def directText (number : Nat) (passages : List Passage) : String :=
  joined (passages.filter (Passage.isDirectlyIn number))

/-- The text in an element at all locations that the path of a rule matches. -/
def matchedText (rule : Rule) (number : Nat) (passages : List Passage) : String :=
  joined (passages.filter fun p => rule.path.isMatch p.location && p.isIn number)

/-- What the collector of a rule without nested text adds for a notice. -/
def added (rule : Rule) : Notice → String
  | .text content location => if rule.path.isMatch location then content else ""
  | _ => ""

def isText : Notice → Bool
  | .text _ _ => true
  | _ => false

/-- Where a text in an element is: at the location of the element if it is directly in it, and further
down if not. -/
def Placed (e : Element) (p : Passage) : Prop :=
  if p.isDirectlyIn e.number then p.location = e.tag.location
  else e.tag.location.length < p.location.length

/-- An element has heard the texts in it and no others. -/
structure Heard (e : Element) (told : List Passage) : Prop where
  texts : e.heard.filter isText = (told.filter (Passage.isIn e.number)).map Passage.notice
  placed : ∀ p ∈ told, p.isIn e.number = true → Placed e p

/-- A reader has told its elements of the texts met so far, and knows each of them by a number of its
own. -/
structure Tells (reading : Reading) (told : List Passage) : Prop where
  nest : Nest reading.inside reading.position.location
  distinct : (reading.inside.map Element.number).Nodup
  counted : ∀ e ∈ reading.inside, e.number < reading.started
  recorded : ∀ p ∈ told, ∀ number ∈ p.around, number < reading.started
  heard : ∀ e ∈ reading.inside, Heard e told

/-- The element with a number has ended. -/
structure Past (reading : Reading) (number : Nat) : Prop where
  closed : number ∉ reading.inside.map Element.number
  begun : number < reading.started

end Definitions

section Hearing
variable {e : Element} {told more : List Passage} {notices : List Notice}

theorem direct_is_in {number : Nat} {p : Passage} (direct : p.isDirectlyIn number = true) :
    p.isIn number = true := by
  have front : p.around.head? = some number := beq_iff_eq.mp direct
  exact List.contains_iff_mem.mpr (List.mem_of_head? front)

/-- What is not text changes nothing. -/
theorem heard_silence (heard : Heard e told) (silent : notices.filter isText = []) :
    Heard (e.hear notices) told := by
  constructor
  case texts =>
    rw [Element.hear, List.filter_append, silent, List.append_nil]
    exact heard.texts
  case placed => exact heard.placed

/-- Texts in other elements are not heard. -/
theorem heard_elsewhere (heard : Heard e told) (elsewhere : ∀ p ∈ more, p.isIn e.number = false) :
    Heard e (told ++ more) := by
  have none : more.filter (Passage.isIn e.number) = [] :=
    List.filter_eq_nil_iff.mpr fun p member => by simp [elsewhere p member]
  constructor
  case texts => rw [List.filter_append, none, List.append_nil, heard.texts]
  case placed =>
    intro p member inside
    rcases List.mem_append.mp member with before | new
    · exact heard.placed p before inside
    · rw [elsewhere p new] at inside
      cases inside

/-- A text in an element is heard. -/
theorem heard_text {p : Passage} (heard : Heard e told) (inside : p.isIn e.number = true)
    (placed : Placed e p) : Heard (e.hear [p.notice]) (told ++ [p]) := by
  constructor
  case texts =>
    have taken : [p].filter (Passage.isIn e.number) = [p] := by simp [inside]
    rw [Element.hear, List.filter_append, heard.texts]
    change _ = ((told ++ [p]).filter (Passage.isIn e.number)).map Passage.notice
    rw [List.filter_append, taken, List.map_append]
    rfl
  case placed =>
    intro q member within
    rcases List.mem_append.mp member with before | new
    · exact heard.placed q before within
    · rw [List.mem_singleton.mp new]
      exact placed

end Hearing

section Telling
variable {reading : Reading} {told : List Passage} {number : Nat}

theorem numbers_hear (notices : List Notice) (inside : List Element) :
    (inside.map (Element.hear notices)).map Element.number = inside.map Element.number :=
  List.map_map

theorem mem_hear {notices : List Notice} {inside : List Element} {e : Element}
    (member : e ∈ inside.map (Element.hear notices)) : ∃ o ∈ inside, e = o.hear notices := by
  obtain ⟨o, within, same⟩ := List.mem_map.mp member
  exact ⟨o, within, same.symm⟩

/-- No text met so far is in a new element, whose number is beyond all that were recorded. -/
theorem enter_tells (tells : Tells reading told) (name : String) (attributes : List Attribute) :
    Tells (reading.enter name attributes).1 told := by
  let tag := StartTag.read reading.position name attributes
  have numbers : (reading.enter name attributes).1.inside.map Element.number =
      reading.started :: reading.inside.map Element.number :=
    congrArg (List.cons _) (numbers_hear _ _)
  have silent : tag.notices.filter isText = [] := by
    simp [StartTag.notices, isText, List.filter_eq_nil_iff]
  have fresh : ∀ p ∈ told, p.isIn reading.started = false := by
    intro p member
    refine (Bool.not_eq_true _).mp fun inside => ?_
    exact (Nat.lt_irrefl _) (tells.recorded p member _ (List.contains_iff_mem.mp inside))
  have new : Heard ⟨tag, reading.started, []⟩ told :=
    heard_elsewhere ⟨rfl, fun _ none => absurd none List.not_mem_nil⟩ fresh
  constructor
  case nest => exact enter_nests tells.nest name attributes
  case distinct =>
    rw [numbers]
    refine List.nodup_cons.mpr ⟨fun open' => ?_, tells.distinct⟩
    obtain ⟨e, inside, same⟩ := List.mem_map.mp open'
    exact Nat.lt_irrefl _ (same ▸ tells.counted e inside)
  case counted =>
    intro e member
    obtain ⟨o, within, rfl⟩ := mem_hear member
    rcases List.mem_cons.mp within with rfl | outer
    · exact Nat.lt_succ_self _
    · exact Nat.lt_succ_of_lt (tells.counted o outer)
  case recorded => exact fun p member n around => Nat.lt_succ_of_lt (tells.recorded p member n around)
  case heard =>
    intro e member
    obtain ⟨o, within, rfl⟩ := mem_hear member
    rcases List.mem_cons.mp within with rfl | outer
    · exact heard_silence new silent
    · exact heard_silence (tells.heard o outer) silent

/-- Where a text is that is met inside elements with different numbers. -/
theorem placed_inside {inside : List Element} {location : Pattern} (nest : Nest inside location)
    (distinct : (inside.map Element.number).Nodup) (content : String) :
    ∀ e ∈ inside, Placed e ⟨inside.map Element.number, location, content⟩ := by
  cases nest with
  | outside => exact fun _ none => absurd none List.not_mem_nil
  | @inside outer upper first component around below =>
    intro e member
    unfold Placed Passage.isDirectlyIn
    rcases List.mem_cons.mp member with rfl | further
    · simp
    · have other : first.number ≠ e.number := fun same =>
        (List.nodup_cons.mp distinct).1 (same ▸ List.mem_map_of_mem further)
      have deeper : e.tag.location.length < first.tag.location.length := by
        rw [below, Pattern.length_push]
        exact Nat.lt_succ_of_le (nest_around around e further)
      simp [other, deeper]

theorem take_tells (tells : Tells reading told) (text : String) :
    Tells (reading.take text) (told ++ passageOf reading (.take text)) := by
  have numbers : (reading.take text).inside.map Element.number = reading.inside.map Element.number :=
    numbers_hear _ _
  constructor
  case nest => exact nest_hear tells.nest _
  case distinct => exact numbers ▸ tells.distinct
  case counted =>
    intro e member
    obtain ⟨o, within, rfl⟩ := mem_hear member
    exact tells.counted o within
  case recorded =>
    intro p member n around
    rcases List.mem_append.mp member with before | new
    · exact tells.recorded p before n around
    · rw [List.mem_singleton.mp new] at around
      obtain ⟨e, inside, rfl⟩ := List.mem_map.mp around
      exact tells.counted e inside
  case heard =>
    intro e member
    obtain ⟨o, within, rfl⟩ := mem_hear member
    exact heard_text (tells.heard o within)
      (List.contains_iff_mem.mpr (List.mem_map_of_mem within))
      (placed_inside tells.nest tells.distinct text o within)

/-- The element that is left has heard its texts, and there will be no more. -/
theorem leave_tells (tells : Tells reading told) :
    Tells reading.leave.1 told ∧
      ∀ e, .ended e ∈ reading.leave.2 → Heard e told ∧ Past reading.leave.1 e.number := by
  have nests := leave_nests tells.nest
  obtain ⟨position, inside, started⟩ := reading
  cases inside with
  | nil => exact ⟨tells, fun _ none => absurd none List.not_mem_nil⟩
  | cons last outer =>
    obtain ⟨different, distinct⟩ := List.nodup_cons.mp tells.distinct
    obtain ⟨begun, counted⟩ := List.forall_mem_cons.mp tells.counted
    obtain ⟨own, others⟩ := List.forall_mem_cons.mp tells.heard
    constructor
    · constructor
      case nest => exact nests
      case distinct => exact (numbers_hear _ outer).symm ▸ distinct
      case counted =>
        intro e member
        obtain ⟨o, within, rfl⟩ := mem_hear member
        exact counted o within
      case recorded => exact tells.recorded
      case heard =>
        intro e member
        obtain ⟨o, within, rfl⟩ := mem_hear member
        exact heard_silence (others o within) rfl
    · intro e ended
      obtain rfl : e = last.hear _ := by simpa [Reading.leave] using ended
      exact ⟨heard_silence own rfl, (numbers_hear _ outer).symm ▸ different, begun⟩

/-- With one thing done the elements inside are told, and one that ends has heard all it will. -/
theorem act_tells (tells : Tells reading told) (a : Act) :
    Tells (reading.act a).1 (told ++ passageOf reading a) ∧
      ∀ e, .ended e ∈ (reading.act a).2 →
        Heard e (told ++ passageOf reading a) ∧ Past (reading.act a).1 e.number := by
  cases a with
  | enter name attributes =>
    rw [passageOf, List.append_nil]
    · refine ⟨enter_tells tells name attributes, fun e ended => ?_⟩
      simp [Reading.act, Reading.enter] at ended
    · simp
  | leave =>
    rw [passageOf, List.append_nil]
    · exact leave_tells tells
    · simp
  | take text => exact ⟨take_tells tells text, fun _ none => absurd none List.not_mem_nil⟩

theorem act_past (past : Past reading number) (a : Act) : Past (reading.act a).1 number := by
  cases a with
  | enter name attributes =>
    constructor
    case closed =>
      intro open'
      rcases List.mem_cons.mp open' with same | outer
      · exact absurd past.begun (same ▸ Nat.lt_irrefl _)
      · exact past.closed (numbers_hear _ _ ▸ outer)
    case begun => exact Nat.lt_succ_of_lt past.begun
  | leave =>
    obtain ⟨position, inside, started⟩ := reading
    cases inside with
    | nil => exact past
    | cons last outer =>
      exact ⟨fun open' => past.closed (List.mem_cons_of_mem _ (numbers_hear _ outer ▸ open')),
        past.begun⟩
  | take text => exact ⟨(numbers_hear _ _).symm ▸ past.closed, past.begun⟩

/-- No text is met in an element that has ended. -/
theorem passages_elsewhere (past : Past reading number) (acts : List Act) :
    ∀ p ∈ passages reading acts, p.isIn number = false := by
  induction acts generalizing reading with
  | nil => exact fun _ none => absurd none List.not_mem_nil
  | cons a rest ih =>
    intro p member
    rcases List.mem_append.mp member with now | later
    · cases a with
      | enter name attributes => cases now
      | leave => cases now
      | take text =>
        rw [List.mem_singleton.mp now]
        refine (Bool.not_eq_true _).mp fun inside => ?_
        exact past.closed (List.contains_iff_mem.mp inside)
    · exact ih (act_past past a) p later

/-- All through a reading, an element that ends has heard the texts in it and no others. Its number
does not come back, so what is met later is elsewhere. -/
theorem perform_tells (tells : Tells reading told) (acts : List Act) :
    ∀ e, .ended e ∈ (perform Reading.act reading acts).2 →
      Heard e (told ++ passages reading acts) := by
  induction acts generalizing reading told with
  | nil => exact fun _ none => absurd none List.not_mem_nil
  | cons a rest ih =>
    intro e ended
    obtain ⟨next, ends⟩ := act_tells tells a
    rw [passages, ← List.append_assoc]
    rcases List.mem_append.mp ended with now | later
    · obtain ⟨heard, past⟩ := ends e now
      exact heard_elsewhere heard (passages_elsewhere past rest)
    · exact ih next e later

theorem begin_tells (scopes : Scopes) : Tells (.begin scopes) [] := by
  constructor
  case nest => exact .outside
  case distinct => exact .nil
  all_goals simp [Reading.begin]

/-- An element of a document hears the texts in it and no others. -/
theorem element_heard (scopes : Scopes) (document : List UInt8) {e : Element}
    (ended : .ended e ∈ (perform Reading.act (.begin scopes) (acts document)).2) :
    Heard e (passages (.begin scopes) (acts document)) :=
  perform_tells (begin_tells scopes) (acts document) e ended

end Telling

section Contents
variable {rule : Rule}

theorem kept_length_le {α : Type} {content : α → String} {keeps : α → Bool} (items : List α) :
    (String.join ((items.filter keeps).map content)).length ≤
      (String.join (items.map content)).length := by
  induction items with
  | nil => exact Nat.le_refl _
  | cons item rest ih =>
    rw [List.map_cons, String.join_cons, String.length_append]
    cases kept : keeps item with
    | true =>
      rw [List.filter_cons_of_pos kept, List.map_cons, String.join_cons, String.length_append]
      exact Nat.add_le_add_left ih _
    | false =>
      rw [List.filter_cons_of_neg (by simp [kept])]
      exact Nat.le_add_left_of_le ih

/-- Leaving out texts leaves the whole the same only if they are empty. -/
theorem join_filter_iff {α : Type} {content : α → String} {keeps : α → Bool} (items : List α) :
    String.join ((items.filter keeps).map content) = String.join (items.map content) ↔
      ∀ item ∈ items, keeps item = false → content item = "" := by
  induction items with
  | nil => simp
  | cons item rest ih =>
    rw [List.forall_mem_cons, ← ih]
    cases kept : keeps item with
    | true => simp [kept]
    | false =>
      rw [List.filter_cons_of_neg (by simp [kept]), List.map_cons, String.join_cons]
      constructor
      · intro same
        have shorter := @kept_length_le _ content keeps rest
        rw [same, String.length_append] at shorter
        have empty : content item = "" := String.length_eq_zero_iff.mp (by omega)
        exact ⟨fun _ => empty, by rw [same, empty, String.empty_append]⟩
      · rintro ⟨empty, same⟩
        rw [same, empty rfl, String.empty_append]

/-- The collector of a simple rule without nested text holds all that was added. -/
theorem collected_text (simple : rule.isComplex = false) (direct : rule.options.nested = false)
    (heard : List Notice) :
    collected rule heard = .simple (.holding rule (String.join (heard.map (added rule)))) := by
  induction heard using List.reverseRecOn with
  | nil => simp [collected, Collector.ofRule, simple]
  | append_singleton heard notice ih =>
    rw [collected_append, ih]
    cases notice with
    | text content location =>
      by_cases matched : rule.path.isMatch location = true
      · simp [hear, Collector.characters, SimpleCollector.characters, SimpleCollector.holding, added,
          matched]
      · simp [hear, Collector.characters, SimpleCollector.characters, SimpleCollector.holding, added,
          matched, direct]
    | start _ => simp [hear, Collector.start, added]
    | attributeValue _ _ => simp [hear, Collector.attributeValue, added]
    | close _ => simp [hear, Collector.close, added]

/-- What is added of all that an element has heard is the text in it where the rule's path matches. -/
theorem added_text {e : Element} {told : List Passage} (heard : Heard e told) :
    String.join (e.heard.map (added rule)) = matchedText rule e.number told := by
  have others : ∀ notice ∈ e.heard, isText notice = false → added rule notice = "" := by
    intro notice _ other
    cases notice <;> first | rfl | cases other
  have unmatched : ∀ p ∈ told.filter (Passage.isIn e.number),
      rule.path.isMatch p.location = false → added rule p.notice = "" := by
    intro p _ unmatched
    simp [Passage.notice, added, unmatched]
  calc String.join (e.heard.map (added rule))
    _ = String.join ((e.heard.filter isText).map (added rule)) :=
      ((join_filter_iff _).mpr others).symm
    _ = String.join ((told.filter (Passage.isIn e.number)).map fun p => added rule p.notice) := by
      rw [heard.texts, List.map_map]
      rfl
    _ = String.join (((told.filter (Passage.isIn e.number)).filter fun p =>
          rule.path.isMatch p.location).map fun p => added rule p.notice) :=
      ((join_filter_iff _).mpr unmatched).symm
    _ = matchedText rule e.number told := by
      rw [List.filter_filter, matchedText, joined]
      refine congrArg String.join (List.map_congr_left fun p member => ?_)
      obtain ⟨matched, _⟩ := Bool.and_eq_true_iff.mp (List.mem_filter.mp member).2
      simp [Passage.notice, added, matched]

end Contents

section Elements
variable {rules : RuleSet} {index : Nat} {rule : Rule} {e : Element} {told : List Passage}

/-- The text that a rule takes from an element it matches is the direct text exactly when none of it
is from further in. -/
theorem matched_eq_direct_iff (heard : Heard e told)
    (matched : rule.path.isMatch e.tag.location = true) :
    matchedText rule e.number told = directText e.number told ↔
      ∀ p ∈ told, p.isIn e.number = true → p.isDirectlyIn e.number = false →
        rule.path.isMatch p.location = true → p.content = "" := by
  let taken := told.filter fun p => rule.path.isMatch p.location && p.isIn e.number
  have direct : told.filter (Passage.isDirectlyIn e.number) =
      taken.filter (Passage.isDirectlyIn e.number) := by
    rw [List.filter_filter]
    refine List.filter_congr fun p member => ?_
    cases direct : p.isDirectlyIn e.number with
    | false => rfl
    | true =>
      have inside := direct_is_in direct
      have here := heard.placed p member inside
      rw [Placed, if_pos direct] at here
      simp [inside, here, matched]
  have whole : matchedText rule e.number told = directText e.number told ↔
      ∀ p ∈ taken, p.isDirectlyIn e.number = false → p.content = "" := by
    rw [directText, direct, eq_comm]
    exact join_filter_iff taken
  rw [whole]
  constructor
  · intro empty p member inside further matches'
    exact empty p (List.mem_filter.mpr ⟨member, by simp [inside, matches']⟩) further
  · intro empty p member further
    obtain ⟨listed, both⟩ := List.mem_filter.mp member
    obtain ⟨matches', inside⟩ := Bool.and_eq_true_iff.mp both
    exact empty p listed inside further matches'

/-- A path without gaps that matches an element matches nothing further in. -/
theorem gap_free_direct (heard : Heard e told) (matched : rule.path.isMatch e.tag.location = true)
    (isOpen : rule.path.closed = false)
    (levels : ∀ component ∈ rule.path.components, component.isGap = false) :
    matchedText rule e.number told = directText e.number told := by
  refine (matched_eq_direct_iff heard matched).mpr fun p member inside further matches' => ?_
  have deeper := heard.placed p member inside
  rw [Placed, if_neg (by simp [further])] at deeper
  have level (location : Pattern) (found : rule.path.isMatch location = true) :
      location.length = rule.path.length := by
    rw [show rule.path = ⟨rule.path.components, false⟩ by rw [← isOpen]] at found
    exact PatternContainment.gap_free_length _ _ levels found
  rw [level _ matched, level _ matches'] at deeper
  exact absurd deeper (Nat.lt_irrefl _)

/-- Of the entries for an element a rule has those of its own node, if the element meets it. -/
theorem own_entries (declared : rules.rules[index]? = some rule) (e : Element) :
    (entriesOf rules (.ended e)).filter (fun entry => entry.rule == index) =
      if meets rule e.tag then (nodeOf e (index, rule)).complete else [] := by
  have each (met : Nat × Rule) :
      (nodeOf e met).complete.filter (fun entry => entry.rule == index) =
        if met.1 == index then (nodeOf e met).complete else [] := by
    have same : ∀ entry ∈ (nodeOf e met).complete, entry.rule = met.1 :=
      fun entry member => rule_of_completed member
    by_cases own : met.1 = index
    · rw [if_pos (by simpa using own)]
      exact List.filter_eq_self.mpr fun entry member => by simp [same entry member, own]
    · rw [if_neg (by simpa using own)]
      exact List.filter_eq_nil_iff.mpr fun entry member => by simpa [same entry member] using own
  rw [entriesOf, nodesOf, List.flatMap_map, List.filter_flatMap]
  simp only [each]
  rw [flatMap_chosen _ (fun met : Nat × Rule => met.1 == index), metBy,
    DocumentForest.for_node_at, met_at_place declared]
  unfold meets
  split
  · exact List.flatMap_singleton _ _
  · rfl

/-- The node of a simple rule without nested text has the one field. -/
theorem node_field (simple : rule.isComplex = false) (direct : rule.options.nested = false)
    (heard : Heard e told) :
    (nodeOf e (index, rule)).complete =
      [⟨index, e.tag.location.text, [⟨none, matchedText rule e.number told, rule.options⟩]⟩] := by
  rw [nodeOf, collected_text simple direct, added_text heard]
  rfl

end Elements

/-- The entry that a simple rule without nested text makes for an element holds the text in the element
at the locations that the rule's path matches. That is the text directly in the element exactly when no
text of the elements in it is at such a location, unless it is empty; so it always is when the path is
open and has no gap. The entries are those of attributes, as elements start, and these, as they end. -/
theorem simple_rule_text (indexer : Indexer) (document : List UInt8) {index : Nat} {rule : Rule}
    (declared : indexer.rules.rules[index]? = some rule) (simple : rule.isComplex = false)
    (direct : rule.options.nested = false) :
    let begun := Reading.begin indexer.scopes.clear
    let reports := (perform Reading.act begun (acts document)).2
    let texts := passages begun (acts document)
    (indexer.index document).2 = reports.flatMap (entriesOf indexer.rules) ∧
      ∀ e, .ended e ∈ reports →
        (entriesOf indexer.rules (.ended e)).filter (fun entry => entry.rule == index) =
            (if meets rule e.tag then
              [⟨index, e.tag.location.text,
                [⟨none, matchedText rule e.number texts, rule.options⟩]⟩]
            else []) ∧
          (meets rule e.tag = true →
            (matchedText rule e.number texts = directText e.number texts ↔
              ∀ p ∈ texts, p.isIn e.number = true → p.isDirectlyIn e.number = false →
                rule.path.isMatch p.location = true → p.content = "") ∧
            (rule.path.closed = false →
              (∀ component ∈ rule.path.components, component.isGap = false) →
                matchedText rule e.number texts = directText e.number texts)) := by
  intro begun reports texts
  have configured : indexer.rules.rules ≠ [] := by
    intro none
    rw [none] at declared
    cases declared
  obtain ⟨-, entries⟩ := perform_mirrors (outside_mirrors indexer) (acts document)
  refine ⟨?_, fun e ended => ⟨?_, fun met => ?_⟩⟩
  · exact (index_performs configured document).2.2.2.trans entries
  · rw [own_entries declared, node_field simple direct (element_heard _ _ ended)]
  · have heard := element_heard indexer.scopes.clear document ended
    have matched := (Bool.and_eq_true_iff.mp met).1
    exact ⟨matched_eq_direct_iff heard matched, gap_free_direct heard matched⟩

section Sample

/-- The direct text of elements `p` is indexed. -/
def paragraphRule : Rule :=
  { path := ⟨[.gap, .named (.unqualified .element "p")], false⟩, options := { nested := false } }

def paragraphRules : RuleSet := ⟨"/db", [paragraphRule]⟩

/-- An element of another name in a paragraph, between its texts. -/
def quotingParagraph : List UInt8 := bytesOf "<p>a<q>b</q>c</p>"

/-- The one text further in is at a location that the path does not match, so the paragraph has its
direct text. -/
theorem quoting_paragraph_direct :
    paragraphRules.rules[0]? = some paragraphRule ∧ paragraphRule.isComplex = false ∧
      paragraphRule.options.nested = false ∧
      ((Indexer.new paragraphRules).index quotingParagraph).2 =
        [⟨0, "/p", [⟨none, "ac", paragraphRule.options⟩]⟩] ∧
      ∃ e, .ended e ∈ (perform Reading.act (.begin .initial) (acts quotingParagraph)).2 ∧
        e.number = 0 ∧ meets paragraphRule e.tag = true ∧
        (entriesOf paragraphRules (.ended e)).filter (fun entry => entry.rule == 0) =
          [⟨0, "/p", [⟨none, directText 0 (passages (.begin .initial) (acts quotingParagraph)),
            paragraphRule.options⟩]⟩] := by
  obtain ⟨_, ends⟩ := simple_rule_text (.new paragraphRules) quotingParagraph
    (show paragraphRules.rules[0]? = some paragraphRule from rfl) rfl rfl
  have paragraph : ∃ e,
      (perform Reading.act (.begin .initial) (acts quotingParagraph)).2[3]? = some (.ended e) ∧
        e.number = 0 ∧ meets paragraphRule e.tag = true ∧ e.tag.location.text = "/p" :=
    ⟨_, by with_unfolding_all rfl, rfl, by with_unfolding_all rfl, by with_unfolding_all rfl⟩
  have further : ∀ p ∈ passages (.begin .initial) (acts quotingParagraph),
      paragraphRule.path.isMatch p.location = true → p.isDirectlyIn 0 = true := by
    with_unfolding_all decide
  obtain ⟨e, last, number, met, located⟩ := paragraph
  have ended := List.mem_of_getElem? last
  obtain ⟨entry, texts⟩ := ends e ended
  have direct := (texts met).1.mpr fun p member _ deeper matched => by
    rw [number, further p member matched] at deeper
    cases deeper
  rw [if_pos met, located, direct, number] at entry
  exact ⟨rfl, rfl, rfl, by with_unfolding_all rfl, e, ended, number, met, entry⟩

/-- A paragraph in a paragraph, between its texts. -/
def nestedParagraphs : List UInt8 := bytesOf "<p>a<p>b</p>c</p>"

/-- The text of the inner paragraph is taken as text of the outer one. -/
theorem inner_paragraph_taken :
    let reports := (perform Reading.act (.begin .initial) (acts nestedParagraphs)).2
    let texts := passages (.begin .initial) (acts nestedParagraphs)
    ((Indexer.new paragraphRules).index nestedParagraphs).2 =
        [⟨0, "/p/p", [⟨none, "b", paragraphRule.options⟩]⟩,
          ⟨0, "/p", [⟨none, "abc", paragraphRule.options⟩]⟩] ∧
      ¬ ∀ e, .ended e ∈ reports → ∀ entry ∈ entriesOf paragraphRules (.ended e),
        ∀ field ∈ entry.fields, field.content = directText e.number texts := by
  intro reports texts
  have outer : ∃ e, reports[3]? = some (.ended e) ∧
      entriesOf paragraphRules (.ended e) =
        [⟨0, "/p", [⟨none, "abc", paragraphRule.options⟩]⟩] ∧
      directText e.number texts = "ac" :=
    ⟨_, by with_unfolding_all rfl, by with_unfolding_all rfl, by with_unfolding_all rfl⟩
  refine ⟨by with_unfolding_all rfl, fun direct => ?_⟩
  obtain ⟨e, last, entries, text⟩ := outer
  have same := direct e (List.mem_of_getElem? last)
  rw [entries, text] at same
  exact absurd (same _ List.mem_cons_self _ List.mem_cons_self) (by decide)

end Sample

end RangeIndex.DirectText
