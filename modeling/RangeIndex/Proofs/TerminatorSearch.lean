import Mathlib.Order.Bounds.Basic
import RangeIndex.Markup.Cursor
import RangeIndex.Proofs.WrittenDocument

/-! The search for a terminator. The cursor goes from one occurrence of the terminator's first byte
to the next and asks at each whether the whole of it stands there; where it does not, the search goes
on with the very next byte. However much of the terminator a place begins, nothing is lost with it:
the terminator can stand only where its first byte does, and every such place is asked. So what is
taken ends at the first place where the terminator stands, and with it the comments, sections of
plain characters and instructions of a document. -/
namespace RangeIndex.TerminatorSearch
open Markup EncodedText WrittenText WrittenDocument

section Definitions

/-- The bytes of a terminator stand in a byte list, one after another from a place on. -/
def StandsAt (terminator input : List UInt8) (place : Nat) : Prop :=
  ∀ i < terminator.length, input[place + i]? = terminator[i]?

instance (terminator input : List UInt8) (place : Nat) :
    Decidable (StandsAt terminator input place) :=
  inferInstanceAs (Decidable (∀ i < terminator.length, input[place + i]? = terminator[i]?))

/-- The places from a cursor on where a terminator stands. -/
def Places (terminator : List UInt8) (cursor : Cursor) : Set Nat :=
  {place | cursor.position ≤ place ∧ StandsAt terminator cursor.input place}

/-- What is to be taken up to a terminator, and where the cursor is to be left. -/
inductive Taken (terminator : List UInt8) (cursor : Cursor) : List UInt8 → Cursor → Prop where
  /-- The bytes before the first place where it stands; the cursor is left behind it. -/
  | found {place : Nat} (first : IsLeast (Places terminator cursor) place) :
    Taken terminator cursor ((cursor.input.take place).drop cursor.position)
      ⟨cursor.input, place + terminator.length⟩
  /-- Where it stands nowhere, all that is ahead; the cursor is left at the end. -/
  | missed (nowhere : Places terminator cursor = ∅) :
    Taken terminator cursor (cursor.input.drop cursor.position) ⟨cursor.input, cursor.input.length⟩

end Definitions

section Standing
variable {terminator input bytes bytes' : List UInt8} {cursor after after' : Cursor} {b : UInt8}
  {place n : Nat}

theorem stands_iff_begins : StandsAt terminator input place ↔ terminator <+: input.drop place := by
  rw [List.prefix_iff_getElem?]
  refine forall₂_congr fun i inside => ?_
  rw [List.getElem?_drop, List.getElem?_eq_getElem inside]

theorem stands_single : StandsAt [b] input place ↔ input[place]? = some b := by
  simp [StandsAt]

/-- What a terminator begins with stands wherever the terminator does. -/
theorem begin_stands {front : List UInt8} (begins : front <+: terminator)
    (stands : StandsAt terminator input place) : StandsAt front input place :=
  stands_iff_begins.mpr (begins.trans (stands_iff_begins.mp stands))

/-- A terminator ends within the list in which it stands. -/
theorem stands_within (given : terminator ≠ []) (stands : StandsAt terminator input place) :
    place + terminator.length ≤ input.length := by
  have length := (stands_iff_begins.mp stands).length_le
  have some := List.length_pos_iff.mpr given
  rw [List.length_drop] at length
  omega

/-- Where a terminator stands, it stands between the bytes before it and the bytes behind it. -/
theorem split_where_stands (stands : StandsAt terminator input place) :
    input = input.take place ++ (terminator ++ input.drop (place + terminator.length)) := by
  have whole := List.prefix_iff_eq_append.mp (stands_iff_begins.mp stands)
  rw [List.drop_drop] at whole
  rw [whole, List.take_append_drop]

theorem starts_with_iff :
    cursor.startsWith terminator = true ↔ StandsAt terminator cursor.input cursor.position := by
  rw [Cursor.startsWith, List.isPrefixOf_iff_prefix, stands_iff_begins, Cursor.rest]

/-- The places from a cursor on, told by the bytes ahead of it. -/
theorem mem_places_iff :
    place ∈ Places terminator cursor ↔
      ∃ n, place = cursor.position + n ∧ StandsAt terminator cursor.rest n := by
  have ahead (n : Nat) : StandsAt terminator cursor.rest n ↔
      StandsAt terminator cursor.input (cursor.position + n) := by
    rw [stands_iff_begins, stands_iff_begins, Cursor.rest, List.drop_drop]
  constructor
  · rintro ⟨reached, stands⟩
    obtain ⟨n, rfl⟩ := Nat.exists_eq_add_of_le reached
    exact ⟨n, rfl, (ahead n).mpr stands⟩
  · rintro ⟨n, rfl, stands⟩
    exact ⟨Nat.le_add_right _ _, (ahead n).mp stands⟩

/-- No two results are right. -/
theorem taken_unique (one : Taken terminator cursor bytes after)
    (other : Taken terminator cursor bytes' after') : bytes = bytes' ∧ after = after' := by
  cases one with
  | found first =>
    cases other with
    | found second =>
      obtain rfl := first.unique second
      exact ⟨rfl, rfl⟩
    | missed nowhere => exact absurd (nowhere ▸ first.1) (Set.notMem_empty _)
  | missed nowhere =>
    cases other with
    | found second => exact absurd (nowhere ▸ second.1) (Set.notMem_empty _)
    | missed => exact ⟨rfl, rfl⟩

end Standing

section Searching
variable {cursor : Cursor} {first b : UInt8} {others : List UInt8} {place : Nat}

/-- A byte is found at the first place where it stands. -/
theorem find_first (found : cursor.find? b = some place) :
    IsLeast (Places [b] cursor) place := by
  by_cases ahead : b ∈ cursor.rest
  · obtain ⟨before, later, split, clear⟩ := List.eq_append_cons_of_mem ahead
    rw [Cursor.find?, split, break_at_mark clear] at found
    cases found
    refine ⟨mem_places_iff.mpr ⟨before.length, rfl, ?_⟩, fun other member => ?_⟩
    · rw [stands_single, split]
      simp
    · obtain ⟨n, rfl, stands⟩ := mem_places_iff.mp member
      refine Nat.add_le_add_left (Nat.le_of_not_lt fun earlier => clear ?_) _
      rw [stands_single, split, List.getElem?_append_left earlier] at stands
      exact List.mem_of_getElem? stands
  · have none : breakAt b (cursor.rest ++ []) = (cursor.rest, []) := break_before ahead nofun
    rw [List.append_nil] at none
    rw [Cursor.find?, none] at found
    cases found

/-- A byte that is not found stands nowhere ahead. -/
theorem find_nowhere (missed : cursor.find? b = none) : Places [b] cursor = ∅ := by
  refine Set.eq_empty_of_forall_notMem fun place member => ?_
  obtain ⟨n, rfl, stands⟩ := mem_places_iff.mp member
  have ahead : b ∈ cursor.rest := List.mem_of_getElem? (stands_single.mp stands)
  obtain ⟨before, later, split, clear⟩ := List.eq_append_cons_of_mem ahead
  rw [Cursor.find?, split, break_at_mark clear] at missed
  cases missed

/-- A terminator stands only where its first byte does. -/
theorem places_begin : Places (first :: others) cursor ⊆ Places [first] cursor :=
  fun _ member => ⟨member.1, begin_stands (List.prefix_append [first] others) member.2⟩

/-- One step of the search: from the first place of the first byte on, where the terminator does not
stand, nothing is lost by going on with the next byte. -/
theorem places_past (begins : IsLeast (Places [first] cursor) place)
    (other : ¬ StandsAt (first :: others) cursor.input place) :
    Places (first :: others) { cursor with position := place + 1 } =
      Places (first :: others) cursor := by
  ext later
  constructor
  · rintro ⟨reached, stands⟩
    exact ⟨begins.1.1.trans (Nat.le_of_succ_le reached), stands⟩
  · intro member
    have reached : place ≤ later := begins.2 (places_begin member)
    have further : place ≠ later := by
      rintro rfl
      exact other member.2
    exact ⟨Nat.lt_of_le_of_ne reached further, member.2⟩

/-- The whole search gives the first place where the terminator stands, or none if there is none. -/
theorem search_first (cursor : Cursor) (first : UInt8) (others : List UInt8) :
    match cursor.search? first others with
    | some place => IsLeast (Places (first :: others) cursor) place
    | none => Places (first :: others) cursor = ∅ := by
  fun_induction Cursor.search? cursor first others with
  | case1 cursor missed =>
    exact Set.eq_empty_of_subset_empty (find_nowhere missed ▸ places_begin)
  | case2 cursor place found bounds here =>
    exact ⟨⟨bounds.1, starts_with_iff.mp here⟩,
      fun later member => (find_first found).2 (places_begin member)⟩
  | case3 cursor place found bounds other ih =>
    have other : ¬ StandsAt (first :: others) cursor.input place := fun stands =>
      other (starts_with_iff.mpr stands)
    rwa [places_past (find_first found) other] at ih

/-- What the cursor takes is what is to be taken. -/
theorem take_until_taken {terminator : List UInt8} (given : terminator ≠ []) (cursor : Cursor) :
    Taken terminator cursor (cursor.takeUntil terminator).1 (cursor.takeUntil terminator).2 := by
  obtain ⟨first, others, rfl⟩ := List.exists_cons_of_ne_nil given
  have searched := search_first cursor first others
  cases found : cursor.search? first others with
  | some place =>
    rw [found] at searched
    rw [Cursor.takeUntil, found]
    exact .found searched
  | none =>
    rw [found] at searched
    rw [Cursor.takeUntil, found]
    exact .missed searched

end Searching

section Reading
variable {terminator body before rest bytes : List UInt8} {cursor after : Cursor}

/-- Bytes at none of which the terminator stands are passed over one by one. -/
theorem break_past (clear : ∀ n < before.length, ¬ StandsAt terminator (before ++ rest) n) :
    breakAfter terminator (before ++ rest) =
      (before ++ (breakAfter terminator rest).1, (breakAfter terminator rest).2) := by
  induction before with
  | nil => rfl
  | cons b before ih =>
    have here : ¬ terminator <+: b :: (before ++ rest) := fun begins =>
      clear 0 (Nat.succ_pos _) (stands_iff_begins.mpr begins)
    have further : ∀ n < before.length, ¬ StandsAt terminator (before ++ rest) n := by
      intro n inside stands
      have begins : terminator <+: (before ++ rest).drop n := stands_iff_begins.mp stands
      exact clear (n + 1) (Nat.succ_lt_succ inside) (stands_iff_begins.mpr begins)
    rw [List.cons_append, break_after_later here, ih further]
    rfl

/-- A list that is cut byte by byte is cut where a cursor in it stops. What is taken ends at the first
place, and so the terminator stands at no byte of it. -/
theorem break_of_taken (given : terminator ≠ [])
    (taken : Taken terminator cursor bytes after) :
    breakAfter terminator cursor.rest = (bytes, after.rest) := by
  cases taken with
  | found first =>
    obtain ⟨n, rfl, stands⟩ := mem_places_iff.mp first.1
    have split := split_where_stands stands
    have clear : ∀ m < (cursor.rest.take n).length, ¬ StandsAt terminator
        (cursor.rest.take n ++ (terminator ++ cursor.rest.drop (n + terminator.length))) m := by
      intro m inside earlier
      rw [← split] at earlier
      have bound := first.2 (mem_places_iff.mpr ⟨m, rfl, earlier⟩)
      have short := List.length_take_le n cursor.rest
      omega
    have taken : (cursor.input.take (cursor.position + n)).drop cursor.position =
        cursor.rest.take n := by
      rw [List.drop_take, Nat.add_sub_cancel_left, Cursor.rest]
    have left : (Cursor.mk cursor.input (cursor.position + n + terminator.length)).rest =
        cursor.rest.drop (n + terminator.length) := by
      rw [Cursor.rest, Cursor.rest, List.drop_drop, Nat.add_assoc]
    have cut := break_past clear
    rw [← split, break_after_here _ _ given, List.append_nil] at cut
    rw [cut, taken, left]
  | missed nowhere =>
    have clear : ∀ m < cursor.rest.length, ¬ StandsAt terminator (cursor.rest ++ []) m := by
      intro m _ stands
      rw [List.append_nil] at stands
      exact Set.notMem_empty _ (nowhere ▸ mem_places_iff.mpr ⟨m, rfl, stands⟩)
    have passed := break_past clear
    rw [List.append_nil] at passed
    rw [passed, breakAfter, List.append_nil, Cursor.rest, Cursor.rest, List.drop_length]

/-- The two ways of looking for a terminator, from one occurrence of its first byte to the next and
byte by byte, cut alike. -/
theorem break_eq_take_until (given : terminator ≠ []) (cursor : Cursor) :
    breakAfter terminator cursor.rest =
      ((cursor.takeUntil terminator).1, (cursor.takeUntil terminator).2.rest) :=
  break_of_taken given (take_until_taken given cursor)

/-- A comment leaves no event, and ends with the first mark that can end it. -/
theorem comment_passed (taken : Taken (bytesOf "-->") (.start body) bytes after) :
    events (bytesOf "<!--" ++ body) = events after.rest := by
  have whole : bytesOf "<!--" ++ body = 0x3C :: 0x21 :: (bytesOf "--" ++ body) := rfl
  have front : (bytesOf "--").isPrefixOf (bytesOf "--" ++ body) = true := rfl
  have cut : breakAfter (bytesOf "-->") ((bytesOf "--" ++ body).drop 2) = (bytes, after.rest) :=
    break_of_taken (by decide) taken
  rw [whole, events, if_pos rfl, markup_bang, takeBang, if_pos front, cut]
  rfl

/-- Hyphens before the mark are part of the comment. -/
example : events (bytesOf "<!-- a -- b ---><c/>") = [.opened "c" [] true] := by
  with_unfolding_all decide

/-- A section of plain characters is the text before the first mark that can end it. -/
theorem section_told (taken : Taken (bytesOf "]]>") (.start body) bytes after) :
    events (bytesOf "<![CDATA[" ++ body) = .characters (plainText bytes) :: events after.rest := by
  have whole : bytesOf "<![CDATA[" ++ body = 0x3C :: 0x21 :: (bytesOf "[CDATA[" ++ body) := rfl
  have noComment : ¬ (bytesOf "--").isPrefixOf (bytesOf "[CDATA[" ++ body) = true := nofun
  have front : (bytesOf "[CDATA[").isPrefixOf (bytesOf "[CDATA[" ++ body) = true := rfl
  have cut : breakAfter (bytesOf "]]>") ((bytesOf "[CDATA[" ++ body).drop 7) =
      (bytes, after.rest) := break_of_taken (by decide) taken
  rw [whole, events, if_pos rfl, markup_bang, takeBang, if_neg noComment, if_pos front, cut]
  rfl

/-- An instruction leaves no event. The mark that ends it is looked for from the question mark that
begins it. -/
theorem instruction_passed
    (taken : Taken (bytesOf "?>") (.start (bytesOf "?" ++ body)) bytes after) :
    events (bytesOf "<?" ++ body) = events after.rest := by
  have whole : bytesOf "<?" ++ body = 0x3C :: (bytesOf "?" ++ body) := rfl
  have cut : breakAfter (bytesOf "?>") (bytesOf "?" ++ body) = (bytes, after.rest) :=
    break_of_taken (by decide) taken
  have markup : takeMarkup (bytesOf "?" ++ body) =
      ([], (breakAfter (bytesOf "?>") (bytesOf "?" ++ body)).2) := rfl
  rw [whole, events, if_pos rfl, markup, cut]
  rfl

end Reading

section Main

/-- **The first terminator ends what is taken.** Up to a terminator of at least one byte a cursor
takes the bytes before the first place from its own on where the terminator stands, and is left just
behind it; where the terminator stands nowhere ahead it takes all that is ahead, and is left at the
end. -/
theorem taken_until_first_iff {terminator : List UInt8} (given : terminator ≠ []) (cursor : Cursor)
    (bytes : List UInt8) (after : Cursor) :
    cursor.takeUntil terminator = (bytes, after) ↔ Taken terminator cursor bytes after := by
  have right := take_until_taken given cursor
  constructor
  · intro took
    rwa [took] at right
  · intro taken
    obtain ⟨own, left⟩ := taken_unique right taken
    exact Prod.ext own left

/-- Of three brackets before a `>` the last two begin the mark, and the first is taken. Behind the
mark two brackets begin it once more, and as it does not go on they are taken to the end. -/
theorem brackets_before_mark :
    bytesOf "]]>" ≠ [] ∧
      (Cursor.mk (bytesOf "a]]]>b]]") 1).takeUntil (bytesOf "]]>") =
        (bytesOf "]", ⟨bytesOf "a]]]>b]]", 5⟩) ∧
      (Cursor.mk (bytesOf "a]]]>b]]") 5).takeUntil (bytesOf "]]>") =
        (bytesOf "b]]", ⟨bytesOf "a]]]>b]]", 8⟩) := by
  have given : bytesOf "]]>" ≠ [] := by decide
  refine ⟨given, (taken_until_first_iff given _ _ _).mpr ?found,
    (taken_until_first_iff given _ _ _).mpr ?missed⟩
  case found =>
    have first : IsLeast (Places (bytesOf "]]>") ⟨bytesOf "a]]]>b]]", 1⟩) 2 := by
      refine ⟨⟨by decide, by decide⟩, fun place member => Nat.lt_of_le_of_ne member.1 ?_⟩
      rintro rfl
      exact absurd member.2 (by decide)
    exact .found first
  case missed =>
    have nowhere : Places (bytesOf "]]>") ⟨bytesOf "a]]]>b]]", 5⟩ = ∅ := by
      refine Set.eq_empty_of_forall_notMem fun place member => ?_
      have within : place + 3 ≤ 8 := stands_within given member.2
      have reached : 5 ≤ place := member.1
      obtain rfl : place = 5 := by omega
      exact absurd member.2 (by decide)
    exact .missed nowhere

end Main

end RangeIndex.TerminatorSearch
