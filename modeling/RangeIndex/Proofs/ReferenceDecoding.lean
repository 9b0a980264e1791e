import RangeIndex.Proofs.ReferenceGrammar

/-! What decoding makes of a text. It goes from left to right, puts in the bytes of each character
referred to and copies all else, without looking at what it has put in. A number with a plus sign in
front of it is taken for a reference too, so it is in texts without such numbers that just the
references are replaced. -/
namespace RangeIndex.ReferenceDecoding
open Text Markup EncodedText WrittenText ReferenceGrammar

section Definitions

/-- A reference with the marks around it. -/
def marked (inner : List UInt8) : List UInt8 := byteOf '&' :: (inner ++ [byteOf ';'])

/-- Whether a number with a sign occurs between the marks of a reference. -/
def HasSigned (bytes : List UInt8) : Prop := ∃ inner c, Signed inner c ∧ marked inner <:+: bytes

/-- Whether a reference stands at the front. -/
def BeginsWith (refers : List UInt8 → Char → Prop) (bytes : List UInt8) : Prop :=
  ∃ inner c, refers inner c ∧ marked inner <+: bytes

/-- Bytes, and the same bytes with the references replaced that are met on the way from left to
right. A byte that no reference begins with is copied. -/
inductive Replaced (refers : List UInt8 → Char → Prop) : List UInt8 → List UInt8 → Prop where
  | done : Replaced refers [] []
  | reference {inner rest decoded : List UInt8} {c : Char} (is : refers inner c)
      (after : Replaced refers rest decoded) :
      Replaced refers (marked inner ++ rest) (String.utf8EncodeChar c ++ decoded)
  | other {b : UInt8} {rest decoded : List UInt8} (none : ¬ BeginsWith refers (b :: rest))
      (after : Replaced refers rest decoded) : Replaced refers (b :: rest) (b :: decoded)

end Definitions

section Cutting
variable {inner rest bytes : List UInt8} {c : Char}

theorem marked_append (inner rest : List UInt8) :
    marked inner ++ rest = byteOf '&' :: (inner ++ byteOf ';' :: rest) := by
  simp [marked]

/-- A reference reaches to the next semicolon. -/
theorem take_reference_iff :
    takeReference bytes = some (c, rest) ↔
      ∃ inner, Taken inner c ∧ bytes = inner ++ byteOf ';' :: rest := by
  constructor
  · intro found
    unfold takeReference at found
    split at found
    · rename_i name b later cut
      obtain ⟨d, refers, same⟩ := Option.map_eq_some_iff.mp found
      cases same
      obtain ⟨before, after⟩ := Prod.mk.inj cut
      have mark := List.head?_dropWhile_not (· != 0x3B) bytes
      rw [after] at mark
      have ends : b = 0x3B := by simpa using mark
      refine ⟨name, referent_iff.mp refers, ?_⟩
      rw [show byteOf ';' = b from ends.symm, ← before, ← after, List.takeWhile_append_dropWhile]
    · cases found
  · rintro ⟨inner, taken, rfl⟩
    have cut := break_at_mark (clear_taken taken (.inl rfl)) rest
    have mark : byteOf ';' = 0x3B := rfl
    rw [takeReference, ← mark, cut]
    exact Option.map_eq_some_iff.mpr ⟨c, referent_iff.mpr taken, rfl⟩

/-- Two references at the front of the same bytes are the same. -/
theorem marked_inj {other later : List UInt8} {d : Char} (taken : Taken inner c)
    (also : Taken other d) (same : marked inner ++ rest = marked other ++ later) :
    inner = other ∧ rest = later := by
  rw [marked_append, marked_append, List.cons.injEq] at same
  have cut := congrArg (breakAt (byteOf ';')) same.2
  have clear := clear_taken taken (.inl rfl)
  have alsoClear := clear_taken also (.inl rfl)
  rw [break_at_mark clear, break_at_mark alsoClear] at cut
  simpa using cut

theorem taken_unique {d : Char} (taken : Taken inner c) (also : Taken inner d) : c = d :=
  Option.some.inj ((referent_iff.mpr taken).symm.trans (referent_iff.mpr also))

end Cutting

section Decoding
variable {refers : List UInt8 → Char → Prop} {inner rest bytes decoded : List UInt8} {b : UInt8}
  {c : Char}

theorem begins_with_marked (is : refers inner c) (rest : List UInt8) :
    BeginsWith refers (marked inner ++ rest) := ⟨inner, c, is, List.prefix_append _ _⟩

theorem decode_taken (taken : Taken inner c) (rest : List UInt8) :
    decodeReferences (marked inner ++ rest) = String.utf8EncodeChar c ++ decodeReferences rest := by
  have found : takeReference (inner ++ byteOf ';' :: rest) = some (c, rest) :=
    take_reference_iff.mpr ⟨inner, taken, rfl⟩
  have ampersand : byteOf '&' = 0x26 := rfl
  rw [marked_append, ampersand, decodeReferences, if_pos rfl]
  split
  · rename_i d later other
    rw [found] at other
    cases other
    rfl
  · rename_i missing
    rw [found] at missing
    cases missing

/-- A text and what it is decoded to, with all that decoding takes for a reference. -/
theorem decode_replaced (bytes : List UInt8) : Replaced Taken bytes (decodeReferences bytes) := by
  fun_induction decodeReferences bytes with
  | case1 => exact .done
  | case2 rest c later found _ ih =>
    obtain ⟨inner, taken, rfl⟩ := take_reference_iff.mp found
    have whole : (0x26 : UInt8) :: (inner ++ byteOf ';' :: later) = marked inner ++ later :=
      (marked_append inner later).symm
    rw [whole]
    exact .reference taken ih
  | case3 rest missing ih =>
    refine .other ?_ ih
    rintro ⟨inner, c, taken, later, same⟩
    rw [marked_append, List.cons.injEq] at same
    have found := take_reference_iff.mpr ⟨inner, taken, same.2.symm⟩
    rw [missing] at found
    cases found
  | case4 b rest other ih =>
    refine .other ?_ ih
    rintro ⟨inner, c, taken, later, same⟩
    rw [marked_append, List.cons.injEq] at same
    exact other same.1.symm

variable (within : ∀ inner c, refers inner c → Taken inner c)

include within in
/-- At a reference its character is put in. -/
theorem replaced_reference (is : refers inner c) :
    Replaced refers (marked inner ++ rest) decoded ↔
      ∃ later, decoded = String.utf8EncodeChar c ++ later ∧ Replaced refers rest later := by
  constructor
  · intro replaced
    generalize whole : marked inner ++ rest = bytes at replaced
    cases replaced with
    | done => simp [marked] at whole
    | @reference other tail later d also after =>
      obtain ⟨rfl, rfl⟩ := marked_inj (within _ _ is) (within _ _ also) whole
      obtain rfl := taken_unique (within _ _ is) (within _ _ also)
      exact ⟨later, rfl, after⟩
    | other none after =>
      exact absurd (whole ▸ begins_with_marked is rest) none
  · rintro ⟨later, rfl, after⟩
    exact .reference is after

/-- Where no reference begins a byte is copied. -/
theorem replaced_other (none : ¬ BeginsWith refers (b :: rest)) :
    Replaced refers (b :: rest) decoded ↔
      ∃ later, decoded = b :: later ∧ Replaced refers rest later := by
  constructor
  · intro replaced
    generalize whole : b :: rest = bytes at replaced
    cases replaced with
    | done => cases whole
    | reference is after => exact absurd (whole ▸ begins_with_marked is _) none
    | other _ after =>
      cases whole
      exact ⟨_, rfl, after⟩
  · rintro ⟨later, rfl, after⟩
    exact .other none after

include within in
/-- Bytes are replaced in one way only. -/
theorem replaced_unique {other : List UInt8} (replaced : Replaced refers bytes decoded)
    (also : Replaced refers bytes other) : decoded = other := by
  induction replaced generalizing other with
  | done =>
    generalize whole : ([] : List UInt8) = bytes at also
    cases also with
    | done => rfl
    | reference is after => simp [marked] at whole
    | other none after => cases whole
  | reference is after ih =>
    obtain ⟨later, rfl, rest⟩ := (replaced_reference within is).mp also
    rw [ih rest]
  | other none after ih =>
    obtain ⟨later, rfl, rest⟩ := (replaced_other none).mp also
    rw [ih rest]

end Decoding

section Signs
variable {inner rest run bytes decoded : List UInt8} {b : UInt8} {c : Char}

theorem begins_with_ampersand {refers : List UInt8 → Char → Prop}
    (begins : BeginsWith refers (b :: rest)) : b = byteOf '&' := by
  obtain ⟨inner, c, _, later, same⟩ := begins
  rw [marked_append] at same
  exact (List.cons.inj same).1.symm

/-- What is not even taken for a reference is none. -/
theorem not_begins_refers (none : ¬ BeginsWith Taken bytes) : ¬ BeginsWith Refers bytes :=
  fun ⟨inner, c, refers, front⟩ => none ⟨inner, c, .inl refers, front⟩

/-- At a number with a sign no reference begins. -/
theorem not_begins_signed (signed : Signed inner c) (rest : List UInt8) :
    ¬ BeginsWith Refers (marked inner ++ rest) := by
  rintro ⟨other, d, refers, later, same⟩
  obtain ⟨rfl, -⟩ := marked_inj (.inl refers) (.inr signed) same
  exact signed_no_reference refers signed

/-- Bytes without an ampersand are copied. -/
theorem replaced_run {refers : List UInt8 → Char → Prop} (clear : byteOf '&' ∉ run) :
    Replaced refers (run ++ rest) decoded ↔
      ∃ later, decoded = run ++ later ∧ Replaced refers rest later := by
  induction run generalizing decoded with
  | nil => simp
  | cons b run ih =>
    rw [List.mem_cons, not_or] at clear
    have none : ¬ BeginsWith refers (b :: (run ++ rest)) := fun begins =>
      clear.1 (begins_with_ampersand begins).symm
    rw [List.cons_append, replaced_other none]
    constructor
    · rintro ⟨later, rfl, after⟩
      obtain ⟨last, rfl, behind⟩ := (ih clear.2).mp after
      exact ⟨last, rfl, behind⟩
    · rintro ⟨last, rfl, behind⟩
      exact ⟨run ++ last, rfl, (ih clear.2).mpr ⟨last, rfl, behind⟩⟩

theorem clear_tail (taken : Taken inner c) : byteOf '&' ∉ inner ++ [byteOf ';'] := by
  rw [List.mem_append, not_or, List.mem_singleton]
  exact ⟨clear_taken taken (.inr rfl), by decide⟩

/-- A number with a sign is copied as it stands. -/
theorem replaced_signed (signed : Signed inner c) :
    Replaced Refers (marked inner ++ rest) decoded ↔
      ∃ later, decoded = marked inner ++ later ∧ Replaced Refers rest later := by
  have clear := clear_tail (.inr signed)
  have none := not_begins_signed signed rest
  have whole : marked inner ++ rest = byteOf '&' :: ((inner ++ [byteOf ';']) ++ rest) := rfl
  rw [whole] at none ⊢
  rw [replaced_other none]
  constructor
  · rintro ⟨later, rfl, after⟩
    obtain ⟨last, rfl, behind⟩ := (replaced_run clear).mp after
    exact ⟨last, rfl, behind⟩
  · rintro ⟨last, rfl, behind⟩
    exact ⟨_, rfl, (replaced_run clear).mpr ⟨last, rfl, behind⟩⟩

/-- What begins with an ampersand begins behind bytes that have none. -/
theorem marked_behind (clear : byteOf '&' ∉ run) (found : marked inner <:+: run ++ rest) :
    marked inner <:+: rest := by
  induction run with
  | nil => exact found
  | cons b run ih =>
    rw [List.mem_cons, not_or] at clear
    rw [List.cons_append, List.infix_cons_iff] at found
    rcases found with ⟨later, same⟩ | behind
    · rw [marked_append, List.cons.injEq] at same
      exact absurd same.1 clear.1
    · exact ih clear.2 behind

/-- A number with a sign does not overlap a reference in front of it. -/
theorem signed_behind (refers : Refers inner c) (found : HasSigned (marked inner ++ rest)) :
    HasSigned rest := by
  obtain ⟨other, d, signed, occurs⟩ := found
  have clear := clear_tail (.inl refers)
  rcases List.infix_cons_iff.mp occurs with ⟨later, same⟩ | behind
  · exact absurd ⟨inner, c, refers, rest, same.symm⟩ (not_begins_signed signed later)
  · exact ⟨other, d, signed, marked_behind clear behind⟩

/-- A number with a sign takes more bytes than the character it stands for. -/
theorem signed_longer (signed : Signed inner c) :
    (String.utf8EncodeChar c).length < (marked inner).length := by
  have four : (String.utf8EncodeChar c).length ≤ 4 := by
    rw [String.length_utf8EncodeChar]
    exact Char.utf8Size_le_four c
  have digits {base number : Nat} {digits : List UInt8} (spelled : Numeral base digits number) :
      0 < digits.length := List.length_pos_of_ne_nil (numeral_not_empty spelled)
  unfold marked
  cases signed with
  | decimal spelled =>
    have := digits spelled
    simp only [List.length_cons, List.length_append, List.length_nil]
    omega
  | hexadecimal marks spelled =>
    have := digits spelled
    simp only [List.length_cons, List.length_append, List.length_nil]
    omega

/-- Without signs nothing but references is replaced. -/
theorem replaced_unsigned (unsigned : ¬ HasSigned bytes) (replaced : Replaced Taken bytes decoded) :
    Replaced Refers bytes decoded := by
  induction replaced with
  | done => exact .done
  | @reference inner rest decoded c taken after ih =>
    have later : ¬ HasSigned rest := fun ⟨other, d, signed, occurs⟩ =>
      unsigned ⟨other, d, signed, occurs.trans (List.suffix_append _ _).isInfix⟩
    rcases taken with refers | signed
    · exact .reference refers (ih later)
    · exact absurd ⟨inner, c, signed, (List.prefix_append _ _).isInfix⟩ unsigned
  | @other b rest decoded none after ih =>
    have later : ¬ HasSigned rest := fun ⟨other, d, signed, occurs⟩ =>
      unsigned ⟨other, d, signed, List.infix_cons occurs⟩
    exact .other (not_begins_refers none) (ih later)

/-- Each number with a sign makes what is decoded shorter than it is with just the references
replaced. -/
theorem replaced_shorter {longer : List UInt8} (replaced : Replaced Taken bytes decoded)
    (proper : Replaced Refers bytes longer) :
    decoded.length ≤ longer.length ∧ (HasSigned bytes → decoded.length < longer.length) := by
  induction replaced generalizing longer with
  | done =>
    refine ⟨Nat.zero_le _, fun ⟨inner, c, _, occurs⟩ => ?_⟩
    exact absurd (List.infix_nil.mp occurs) (List.cons_ne_nil _ _)
  | @reference inner rest decoded c taken after ih =>
    rcases taken with refers | signed
    · obtain ⟨later, rfl, behind⟩ := (replaced_reference (fun _ _ => .inl) refers).mp proper
      obtain ⟨bound, strict⟩ := ih behind
      simp only [List.length_append]
      refine ⟨by omega, fun has => ?_⟩
      have less := strict (signed_behind refers has)
      omega
    · obtain ⟨later, rfl, behind⟩ := (replaced_signed signed).mp proper
      have shorter := signed_longer signed
      obtain ⟨bound, _⟩ := ih behind
      simp only [List.length_append]
      exact ⟨by omega, fun _ => by omega⟩
  | @other b rest decoded none after ih =>
    obtain ⟨later, rfl, behind⟩ := (replaced_other (not_begins_refers none)).mp proper
    obtain ⟨bound, strict⟩ := ih behind
    simp only [List.length_cons]
    refine ⟨by omega, fun ⟨inner, c, signed, occurs⟩ => ?_⟩
    rcases List.infix_cons_iff.mp occurs with front | further
    · exact absurd ⟨inner, c, .inr signed, front⟩ none
    · have less := strict ⟨inner, c, signed, further⟩
      omega

end Signs

/-- Decoding puts in a character at each of the five names and at each number of one digit or more,
from left to right, and copies all else. It takes numbers with a plus sign in front of them too, so
just the references are replaced exactly in the texts without such a number. To search a text for an
ampersand first makes no difference. -/
theorem references_replaced_iff (bytes : List UInt8) :
    (∀ decoded, Replaced Taken bytes decoded ↔ decoded = decodeReferences bytes) ∧
      ((∀ decoded, Replaced Refers bytes decoded ↔ decoded = decodeReferences bytes) ↔
        ∀ inner c, Signed inner c → ¬ marked inner <:+: bytes) ∧
      decodeBytes bytes = decodeReferences bytes := by
  have replaced := decode_replaced bytes
  have none_iff : (∀ inner c, Signed inner c → ¬ marked inner <:+: bytes) ↔ ¬ HasSigned bytes := by
    simp [HasSigned]
  refine ⟨fun decoded => ⟨fun also => ?_, ?_⟩, ?_, decode_bytes_eq bytes⟩
  · exact replaced_unique (fun _ _ => id) also replaced
  · rintro rfl
    exact replaced
  · rw [none_iff]
    constructor
    · intro only has
      have proper : Replaced Refers bytes (decodeReferences bytes) := (only _).mpr rfl
      exact Nat.lt_irrefl _ ((replaced_shorter replaced proper).2 has)
    · intro unsigned decoded
      have proper := replaced_unsigned unsigned replaced
      constructor
      · exact fun also => replaced_unique (fun _ _ => .inl) also proper
      · rintro rfl
        exact proper

/-- A number with a sign is no reference, and yet it is decoded. -/
theorem signed_number_decoded :
    Replaced Refers (bytesOf "&#+65;") (bytesOf "&#+65;") ∧
      decodeReferences (bytesOf "&#+65;") = bytesOf "A" := by
  have spelled : Numeral 10 (bytesOf "65") 'A'.toNat :=
    (digits_value_iff (by decide)).mp ⟨by decide, by decide⟩
  have signed : Signed (bytesOf "#+65") 'A' := .decimal spelled
  have whole : bytesOf "&#+65;" = marked (bytesOf "#+65") ++ [] := by decide
  have nothing : decodeReferences [] = [] := by rw [decodeReferences]
  constructor
  · rw [whole]
    exact (replaced_signed signed).mpr ⟨[], rfl, .done⟩
  · rw [whole, decode_taken (.inr signed), nothing]
    decide

end RangeIndex.ReferenceDecoding
