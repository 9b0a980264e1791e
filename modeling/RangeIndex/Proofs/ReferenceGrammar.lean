import RangeIndex.Proofs.WrittenText

/-! What stands between the ampersand and the semicolon of a reference to a character: one of five
names, or the number of the character after a number sign, in digits to the base ten, or sixteen if
it is marked so. Decoding takes a plus sign in front of the digits as well, and nothing else. -/
namespace RangeIndex.ReferenceGrammar
open Text Markup EncodedText WrittenText

section Definitions

/-- A byte that is a digit of a base. After the ten figures come the letters from `a` on, in either
case. -/
def IsDigit (base value : Nat) (b : UInt8) : Prop :=
  value < base ∧
    (value < 10 ∧ b.toNat = '0'.toNat + value ∨
      10 ≤ value ∧ (b.toNat + 10 = 'a'.toNat + value ∨ b.toNat + 10 = 'A'.toNat + value))

/-- One digit or more, and the number they stand for. -/
inductive Numeral (base : Nat) : List UInt8 → Nat → Prop where
  | digit {b : UInt8} {value : Nat} (is : IsDigit base value b) : Numeral base [b] value
  | next {digits : List UInt8} {b : UInt8} {number value : Nat} (front : Numeral base digits number)
      (is : IsDigit base value b) : Numeral base (digits ++ [b]) (number * base + value)

/-- The mark of a number to the base sixteen. -/
def IsHexMark (mark : UInt8) : Prop := mark = byteOf 'x' ∨ mark = byteOf 'X'

/-- What stands between the ampersand and the semicolon of a reference to a character. -/
inductive Refers : List UInt8 → Char → Prop where
  | named {name : String} {c : Char} (listed : (c, name) ∈ references) : Refers (bytesOf name) c
  | decimal {digits : List UInt8} {c : Char} (spelled : Numeral 10 digits c.toNat) :
      Refers (byteOf '#' :: digits) c
  | hexadecimal {mark : UInt8} {digits : List UInt8} {c : Char} (marks : IsHexMark mark)
      (spelled : Numeral 16 digits c.toNat) : Refers (byteOf '#' :: mark :: digits) c

/-- The number of a character with a plus sign in front of its digits. -/
inductive Signed : List UInt8 → Char → Prop where
  | decimal {digits : List UInt8} {c : Char} (spelled : Numeral 10 digits c.toNat) :
      Signed (byteOf '#' :: byteOf '+' :: digits) c
  | hexadecimal {mark : UInt8} {digits : List UInt8} {c : Char} (marks : IsHexMark mark)
      (spelled : Numeral 16 digits c.toNat) : Signed (byteOf '#' :: mark :: byteOf '+' :: digits) c

/-- Digits of the number of a character, with a plus sign in front or without. -/
def Numbers (base : Nat) (digits : List UInt8) (c : Char) : Prop :=
  Numeral base digits c.toNat ∨ ∃ more, digits = byteOf '+' :: more ∧ Numeral base more c.toNat

/-- What decoding takes for a reference. -/
def Taken (inner : List UInt8) (c : Char) : Prop := Refers inner c ∨ Signed inner c

end Definitions

section Numbers
variable {base number : Nat} {digits : List UInt8}

theorem digit_value_iff (small : base ≤ 16) {b : UInt8} {value : Nat} :
    digitValue base b = some value ↔ IsDigit base value b := by
  have zero : '0'.toNat = 48 := rfl
  have lower : 'a'.toNat = 97 := rfl
  have upper : 'A'.toNat = 65 := rfl
  unfold digitValue IsDigit
  rw [zero, lower, upper]
  simp only [Bool.and_eq_true, decide_eq_true_eq, UInt8.le_iff_toNat_le, UInt8.reduceToNat]
  split_ifs <;> simp <;> omega

theorem digits_value_append (digits : List UInt8) (b : UInt8) :
    digitsValue base (digits ++ [b]) =
      (digitsValue base digits).bind fun number =>
        (digitValue base b).map (number * base + ·) := by
  simp [digitsValue, List.foldlM_append]

theorem numeral_not_empty (spelled : Numeral base digits number) : digits ≠ [] := by
  cases spelled <;> simp

/-- A run of digits has the value that it spells. -/
theorem digits_value_iff (small : base ≤ 16) :
    digits ≠ [] ∧ digitsValue base digits = some number ↔ Numeral base digits number := by
  constructor
  · rintro ⟨nonempty, value⟩
    induction digits using List.reverseRecOn generalizing number with
    | nil => exact absurd rfl nonempty
    | append_singleton front b ih =>
      rw [digits_value_append] at value
      obtain ⟨before, first, last⟩ := Option.bind_eq_some_iff.mp value
      obtain ⟨own, digit, rfl⟩ := Option.map_eq_some_iff.mp last
      have is := (digit_value_iff small).mp digit
      cases front with
      | nil =>
        cases first
        simpa using Numeral.digit is
      | cons d front => exact .next (ih (List.cons_ne_nil _ _) first) is
  · intro spelled
    refine ⟨numeral_not_empty spelled, ?_⟩
    induction spelled with
    | digit is => simp [digitsValue, (digit_value_iff small).mpr is]
    | next front is ih =>
      have digit := (digit_value_iff small).mpr is
      rw [digits_value_append, ih, Option.bind_some, digit, Option.map_some]

/-- A digit is a figure or one of six letters in either case. -/
theorem digit_range {b : UInt8} {value : Nat} (small : base ≤ 16) (is : IsDigit base value b) :
    48 ≤ b.toNat ∧ b.toNat ≤ 57 ∨ 65 ≤ b.toNat ∧ b.toNat ≤ 70 ∨ 97 ≤ b.toNat ∧ b.toNat ≤ 102 := by
  have zero : '0'.toNat = 48 := rfl
  have lower : 'a'.toNat = 97 := rfl
  have upper : 'A'.toNat = 65 := rfl
  unfold IsDigit at is
  rw [zero, lower, upper] at is
  omega

theorem numeral_digits (spelled : Numeral base digits number) :
    ∀ b ∈ digits, ∃ value, IsDigit base value b := by
  induction spelled with
  | @digit b value is => exact List.forall_mem_singleton.mpr ⟨value, is⟩
  | @next front b number value _ is ih =>
    exact List.forall_mem_append.mpr ⟨ih, List.forall_mem_singleton.mpr ⟨value, is⟩⟩

/-- A byte that is no digit does not occur in a numeral. -/
theorem clear_numeral (small : base ≤ 16) (spelled : Numeral base digits number) {b : UInt8}
    (other : b.toNat < 48 ∨ 57 < b.toNat ∧ b.toNat < 65 ∨ 70 < b.toNat ∧ b.toNat < 97 ∨
      102 < b.toNat) : b ∉ digits := by
  intro member
  obtain ⟨value, is⟩ := numeral_digits spelled b member
  have range := digit_range small is
  omega

/-- A sign is no digit. -/
theorem numeral_unsigned (small : base ≤ 16) (more : List UInt8) :
    ¬ Numeral base (byteOf '+' :: more) number := fun spelled =>
  clear_numeral small spelled (.inl (by decide)) List.mem_cons_self

/-- A number is read from its digits, and with a plus sign in front of them too. -/
theorem read_number_iff (small : base ≤ 16) :
    readNumber base digits = some number ↔
      Numeral base digits number ∨
        ∃ more, digits = byteOf '+' :: more ∧ Numeral base more number := by
  cases digits with
  | nil => simp [readNumber, ← digits_value_iff small]
  | cons first more =>
    by_cases plus : first = byteOf '+'
    · subst plus
      have signed : readNumber base (byteOf '+' :: more) =
          if more = [] then none else digitsValue base more := by
        cases more <;> rfl
      rw [signed]
      simp [numeral_unsigned small, ← digits_value_iff small]
    · have plain : readNumber base (first :: more) = digitsValue base (first :: more) := by
        unfold readNumber
        split
        · rename_i none
          cases none
        · rename_i same
          exact absurd (List.cons.inj same).1 plus
        · rename_i same
          exact absurd (List.cons.inj same).1 plus
        · rfl
      rw [plain, ← digits_value_iff small]
      simp [plus]

/-- The character of a number is the one that has it. -/
theorem char_of_iff {code : Nat} {c : Char} : charOf code = some c ↔ c.toNat = code := by
  unfold charOf
  constructor
  · intro made
    by_cases valid : code.isValidChar
    · rw [dif_pos valid] at made
      obtain rfl := Option.some.inj made
      rfl
    · rw [dif_neg valid] at made
      cases made
  · rintro rfl
    have valid : c.toNat.isValidChar := c.valid
    rw [dif_pos valid]
    exact congrArg some (Char.toNat_inj.mp rfl)

/-- What a number refers to is the character that has it. -/
theorem read_character_iff (small : base ≤ 16) {c : Char} :
    (readNumber base digits).bind charOf = some c ↔ Numbers base digits c := by
  rw [Option.bind_eq_some_iff, Numbers, ← read_number_iff small]
  simp [char_of_iff]

end Numbers

section Referents
variable {inner rest : List UInt8} {c : Char}

/-- No name begins with a number sign. -/
theorem unnumbered_name {name : String} (listed : (c, name) ∈ references) :
    bytesOf name ≠ byteOf '#' :: rest := by
  have all : ∀ pair ∈ references, (bytesOf pair.2).head? ≠ some (byteOf '#') := by decide
  intro same
  have front := all _ listed
  rw [same] at front
  exact front rfl

/-- A mark of the base is neither a figure nor a sign. -/
theorem mark_no_decimal {mark : UInt8} (marks : IsHexMark mark) (digits : List UInt8) :
    ¬ Numbers 10 (mark :: digits) c := by
  have clear : mark ≠ byteOf '+' ∧ (70 < mark.toNat ∧ mark.toNat < 97 ∨ 102 < mark.toNat) := by
    rcases marks with rfl | rfl <;> decide
  rintro (spelled | ⟨more, signed, -⟩)
  · exact clear_numeral (by decide) spelled (.inr (.inr clear.2)) List.mem_cons_self
  · exact clear.1 (List.cons.inj signed).1

/-- What is taken for a reference after a number sign is a number, to the base ten or sixteen. -/
theorem taken_number_iff :
    Taken (byteOf '#' :: rest) c ↔
      Numbers 10 rest c ∨
        ∃ mark digits, IsHexMark mark ∧ rest = mark :: digits ∧ Numbers 16 digits c := by
  constructor
  · rintro (refers | signed)
    · generalize whole : byteOf '#' :: rest = inner at refers
      cases refers with
      | named listed => exact absurd whole.symm (unnumbered_name listed)
      | decimal spelled =>
        cases whole
        exact .inl (.inl spelled)
      | hexadecimal marks spelled =>
        cases whole
        exact .inr ⟨_, _, marks, rfl, .inl spelled⟩
    · cases signed with
      | decimal spelled => exact .inl (.inr ⟨_, rfl, spelled⟩)
      | hexadecimal marks spelled => exact .inr ⟨_, _, marks, rfl, .inr ⟨_, rfl, spelled⟩⟩
  · rintro (decimal | ⟨mark, digits, marks, rfl, hexadecimal⟩)
    · rcases decimal with spelled | ⟨more, rfl, spelled⟩
      · exact .inl (.decimal spelled)
      · exact .inr (.decimal spelled)
    · rcases hexadecimal with spelled | ⟨more, rfl, spelled⟩
      · exact .inl (.hexadecimal marks spelled)
      · exact .inr (.hexadecimal marks spelled)

/-- A referent without a number sign is a name. -/
theorem referent_name (other : ∀ digits, inner ≠ byteOf '#' :: digits) :
    referent inner = some c ↔ ∃ name, (c, name) ∈ references ∧ inner = bytesOf name := by
  constructor
  · intro refers
    unfold referent at refers
    split at refers
    · exact absurd rfl (other _)
    · exact absurd rfl (other _)
    · exact absurd rfl (other _)
    · split_ifs at refers with lt gt amp quot apos
      · exact ⟨"lt", by cases refers; decide, lt⟩
      · exact ⟨"gt", by cases refers; decide, gt⟩
      · exact ⟨"amp", by cases refers; decide, amp⟩
      · exact ⟨"quot", by cases refers; decide, quot⟩
      · exact ⟨"apos", by cases refers; decide, apos⟩
  · rintro ⟨name, listed, rfl⟩
    have all : ∀ pair ∈ references, referent (bytesOf pair.2) = some pair.1 := by decide
    exact all _ listed

/-- Behind a mark a number to the base sixteen is read. -/
theorem referent_marked {mark : UInt8} (marks : IsHexMark mark) (digits : List UInt8) :
    referent (byteOf '#' :: mark :: digits) = (readNumber 16 digits).bind charOf := by
  rcases marks with rfl | rfl <;> rfl

/-- Without a mark a decimal number is read. -/
theorem referent_unmarked (plain : ∀ mark digits, IsHexMark mark → rest ≠ mark :: digits) :
    referent (byteOf '#' :: rest) = (readNumber 10 rest).bind charOf := by
  unfold referent
  split
  · rename_i digits same
    exact absurd (List.cons.inj same).2 (plain _ digits (.inl rfl))
  · rename_i digits same
    exact absurd (List.cons.inj same).2 (plain _ digits (.inr rfl))
  · rename_i same
    rw [(List.cons.inj same).2]
  · rename_i other
    exact absurd rfl (other rest)

theorem referent_number :
    referent (byteOf '#' :: rest) = some c ↔ Taken (byteOf '#' :: rest) c := by
  rw [taken_number_iff]
  by_cases hex : ∃ mark digits, IsHexMark mark ∧ rest = mark :: digits
  · obtain ⟨mark, digits, marks, rfl⟩ := hex
    rw [referent_marked marks, read_character_iff (by decide)]
    simp [mark_no_decimal marks, marks]
  · have plain : ∀ mark digits, IsHexMark mark → rest ≠ mark :: digits :=
      fun mark digits marks same => hex ⟨mark, digits, marks, same⟩
    rw [referent_unmarked plain, read_character_iff (by decide)]
    refine (or_iff_left ?_).symm
    rintro ⟨mark, digits, marks, same, -⟩
    exact plain mark digits marks same

/-- Decoding takes for references what is one and what has a sign besides. -/
theorem referent_iff : referent inner = some c ↔ Taken inner c := by
  by_cases numeric : ∃ digits, inner = byteOf '#' :: digits
  · obtain ⟨rest, rfl⟩ := numeric
    exact referent_number
  · have other : ∀ digits, inner ≠ byteOf '#' :: digits := fun digits same => numeric ⟨digits, same⟩
    rw [referent_name other]
    constructor
    · rintro ⟨name, listed, rfl⟩
      exact .inl (.named listed)
    · rintro (refers | signed)
      · cases refers with
        | named listed => exact ⟨_, listed, rfl⟩
        | decimal => exact absurd rfl (other _)
        | hexadecimal => exact absurd rfl (other _)
      · cases signed <;> exact absurd rfl (other _)

/-- Inside a reference there is neither a semicolon nor an ampersand. -/
theorem clear_taken (taken : Taken inner c) {b : UInt8} (mark : b = byteOf ';' ∨ b = byteOf '&') :
    b ∉ inner := by
  have between : b.toNat < 48 ∨ 57 < b.toNat ∧ b.toNat < 65 := by
    rcases mark with rfl | rfl <;> decide
  have other : b ≠ byteOf '#' ∧ b ≠ byteOf '+' ∧ ∀ mark, IsHexMark mark → b ≠ mark := by
    rcases mark with rfl | rfl <;> simp [IsHexMark] <;> decide
  obtain ⟨sign, plus, marks⟩ := other
  have digits {base number : Nat} {digits : List UInt8} (small : base ≤ 16)
      (spelled : Numeral base digits number) : b ∉ digits :=
    clear_numeral small spelled (between.imp_right .inl)
  rcases taken with refers | signed
  · cases refers with
    | named listed =>
      have all : ∀ pair ∈ references,
          byteOf ';' ∉ bytesOf pair.2 ∧ byteOf '&' ∉ bytesOf pair.2 := by decide
      rcases mark with rfl | rfl
      · exact (all _ listed).1
      · exact (all _ listed).2
    | decimal spelled => simp [sign, digits (by decide) spelled]
    | hexadecimal own spelled => simp [sign, marks _ own, digits (by decide) spelled]
  · cases signed with
    | decimal spelled => simp [sign, plus, digits (by decide) spelled]
    | hexadecimal own spelled => simp [sign, plus, marks _ own, digits (by decide) spelled]

/-- A sign makes a number no reference. -/
theorem signed_no_reference {d : Char} (refers : Refers inner c) : ¬ Signed inner d := by
  intro signed
  cases signed with
  | decimal spelled =>
    generalize whole : byteOf '#' :: byteOf '+' :: _ = inner at refers
    cases refers with
    | named listed => exact unnumbered_name listed whole.symm
    | decimal other =>
      cases whole
      exact numeral_unsigned (by decide) _ other
    | hexadecimal marks other =>
      cases whole
      rcases marks with plus | plus <;> exact absurd plus (by decide)
  | hexadecimal marks spelled =>
    generalize whole : byteOf '#' :: _ :: byteOf '+' :: _ = inner at refers
    cases refers with
    | named listed => exact unnumbered_name listed whole.symm
    | decimal other =>
      cases whole
      exact mark_no_decimal marks _ (.inl other)
    | hexadecimal _ other =>
      cases whole
      exact numeral_unsigned (by decide) _ other

end Referents

end RangeIndex.ReferenceGrammar
