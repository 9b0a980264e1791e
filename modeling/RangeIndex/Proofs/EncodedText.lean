import Mathlib.Data.List.Infix
import RangeIndex.Markup.Reference

/-! Text and its bytes. Decoding takes the bytes of a text back to the text, character by character.
A character of the first 128 is one byte, and no byte of any other character is below 128, so what is
looked for among the bytes of a text is found just where its characters are. -/
namespace RangeIndex.EncodedText
open Text Markup

section Bytes

theorem byte_of_nat {n : Nat} (small : n < 256) : (UInt8.ofNat n).toNat = n :=
  UInt8.toNat_ofNat_of_lt' small

theorem continuation_iff (b : UInt8) :
    Utf8.isContinuation b = true ↔ 128 ≤ b.toNat ∧ b.toNat ≤ 191 := by
  simp [Utf8.isContinuation, UInt8.le_iff_toNat_le]

/-- How many bytes a first byte announces, by its number. -/
theorem width_eq (lead : UInt8) :
    Utf8.width lead =
      if lead.toNat < 128 then 1
      else if 194 ≤ lead.toNat ∧ lead.toNat ≤ 223 then 2
      else if 224 ≤ lead.toNat ∧ lead.toNat ≤ 239 then 3
      else if 240 ≤ lead.toNat ∧ lead.toNat ≤ 244 then 4
      else 0 := by
  simp [Utf8.width, UInt8.le_iff_toNat_le, UInt8.lt_iff_toNat_lt]

/-- Which bytes may follow a first byte, by their numbers. -/
theorem may_follow_iff (lead b : UInt8) :
    Utf8.mayFollow lead b = true ↔
      (if lead.toNat = 224 then 160 ≤ b.toNat ∧ b.toNat ≤ 191
        else if lead.toNat = 237 then 128 ≤ b.toNat ∧ b.toNat ≤ 159
        else if lead.toNat = 240 then 144 ≤ b.toNat ∧ b.toNat ≤ 191
        else if lead.toNat = 244 then 128 ≤ b.toNat ∧ b.toNat ≤ 143
        else 128 ≤ b.toNat ∧ b.toNat ≤ 191) := by
  simp only [Utf8.mayFollow, beq_iff_eq, ← UInt8.toNat_inj]
  simp only [UInt8.reduceToNat]
  split_ifs <;> simp [UInt8.le_iff_toNat_le, continuation_iff]

end Bytes

section Decoding
variable {lead b c d : UInt8} {rest : List UInt8}

theorem closing_continued {value : Nat} (continues : Utf8.isContinuation b = true) :
    Utf8.closing value (b :: rest) = (Char.ofNat (value * 64 + b.toNat % 64), rest) := by
  simp [Utf8.closing, continues, Utf8.payload]

theorem decode_one (width : Utf8.width lead = 1) :
    Utf8.decode (lead :: rest) = Char.ofNat lead.toNat :: Utf8.decode rest := by
  rw [Utf8.decode]
  simp [Utf8.decodeOne, width]

theorem decode_two (width : Utf8.width lead = 2) (last : Utf8.isContinuation b = true) :
    Utf8.decode (lead :: b :: rest) =
      Char.ofNat (lead.toNat % 32 * 64 + b.toNat % 64) :: Utf8.decode rest := by
  rw [Utf8.decode]
  simp [Utf8.decodeOne, width, closing_continued last]

theorem decode_three (width : Utf8.width lead = 3) (second : Utf8.mayFollow lead b = true)
    (last : Utf8.isContinuation c = true) :
    Utf8.decode (lead :: b :: c :: rest) =
      Char.ofNat ((lead.toNat % 16 * 64 + b.toNat % 64) * 64 + c.toNat % 64) ::
        Utf8.decode rest := by
  rw [Utf8.decode]
  simp [Utf8.decodeOne, width, second, closing_continued last, Utf8.payload]

theorem decode_four (width : Utf8.width lead = 4) (second : Utf8.mayFollow lead b = true)
    (third : Utf8.isContinuation c = true) (last : Utf8.isContinuation d = true) :
    Utf8.decode (lead :: b :: c :: d :: rest) =
      Char.ofNat (((lead.toNat % 8 * 64 + b.toNat % 64) * 64 + c.toNat % 64) * 64 + d.toNat % 64) ::
        Utf8.decode rest := by
  rw [Utf8.decode]
  simp [Utf8.decodeOne, width, second, third, closing_continued last, Utf8.payload]

/-- A byte that holds six bits of a number after the first. -/
theorem later_byte (n : Nat) :
    (UInt8.ofNat (n % 64 + 128)).toNat = n % 64 + 128 ∧
      Utf8.isContinuation (UInt8.ofNat (n % 64 + 128)) = true := by
  have number := byte_of_nat (show n % 64 + 128 < 256 by omega)
  exact ⟨number, (continuation_iff _).mpr (by rw [number]; omega)⟩

section Numbers
variable {v : Nat}

/-- A number between 128 and 2047 is put together again from its two bytes. -/
theorem decode_two_bytes (low : 128 ≤ v) (high : v < 2048) (rest : List UInt8) :
    Utf8.decode (UInt8.ofNat (v / 64 % 32 + 192) :: UInt8.ofNat (v % 64 + 128) :: rest) =
      Char.ofNat v :: Utf8.decode rest := by
  have lead := byte_of_nat (show v / 64 % 32 + 192 < 256 by omega)
  have width : Utf8.width (UInt8.ofNat (v / 64 % 32 + 192)) = 2 := by
    rw [width_eq, lead, if_neg (by omega), if_pos (by omega)]
  obtain ⟨last, continues⟩ := later_byte v
  have whole : (v / 64 % 32 + 192) % 32 * 64 + (v % 64 + 128) % 64 = v := by omega
  rw [decode_two width continues, lead, last, whole]

/-- So is one of three bytes, unless it is a surrogate. -/
theorem decode_three_bytes (low : 2048 ≤ v) (high : v < 65536) (valid : v < 55296 ∨ 57343 < v)
    (rest : List UInt8) :
    Utf8.decode (UInt8.ofNat (v / 4096 % 16 + 224) :: UInt8.ofNat (v / 64 % 64 + 128) ::
      UInt8.ofNat (v % 64 + 128) :: rest) = Char.ofNat v :: Utf8.decode rest := by
  have lead := byte_of_nat (show v / 4096 % 16 + 224 < 256 by omega)
  have width : Utf8.width (UInt8.ofNat (v / 4096 % 16 + 224)) = 3 := by
    rw [width_eq, lead, if_neg (by omega), if_neg (by omega), if_pos (by omega)]
  obtain ⟨second, _⟩ := later_byte (v / 64)
  obtain ⟨last, continues⟩ := later_byte v
  have follows : Utf8.mayFollow (UInt8.ofNat (v / 4096 % 16 + 224))
      (UInt8.ofNat (v / 64 % 64 + 128)) = true := by
    rw [may_follow_iff, lead, second]
    split_ifs <;> omega
  have whole : ((v / 4096 % 16 + 224) % 16 * 64 + (v / 64 % 64 + 128) % 64) * 64 +
      (v % 64 + 128) % 64 = v := by omega
  rw [decode_three width follows continues, lead, second, last, whole]

theorem decode_four_bytes (low : 65536 ≤ v) (high : v < 1114112) (rest : List UInt8) :
    Utf8.decode (UInt8.ofNat (v / 262144 % 8 + 240) :: UInt8.ofNat (v / 4096 % 64 + 128) ::
      UInt8.ofNat (v / 64 % 64 + 128) :: UInt8.ofNat (v % 64 + 128) :: rest) =
      Char.ofNat v :: Utf8.decode rest := by
  have lead := byte_of_nat (show v / 262144 % 8 + 240 < 256 by omega)
  have width : Utf8.width (UInt8.ofNat (v / 262144 % 8 + 240)) = 4 := by
    rw [width_eq, lead, if_neg (by omega), if_neg (by omega), if_neg (by omega),
      if_pos (by omega)]
  obtain ⟨second, _⟩ := later_byte (v / 4096)
  obtain ⟨third, middle⟩ := later_byte (v / 64)
  obtain ⟨last, continues⟩ := later_byte v
  have follows : Utf8.mayFollow (UInt8.ofNat (v / 262144 % 8 + 240))
      (UInt8.ofNat (v / 4096 % 64 + 128)) = true := by
    rw [may_follow_iff, lead, second]
    split_ifs <;> omega
  have whole : (((v / 262144 % 8 + 240) % 8 * 64 + (v / 4096 % 64 + 128) % 64) * 64 +
      (v / 64 % 64 + 128) % 64) * 64 + (v % 64 + 128) % 64 = v := by omega
  rw [decode_four width follows middle continues, lead, second, third, last, whole]

end Numbers

/-- The bytes of a character are read as the character. -/
theorem decode_character (c : Char) (rest : List UInt8) :
    Utf8.decode (String.utf8EncodeChar c ++ rest) = c :: Utf8.decode rest := by
  have valid : c.toNat < 0xD800 ∨ 0xDFFF < c.toNat ∧ c.toNat < 0x110000 := c.valid
  have same : Char.ofNat c.toNat = c := Char.ofNat_toNat c
  have number : c.val.toNat = c.toNat := rfl
  unfold String.utf8EncodeChar
  rw [number]
  generalize c.toNat = v at valid same
  dsimp only
  split_ifs with one two three
  · have lead := byte_of_nat (show v < 256 by omega)
    rw [List.singleton_append, decode_one (by rw [width_eq, lead, if_pos (by omega)]), lead, same]
  · rw [List.cons_append, List.singleton_append, decode_two_bytes (by omega) (by omega), same]
  · simp only [List.cons_append, List.nil_append]
    rw [decode_three_bytes (by omega) (by omega) (by omega), same]
  · simp only [List.cons_append, List.nil_append]
    rw [decode_four_bytes (by omega) (by omega), same]

@[simp] theorem encode_cons (c : Char) (text : List Char) :
    Utf8.encode (c :: text) = String.utf8EncodeChar c ++ Utf8.encode text := rfl

/-- The bytes of a text are read as the text. -/
theorem decode_encode (text : List Char) : Utf8.decode (Utf8.encode text) = text := by
  induction text with
  | nil => simp [Utf8.encode, Utf8.decode]
  | cons c text ih => rw [encode_cons, decode_character, ih]

end Decoding

section Characters
variable {c d : Char}

/-- Whether a character is one of the first 128. -/
def Low (c : Char) : Prop := c.toNat < 128

instance (c : Char) : Decidable (Low c) := inferInstanceAs (Decidable (c.toNat < 128))

theorem low_bytes (low : Low c) : String.utf8EncodeChar c = [byteOf c] := by
  have number : c.val.toNat = c.toNat := rfl
  unfold String.utf8EncodeChar
  rw [number]
  exact if_pos (Nat.le_of_lt_succ low)

theorem byte_of_low (low : Low c) : (byteOf c).toNat = c.toNat :=
  byte_of_nat (Nat.lt_trans low (by decide))

/-- No byte of a character beyond the first 128 is one of theirs. -/
theorem high_bytes (high : ¬ Low c) {b : UInt8} (member : b ∈ String.utf8EncodeChar c) :
    128 ≤ b.toNat := by
  have beyond : 128 ≤ c.val.toNat := Nat.not_lt.mp high
  unfold String.utf8EncodeChar at member
  dsimp only at member
  split_ifs at member with one two three
  · omega
  all_goals
    simp only [List.mem_cons, List.not_mem_nil, or_false] at member
    rcases member with rfl | rfl | rfl | rfl
  all_goals
    rw [byte_of_nat (by omega)]
    omega

theorem low_injective (low : Low c) (lowToo : Low d) (same : byteOf c = byteOf d) : c = d := by
  apply Char.toNat_inj.mp
  rw [← byte_of_low low, ← byte_of_low lowToo, same]

/-- A character of the first 128 is found among the bytes of another one only if it is the same. -/
theorem found_is_same (low : Low d) (found : byteOf d ∈ String.utf8EncodeChar c) : c = d := by
  by_cases single : Low c
  · rw [low_bytes single, List.mem_singleton] at found
    exact low_injective single low found.symm
  · have beyond := high_bytes single found
    rw [byte_of_low low] at beyond
    exact absurd low (Nat.not_lt.mpr beyond)

/-- A text whose bytes begin with a character's begins with the character. -/
theorem first_of_encoded (low : Low d) {text : List Char} {bytes rest : List UInt8}
    (begins : Utf8.encode (c :: text) ++ rest = byteOf d :: bytes) :
    c = d ∧ Utf8.encode text ++ rest = bytes := by
  obtain ⟨first, others, own⟩ := List.exists_cons_of_ne_nil (String.utf8EncodeChar_ne_nil (c := c))
  rw [encode_cons, own, List.cons_append, List.cons_append, List.cons.injEq] at begins
  obtain ⟨rfl, begins⟩ := begins
  obtain rfl := found_is_same low (c := c) (by simp [own])
  rw [low_bytes low, List.cons.injEq] at own
  exact ⟨rfl, by rwa [← own.2] at begins⟩

end Characters

section Terminators
variable {terminator bytes rest : List UInt8} {b : UInt8}

theorem break_after_here (terminator rest : List UInt8) (some : terminator ≠ []) :
    breakAfter terminator (terminator ++ rest) = ([], rest) := by
  obtain ⟨b, others, rfl⟩ := List.exists_cons_of_ne_nil some
  have here : (b :: others).isPrefixOf (b :: (others ++ rest)) = true := by simp
  simp [breakAfter, here]

theorem break_after_later (other : ¬ terminator <+: b :: rest) :
    breakAfter terminator (b :: rest) =
      (b :: (breakAfter terminator rest).1, (breakAfter terminator rest).2) := by
  rw [breakAfter, if_neg (by rwa [List.isPrefixOf_iff_prefix])]

/-- Bytes that the terminator does not begin with are passed over. -/
theorem break_after_run (others : List UInt8) (passed : b ∉ bytes) :
    breakAfter (b :: others) (bytes ++ rest) =
      (bytes ++ (breakAfter (b :: others) rest).1, (breakAfter (b :: others) rest).2) := by
  induction bytes with
  | nil => rfl
  | cons first bytes ih =>
    rw [List.mem_cons, not_or] at passed
    have other : ¬ b :: others <+: first :: (bytes ++ rest) := fun here =>
      passed.1 (List.cons_prefix_cons.mp here).1
    rw [List.cons_append, break_after_later other, ih passed.2]
    rfl

/-- The mark that ends a section of plain characters. -/
def sectionEnd : List Char := [']', ']', '>']

/-- In a text without the mark and the mark after it, the mark does not begin before the text ends:
what precedes it would have to be brackets, and it does not end in one. -/
theorem no_mark_begins {c : Char} {text : List Char} (free : ¬ sectionEnd <:+: c :: text)
    (rest : List UInt8) :
    ¬ Utf8.encode sectionEnd <+: Utf8.encode (c :: text) ++ (Utf8.encode sectionEnd ++ rest) := by
  rintro ⟨later, begins⟩
  have mark : Utf8.encode sectionEnd = [byteOf ']', byteOf ']', byteOf '>'] := by decide
  rw [mark] at begins
  obtain ⟨rfl, second⟩ := first_of_encoded (by decide) begins.symm
  cases text with
  | nil => exact absurd (List.cons.inj (List.cons.inj second).2).1 (by decide)
  | cons d text =>
    obtain ⟨rfl, third⟩ := first_of_encoded (by decide) second
    cases text with
    | nil => exact absurd (List.cons.inj third).1 (by decide)
    | cons e text =>
      obtain ⟨rfl, _⟩ := first_of_encoded (by decide) third
      exact free ⟨[], text, rfl⟩

/-- A text without the mark is what stands before the mark. -/
theorem break_at_section_end {text : List Char} (free : ¬ sectionEnd <:+: text)
    (rest : List UInt8) :
    breakAfter (Utf8.encode sectionEnd) (Utf8.encode text ++ (Utf8.encode sectionEnd ++ rest)) =
      (Utf8.encode text, rest) := by
  induction text with
  | nil => exact break_after_here _ _ (by decide)
  | cons c text ih =>
    have later := ih fun found => free (found.trans (List.infix_cons (List.infix_refl _)))
    have none := no_mark_begins free rest
    rw [encode_cons, List.append_assoc] at none ⊢
    by_cases bracket : c = ']'
    · subst bracket
      have single : String.utf8EncodeChar ']' = [byteOf ']'] := low_bytes (by decide)
      rw [single, List.singleton_append] at none ⊢
      rw [break_after_later none, later]
      rfl
    · have passed : byteOf ']' ∉ String.utf8EncodeChar c := fun found =>
        bracket (found_is_same (by decide) found)
      have mark : Utf8.encode sectionEnd = byteOf ']' :: [byteOf ']', byteOf '>'] := by decide
      rw [mark] at later ⊢
      rw [break_after_run _ passed, later]

end Terminators

end RangeIndex.EncodedText
