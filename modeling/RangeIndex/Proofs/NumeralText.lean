import RangeIndex.Number.Layout
import RangeIndex.Query.Lexing
import RangeIndex.Text.Pieces

/-! The numeral a number is written as in a query is read as the same number again. A whole number
of moderate size is written exactly; any other finite number is written with digits that round to
it, and the point or the zeros behind them only say which power of ten they count. -/
namespace RangeIndex.NumeralText
open Text Query Number

section Rounding
variable (x : Finite)

theorem units_lt : x.units < Nat.pow 2 (53 + x.shift) := by
  rw [Nat.pow_eq, Nat.pow_add]
  exact Nat.mul_lt_mul_of_pos_right x.mantissa_lt (Nat.two_pow_pos _)

/-- The scale of a number is read off its units. -/
theorem scale_of_units : scaleOf x.units = x.shift := by
  rcases x.normal with flat | full
  · have small : x.units < 2 ^ 53 := by simpa [flat] using units_lt x
    unfold scaleOf
    by_cases zero : x.units = 0
    · simp [zero, flat]
    · have := (Nat.log2_lt zero).mpr small
      omega
  · have low : 2 ^ (52 + x.shift) ≤ x.units := by
      rw [Nat.pow_add]
      exact Nat.mul_le_mul_right _ full
    have positive : x.units ≠ 0 := by
      have := Nat.two_pow_pos (52 + x.shift)
      omega
    have := (Nat.le_log2 positive).mpr low
    have := (Nat.log2_lt positive).mpr (units_lt x)
    unfold scaleOf
    omega

/-- Rounding gives a number back where the ratio is exactly its units. -/
theorem ratio_exact {q : Nat} (positive : 0 < q) :
    ofRatio x.negative (x.units * q) q = .finite x := by
  have whole : x.units * q / q = x.units := Nat.mul_div_cancel _ positive
  have mantissa : mantissaOf (x.units * q) q = x.mantissa := by
    have below : x.units * q = x.mantissa * (q * Nat.pow 2 x.shift) := by
      rw [Finite.units, Nat.mul_assoc, Nat.mul_comm q]
    have step : 0 < q * Nat.pow 2 x.shift := Nat.mul_pos positive (Nat.two_pow_pos _)
    rw [mantissaOf, whole, scale_of_units, roundHalfEven, below, Nat.mul_div_cancel _ step,
      Nat.mul_mod_left]
    exact if_pos (.inl step)
  have kept : mantissaOf (x.units * q) q ≠ Nat.pow 2 53 := by
    rw [mantissa]
    exact Nat.ne_of_lt x.mantissa_lt
  have fits : scaleOf (x.units * q / q) ≤ 2045 := by
    rw [whole, scale_of_units]
    exact x.shift_le
  rw [ofRatio, dif_neg kept, dif_pos fits]
  congr 2
  rw [whole, scale_of_units]

end Rounding

section Digits

theorem digit_run (n : Nat) : ∀ c ∈ Nat.toDigits 10 n, isDigit c = true := by
  intro c member
  have digit := Nat.isDigit_of_mem_toDigits (by decide) (by decide) member
  simp only [Char.isDigit, Bool.and_eq_true, decide_eq_true_eq, ge_iff_le] at digit
  simp only [isDigit, Bool.and_eq_true, decide_eq_true_eq]
  exact digit

theorem zero_run (count : Nat) : ∀ c ∈ List.replicate count '0', isDigit c = true := by
  intro c member
  rw [List.eq_of_mem_replicate member]
  decide

/-- What may follow a numeral: neither a digit nor a point. -/
def EndsNumeral (rest : List Char) : Prop := ∀ c, rest.head? = some c → isDigit c = false ∧ c ≠ '.'

theorem split_digits {digits rest : List Char} (inside : ∀ c ∈ digits, isDigit c = true)
    (outside : ∀ c, rest.head? = some c → isDigit c = false) :
    splitDigits (digits ++ rest) = (digits, rest) := by
  rw [splitDigits, takeWhile_run inside outside, dropWhile_run inside outside]

theorem no_fraction {rest : List Char} (ends : EndsNumeral rest) : takeFraction rest = ([], rest) := by
  unfold takeFraction
  split
  · exact absurd rfl (ends '.' rfl).2
  · rfl

/-- Digits alone are read as a whole number. -/
theorem take_whole {digits rest : List Char} (inside : ∀ c ∈ digits, isDigit c = true)
    (ends : EndsNumeral rest) :
    takeNumber (digits ++ rest) =
      (.number (ofDecimal false (Nat.ofDigitChars 10 digits 0) 0), rest) := by
  rw [takeNumber, split_digits inside fun c first => (ends c first).1]
  simp [no_fraction ends, ofDigits]

/-- Digits around a point are read as one run of digits and the count of those behind it. -/
theorem take_fraction {whole fraction rest : List Char} (before : ∀ c ∈ whole, isDigit c = true)
    (behind : ∀ c ∈ fraction, isDigit c = true) (filled : fraction ≠ []) (ends : EndsNumeral rest) :
    takeNumber (whole ++ '.' :: fraction ++ rest) =
      (.number (ofDecimal false (Nat.ofDigitChars 10 (whole ++ fraction) 0) (-fraction.length)),
        rest) := by
  have point : takeFraction ('.' :: (fraction ++ rest)) = (fraction, rest) := by
    cases fraction with
    | nil => exact absurd rfl filled
    | cons c later =>
      have digit : ((c :: later) ++ rest).head?.any isDigit = true := by
        simpa using behind c List.mem_cons_self
      rw [takeFraction, if_pos digit, split_digits behind fun c first => (ends c first).1]
  have stops : ∀ c, ('.' :: (fraction ++ rest)).head? = some c → isDigit c = false := by
    rintro _ ⟨⟩
    decide
  rw [takeNumber, List.append_assoc, List.cons_append, split_digits before stops]
  simp [point, ofDigits]

end Digits

section Layouts

theorem take_whole_layout (digits zeros : Nat) {rest : List Char} (ends : EndsNumeral rest) :
    takeNumber ((wholeLayout digits zeros).toList ++ rest) =
      (.number (ofDecimal false (digits * Nat.pow 10 zeros) 0), rest) := by
  have inside : ∀ c ∈ Nat.toDigits 10 digits ++ List.replicate zeros '0', isDigit c = true := by
    intro c member
    exact (List.mem_append.mp member).elim (digit_run digits c) (zero_run zeros c)
  have value : Nat.ofDigitChars 10 (Nat.toDigits 10 digits ++ List.replicate zeros '0') 0 =
      digits * Nat.pow 10 zeros := by
    rw [Nat.pow_eq, Nat.ofDigitChars_append, Nat.ofDigitChars_ten_toDigits, Nat.ofDigitChars_replicate_zero,
      Nat.mul_comm]
  rw [wholeLayout, String.toList_ofList, take_whole inside ends, value]

/-- The digits of a fraction, with enough zeros before them to have one in front of the point. -/
def padded (digits places : Nat) : List Char :=
  List.replicate (places + 1 - (Nat.toDigits 10 digits).length) '0' ++ Nat.toDigits 10 digits

theorem padded_run (digits places : Nat) : ∀ c ∈ padded digits places, isDigit c = true := by
  intro c member
  exact (List.mem_append.mp member).elim (zero_run _ c) (digit_run digits c)

theorem padded_length (digits places : Nat) : places < (padded digits places).length := by
  simp only [padded, List.length_append, List.length_replicate]
  omega

theorem fraction_layout_eq (digits places : Nat) : (fractionLayout digits places).toList =
    (padded digits places).take ((padded digits places).length - places) ++
      '.' :: (padded digits places).drop ((padded digits places).length - places) := by
  rw [fractionLayout, String.toList_ofList]
  rfl

theorem take_fraction_layout (digits : Nat) {places : Nat} (filled : 0 < places) {rest : List Char}
    (ends : EndsNumeral rest) :
    takeNumber ((fractionLayout digits places).toList ++ rest) =
      (.number (ofDecimal false digits (-places)), rest) := by
  have inside := padded_run digits places
  have long := padded_length digits places
  have value : Nat.ofDigitChars 10 (padded digits places) 0 = digits := by
    rw [padded, Nat.ofDigitChars_append, Nat.ofDigitChars_replicate_zero, Nat.mul_zero,
      Nat.ofDigitChars_ten_toDigits]
  have behind : ((padded digits places).drop ((padded digits places).length - places)).length =
      places := by
    rw [List.length_drop]
    omega
  rw [fraction_layout_eq,
    take_fraction (fun c member => inside c (List.mem_of_mem_take member))
      (fun c member => inside c (List.mem_of_mem_drop member))
      (List.ne_nil_of_length_pos (by rw [behind]; exact filled)) ends,
    List.take_append_drop, value, behind]

theorem whole_layout_starts (digits zeros : Nat) :
    (wholeLayout digits zeros).toList.head?.any isDigit = true := by
  have run := digit_run digits
  rw [wholeLayout, String.toList_ofList]
  cases shown : Nat.toDigits 10 digits with
  | nil => exact absurd shown Nat.toDigits_ne_nil
  | cons c later => simpa using run c (shown ▸ List.mem_cons_self)

theorem fraction_layout_starts (digits places : Nat) :
    (fractionLayout digits places).toList.head?.any isDigit = true := by
  have run := padded_run digits places
  have long := padded_length digits places
  rw [fraction_layout_eq]
  cases shown : (padded digits places).take ((padded digits places).length - places) with
  | nil =>
    have none := congrArg List.length shown
    rw [List.length_take, List.length_nil] at none
    omega
  | cons c later => simpa using run c (List.mem_of_mem_take (shown ▸ List.mem_cons_self))

/-- Zeros behind a whole number count for its power of ten. -/
theorem decimal_of_zeros (negative : Bool) (digits : Nat) {power : Int} (whole : 0 ≤ power)
    (small : power ≤ 400) :
    ofDecimal negative (digits * Nat.pow 10 power.toNat) 0 = ofDecimal negative digits power := by
  by_cases none : digits = 0
  · simp [ofDecimal, none]
  · have scaled : digits * Nat.pow 10 power.toNat ≠ 0 :=
      Nat.mul_ne_zero none (Nat.ne_of_gt (Nat.pow_pos (by decide)))
    unfold ofDecimal
    rw [if_neg none, if_neg scaled, if_neg (by decide), if_neg (by omega), if_neg (by omega),
      if_neg (by omega)]
    have flat : (-power).toNat = 0 := by omega
    simp [flat]

end Layouts

section Shortest
variable {x : Finite}

theorem units_of_zero {negative : Bool} (same : zero negative = .finite x) : x.units = 0 := by
  cases same
  simp [Finite.units]

theorem bits_of_fives {units : Nat} (positive : units ≠ 0) (places : Nat) :
    2 * places ≤ (units * Nat.pow 5 places).log2 := by
  have fives : 0 < Nat.pow 5 places := Nat.pow_pos (by decide)
  rw [Nat.le_log2 (Nat.mul_ne_zero positive (Nat.ne_of_gt fives)), Nat.pow_mul]
  exact Nat.le_trans (Nat.pow_le_pow_left (by decide) places)
    (Nat.le_mul_of_pos_left _ (Nat.pos_of_ne_zero positive))

/-- With as many places as the unit has halvings, the decimal of a number is exact. -/
theorem exact_at_places {places : Nat} (unit : unitsPerOne = Nat.pow 2 places) (few : places ≤ 1200)
    (positive : x.units ≠ 0) :
    ofDecimal x.negative (x.units * Nat.pow 5 places) (-places) = .finite x := by
  have bits : 2 * places ≤ (x.units * Nat.pow 5 places).log2 := bits_of_fives positive places
  have digits : x.units * Nat.pow 5 places ≠ 0 :=
    Nat.mul_ne_zero positive (Nat.ne_of_gt (Nat.pow_pos (by decide)))
  have below : (-places : Int).toNat = 0 := by omega
  have above : (- -places : Int).toNat = places := by omega
  have one : Nat.pow 10 0 = 1 := rfl
  have tens : Nat.pow 10 places = Nat.pow 5 places * Nat.pow 2 places := Nat.mul_pow 5 2 places
  rw [ofDecimal, if_neg digits, if_neg (by omega), if_neg (by omega), below, above, unit,
    one, Nat.mul_one, Nat.mul_assoc, ← tens]
  exact ratio_exact x (Nat.pow_pos (by decide))

theorem search_reads_back (positive : x.units ≠ 0) (grids : Nat) (exponent : Int) :
    ofDecimal x.negative (x.search grids exponent).1 (x.search grids exponent).2 = .finite x := by
  induction grids generalizing exponent with
  | zero => exact @exact_at_places x 1074 rfl (by decide) positive
  | succ grids ih =>
    rw [Finite.search]
    split
    · next digits chosen => simpa [Finite.readsBack] using Finite.pointOn_readsBack chosen
    · exact ih (exponent - 1)

/-- The digits a number is written with round to it. -/
theorem shortest_reads_back (positive : x.units ≠ 0) :
    ofDecimal x.negative x.shortest.1 x.shortest.2 = .finite x := by
  rw [Finite.shortest, if_neg positive]
  exact search_reads_back positive _ _

/-- A positive number is not written with a power of ten beyond the largest number. -/
theorem shortest_power_le (positive : x.units ≠ 0) : x.shortest.2 ≤ 400 := by
  refine Int.not_lt.mp fun large => ?_
  have back := shortest_reads_back positive
  by_cases none : x.shortest.1 = 0
  · rw [ofDecimal, if_pos none] at back
    exact positive (units_of_zero back)
  · rw [ofDecimal, if_neg none, if_pos large] at back
    cases back

theorem take_positional (positive : x.units ≠ 0) (plus : x.negative = false) {rest : List Char}
    (ends : EndsNumeral rest) :
    takeNumber ((positional x.shortest.1 x.shortest.2).toList ++ rest) =
      (.number (.finite x), rest) := by
  have back := shortest_reads_back positive
  rw [plus] at back
  unfold positional
  split
  · next whole =>
    rw [take_whole_layout _ _ ends, decimal_of_zeros _ _ whole (shortest_power_le positive), back]
  · next below =>
    have places : -((-x.shortest.2).toNat : Int) = x.shortest.2 := by omega
    rw [take_fraction_layout _ (by omega) ends, places, back]

end Shortest

section Queries
variable {x : Finite}

theorem zero_of_units (none : x.units = 0) : x = ⟨x.negative, 0, 0, by decide, by decide, .inl rfl⟩ := by
  obtain ⟨negative, mantissa, shift, bound, fits, normal⟩ := x
  have empty : mantissa = 0 :=
    (Nat.mul_eq_zero.mp none).resolve_right (Nat.ne_of_gt (Nat.two_pow_pos shift))
  subst empty
  have flat : shift = 0 := by
    rcases normal with flat | full
    · exact flat
    · exact absurd full (by decide)
  subst flat
  rfl

/-- A whole number is its whole part. -/
theorem decimal_of_whole (whole : x.isWhole = true) :
    ofDecimal x.negative x.wholePart 0 = .finite x := by
  have exactly : x.wholePart * unitsPerOne = x.units := by
    have divides : x.units % unitsPerOne = 0 := by simpa [Finite.isWhole] using whole
    exact Nat.div_mul_cancel (Nat.dvd_of_mod_eq_zero divides)
  by_cases none : x.wholePart = 0
  · rw [none, Nat.zero_mul] at exactly
    rw [ofDecimal, if_pos none]
    exact (congrArg Number.finite (zero_of_units exactly.symm)).symm
  · have one : Nat.pow 10 0 = 1 := rfl
    have ratio := ratio_exact x (q := 1) (by decide)
    rw [ofDecimal, if_neg none, if_neg (by decide), if_neg (by omega), Int.neg_zero,
      Int.toNat_zero, one, Nat.mul_one, exactly]
    rwa [Nat.mul_one] at ratio

/-- Every finite number without a sign is read back from its text in a query. -/
theorem take_query_text (plus : x.negative = false) {rest : List Char} (ends : EndsNumeral rest) :
    takeNumber ((queryText (.finite x)).toList ++ rest) = (.number (.finite x), rest) := by
  unfold queryText
  dsimp only
  split
  · next moderate =>
    simp only [Bool.and_eq_true] at moderate
    have back := decimal_of_whole moderate.1
    rw [plus] at back
    simp only [plus, signText, Bool.false_and, Bool.false_eq_true, if_false, String.empty_append]
    rw [take_whole_layout _ _ ends, Nat.pow_eq, Nat.pow_zero, Nat.mul_one, back]
  · next other =>
    have positive : x.units ≠ 0 := by
      intro none
      apply other
      have unit : 0 < unitsPerOne := Nat.two_pow_pos _
      have large : 0 < Nat.pow 10 15 * unitsPerOne := Nat.mul_pos (Nat.pow_pos (by decide)) unit
      rw [Finite.isWhole, Finite.isModerate, none, Nat.zero_mod, decide_eq_true large]
      rfl
    simpa [plain, plus, signText] using take_positional positive plus ends

/-- The text of a number without a sign begins with a digit. -/
theorem query_text_starts (plus : x.negative = false) :
    (queryText (.finite x)).toList.head?.any isDigit = true := by
  unfold queryText
  dsimp only
  split
  · simpa [plus, signText] using whole_layout_starts x.wholePart 0
  · simp only [plain, plus, signText, Bool.false_eq_true, if_false, String.empty_append]
    unfold positional
    split
    · exact whole_layout_starts _ _
    · exact fraction_layout_starts _ _

end Queries

end RangeIndex.NumeralText
