import RangeIndex.Number.Basic

/-! Every ratio of naturals has one nearest number, a tie going to the even mantissa. The scale
is read off the whole part: it leaves exactly 53 bits of it, or all of it when it is shorter. -/
namespace RangeIndex.Number

/-- The nearest natural to a ratio; halfway between two, the even one. -/
def roundHalfEven (p q : Nat) : Nat :=
  let below := p / q
  let twice := 2 * (p % q)
  if twice < q ∨ (twice = q ∧ below % 2 = 0) then below else below + 1

theorem le_roundHalfEven (p q : Nat) : p / q ≤ roundHalfEven p q := by
  unfold roundHalfEven
  dsimp only
  split <;> omega

theorem roundHalfEven_le (p q : Nat) : roundHalfEven p q ≤ p / q + 1 := by
  unfold roundHalfEven
  dsimp only
  split <;> omega

/-- The scale that leaves at most 53 bits of a whole part. -/
def scaleOf (whole : Nat) : Nat := whole.log2 - 52

theorem div_scale_lt (whole : Nat) : whole / Nat.pow 2 (scaleOf whole) < Nat.pow 2 53 := by
  simp only [Nat.pow_eq]
  apply Nat.div_lt_of_lt_mul
  rw [← Nat.pow_add]
  apply Nat.lt_of_lt_of_le Nat.lt_log2_self
  apply Nat.pow_le_pow_right (by decide)
  unfold scaleOf
  omega

theorem le_div_scale (whole : Nat) (scaled : scaleOf whole ≠ 0) :
    Nat.pow 2 52 ≤ whole / Nat.pow 2 (scaleOf whole) := by
  simp only [Nat.pow_eq]
  unfold scaleOf at *
  rw [Nat.le_div_iff_mul_le (Nat.two_pow_pos _), ← Nat.pow_add]
  have nonzero : whole ≠ 0 := by rintro rfl; exact scaled (by decide)
  exact Nat.le_trans (Nat.pow_le_pow_right (by decide) (by omega)) (Nat.log2_self_le nonzero)

/-- The mantissa a ratio of units rounds to at the scale of its whole part. It may be one too
long, and then it is a power of two. -/
def mantissaOf (p q : Nat) : Nat := roundHalfEven p (q * Nat.pow 2 (scaleOf (p / q)))

theorem mantissaOf_le (p q : Nat) : mantissaOf p q ≤ Nat.pow 2 53 := by
  have high := roundHalfEven_le p (q * Nat.pow 2 (scaleOf (p / q)))
  rw [← Nat.div_div_eq_div_mul] at high
  exact Nat.le_trans high (div_scale_lt (p / q))

theorem mantissaOf_normal (p q : Nat) :
    scaleOf (p / q) = 0 ∨ Nat.pow 2 52 ≤ mantissaOf p q := by
  rcases Nat.eq_zero_or_pos (scaleOf (p / q)) with none | some
  · exact .inl none
  · right
    have low := le_roundHalfEven p (q * Nat.pow 2 (scaleOf (p / q)))
    rw [← Nat.div_div_eq_div_mul] at low
    exact Nat.le_trans (le_div_scale _ (by omega)) low

/-- The number nearest to a ratio of units. A ratio that would need a larger scale than there is
rounds to the infinity of its sign. -/
def ofRatio (negative : Bool) (p q : Nat) : Number :=
  if carried : mantissaOf p q = Nat.pow 2 53 then
    if fits : scaleOf (p / q) + 1 ≤ 2045 then
      .finite ⟨negative, Nat.pow 2 52, scaleOf (p / q) + 1, by decide, fits, .inr (Nat.le_refl _)⟩
    else .infinite negative
  else
    if fits : scaleOf (p / q) ≤ 2045 then
      .finite ⟨negative, mantissaOf p q, scaleOf (p / q),
        Nat.lt_of_le_of_ne (mantissaOf_le p q) carried, fits, mantissaOf_normal p q⟩
    else .infinite negative

/-- The zero of either sign. -/
def zero (negative : Bool) : Number := .finite ⟨negative, 0, 0, by decide, by decide, .inl rfl⟩

/-- The number nearest to `digits * 10 ^ exponent`. Exponents that put the decimal beyond the
largest number, or nearer to zero than half a unit, are answered without being raised to. -/
def ofDecimal (negative : Bool) (digits : Nat) (exponent : Int) : Number :=
  if digits = 0 then zero negative
  else if 400 < exponent then .infinite negative
  else if exponent + (digits.log2 / 3 + 1 : Nat) < -400 then zero negative
  else ofRatio negative (digits * Nat.pow 10 exponent.toNat * unitsPerOne)
    (Nat.pow 10 (-exponent).toNat)

end RangeIndex.Number
