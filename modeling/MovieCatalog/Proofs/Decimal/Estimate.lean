import MovieCatalog.Decimal.Estimate
import MovieCatalog.Proofs.Binary64.Exact

/-!
# Estimates of short literals

A literal is taken for the value nearest to it if its digits are a number up to `2^53` and its power
of ten is between `10^-22` and `10^22` (`Decimal.Literal.estimate_of_short`). Then the digits and
the power of ten are values themselves, so that there is one rounding only.
-/

namespace MovieCatalog

namespace Decimal

/-! ## Digits -/

/-- More digits make a greater number. -/
theorem le_ofDigitChars (n : Nat) (digits : List Char) : n ≤ Nat.ofDigitChars 10 digits n := by
  induction digits generalizing n with
  | nil => exact Nat.le_refl n
  | cons c digits ih =>
    have hfirst : n ≤ 10 * n + (c.toNat - '0'.toNat) := by omega
    exact Nat.le_trans hfirst (ih _)

/-- All digits are taken if they fit into a word. -/
theorem takeDigits_of_lt {n : Nat} {digits : List Char}
    (h : Nat.ofDigitChars 10 digits n < Word.size64) :
    takeDigits n digits = (Nat.ofDigitChars 10 digits n, []) := by
  induction digits generalizing n with
  | nil => rfl
  | cons c digits ih =>
    have hfirst : Nat.ofDigitChars 10 [c] n < Word.size64 :=
      Nat.lt_of_le_of_lt (le_ofDigitChars _ digits) h
    rw [takeDigits]
    exact (if_pos hfirst).trans (ih h)

/-- A literal whose digits fit into a word is kept as it is. -/
theorem Literal.kept_eq_magnitude {l : Literal} (h : l.magnitude.digits < Word.size64) :
    l.kept = l.magnitude := by
  rw [magnitude, Nat.ofDigitChars_append] at h
  have hwhole := takeDigits_of_lt (Nat.lt_of_le_of_lt (le_ofDigitChars _ l.fraction) h)
  simp only [kept, magnitude, hwhole, takeDigits_of_lt h, Nat.ofDigitChars_append]
  simp

end Decimal

namespace Binary64

/-! ## Exact steps -/

/-- A natural number up to `2^53` times a power of two is held exactly. -/
theorem exists_ofInt_eq {n shift : Nat} (h : n ≤ 2 * binade) (hshift : shift ≤ 970) :
    ∃ k : Fin ordinalBound, unitsOf k = n * twoTo shift * one ∧
      ofInt (n * twoTo shift : Nat) = .finite false k := by
  obtain ⟨k, hk⟩ := exists_unitsOf_eq h hshift
  refine ⟨k, hk, ?_⟩
  have hsign : decide (((n * twoTo shift : Nat) : Int) < 0) = false :=
    decide_eq_false (Int.not_lt.2 (Int.natCast_nonneg _))
  rw [ofInt, hsign, Int.natAbs_natCast]
  exact nearest_unitsOf false k Nat.one_pos (by rw [hk, Nat.mul_one])

/-- A power of ten up to `10^22` is held exactly. -/
theorem exists_powerOfTen_eq {e : Nat} (h : e ≤ 22) :
    ∃ k : Fin ordinalBound, unitsOf k = tenTo e * one ∧ powerOfTen e = .finite false k := by
  have hfactors : tenTo e = Nat.pow 5 e * twoTo e := Nat.mul_pow 5 2 e
  have hfive : Nat.pow 5 e ≤ 2 * binade :=
    Nat.le_trans (Nat.pow_le_pow_right (by decide) h) (by decide +kernel)
  obtain ⟨k, hk, hvalue⟩ := exists_ofInt_eq hfive (Nat.le_trans h (by decide))
  rw [← hfactors] at hk hvalue
  exact ⟨k, hk, hvalue⟩

/-- The nearest value with the other sign. -/
theorem negated_nearest (num den : Nat) : (nearest false num den).negated = nearest true num den := by
  rw [nearest, nearest]
  split <;> rfl

section
variable {a b : Nat} {k l : Fin ordinalBound}

/-- The product of two natural numbers is rounded once. -/
theorem multiply_eq_nearest (hk : unitsOf k = a * one) (hl : unitsOf l = b * one) :
    (finite false k).multiply (finite false l) = nearest false (a * b) 1 := by
  have hproduct : (finite false k).multiply (finite false l)
      = nearest false (unitsOf k * unitsOf l) (one * one) := rfl
  refine hproduct.trans (nearest_congr false (Nat.mul_pos one_pos one_pos) Nat.one_pos ?_)
  calc unitsOf k * unitsOf l * 1
      = a * one * (b * one) * 1 := by rw [hk, hl]
    _ = a * one * (b * one) := Nat.mul_one _
    _ = a * b * (one * one) := Nat.mul_mul_mul_comm a one b one

/-- The quotient of two natural numbers is rounded once. -/
theorem divide_eq_nearest (hb : 0 < b) (hk : unitsOf k = a * one) (hl : unitsOf l = b * one) :
    (finite false k).divide (finite false l) = nearest false a b := by
  have hunits : 0 < unitsOf l := hl ▸ Nat.mul_pos hb one_pos
  have hordinal : l.val ≠ 0 := by
    intro hzero
    rw [hzero] at hunits
    exact absurd hunits (by decide)
  have hquotient : (finite false k).divide (finite false l)
      = nearest false (unitsOf k) (unitsOf l) := if_pos hordinal
  refine hquotient.trans (nearest_congr false hunits hb ?_)
  calc unitsOf k * b
      = a * one * b := by rw [hk]
    _ = a * b * one := Nat.mul_right_comm a one b
    _ = a * (b * one) := Nat.mul_assoc a b one
    _ = a * unitsOf l := by rw [hl]

end

/-- A decimal number with few digits and a small power of ten is taken for the value nearest to it,
since only the last step is rounded. -/
theorem estimate_of_short {d : Decimal} (hdigits : d.digits ≤ 2 * binade)
    (hlow : -22 ≤ d.exponent) (hhigh : d.exponent ≤ 22) : estimate d = ofDecimal false d := by
  have hpower : ¬ (greatestPower : Int) < d.exponent := by
    rw [greatestPower]
    omega
  have hup : d.exponent.toNat ≤ 22 := by omega
  have hdown : (-d.exponent).toNat ≤ 22 := by omega
  have hone_sided : (0 ≤ d.exponent → (-d.exponent).toNat = 0) ∧
      (¬ 0 ≤ d.exponent → d.exponent.toNat = 0) := by
    omega
  obtain ⟨k, hk, hx⟩ := exists_ofInt_eq hdigits (Nat.zero_le 970)
  have hunit : d.digits * twoTo 0 = d.digits := Nat.mul_one _
  rw [hunit] at hk hx
  rw [ofDecimal_eq_nearest, Decimal.quotient, estimate, hx, if_neg hpower]
  dsimp only
  by_cases hsign : 0 ≤ d.exponent
  · obtain ⟨l, hl, hten⟩ := exists_powerOfTen_eq hup
    rw [if_pos hsign, hone_sided.1 hsign, tenTo_zero, hten]
    exact multiply_eq_nearest hk hl
  · rw [if_neg hsign, hone_sided.2 hsign, tenTo_zero, Nat.mul_one]
    generalize (-d.exponent).toNat = e at hdown
    obtain ⟨l, hl, hten⟩ := exists_powerOfTen_eq hdown
    have hparts : (e - 1) / greatestPower = 0 :=
      Nat.div_eq_of_lt (Nat.lt_of_le_of_lt (Nat.le_trans (Nat.sub_le e 1) hdown) (by decide))
    rw [hparts, shrink, Nat.zero_mul, Nat.sub_zero, hten]
    exact divide_eq_nearest (tenTo_pos e) hk hl

end Binary64

/-- A literal with few digits and a small power of ten is taken for the value nearest to it. -/
theorem Decimal.Literal.estimate_of_short {l : Literal} (hdigits : l.magnitude.digits ≤ 2 * binade)
    (hlow : -22 ≤ l.magnitude.exponent) (hhigh : l.magnitude.exponent ≤ 22) :
    l.estimate = Binary64.ofDecimal l.negative l.magnitude := by
  have hword : 2 * binade < Word.size64 := by decide
  rw [estimate, kept_eq_magnitude (Nat.lt_of_le_of_lt hdigits hword),
    Binary64.estimate_of_short hdigits hlow hhigh]
  cases l.negative with
  | false => exact if_neg Bool.false_ne_true
  | true =>
    rw [if_pos rfl, Binary64.ofDecimal_eq_nearest, Binary64.ofDecimal_eq_nearest]
    exact Binary64.negated_nearest _ _

end MovieCatalog
