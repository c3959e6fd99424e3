import MovieCatalog.Binary64.Rounding
import MovieCatalog.Proofs.Decimal.Digits

/-!
# Rounding depends on the number alone

The value nearest to a quotient does not depend on how the quotient is written
(`Binary64.nearest_congr`), so neither does the value of a decimal number
(`Binary64.ofDecimal_shift`). The decimal numbers for which no power is computed are no exception:
they are too small or too large to be near to any other value (`Binary64.ofDecimal_eq_nearest`). A
magnitude of the format is its own rounding (`Binary64.nearest_unitsOf`), and an integer that is
held exactly rounds to a finite value (`Binary64.isFinite_ofInt`).
-/

namespace MovieCatalog

theorem Decimal.quotient_den_pos (d : Decimal) : 0 < d.quotient.2 := tenTo_pos _

namespace Binary64

/-! ## Quotients -/

/-- Rounding does not depend on how a quotient is expanded. -/
theorem roundHalfEven_mul_right {c : Nat} (hc : 0 < c) (num den : Nat) :
    roundHalfEven (num * c) (den * c) = roundHalfEven num den := by
  simp only [roundHalfEven, Nat.mul_div_mul_right _ _ hc, Nat.mul_mod_mul_right, ← Nat.mul_assoc,
    Nat.mul_lt_mul_right hc]

theorem roundHalfEven_one (n : Nat) : roundHalfEven n 1 = n := by
  simp [roundHalfEven, Nat.mod_one]

/-- Rounding adds at most one to the whole part. -/
theorem roundHalfEven_le (num den : Nat) : roundHalfEven num den ≤ num / den + 1 := by
  simp only [roundHalfEven]
  split
  · omega
  · split <;> omega

/-- The nearest magnitude does not depend on how a quotient is expanded. -/
theorem ordinalNear_mul_right {c : Nat} (hc : 0 < c) (num den : Nat) :
    ordinalNear (num * c) (den * c) = ordinalNear num den := by
  simp only [ordinalNear, Nat.mul_div_mul_right _ _ hc, Nat.mul_right_comm den c,
    roundHalfEven_mul_right hc]

/-- Two quotients that are the same number have the same nearest value. -/
theorem nearest_congr (negative : Bool) {a b c d : Nat} (hb : 0 < b) (hd : 0 < d)
    (h : a * d = c * b) : nearest negative a b = nearest negative c d := by
  have hordinal : ordinalNear (a * one) b = ordinalNear (c * one) d := by
    calc ordinalNear (a * one) b
        = ordinalNear (a * one * d) (b * d) := (ordinalNear_mul_right hd _ _).symm
      _ = ordinalNear (c * one * b) (d * b) := by
        rw [Nat.mul_right_comm a one d, h, Nat.mul_right_comm c b one, Nat.mul_comm b d]
      _ = ordinalNear (c * one) d := ordinalNear_mul_right hb _ _
  simp only [nearest, hordinal]

/-! ## Magnitudes -/

theorem binade_eq_twoTo : binade = twoTo 52 := by decide +kernel

/-- The logarithm of a number below a power of two is below the exponent. That of zero is zero,
hence the first premise. -/
theorem log2_lt_of_lt_twoTo {n k : Nat} (hk : 0 < k) (h : n < twoTo k) : n.log2 < k := by
  rcases Nat.eq_zero_or_pos n with rfl | hn
  · rwa [Nat.log2_zero]
  · exact (Nat.log2_lt (Nat.ne_of_gt hn)).2 h

/-- The binary logarithm of a number whose significand has 53 bits. -/
theorem log2_significand {m : Nat} (hlow : binade ≤ m) (hhigh : m < 2 * binade) (j : Nat) :
    (m * twoTo j).log2 = 52 + j := by
  have hpos := twoTo_pos j
  have hbinade : 0 < binade := by decide
  rw [Nat.log2_eq_iff (Nat.mul_ne_zero (by omega) (by omega))]
  constructor
  · calc twoTo (52 + j) = binade * twoTo j := by rw [twoTo_add, binade_eq_twoTo]
      _ ≤ m * twoTo j := Nat.mul_le_mul_right _ hlow
  · calc m * twoTo j < 2 * binade * twoTo j := Nat.mul_lt_mul_of_pos_right hhigh hpos
      _ = twoTo (52 + j + 1) := by
        rw [binade_eq_twoTo, Nat.mul_assoc, ← twoTo_add, Nat.mul_comm]
        rfl

/-- A magnitude is its own rounding. -/
theorem ordinalNear_unitsOf (k : Nat) : ordinalNear (unitsOf k) 1 = k := by
  have hbinade : 0 < binade := by decide
  have hmod := Nat.mod_lt k hbinade
  rw [unitsOf]
  split
  · next hk =>
    have hlog : k.log2 - 52 = 0 := by
      rw [binade_eq_twoTo] at hk
      have := log2_lt_of_lt_twoTo (by decide) hk
      omega
    rw [ordinalNear, Nat.div_one, hlog, Nat.zero_mul, Nat.zero_add]
    exact roundHalfEven_one k
  · next hk =>
    have hlog := log2_significand (m := binade + k % binade) (by omega) (by omega) (k / binade - 1)
    have hquot : 1 ≤ k / binade := (Nat.one_le_div_iff hbinade).2 (by omega)
    rw [ordinalNear, Nat.div_one, hlog, Nat.add_sub_cancel_left,
      roundHalfEven_mul_right (twoTo_pos _), roundHalfEven_one, ← Nat.add_assoc,
      ← Nat.succ_mul, Nat.succ_eq_add_one, Nat.sub_add_cancel hquot, Nat.div_add_mod']

/-- The magnitude with a given ordinal is the value nearest to any quotient that equals it. -/
theorem nearest_unitsOf (negative : Bool) (ordinal : Fin ordinalBound) {num den : Nat}
    (hden : 0 < den) (h : num * one = unitsOf ordinal * den) :
    nearest negative num den = .finite negative ordinal := by
  have hk : ordinalNear (num * one) den = ordinal := by
    have hscaled := ordinalNear_mul_right hden (unitsOf ordinal) 1
    rw [Nat.one_mul] at hscaled
    rw [h, hscaled, ordinalNear_unitsOf]
  simp [nearest, hk]

/-! ## Integers -/

/-- An ordinal exceeds what its halvings contribute by two binades at most. -/
theorem ordinalNear_le (num den : Nat) :
    ordinalNear num den ≤ ((num / den).log2 - 52) * binade + 2 * binade := by
  have hquot : num / (den * twoTo ((num / den).log2 - 52)) < twoTo 53 := by
    rw [← Nat.div_div_eq_div_mul, Nat.div_lt_iff_lt_mul (twoTo_pos _), ← twoTo_add]
    exact Nat.lt_of_lt_of_le Nat.lt_log2_self (twoTo_le (by omega))
  have hround := roundHalfEven_le num (den * twoTo ((num / den).log2 - 52))
  have htwice : 2 * binade = twoTo 53 := by decide +kernel
  rw [ordinalNear, htwice]
  omega

/-- An integer that is held exactly is near to a finite value. -/
theorem isFinite_ofInt {n : Int} (h : n.natAbs ≤ Word.size64) : (ofInt n).isFinite = true := by
  have hsize : Word.size64 * one < twoTo 1139 := by decide +kernel
  have hlog : (n.natAbs * one / 1).log2 < 1139 := by
    rw [Nat.div_one]
    exact log2_lt_of_lt_twoTo (by decide)
      (Nat.lt_of_le_of_lt (Nat.mul_le_mul_right one h) hsize)
  have hle := ordinalNear_le (n.natAbs * one) 1
  have hbound : ((n.natAbs * one / 1).log2 - 52) * binade ≤ 1086 * binade :=
    Nat.mul_le_mul_right binade (by omega)
  have hlt : ordinalNear (n.natAbs * one) 1 < ordinalBound := by
    have hbinade : 0 < binade := by decide
    rw [ordinalBound]
    omega
  rw [ofInt, nearest, dif_pos hlt]
  rfl

/-! ## Decimal numbers -/

/-- A quotient below half the unit is nearest to zero. -/
theorem nearest_of_small (negative : Bool) {num den : Nat} (h : 2 * (num * one) < den) :
    nearest negative num den = signedZero negative := by
  have hquot : num * one / den = 0 := Nat.div_eq_of_lt (by omega)
  have hround : roundHalfEven (num * one) (den * twoTo 0) = 0 := by
    have hunit : den * twoTo 0 = den := Nat.mul_one den
    rw [hunit, roundHalfEven, Nat.mod_eq_of_lt (by omega), if_pos h, hquot]
  have hordinal : ordinalNear (num * one) den = 0 := by
    rw [ordinalNear, hquot, Nat.log2_zero, Nat.zero_sub, hround, Nat.zero_mul]
  simp only [nearest, hordinal]
  rw [dif_pos ordinalBound_pos, signedZero]

/-- The logarithm of a number from a power of two on is no less than the exponent. -/
theorem le_log2_of_twoTo_le {n k : Nat} (h : twoTo k ≤ n) : k ≤ n.log2 :=
  (Nat.le_log2 (Nat.ne_of_gt (Nat.lt_of_lt_of_le (twoTo_pos k) h))).2 h

/-- A quotient of `2^1026` and more is infinite. -/
theorem nearest_of_large (negative : Bool) {num den : Nat} (hden : 0 < den)
    (h : twoTo 1026 * den ≤ num) : nearest negative num den = .infinite negative := by
  have hquot : twoTo 2100 ≤ num * one / den := by
    have hpower : twoTo 2100 * den = twoTo 1026 * den * one := by
      rw [Nat.mul_right_comm, one, ← twoTo_add]
    rw [Nat.le_div_iff_mul_le hden, hpower]
    exact Nat.mul_le_mul_right one h
  have hlog := le_log2_of_twoTo_le hquot
  have hordinal : ordinalBound ≤ ordinalNear (num * one) den := by
    have hbinades : 2047 * binade ≤ ((num * one / den).log2 - 52) * binade :=
      Nat.mul_le_mul_right binade (by omega)
    rw [ordinalNear, ordinalBound]
    omega
  rw [nearest, dif_neg (Nat.not_lt.2 hordinal)]

/-- A decimal number whose first digit is far behind the point is below half the unit. -/
theorem quotient_small {d : Decimal} (h : d.exponent + (Numeral.ofNat d.digits).length < -325) :
    2 * (d.quotient.1 * one) < d.quotient.2 := by
  have hlength := Numeral.length_ofNat_pos d.digits
  have hdigits := (Numeral.length_ofNat_le_iff hlength).1 (Nat.le_refl _)
  have hone : 2 * one ≤ tenTo 326 := by decide +kernel
  have hexponent : d.exponent.toNat = 0 := by omega
  have hquot : d.quotient.1 = d.digits := by
    rw [Decimal.quotient, hexponent, tenTo_zero, Nat.mul_one]
  calc 2 * (d.quotient.1 * one)
      = d.digits * (2 * one) := by rw [hquot, Nat.mul_left_comm]
    _ ≤ d.digits * tenTo 326 := Nat.mul_le_mul_left _ hone
    _ < tenTo (Numeral.ofNat d.digits).length * tenTo 326 :=
      Nat.mul_lt_mul_of_pos_right hdigits (tenTo_pos 326)
    _ = tenTo ((Numeral.ofNat d.digits).length + 326) := (tenTo_add _ _).symm
    _ ≤ tenTo (-d.exponent).toNat := Nat.pow_le_pow_right (by decide) (by omega)

/-- A decimal number whose first digit is far before the point is beyond all values. -/
theorem quotient_large {d : Decimal} (hne : d.digits ≠ 0)
    (h : 310 < d.exponent + (Numeral.ofNat d.digits).length) :
    twoTo 1026 * d.quotient.2 ≤ d.quotient.1 := by
  have hpower : twoTo 1026 ≤ tenTo 310 := by decide +kernel
  generalize hlength : (Numeral.ofNat d.digits).length = length at h
  have hdigits : tenTo (length - 1) ≤ d.digits := by
    rcases Nat.lt_or_ge 1 length with hlong | hshort
    · rw [← Nat.not_lt, ← Numeral.length_ofNat_le_iff (by omega)]
      omega
    · rw [Nat.sub_eq_zero_of_le hshort, tenTo_zero]
      exact Nat.pos_of_ne_zero hne
  calc twoTo 1026 * d.quotient.2
      ≤ tenTo 310 * tenTo (-d.exponent).toNat := Nat.mul_le_mul_right _ hpower
    _ = tenTo (310 + (-d.exponent).toNat) := (tenTo_add _ _).symm
    _ ≤ tenTo (length - 1 + d.exponent.toNat) := Nat.pow_le_pow_right (by decide) (by omega)
    _ = tenTo (length - 1) * tenTo d.exponent.toNat := tenTo_add _ _
    _ ≤ d.quotient.1 := Nat.mul_le_mul_right _ hdigits

/-- The value of a decimal number is the one nearest to its quotient, also where the quotient is not
computed. -/
theorem ofDecimal_eq_nearest (negative : Bool) (d : Decimal) :
    ofDecimal negative d = nearest negative d.quotient.1 d.quotient.2 := by
  simp only [ofDecimal]
  split
  · next hsmall =>
    refine (nearest_of_small negative ?_).symm
    rcases hsmall with hzero | hsmall
    · rw [Decimal.quotient, hzero]
      simpa using tenTo_pos (-d.exponent).toNat
    · exact quotient_small hsmall
  · next hsmall =>
    split
    · next hlarge =>
      exact (nearest_of_large negative d.quotient_den_pos
        (quotient_large (fun hzero => hsmall (.inl hzero)) hlarge)).symm
    · rfl

/-- Moving zeros from the digits into the power of ten does not change the value. -/
theorem ofDecimal_shift (negative : Bool) (n k : Nat) (e : Int) :
    ofDecimal negative ⟨n * tenTo k, e - k⟩ = ofDecimal negative ⟨n, e⟩ := by
  rw [ofDecimal_eq_nearest, ofDecimal_eq_nearest]
  refine nearest_congr negative (tenTo_pos _) (tenTo_pos _) ?_
  rw [Decimal.quotient, Decimal.quotient, Nat.mul_assoc, Nat.mul_assoc, Nat.mul_assoc, ← tenTo_add,
    ← tenTo_add, ← tenTo_add]
  congr 2
  dsimp only
  omega

/-- The value of a natural number in decimal digits. -/
theorem ofDecimal_natural (negative : Bool) (n : Nat) :
    ofDecimal negative ⟨n, 0⟩ = nearest negative n 1 := by
  rw [ofDecimal_eq_nearest, Decimal.quotient]
  exact congrArg (nearest negative · 1) (Nat.mul_one n)

/-- The sign of a decimal number becomes the sign of its value. -/
theorem ofDecimal_eq_finite {d : Decimal} {ordinal : Fin ordinalBound}
    (h : ofDecimal false d = .finite false ordinal) (negative : Bool) :
    ofDecimal negative d = .finite negative ordinal := by
  rw [ofDecimal_eq_nearest, nearest] at h ⊢
  split at h
  · next hk =>
    cases h
    exact dif_pos hk
  · cases h

end Binary64

end MovieCatalog
