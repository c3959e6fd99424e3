import MovieCatalog.Binary64.Integral
import MovieCatalog.Proofs.Binary64.Nearest
import MovieCatalog.Proofs.Decimal.Grammar

/-!
# Numbers that are held exactly

A finite value is a rational number (`Binary64.toRat?`), and so is what a literal denotes, so that
the two can be compared. A literal is read as a value that no other one is nearer to
(`Decimal.Literal.abs_sub_le`), and as the number that it denotes exactly if some value is
this number (`Decimal.Literal.toRat?_of_exact`); among these numbers are the integers up to `2^53`
(`Binary64.exists_toRat?_eq_int`). Conversion to integers neither cuts off nor rounds where the
magnitude is bounded (`Binary64.map_toInt_wholeBelow?`).
-/

namespace MovieCatalog

/-- A power of ten with any exponent as a quotient of two natural powers, one of which is one. -/
theorem zpow_ten (e : Int) : (10 : ℚ) ^ e = tenTo e.toNat / tenTo (-e).toNat := by
  have hcast (n : Nat) : (tenTo n : ℚ) = 10 ^ n := Nat.cast_pow 10 n
  rw [hcast, hcast, ← zpow_natCast, ← zpow_natCast, ← zpow_sub₀ (by norm_num)]
  congr 1
  omega

namespace Binary64

/-- The number that a finite value is; nothing for other values. -/
def toRat? (x : Binary64) : Option ℚ :=
  x.units?.map fun (u : Int) => (u : ℚ) / one

theorem toRat?_eq_some_iff {x : Binary64} {q : ℚ} :
    x.toRat? = some q ↔ ∃ u, x.units? = some u ∧ (u : ℚ) / one = q := by
  rw [toRat?, Option.map_eq_some_iff]

/-- Only a finite value is a number. -/
theorem isFinite_of_toRat? {x : Binary64} {q : ℚ} (h : x.toRat? = some q) : x.isFinite = true := by
  cases x with
  | finite negative ordinal => rfl
  | infinite negative => cases h
  | nan => cases h

theorem one_pos : 0 < one := twoTo_pos 1074

theorem one_ne_zero : (one : ℚ) ≠ 0 := Nat.cast_ne_zero.2 (Nat.ne_of_gt one_pos)

/-- An integer is so many times one. -/
theorem toRat?_eq_int_iff {x : Binary64} {n : Int} :
    x.toRat? = some (n : ℚ) ↔ x.units? = some (n * one) := by
  have hone := one_ne_zero
  rw [toRat?_eq_some_iff]
  generalize one = d at hone ⊢
  have hvalue (u : Int) : (u : ℚ) / d = n ↔ u = n * d := by
    rw [div_eq_iff hone]
    exact_mod_cast Iff.rfl
  simp only [hvalue, exists_eq_right]

/-- A value is taken for an integer if it is so many times one. -/
theorem integer?_iff_units? {x : Binary64} {n : Int} :
    x.integer? = some n ↔ x.units? = some (n * one) := by
  have hone := one_pos
  rw [integer?.eq_def]
  generalize one = d at hone ⊢
  cases x.units? with
  | none => simp
  | some u =>
    have hmod : u.natAbs % d = 0 ↔ (d : Int) ∣ u := by
      rw [← Nat.dvd_iff_mod_eq_zero, Int.natCast_dvd]
    simp only [Option.some.injEq, hmod]
    constructor
    · intro h
      split at h
      · next hdvd => rw [← Option.some.inj h, Int.ediv_mul_cancel hdvd]
      · cases h
    · rintro rfl
      rw [if_pos (Int.dvd_mul_left n d), Int.mul_ediv_cancel n (by omega)]

/-- A value is taken for an integer exactly if it is this integer. -/
theorem integer?_eq_some_iff {x : Binary64} {n : Int} :
    x.integer? = some n ↔ x.toRat? = some (n : ℚ) :=
  integer?_iff_units?.trans toRat?_eq_int_iff.symm

/-! ## Conversion to integers -/

/-- The magnitude of a number is below a bound if the number is on both sides. -/
theorem below_magnitude {x bound : Binary64} {u : Int} {b : Nat} (hx : x.units? = some u)
    (hbound : bound.units? = some (b : Int)) : x.magnitude.below bound = decide (u.natAbs < b) := by
  cases x with
  | finite negative ordinal =>
    obtain rfl := Option.some.inj hx
    rw [magnitude, below, hbound]
    cases negative <;> simp [units?]
  | infinite negative => cases hx
  | nan => cases hx

/-- An integer that is a signed one of 64 bits is converted to itself. -/
theorem toInt_toInt64 {x : Binary64} {n : Int} (hx : x.integer? = some n)
    (hlow : -(Word.half64 : Int) ≤ n) (hhigh : n < Word.half64) : x.toInt64.toInt = n := by
  have hunits := integer?_iff_units?.1 hx
  cases x with
  | finite negative ordinal =>
    have hone : (one : Int) ≠ 0 := Int.natCast_ne_zero.2 (Nat.ne_of_gt one_pos)
    have hsigned : (if negative then -(unitsOf ordinal / one : Int) else unitsOf ordinal / one) = n := by
      rw [units?, Option.some.injEq] at hunits
      generalize one = d at hunits hone ⊢
      cases negative with
      | false => exact Int.ediv_eq_of_eq_mul_left hone hunits
      | true =>
        have hneg : (unitsOf ordinal : Int) = -n * d := by
          rw [Int.neg_mul, ← hunits]
          exact (Int.neg_neg _).symm
        rw [if_pos rfl, Int.ediv_eq_of_eq_mul_left hone hneg, Int.neg_neg]
    rw [toInt64, hsigned, Int.min_eq_left (by omega), Int.max_eq_right hlow]
    exact Word.toInt_ofInt hlow hhigh
  | infinite negative => cases hunits
  | nan => cases hunits

/-- A value is taken as the integer that it is, if this is below the bound. With a bound of at most
`2^63` there is nothing to be cut off in the conversion. -/
theorem map_toInt_wholeBelow? (x : Binary64) {bound : Binary64} {b : Nat}
    (hbound : bound.integer? = some (b : Int)) (hb : b ≤ Word.half64) :
    (x.wholeBelow? bound).map (·.toInt) = x.integer?.filter fun n => n.natAbs < b := by
  rw [wholeBelow?, isWhole]
  cases hx : x.integer? with
  | none => rfl
  | some n =>
    have hbelow : x.magnitude.below bound = decide (n.natAbs < b) := by
      have hunits := integer?_iff_units?.1 hbound
      rw [← Int.natCast_mul] at hunits
      rw [below_magnitude (integer?_iff_units?.1 hx) hunits, decide_eq_decide, Int.natAbs_mul,
        Int.natAbs_natCast, Nat.mul_lt_mul_right one_pos]
    rw [Option.isSome_some, Bool.true_and, hbelow, Option.filter_some]
    by_cases hn : n.natAbs < b
    · rw [if_pos (decide_eq_true hn), if_pos (decide_eq_true hn), Option.map_some,
        toInt_toInt64 hx (by omega) (by omega)]
    · rw [if_neg (by simpa using hn), if_neg (by simpa using hn), Option.map_none]

/-! ## Integers -/

/-- A positive number up to `2^53` has its first bit at weight `2^52` when it is shifted as far as
its own first bit asks for. -/
theorem shifted_bounds {n : Nat} (hpos : 0 < n) (h : n ≤ 2 * binade) :
    binade ≤ n * twoTo (52 - n.log2) ∧ n * twoTo (52 - n.log2) ≤ 2 * binade := by
  have hfirst : twoTo n.log2 ≤ n := Nat.log2_self_le (Nat.ne_of_gt hpos)
  have hnext : n < twoTo (n.log2 + 1) := Nat.lt_log2_self
  rcases Nat.le_total n.log2 52 with hlog | hlog
  · have hlow : twoTo n.log2 * twoTo (52 - n.log2) = binade := by
      rw [← twoTo_add, Nat.add_sub_cancel' hlog, binade_eq_twoTo]
    have hhigh : twoTo (n.log2 + 1) * twoTo (52 - n.log2) = 2 * binade := by
      rw [Nat.add_comm, twoTo_add, Nat.mul_assoc, hlow]
      rfl
    exact ⟨hlow ▸ Nat.mul_le_mul_right _ hfirst,
      hhigh ▸ Nat.mul_le_mul_right _ (Nat.le_of_lt hnext)⟩
  · have hunit : n * twoTo (52 - n.log2) = n := by
      rw [Nat.sub_eq_zero_of_le hlog]
      exact Nat.mul_one n
    rw [hunit, binade_eq_twoTo]
    exact ⟨Nat.le_trans (twoTo_le hlog) hfirst, binade_eq_twoTo ▸ h⟩

/-- A natural number up to `2^53` times a power of two is a magnitude. -/
theorem exists_unitsOf_eq {n shift : Nat} (h : n ≤ 2 * binade) (hshift : shift ≤ 970) :
    ∃ k : Fin ordinalBound, unitsOf k = n * twoTo shift * one := by
  have hbinade : 0 < binade := by decide
  rcases Nat.eq_zero_or_pos n with rfl | hpos
  · exact ⟨⟨0, ordinalBound_pos⟩, by rw [Nat.zero_mul, Nat.zero_mul]; rfl⟩
  · obtain ⟨hlow, hhigh⟩ := shifted_bounds hpos h
    generalize hbits : 52 - n.log2 = bits at hlow hhigh
    have hunits := unitsOf_steps (h := shift + 1074 - bits) (.inr hlow) hhigh
    rw [Nat.mul_assoc, ← twoTo_add, Nat.add_sub_cancel' (by omega), twoTo_add, ← Nat.mul_assoc]
      at hunits
    have hsteps : (shift + 1074 - bits) * binade ≤ 2044 * binade := Nat.mul_le_mul_right _ (by omega)
    exact ⟨⟨(shift + 1074 - bits) * binade + n * twoTo bits, by rw [ordinalBound]; omega⟩, hunits⟩

/-! ## Values as rational numbers -/

/-- The sign of a value or of a literal, as a factor. -/
def signFactor (negative : Bool) : ℚ := if negative then -1 else 1

theorem abs_signFactor_mul (negative : Bool) (q : ℚ) : |signFactor negative * q| = |q| := by
  cases negative <;> simp [signFactor]

/-- An integer is its magnitude with its sign. -/
theorem signFactor_mul_natAbs (n : Int) : signFactor (n < 0) * (n.natAbs : ℚ) = n := by
  rcases lt_or_ge n 0 with hn | hn
  · rw [signFactor, if_pos (decide_eq_true hn), Nat.cast_natAbs, abs_of_neg hn]
    simp
  · rw [signFactor, if_neg (by simpa using hn), Nat.cast_natAbs, abs_of_nonneg hn]
    simp

/-- A finite value is its magnitude with its sign. -/
theorem toRat?_finite (negative : Bool) (ordinal : Fin ordinalBound) :
    (finite negative ordinal).toRat? = some (signFactor negative * (unitsOf ordinal / one)) := by
  rw [toRat?, units?]
  generalize one = d
  cases negative <;> simp [signFactor, neg_div]

/-- A value that is a number is a magnitude with its sign. -/
theorem exists_finite_of_toRat? {x : Binary64} {q : ℚ} (h : x.toRat? = some q) :
    ∃ negative ordinal, x = finite negative ordinal ∧
      q = signFactor negative * (unitsOf ordinal / one) := by
  cases x with
  | finite negative ordinal =>
    rw [toRat?_finite] at h
    exact ⟨negative, ordinal, rfl, (Option.some.inj h).symm⟩
  | infinite negative => cases h
  | nan => cases h

/-- An integer up to `2^53` on either side of zero, times a power of two, is a value. -/
theorem exists_toRat?_eq {n : Int} {shift : Nat} (h : n.natAbs ≤ 2 * binade) (hshift : shift ≤ 970) :
    ∃ x : Binary64, x.toRat? = some ((n * twoTo shift : Int) : ℚ) := by
  obtain ⟨k, hk⟩ := exists_unitsOf_eq h hshift
  refine ⟨.finite (n < 0) k, ?_⟩
  rw [toRat?_finite, hk, Nat.cast_mul, mul_div_cancel_right₀ _ one_ne_zero, Nat.cast_mul,
    ← mul_assoc, signFactor_mul_natAbs]
  norm_cast

/-- Every integer up to `2^53` on either side of zero is a value. -/
theorem exists_toRat?_eq_int {n : Int} (h : n.natAbs ≤ 2 * binade) :
    ∃ x : Binary64, x.toRat? = some (n : ℚ) := by
  obtain ⟨x, hx⟩ := exists_toRat?_eq h (Nat.zero_le 970)
  have hone : n * twoTo 0 = n := Int.mul_one n
  exact ⟨x, hone ▸ hx⟩

/-- What is nearest to a quotient in units is nearest to it as a rational number. -/
theorem NearestTo.abs_sub_le {x y : Binary64} {num : Int} {den : Nat} (h : x.NearestTo num den)
    (hden : 0 < den) {q r : ℚ} (hx : x.toRat? = some q) (hy : y.toRat? = some r) :
    |q - num / den| ≤ |r - num / den| := by
  obtain ⟨u, hu, hnearest⟩ := h
  obtain ⟨u', hu', rfl⟩ := toRat?_eq_some_iff.1 hx
  obtain ⟨v, hv, rfl⟩ := toRat?_eq_some_iff.1 hy
  obtain rfl : u = u' := Option.some.inj (hu.symm.trans hu')
  have hle := hnearest y v hv
  have hone := one_ne_zero
  generalize one = d at hle hone ⊢
  have hden' : (den : ℚ) ≠ 0 := Nat.cast_ne_zero.2 (Nat.ne_of_gt hden)
  have hdist (w : Int) :
      |(w : ℚ) / d - num / den| = ((w * den - num * d).natAbs : ℚ) / |(d * den : ℚ)| := by
    rw [div_sub_div _ _ hone hden', abs_div, Nat.cast_natAbs, Int.cast_abs]
    push_cast
    rw [mul_comm (d : ℚ) num]
  rw [hdist, hdist]
  exact div_le_div_of_nonneg_right (by exact_mod_cast hle) (abs_nonneg _)

end Binary64

/-! ## Literals -/

namespace Decimal.Literal

open Binary64 (signFactor)

/-- A literal denotes its quotient with its sign. -/
theorem value_eq_quotient (l : Literal) :
    l.value = signFactor l.negative * (l.magnitude.quotient.1 / l.magnitude.quotient.2) := by
  rw [value, zpow_ten, signFactor, magnitude, quotient, mul_assoc, Nat.cast_mul,
    mul_div_assoc]

/-- A literal that denotes a value is read as this number. -/
theorem toRat?_of_exact {l : Literal} {x : Binary64} (h : x.toRat? = some l.value) :
    (Binary64.ofDecimal l.negative l.magnitude).toRat? = some l.value := by
  obtain ⟨negative, ordinal, -, hvalue⟩ := Binary64.exists_finite_of_toRat? h
  have hden := l.magnitude.quotient_den_pos
  have hquot : (l.magnitude.quotient.1 / l.magnitude.quotient.2 : ℚ)
      = Binary64.unitsOf ordinal / Binary64.one := by
    have habs := congrArg abs (l.value_eq_quotient.symm.trans hvalue)
    rw [Binary64.abs_signFactor_mul, Binary64.abs_signFactor_mul] at habs
    rwa [abs_of_nonneg (div_nonneg (Nat.cast_nonneg _) (Nat.cast_nonneg _)),
      abs_of_nonneg (div_nonneg (Nat.cast_nonneg _) (Nat.cast_nonneg _))] at habs
  have hcross : l.magnitude.quotient.1 * Binary64.one
      = Binary64.unitsOf ordinal * l.magnitude.quotient.2 := by
    rw [div_eq_div_iff (Nat.cast_ne_zero.2 (Nat.ne_of_gt hden)) Binary64.one_ne_zero] at hquot
    exact_mod_cast hquot
  rw [Binary64.ofDecimal_eq_nearest, Binary64.nearest_unitsOf l.negative ordinal hden hcross,
    Binary64.toRat?_finite, ← hquot, ← value_eq_quotient]

/-- No value is nearer to what a literal denotes than the one that it is read as. -/
theorem abs_sub_le {l : Literal} {q r : ℚ} {y : Binary64}
    (h : (Binary64.ofDecimal l.negative l.magnitude).toRat? = some q) (hy : y.toRat? = some r) :
    |q - l.value| ≤ |r - l.value| := by
  rw [Binary64.ofDecimal_eq_nearest] at h
  have hden := l.magnitude.quotient_den_pos
  have hnearest := Binary64.nearestTo_nearest hden (Binary64.isFinite_of_toRat? h)
  have hle := hnearest.abs_sub_le hden h hy
  have hvalue : (((if l.negative then -l.magnitude.quotient.1 else l.magnitude.quotient.1 : Int) : ℚ)
      / l.magnitude.quotient.2) = l.value := by
    rw [value_eq_quotient, signFactor]
    cases l.negative <;> simp [neg_div]
  rwa [hvalue] at hle

end Decimal.Literal

end MovieCatalog
