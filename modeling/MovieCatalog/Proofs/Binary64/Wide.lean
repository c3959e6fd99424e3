import MovieCatalog.Proofs.Binary64.Exact
import MovieCatalog.Proofs.Binary64.Fewest

/-!
# Words of 64 bits whose first bit is set

The values from `2^63` to `2^64` are the multiples of 2048, and a word in this range rounds to one
of them (`Binary64.exists_wide`). Every multiple has a multiple of 1000 near to it that rounds back
(`Binary64.Wide.exists_thousands`). Hence the shortest decimal number for the value is an integer
with three zeros at least at its end: of the integers that round to the value it has the most zeros,
and of those with as many it is the nearest to the value (`Binary64.Wide.roundest_shortest`).
-/

namespace MovieCatalog.Binary64

/-! ## Integers as decimal numbers -/

theorem ofInt_natCast (n : Nat) : ofInt n = nearest false n 1 := by
  have hsign : ¬ (n : Int) < 0 := Int.not_lt.2 (Int.natCast_nonneg n)
  rw [ofInt, decide_eq_false hsign, Int.natAbs_natCast n]

/-- A decimal number without digits behind the point is an integer. -/
theorem ofDecimal_integer {e : Int} (he : 0 ≤ e) (g : Nat) :
    ofDecimal false ⟨g, e⟩ = ofInt (g * tenTo e.toNat : Nat) := by
  have hneg : (-e).toNat = 0 := by omega
  rw [ofDecimal_eq_nearest, ofInt_natCast, Decimal.quotient, hneg, tenTo_zero]

/-- A natural number rounds to a magnitude if its quotient by one does. -/
theorem ofInt_eq_finite_iff {n : Nat} {ordinal : Fin ordinalBound} :
    ofInt n = .finite false ordinal ↔ ordinalNear (n * one) 1 = ordinal := by
  have hinteger := ofDecimal_integer (Int.le_refl 0) n
  have hdigits : n * tenTo (0 : Int).toNat = n := Nat.mul_one n
  have hstep : gridStep 0 = one := by rw [gridStep, Int.toNat_zero, tenTo_zero, Nat.mul_one]
  rw [hdigits] at hinteger
  rw [← hinteger, ofDecimal_eq_finite_iff, hstep]
  exact Iff.rfl

/-- An integer that rounds to a value without a sign has none. -/
theorem nonneg_of_ofInt {n : Int} {ordinal : Fin ordinalBound}
    (h : ofInt n = .finite false ordinal) : 0 ≤ n := by
  by_contra hneg
  rw [Int.not_le] at hneg
  rw [ofInt, decide_eq_true hneg, nearest] at h
  split at h <;> cases h

/-- An integer that rounds to a magnitude and ends in zeros is the number on a grid that does. -/
theorem exists_ofDecimal_of_dvd {m : Int} {zeros : Nat} {ordinal : Fin ordinalBound}
    (hm : ofInt m = .finite false ordinal) (hdvd : (tenTo zeros : Int) ∣ m) :
    ∃ g : Nat, m = (g * tenTo zeros : Nat) ∧
      ofDecimal false ⟨g, zeros⟩ = .finite false ordinal := by
  obtain ⟨n, rfl⟩ := Int.eq_ofNat_of_zero_le (nonneg_of_ofInt hm)
  obtain ⟨g, rfl⟩ := Int.natCast_dvd_natCast.1 hdvd
  rw [Nat.mul_comm] at hm ⊢
  refine ⟨g, rfl, ?_⟩
  rw [ofDecimal_integer (Int.natCast_nonneg zeros), Int.toNat_natCast]
  exact hm

/-! ## Values from `2^63` to `2^64` -/

/-- A magnitude from `2^63` to `2^64`, with the integer that it is. -/
structure Wide (ordinal : Fin ordinalBound) (v : Nat) : Prop where
  units : unitsOf ordinal = v * one
  step : 2048 ∣ v
  low : Word.half64 ≤ v
  high : v ≤ Word.size64

theorem natAbs_sub_mul (a b c : Nat) :
    ((a * c : Nat) - (b * c : Nat) : Int).natAbs = (a - b : Int).natAbs * c := by
  rw [Int.natCast_mul, Int.natCast_mul, ← Int.sub_mul, Int.natAbs_mul, Int.natAbs_natCast]

/-- The first integer beyond the signed ones, in units: the smallest magnitude of its binade. -/
theorem half64_mul_one : Word.half64 * one = binade * twoTo 1085 := by decide +kernel

/-- A magnitude from `2^63` on is a multiple of 2048. -/
theorem exists_multiple {k : Nat} (h : Word.half64 * one ≤ unitsOf k) :
    ∃ v, unitsOf k = v * one ∧ 2048 ∣ v := by
  have hstep : twoTo 1085 = 2048 * one := by decide +kernel
  rcases unitsOf_lt_or_multiple k 1085 with hlt | ⟨m, hm⟩
  · rw [← half64_mul_one] at hlt
    omega
  · refine ⟨m * 2048, ?_, Nat.dvd_mul_left 2048 m⟩
    rw [hm, hstep, Nat.mul_assoc]

/-- A natural number from `2^63` on is not rounded to a smaller one. -/
theorem half64_le_unitsOf {n : Nat} (h : Word.half64 ≤ n) :
    Word.half64 * one ≤ unitsOf (ordinalNear (n * one) 1) := by
  have hself : unitsOf (ordinalNear (Word.half64 * one) 1) = Word.half64 * one := by
    decide +kernel
  rw [← hself]
  exact unitsOf_strictMono.monotone (ordinalNear_mono Nat.one_pos (Nat.mul_le_mul_right one h))

/-- A word whose first bit is set rounds to such a magnitude. -/
theorem exists_wide {n : Nat} (hlow : Word.half64 ≤ n) (hhigh : n ≤ Word.size64) :
    ∃ ordinal v, ofInt n = .finite false ordinal ∧ Wide ordinal v := by
  have hfinite := isFinite_ofInt (n := n) hhigh
  obtain ⟨ordinal, hround⟩ : ∃ ordinal, ofInt n = .finite false ordinal := by
    rw [ofInt_natCast, nearest] at hfinite ⊢
    split at hfinite
    · next hk => exact ⟨_, dif_pos hk⟩
    · cases hfinite
  have hordinal := ofInt_eq_finite_iff.1 hround
  have hunits := half64_le_unitsOf hlow
  have hself : unitsOf (ordinalNear (Word.size64 * one) 1) = Word.size64 * one := by
    decide +kernel
  have hbound := unitsOf_strictMono.monotone
    (ordinalNear_mono Nat.one_pos (Nat.mul_le_mul_right one hhigh))
  rw [hordinal] at hunits hbound
  obtain ⟨v, hv, hstep⟩ := exists_multiple hunits
  rw [hself, hv] at hbound
  rw [hv] at hunits
  have hone := one_pos
  exact ⟨ordinal, v, hround, hv, hstep, Nat.le_of_mul_le_mul_right hunits hone,
    Nat.le_of_mul_le_mul_right hbound hone⟩

namespace Wide

variable {ordinal : Fin ordinalBound} {v : Nat}

theorem units_pos (hv : Wide ordinal v) : 0 < v * one :=
  Nat.mul_pos (Nat.lt_of_lt_of_le (by decide) hv.low) one_pos

/-- The value is not zero. -/
theorem ordinal_ne_zero (hv : Wide ordinal v) : ordinal.val ≠ 0 := by
  intro hzero
  have hunits := hv.units
  have hpos := hv.units_pos
  have hnothing : unitsOf 0 = 0 := by decide
  rw [hzero, hnothing] at hunits
  omega

/-- What is nearer to a multiple of 2048 than half a step rounds to it. -/
theorem ofInt_of_near (hv : Wide ordinal v) {n : Nat} (hlow : Word.half64 ≤ n)
    (hnear : (n - v : Int).natAbs < 1024) : ofInt n = .finite false ordinal := by
  rw [ofInt_eq_finite_iff]
  obtain ⟨w, hw, hstep⟩ := exists_multiple (half64_le_unitsOf hlow)
  have hnearest := ordinalNear_nearest (n * one) Nat.one_pos ordinal
  rw [hw, hv.units] at hnearest
  have hdist : (w - n : Int).natAbs ≤ (v - n : Int).natAbs := by
    rw [Nat.mul_one, Nat.mul_one, natAbs_sub_mul, natAbs_sub_mul] at hnearest
    exact Nat.le_of_mul_le_mul_right hnearest one_pos
  obtain rfl : w = v := by
    have hstep' := hv.step
    omega
  exact unitsOf_strictMono.injective (hw.trans hv.units.symm)

/-- A multiple of 1000 rounds to the value. -/
theorem exists_thousands (hv : Wide ordinal v) :
    ∃ g, ofInt (g * tenTo 3 : Nat) = .finite false ordinal := by
  have hlow := hv.low
  have hstep := hv.step
  have hthousand : tenTo 3 = 1000 := by decide
  simp only [Word.half64] at hlow
  refine ⟨(v + 500) / 1000, hv.ofInt_of_near ?_ ?_⟩
  · rw [hthousand]
    simp only [Word.half64]
    omega
  · rw [hthousand]
    omega

/-- The weight of the first digit. -/
theorem leadingWeight_eq (hv : Wide ordinal v) :
    leadingWeight (unitsOf ordinal) one = (Numeral.ofNat v).length - 1 := by
  have hone := one_pos
  have hlow : 0 < v := Nat.lt_of_lt_of_le (by decide) hv.low
  rw [leadingWeight, hv.units, if_pos (Nat.le_mul_of_pos_left one hlow),
    Nat.mul_div_cancel v hone]

/-- There are 19 digits or 20. -/
theorem length_cases (hv : Wide ordinal v) :
    (Numeral.ofNat v).length = 19 ∨ (Numeral.ofNat v).length = 20 := by
  have hlow : tenTo 18 ≤ v := Nat.le_trans (by decide) hv.low
  have hhigh : v < tenTo 20 := Nat.lt_of_le_of_lt hv.high (by decide)
  have hlong := (Numeral.length_ofNat_le_iff (n := v) (k := 18) (by decide)).not.2
    (Nat.not_lt.2 hlow)
  have hshort := (Numeral.length_ofNat_le_iff (n := v) (k := 20) (by decide)).2 hhigh
  omega

/-- The power of ten above the value is not rounded to it, and no multiple of this power is. -/
theorem ofDecimal_ne (hv : Wide ordinal v) (g : Nat) :
    ofDecimal false ⟨g, (Numeral.ofNat v).length⟩ ≠ .finite false ordinal := by
  have hlt := (Numeral.length_ofNat_le_iff (Numeral.length_ofNat_pos v)).1 (Nat.le_refl _)
  -- both powers in question are values
  have hself : unitsOf (ordinalNear (tenTo (Numeral.ofNat v).length * one) 1)
      = tenTo (Numeral.ofNat v).length * one := by
    rcases hv.length_cases with hlength | hlength <;> rw [hlength] <;> decide +kernel
  generalize (Numeral.ofNat v).length = e at hlt hself
  intro hround
  rw [ofDecimal_integer (Int.natCast_nonneg e), Int.toNat_natCast, ofInt_eq_finite_iff] at hround
  have hunits := hv.units
  rw [← hround] at hunits
  rcases Nat.eq_zero_or_pos g with rfl | hpos
  · have hzero : unitsOf (ordinalNear (0 * tenTo e * one) 1) = 0 := by
      rw [Nat.zero_mul, Nat.zero_mul]
      decide +kernel
    have hv_pos := hv.units_pos
    omega
  · have hle : tenTo e * one ≤ g * tenTo e * one :=
      Nat.mul_le_mul_right one (Nat.le_mul_of_pos_left _ hpos)
    have hmono := unitsOf_strictMono.monotone (ordinalNear_mono Nat.one_pos hle)
    rw [hself, hunits] at hmono
    exact Nat.not_le.2 hlt (Nat.le_of_mul_le_mul_right hmono one_pos)

/-- The shortest decimal number for the value is an integer that ends in three zeros at least. -/
theorem fewest_shortest (hv : Wide ordinal v) :
    Fewest .up ordinal (shortest .up ordinal) ∧ 3 ≤ (shortest .up ordinal).exponent := by
  obtain ⟨g, hg⟩ := hv.exists_thousands
  have hthousands : ofDecimal false ⟨g, 3⟩ = .finite false ordinal := by
    rw [ofDecimal_integer (by decide)]
    exact hg
  have hfewest : Fewest .up ordinal (shortest .up ordinal) := by
    have htop := hv.ofDecimal_ne
    have hlength := hv.length_cases
    have hweight := hv.leadingWeight_eq
    generalize (Numeral.ofNat v).length = length at htop hlength hweight
    have hgrid : leadingWeight (unitsOf ordinal) one - (length - 4 : Nat) = 3 := by omega
    have hnext : leadingWeight (unitsOf ordinal) one + 1 = length := by omega
    refine Binary64.fewest_shortest (g := g) (i := length - 4) (by omega) ?_ ?_
    · rw [hgrid]
      exact hthousands
    · rw [hnext]
      exact htop
  refine ⟨hfewest, ?_⟩
  by_contra hcoarse
  exact ofDecimal_ne_of_coarser (by omega) hfewest.coarsest g hthousands

end Wide

/-! ## The integer that is shown -/

/-- Of the integers that round to a value, `n` ends in the most zeros. Of those that end in as many
it is the nearest to the value, and the larger one of two that are equally near. -/
structure Roundest (x : Binary64) (zeros : Nat) (n : Int) : Prop where
  rounds : ofInt n = x
  ends : (tenTo zeros : Int) ∣ n
  most : ∀ m, ofInt m = x → ¬ (tenTo (zeros + 1) : Int) ∣ m
  nearest : ∀ m v, ofInt m = x → (tenTo zeros : Int) ∣ m → x.integer? = some v →
    (n - v).natAbs ≤ (m - v).natAbs ∧ ((n - v).natAbs = (m - v).natAbs → m ≤ n)

/-- There is only one such integer if the value is an integer itself. -/
theorem Roundest.unique {x : Binary64} {v m n : Int} {zeros zeros' : Nat}
    (hx : x.integer? = some v) (hm : Roundest x zeros m) (hn : Roundest x zeros' n) : m = n := by
  have hle {z z' : Nat} {a b : Int} (ha : Roundest x z a) (hb : Roundest x z' b) : z ≤ z' := by
    by_contra hlt
    refine hb.most a ha.rounds (Int.dvd_trans ?_ ha.ends)
    exact Int.natCast_dvd_natCast.2 (Nat.pow_dvd_pow 10 (by omega))
  obtain rfl : zeros = zeros' := Nat.le_antisymm (hle hm hn) (hle hn hm)
  obtain ⟨hmn, hmn_tie⟩ := hm.nearest n v hn.rounds hn.ends hx
  obtain ⟨hnm, hnm_tie⟩ := hn.nearest m v hm.rounds hm.ends hx
  exact Int.le_antisymm (hnm_tie (Nat.le_antisymm hnm hmn)) (hmn_tie (Nat.le_antisymm hmn hnm))

namespace Wide

variable {ordinal : Fin ordinalBound} {v : Nat}

/-- The value is an integer. -/
theorem integer?_eq (hv : Wide ordinal v) : integer? (.finite false ordinal) = some (v : Int) := by
  refine integer?_iff_units?.2 ?_
  rw [units?, hv.units, Int.natCast_mul]
  rfl

/-- Distances on a grid of integers. -/
theorem gridDistance_eq (hv : Wide ordinal v) (zeros g : Nat) :
    gridDistance ordinal zeros g = ((g * tenTo zeros : Nat) - v : Int).natAbs * one := by
  have hneg : (-(zeros : Int)).toNat = 0 := by omega
  have hnumber : g * (one * tenTo zeros) = g * tenTo zeros * one := by
    rw [Nat.mul_comm one, Nat.mul_assoc]
  rw [gridDistance, gridStep, onGrid, hneg, tenTo_zero, Nat.mul_one, hv.units, Int.toNat_natCast,
    hnumber, natAbs_sub_mul]

/-- The shortest decimal number for the value is the roundest of the integers that round to it. -/
theorem roundest_shortest (hv : Wide ordinal v) :
    Roundest (.finite false ordinal) (shortest .up ordinal).exponent.toNat
      ((shortest .up ordinal).digits * tenTo (shortest .up ordinal).exponent.toNat : Nat) := by
  obtain ⟨hfewest, hthree⟩ := hv.fewest_shortest
  generalize shortest .up ordinal = d at hfewest hthree ⊢
  obtain ⟨digits, exponent⟩ := d
  dsimp only at hthree ⊢
  obtain ⟨zeros, rfl⟩ := Int.eq_ofNat_of_zero_le (Int.le_trans (by decide) hthree)
  rw [Int.toNat_natCast]
  refine ⟨?_, ?_, fun m hm hdvd => ?_, fun m w hm hdvd hw => ?_⟩
  · have hreads := hfewest.reads
    rwa [ofDecimal_integer (Int.natCast_nonneg zeros), Int.toNat_natCast] at hreads
  · exact Int.natCast_dvd_natCast.2 (Nat.dvd_mul_left _ _)
  · obtain ⟨g, -, hg⟩ := exists_ofDecimal_of_dvd hm hdvd
    exact hfewest.coarsest g hg
  · obtain ⟨g, rfl, hg⟩ := exists_ofDecimal_of_dvd hm hdvd
    obtain rfl := Option.some.inj (hw.symm.trans hv.integer?_eq)
    obtain ⟨hle, htie⟩ := hfewest.nearest g hg
    dsimp only at hle htie
    rw [hv.gridDistance_eq, hv.gridDistance_eq] at hle htie
    refine ⟨Nat.le_of_mul_le_mul_right hle one_pos, fun heq => ?_⟩
    have hdigits := htie (by rw [heq]) rfl
    exact Int.ofNat_le.2 (Nat.mul_le_mul_right _ hdigits)

/-- Of the integers below `2^63`, those that end in three zeros are too far away from it to round to
such a value. -/
theorem half64_le_of_roundest (hv : Wide ordinal v) {zeros : Nat} {n : Int}
    (h : Roundest (.finite false ordinal) zeros n) : Word.half64 ≤ n := by
  have hround := h.rounds
  obtain ⟨k, rfl⟩ := Int.eq_ofNat_of_zero_le (nonneg_of_ofInt hround)
  have hthousand : 1000 ∣ k := by
    obtain ⟨g, hg⟩ := hv.exists_thousands
    have hzeros : 3 ≤ zeros := by
      by_contra hfew
      refine h.most _ hg (Int.natCast_dvd_natCast.2 (Nat.dvd_mul_left_of_dvd ?_ g))
      exact Nat.pow_dvd_pow 10 (by omega)
    exact Nat.dvd_trans (Nat.pow_dvd_pow 10 hzeros) (Int.natCast_dvd_natCast.1 h.ends)
  rw [Int.ofNat_le]
  by_contra hlt
  have hbelow : k ≤ Word.half64 - 808 := by
    simp only [Word.half64] at hlt ⊢
    omega
  have hmono := unitsOf_strictMono.monotone
    (ordinalNear_mono Nat.one_pos (Nat.mul_le_mul_right one hbelow))
  have hgap : unitsOf (ordinalNear ((Word.half64 - 808) * one) 1) < Word.half64 * one := by
    decide +kernel
  have hlow := Nat.mul_le_mul_right one hv.low
  rw [ofInt_eq_finite_iff.1 hround, hv.units] at hmono
  omega

end Wide

end MovieCatalog.Binary64
