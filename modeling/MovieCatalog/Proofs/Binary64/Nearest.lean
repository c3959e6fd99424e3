import MovieCatalog.Proofs.Binary64.Rounding

/-!
# No value is nearer

The value that rounding yields is a nearest one: no finite value is closer to the number that was
rounded (`Binary64.nearestTo_nearest`). The magnitude is a multiple of the step between neighbours
that is off by half a step at most (`Binary64.roundHalfEven_error`), so no other multiple is
nearer; a magnitude that is no multiple of the step lies in a lower binade, below the lowest
multiple in this one, and so it is farther away still (`Binary64.unitsOf_lt_or_multiple`).
-/

namespace MovieCatalog.Binary64

/-- A finite value, and no finite value is nearer to `num / den`. -/
def NearestTo (x : Binary64) (num : Int) (den : Nat) : Prop :=
  ∃ u, x.units? = some u ∧ ∀ (y : Binary64) (v : Int), y.units? = some v →
    (u * den - num * one).natAbs ≤ (v * den - num * one).natAbs

/-! ## Multiples of a step -/

/-- Rounding takes the whole part or one more, whichever is not farther away. -/
theorem roundHalfEven_cases (num den : Nat) :
    (roundHalfEven num den = num / den ∧ 2 * (num % den) ≤ den) ∨
      (roundHalfEven num den = num / den + 1 ∧ den ≤ 2 * (num % den)) := by
  simp only [roundHalfEven]
  split
  · next hlow => exact .inl ⟨rfl, Nat.le_of_lt hlow⟩
  · next hlow =>
    split
    · next hhigh => exact .inr ⟨rfl, Nat.le_of_lt hhigh⟩
    · next hhigh =>
      -- a tie, which goes to the even one of the two
      rcases Nat.mod_two_eq_zero_or_one (num / den) with heven | hodd
      · exact .inl ⟨by rw [heven, Nat.add_zero], Nat.le_of_not_lt hhigh⟩
      · exact .inr ⟨by rw [hodd], Nat.le_of_not_lt hlow⟩

/-- Rounding is off by half a step at most. -/
theorem roundHalfEven_error (num den : Nat) (hden : 0 < den) :
    2 * ((roundHalfEven num den * den : Nat) - num : Int).natAbs ≤ den := by
  have hdiv := Nat.div_add_mod' num den
  have hmod := Nat.mod_lt num hden
  rcases roundHalfEven_cases num den with ⟨hround, hrest⟩ | ⟨hround, hrest⟩
  · rw [hround]
    omega
  · have hnext : (num / den + 1) * den = num / den * den + den := Nat.succ_mul _ _
    rw [hround, hnext]
    omega

/-- No multiple of the step is nearer than one that is off by half a step at most. -/
theorem natAbs_sub_le_of_error {a num den : Nat}
    (h : 2 * ((a * den : Nat) - num : Int).natAbs ≤ den) (m : Nat) :
    ((a * den : Nat) - num : Int).natAbs ≤ ((m * den : Nat) - num : Int).natAbs := by
  rcases Nat.lt_trichotomy a m with hlt | rfl | hgt
  · have hstep : a * den + den ≤ m * den := by
      rw [← Nat.succ_mul]
      exact Nat.mul_le_mul_right den hlt
    omega
  · exact Nat.le_refl _
  · have hstep : m * den + den ≤ a * den := by
      rw [← Nat.succ_mul]
      exact Nat.mul_le_mul_right den hgt
    omega

/-! ## Magnitudes -/

/-- The magnitude that lies `m` steps of `2^h` units above zero, in the binade of this step or at
its upper end. Steps of one unit begin at zero. -/
theorem unitsOf_steps {h m : Nat} (hlow : h = 0 ∨ binade ≤ m) (hhigh : m ≤ 2 * binade) :
    unitsOf (h * binade + m) = m * twoTo h := by
  have hbinade : 0 < binade := by decide
  rcases Nat.lt_or_ge m binade with hsmall | hlarge
  · obtain rfl : h = 0 := hlow.resolve_right (Nat.not_le.2 hsmall)
    have hstep : m * twoTo 0 = m := Nat.mul_one m
    rw [Nat.zero_mul, Nat.zero_add, unitsOf, if_pos hsmall, hstep]
  · obtain ⟨r, rfl⟩ := Nat.exists_eq_add_of_le hlarge
    have hordinal : h * binade + (binade + r) = r + binade * (h + 1) := by
      rw [Nat.mul_succ, Nat.mul_comm binade h]
      omega
    rw [hordinal, unitsOf, if_neg (by rw [Nat.mul_succ]; omega), Nat.add_mul_mod_self_left,
      Nat.add_mul_div_left r (h + 1) hbinade]
    rcases Nat.lt_or_ge r binade with hr | hr
    · rw [Nat.mod_eq_of_lt hr, Nat.div_eq_of_lt hr, Nat.zero_add, Nat.add_sub_cancel]
    · -- the upper end is the beginning of the next binade
      obtain rfl : r = binade := by omega
      rw [Nat.mod_self, Nat.div_self hbinade, Nat.add_zero, Nat.add_comm 1, Nat.add_sub_cancel,
        twoTo_add, ← Nat.two_mul, Nat.mul_comm (twoTo h), ← Nat.mul_assoc, Nat.mul_comm binade]
      rfl

/-- A quotient whose step is more than one unit is in the binade of this step. -/
theorem binade_le_div {num den h : Nat} (hh : (num / den).log2 - 52 = h) (hpos : 0 < h) :
    binade * twoTo h ≤ num / den := by
  have hlog : (num / den).log2 = 52 + h := by omega
  have hne : num / den ≠ 0 := by
    intro hzero
    rw [hzero, Nat.log2_zero] at hlog
    omega
  rw [binade_eq_twoTo, ← twoTo_add, ← hlog]
  exact Nat.log2_self_le hne

/-- The magnitude that rounding takes is a multiple of the step in the binade of the quotient. -/
theorem unitsOf_ordinalNear {num den h : Nat} (hh : (num / den).log2 - 52 = h) :
    unitsOf (ordinalNear num den) = roundHalfEven num (den * twoTo h) * twoTo h := by
  have htwice : 2 * binade = twoTo 53 := by decide +kernel
  have hquot : num / (den * twoTo h) < twoTo 53 := by
    rw [← Nat.div_div_eq_div_mul, Nat.div_lt_iff_lt_mul (twoTo_pos _), ← twoTo_add]
    exact Nat.lt_of_lt_of_le Nat.lt_log2_self (twoTo_le (by omega))
  have hround := roundHalfEven_cases num (den * twoTo h)
  rw [ordinalNear, hh]
  refine unitsOf_steps ?_ (by omega)
  rcases Nat.eq_zero_or_pos h with hzero | hpos
  · exact .inl hzero
  · have hbinade : binade ≤ num / (den * twoTo h) := by
      rw [← Nat.div_div_eq_div_mul, Nat.le_div_iff_mul_le (twoTo_pos _)]
      exact binade_le_div hh hpos
    exact .inr (by omega)

/-- A magnitude that is no multiple of `2^h` units is below the binade in which this is the step. -/
theorem unitsOf_lt_or_multiple (j h : Nat) :
    unitsOf j < binade * twoTo h ∨ ∃ m, unitsOf j = m * twoTo h := by
  have hbinade : 0 < binade := by decide
  have hmod := Nat.mod_lt j hbinade
  rw [unitsOf]
  split
  · next hj => exact .inl (Nat.lt_of_lt_of_le hj (Nat.le_mul_of_pos_right _ (twoTo_pos h)))
  · next hj =>
    rcases Nat.lt_or_ge (j / binade - 1) h with hlt | hge
    · refine .inl ?_
      calc (binade + j % binade) * twoTo (j / binade - 1)
          < (binade * 2) * twoTo (j / binade - 1) :=
            Nat.mul_lt_mul_of_pos_right (by omega) (twoTo_pos _)
        _ = binade * twoTo (1 + (j / binade - 1)) := by rw [Nat.mul_assoc, twoTo_add]; rfl
        _ ≤ binade * twoTo h := Nat.mul_le_mul_left _ (twoTo_le (by omega))
    · obtain ⟨i, hi⟩ := Nat.exists_eq_add_of_le hge
      refine .inr ⟨(binade + j % binade) * twoTo i, ?_⟩
      rw [hi, twoTo_add, Nat.mul_assoc, Nat.mul_comm (twoTo h)]

/-- No magnitude is nearer to a quotient than the one that rounding takes. -/
theorem ordinalNear_nearest (num : Nat) {den : Nat} (hden : 0 < den) (j : Nat) :
    ((unitsOf (ordinalNear num den) * den : Nat) - num : Int).natAbs
      ≤ ((unitsOf j * den : Nat) - num : Int).natAbs := by
  generalize hh : (num / den).log2 - 52 = h
  have hmultiple := natAbs_sub_le_of_error
    (roundHalfEven_error num (den * twoTo h) (Nat.mul_pos hden (twoTo_pos h)))
  have hsteps : ∀ m, m * (den * twoTo h) = m * twoTo h * den := fun m => by
    rw [Nat.mul_comm den, Nat.mul_assoc]
  simp only [hsteps] at hmultiple
  rw [unitsOf_ordinalNear hh]
  rcases unitsOf_lt_or_multiple j h with hlower | ⟨m, hm⟩
  · rcases Nat.eq_zero_or_pos h with rfl | hpos
    · have hunit : unitsOf j * twoTo 0 = unitsOf j := Nat.mul_one _
      have hj := hmultiple (unitsOf j)
      rwa [hunit] at hj
    · have hnum : binade * twoTo h * den ≤ num :=
        (Nat.le_div_iff_mul_le hden).1 (binade_le_div hh hpos)
      have hj : unitsOf j * den ≤ binade * twoTo h * den :=
        Nat.mul_le_mul_right den (Nat.le_of_lt hlower)
      have hlowest := hmultiple binade
      omega
  · rw [hm]
    exact hmultiple m

/-! ## Values -/

/-- A finite value, in units, is a magnitude or the opposite of one. -/
theorem exists_unitsOf_of_units? {x : Binary64} {u : Int} (h : x.units? = some u) :
    ∃ j, u = unitsOf j ∨ u = -(unitsOf j : Int) := by
  cases x with
  | finite negative ordinal =>
    obtain rfl := Option.some.inj h
    cases negative with
    | true => exact ⟨ordinal, .inr rfl⟩
    | false => exact ⟨ordinal, .inl rfl⟩
  | infinite negative => cases h
  | nan => cases h

/-- What is nearest among the magnitudes is nearest among the values: on the other side of zero they
are farther away. -/
theorem natAbs_sub_le_of_magnitudes {a b n : Nat} {w : Int} (hw : w = b ∨ w = -(b : Int))
    (h : (a - n : Int).natAbs ≤ (b - n : Int).natAbs) :
    (a - n : Int).natAbs ≤ (w - n).natAbs ∧ (-a - -n : Int).natAbs ≤ (w - -n).natAbs := by
  omega

/-- No finite value is nearer to a quotient than the one that rounding yields, if this one is
finite. -/
theorem nearestTo_nearest {negative : Bool} {num den : Nat} (hden : 0 < den)
    (hfinite : (nearest negative num den).isFinite = true) :
    (nearest negative num den).NearestTo (if negative then -num else num) den := by
  unfold nearest at hfinite ⊢
  dsimp only at hfinite ⊢
  split at hfinite
  · next hk =>
    rw [dif_pos hk]
    refine ⟨_, rfl, fun y v hv => ?_⟩
    obtain ⟨j, hj⟩ := exists_unitsOf_of_units? hv
    have hw : v * den = ((unitsOf j * den : Nat) : Int) ∨
        v * den = -((unitsOf j * den : Nat) : Int) := by
      rcases hj with rfl | rfl
      · exact .inl (Int.natCast_mul _ _).symm
      · exact .inr (by rw [Int.neg_mul, Int.natCast_mul])
    obtain ⟨hpositive, hnegative⟩ :=
      natAbs_sub_le_of_magnitudes hw (ordinalNear_nearest (num * one) hden j)
    cases negative with
    | true =>
      simp only [if_true, Int.neg_mul]
      rw [← Int.natCast_mul, ← Int.natCast_mul]
      exact hnegative
    | false =>
      simp only [Bool.false_eq_true, if_false]
      rw [← Int.natCast_mul, ← Int.natCast_mul]
      exact hpositive
  · cases hfinite

/-- The value of an integer that is held exactly is a nearest one. -/
theorem nearestTo_ofInt {n : Int} (h : n.natAbs ≤ Word.size64) : (ofInt n).NearestTo n 1 := by
  have hnearest := nearestTo_nearest (by decide) (isFinite_ofInt h)
  have hsign : (if decide (n < 0) = true then -(n.natAbs : Int) else n.natAbs) = n := by
    rcases lt_or_ge n 0 with hneg | hpos
    · rw [if_pos (decide_eq_true hneg)]
      omega
    · rw [if_neg (by simpa using hpos)]
      omega
  rwa [hsign] at hnearest

end MovieCatalog.Binary64
