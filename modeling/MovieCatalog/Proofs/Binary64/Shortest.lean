import MovieCatalog.Binary64.Shortest
import MovieCatalog.Proofs.Binary64.Rounding

/-!
# The fewest digits read back

The decimal number that stands for a magnitude is nearest to no other magnitude
(`Binary64.ofDecimal_shortest`). For what the search finds this has been tried out; where it finds
nothing the magnitude is written out exactly, and then it is its own rounding
(`Binary64.ofDecimal_exact`).
-/

namespace MovieCatalog.Binary64

/-- A zero at the end of the digits is a step of the exponent. -/
theorem ofDecimal_div_ten (negative : Bool) {d : Decimal} (h : d.digits % 10 = 0) :
    ofDecimal negative ⟨d.digits / 10, d.exponent + 1⟩ = ofDecimal negative d := by
  have hshift := ofDecimal_shift negative (d.digits / 10) 1 (d.exponent + 1)
  have hdigits : d.digits / 10 * tenTo 1 = d.digits :=
    Nat.div_mul_cancel (Nat.dvd_of_mod_eq_zero h)
  have hexponent : d.exponent + 1 - (1 : Nat) = d.exponent := by omega
  rw [← hshift, hdigits, hexponent]

/-- Dropping trailing zeros keeps the value. -/
theorem ofDecimal_stripZeros (negative : Bool) (fuel : Nat) (d : Decimal) :
    ofDecimal negative (stripZeros fuel d) = ofDecimal negative d := by
  induction fuel generalizing d with
  | zero => rfl
  | succ fuel ih =>
    rw [stripZeros]
    split
    · next h => rw [ih, ofDecimal_div_ten negative h.2]
    · rfl

/-- A magnitude that is written out exactly, in multiples of `10^-1074`. -/
theorem ofDecimal_exact (ordinal : Fin ordinalBound) :
    ofDecimal false (exactDecimal ordinal) = .finite false ordinal := by
  have hunit : tenTo 1074 / one * one = tenTo 1074 := by decide +kernel
  have hneg : (-1074 : Int).toNat = 0 := rfl
  have hexponent : (-(-1074) : Int).toNat = 1074 := rfl
  rw [ofDecimal_eq_nearest, exactDecimal, Decimal.quotient]
  generalize tenTo 1074 / one = unit at hunit ⊢
  dsimp only
  rw [hneg, hexponent, tenTo_zero, Nat.mul_one]
  refine nearest_unitsOf false ordinal (tenTo_pos _) ?_
  rw [Nat.mul_assoc, hunit]

/-- A candidate is taken only if it reads back. -/
theorem ofDecimal_candidate? {tie : Tie} {ordinal : Fin ordinalBound} {exponent : Int} {d : Decimal}
    (h : candidate? tie ordinal exponent = some d) :
    ofDecimal false d = .finite false ordinal := by
  simp only [candidate?] at h
  split at h
  · next hfirst =>
    cases h
    exact of_decide_eq_true hfirst
  · split at h
    · next hsecond =>
      cases h
      exact of_decide_eq_true hsecond
    · cases h

/-- The shortest decimal number for a magnitude is nearest to that magnitude. -/
theorem ofDecimal_shortest (tie : Tie) (ordinal : Fin ordinalBound) :
    ofDecimal false (shortest tie ordinal) = .finite false ordinal := by
  rw [shortest]
  cases hd : search? tie ordinal with
  | some d =>
    obtain ⟨i, -, hi⟩ := List.exists_of_findSome?_eq_some hd
    rw [Option.map_some, Option.getD_some, ofDecimal_stripZeros]
    exact ofDecimal_candidate? hi
  | none =>
    rw [Option.map_none, Option.getD_none, ofDecimal_stripZeros]
    exact ofDecimal_exact ordinal

/-- The shortest decimal number for a positive magnitude is positive. -/
theorem shortest_digits_pos (tie : Tie) {ordinal : Fin ordinalBound} (h : ordinal.val ≠ 0) :
    0 < (shortest tie ordinal).digits := by
  rcases Nat.eq_zero_or_pos (shortest tie ordinal).digits with hzero | hpos
  · have hback := ofDecimal_shortest tie ordinal
    rw [ofDecimal, if_pos (.inl hzero), signedZero] at hback
    obtain ⟨-, rfl⟩ := Binary64.finite.inj hback
    exact absurd rfl h
  · exact hpos

end MovieCatalog.Binary64
