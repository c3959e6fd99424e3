import MovieCatalog.Proofs.Binary64.Nearest
import MovieCatalog.Proofs.Binary64.Shortest

/-!
# No coarser grid reads back

Rounding keeps the order (`Binary64.ordinalNear_mono`). So if a multiple of `10^e` rounds to a
magnitude, then so do all multiples between the two, and among them the neighbour of the magnitude
on this side (`Binary64.ofDecimal_between`). Therefore it is enough to try the two neighbours: the
grid that the search stops at is the coarsest one on which any number rounds to the magnitude, and
what is taken there is the nearest of these numbers (`Binary64.fewest_shortest`).
-/

namespace MovieCatalog.Binary64

/-! ## The order of magnitudes -/

/-- Each magnitude is smaller than the next one, also where the step between them doubles. -/
theorem unitsOf_lt_succ (k : Nat) : unitsOf k < unitsOf (k + 1) := by
  have hbinade : 0 < binade := by decide
  have hsteps : ∃ h m, k = h * binade + m ∧ (h = 0 ∨ binade ≤ m) ∧ m < 2 * binade := by
    rcases Nat.lt_or_ge k binade with hsmall | hlarge
    · exact ⟨0, k, by omega, .inl rfl, by omega⟩
    · have hmod := Nat.mod_lt k hbinade
      have hdiv := Nat.div_add_mod' k binade
      obtain ⟨h, hh⟩ := Nat.exists_eq_succ_of_ne_zero
        (Nat.ne_of_gt ((Nat.one_le_div_iff hbinade).2 hlarge))
      rw [hh, Nat.succ_mul] at hdiv
      exact ⟨h, binade + k % binade, by omega, .inr (by omega), by omega⟩
  obtain ⟨h, m, rfl, hlow, hhigh⟩ := hsteps
  rw [Nat.add_assoc, unitsOf_steps hlow (Nat.le_of_lt hhigh),
    unitsOf_steps (hlow.imp_right Nat.le_succ_of_le) hhigh]
  exact Nat.mul_lt_mul_of_pos_right (Nat.lt_succ_self m) (twoTo_pos h)

/-- Magnitudes ascend with their ordinals. -/
theorem unitsOf_strictMono : StrictMono unitsOf :=
  strictMono_nat_of_lt_succ unitsOf_lt_succ

/-- The larger of two quotients is not rounded to the smaller magnitude. -/
theorem ordinalNear_mono {a b den : Nat} (hden : 0 < den) (h : a ≤ b) :
    ordinalNear a den ≤ ordinalNear b den := by
  by_contra hlt
  rw [Nat.not_le] at hlt
  have hunits : unitsOf (ordinalNear b den) * den < unitsOf (ordinalNear a den) * den :=
    Nat.mul_lt_mul_of_pos_right (unitsOf_strictMono hlt) hden
  have ha := ordinalNear_nearest a hden (ordinalNear b den)
  have hb := ordinalNear_nearest b hden (ordinalNear a den)
  -- both quotients would lie in the middle between the two magnitudes
  obtain rfl : a = b := by omega
  exact Nat.lt_irrefl _ hlt

/-! ## Grids -/

/-- The step of the grid of multiples of `10^exponent`, in a unit of which all numbers on the grid
and all magnitudes are multiples. -/
def gridStep (exponent : Int) : Nat := one * tenTo exponent.toNat

/-- A magnitude in this unit. -/
def onGrid (ordinal : Nat) (exponent : Int) : Nat := unitsOf ordinal * tenTo (-exponent).toNat

/-- How far a number on the grid is from a magnitude. -/
def gridDistance (ordinal : Nat) (exponent : Int) (digits : Nat) : Nat :=
  ((digits * gridStep exponent : Nat) - (onGrid ordinal exponent : Nat) : Int).natAbs

theorem gridStep_pos (exponent : Int) : 0 < gridStep exponent :=
  Nat.mul_pos (twoTo_pos 1074) (tenTo_pos _)

/-- A number on a grid is read as a value if it rounds to the magnitude of this value. -/
theorem ofDecimal_eq_finite_iff {d : Decimal} {ordinal : Fin ordinalBound} :
    ofDecimal false d = .finite false ordinal ↔
      ordinalNear (d.digits * gridStep d.exponent) (tenTo (-d.exponent).toNat) = ordinal := by
  have hnum : d.quotient.1 * one = d.digits * gridStep d.exponent := by
    rw [Decimal.quotient, gridStep, Nat.mul_assoc, Nat.mul_comm one]
  rw [ofDecimal_eq_nearest, nearest, hnum, Decimal.quotient]
  dsimp only
  split
  · rw [Binary64.finite.injEq, Fin.ext_iff]
    exact and_iff_right rfl
  · next hk =>
    refine iff_of_false (fun h => by cases h) fun h => hk ?_
    rw [h]
    exact ordinal.isLt

/-- A magnitude rounds to itself, in whatever unit it is given. -/
theorem ordinalNear_onGrid (ordinal : Nat) (exponent : Int) :
    ordinalNear (onGrid ordinal exponent) (tenTo (-exponent).toNat) = ordinal := by
  have hscaled := ordinalNear_mul_right (tenTo_pos (-exponent).toNat) (unitsOf ordinal) 1
  rw [Nat.one_mul, ordinalNear_unitsOf] at hscaled
  exact hscaled

section
variable {ordinal : Fin ordinalBound} {exponent : Int}

/-- What lies on a grid between a number that rounds to a magnitude and the magnitude itself rounds
to it as well. -/
theorem ofDecimal_between {g m : Nat} (hg : ofDecimal false ⟨g, exponent⟩ = .finite false ordinal)
    (h : (g ≤ m ∧ m * gridStep exponent ≤ onGrid ordinal exponent) ∨
      (m ≤ g ∧ onGrid ordinal exponent ≤ m * gridStep exponent)) :
    ofDecimal false ⟨m, exponent⟩ = .finite false ordinal := by
  rw [ofDecimal_eq_finite_iff] at hg ⊢
  dsimp only at hg ⊢
  have hden := tenTo_pos (-exponent).toNat
  have hself := ordinalNear_onGrid ordinal exponent
  rcases h with ⟨hle, hgrid⟩ | ⟨hle, hgrid⟩
  · have hlow := ordinalNear_mono hden (Nat.mul_le_mul_right (gridStep exponent) hle)
    have hhigh := ordinalNear_mono hden hgrid
    omega
  · have hlow := ordinalNear_mono hden hgrid
    have hhigh := ordinalNear_mono hden (Nat.mul_le_mul_right (gridStep exponent) hle)
    omega

/-- The grid below and above a magnitude. -/
theorem onGrid_between (ordinal : Nat) (exponent : Int) :
    onGrid ordinal exponent / gridStep exponent * gridStep exponent ≤ onGrid ordinal exponent ∧
      onGrid ordinal exponent
        < (onGrid ordinal exponent / gridStep exponent + 1) * gridStep exponent :=
  ⟨Nat.div_mul_le_self _ _, Nat.lt_mul_of_div_lt (Nat.lt_succ_self _) (gridStep_pos exponent)⟩

/-- If any number on a grid rounds to a magnitude, so does the neighbour on its side. -/
theorem ofDecimal_neighbour {g : Nat}
    (hg : ofDecimal false ⟨g, exponent⟩ = .finite false ordinal) :
    (g ≤ onGrid ordinal exponent / gridStep exponent ∧
        ofDecimal false ⟨onGrid ordinal exponent / gridStep exponent, exponent⟩
          = .finite false ordinal) ∨
      (onGrid ordinal exponent / gridStep exponent + 1 ≤ g ∧
        ofDecimal false ⟨onGrid ordinal exponent / gridStep exponent + 1, exponent⟩
          = .finite false ordinal) := by
  obtain ⟨hbelow, habove⟩ := onGrid_between ordinal exponent
  rcases Nat.lt_or_ge (onGrid ordinal exponent / gridStep exponent) g with hlt | hle
  · exact .inr ⟨hlt, ofDecimal_between hg (.inr ⟨hlt, Nat.le_of_lt habove⟩)⟩
  · exact .inl ⟨hle, ofDecimal_between hg (.inl ⟨hle, hbelow⟩)⟩

/-! ## Candidates -/

/-- Which of the two neighbours comes first. -/
theorem neighbours_cases (tie : Tie) (ordinal : Nat) (exponent : Int) :
    let q := onGrid ordinal exponent / gridStep exponent
    let r := onGrid ordinal exponent % gridStep exponent
    (neighbours tie (unitsOf ordinal) one exponent = (⟨q, exponent⟩, ⟨q + 1, exponent⟩) ∧
        2 * r ≤ gridStep exponent ∧ (tie = .up → 2 * r ≠ gridStep exponent)) ∨
      (neighbours tie (unitsOf ordinal) one exponent = (⟨q + 1, exponent⟩, ⟨q, exponent⟩) ∧
        gridStep exponent ≤ 2 * r) := by
  intro q r
  have hunfold : neighbours tie (unitsOf ordinal) one exponent
      = if (if 2 * r = gridStep exponent then decide (tie = .even ∧ q % 2 = 0)
            else decide (2 * r < gridStep exponent)) = true
        then (⟨q, exponent⟩, ⟨q + 1, exponent⟩) else (⟨q + 1, exponent⟩, ⟨q, exponent⟩) := rfl
  rw [hunfold]
  rcases Nat.lt_trichotomy (2 * r) (gridStep exponent) with hlow | htie | hhigh
  · rw [if_neg (Nat.ne_of_lt hlow), if_pos (decide_eq_true hlow)]
    exact .inl ⟨rfl, Nat.le_of_lt hlow, fun _ => Nat.ne_of_lt hlow⟩
  · rw [if_pos htie]
    split
    · next heven =>
      have htie_even := (of_decide_eq_true heven).1
      exact .inl ⟨rfl, Nat.le_of_eq htie, fun hup => by rw [hup] at htie_even; cases htie_even⟩
    · exact .inr ⟨rfl, Nat.le_of_eq htie.symm⟩
  · rw [if_neg (Nat.ne_of_gt hhigh), if_neg (by simpa using Nat.le_of_lt hhigh)]
    exact .inr ⟨rfl, Nat.le_of_lt hhigh⟩

/-- A candidate is one of the two neighbours. It is the nearer one, or else the nearer one does not
round to the magnitude. -/
theorem candidate?_cases {tie : Tie} {d : Decimal}
    (h : candidate? tie ordinal exponent = some d) :
    let q := onGrid ordinal exponent / gridStep exponent
    let r := onGrid ordinal exponent % gridStep exponent
    (d = ⟨q, exponent⟩ ∧ (2 * r ≤ gridStep exponent ∧ (tie = .up → 2 * r ≠ gridStep exponent) ∨
        ofDecimal false ⟨q + 1, exponent⟩ ≠ .finite false ordinal)) ∨
      (d = ⟨q + 1, exponent⟩ ∧ (gridStep exponent ≤ 2 * r ∨
        ofDecimal false ⟨q, exponent⟩ ≠ .finite false ordinal)) := by
  intro q r
  simp only [candidate?] at h
  rcases neighbours_cases tie ordinal exponent with ⟨horder, hnear⟩ | ⟨horder, hnear⟩
  · rw [horder] at h
    split at h
    · exact .inl ⟨(Option.some.inj h).symm, .inl hnear⟩
    · next hfirst =>
      split at h
      · exact .inr ⟨(Option.some.inj h).symm, .inr (by simpa using hfirst)⟩
      · cases h
  · rw [horder] at h
    split at h
    · exact .inr ⟨(Option.some.inj h).symm, .inl hnear⟩
    · next hfirst =>
      split at h
      · exact .inl ⟨(Option.some.inj h).symm, .inr (by simpa using hfirst)⟩
      · cases h

/-- If any number on a grid rounds to a magnitude, there is a candidate. -/
theorem exists_candidate? (tie : Tie) {g : Nat}
    (hg : ofDecimal false ⟨g, exponent⟩ = .finite false ordinal) :
    ∃ d, candidate? tie ordinal exponent = some d := by
  rw [← Option.ne_none_iff_exists']
  intro hnone
  simp only [candidate?] at hnone
  split at hnone
  · cases hnone
  · next hfirst =>
    split at hnone
    · cases hnone
    · next hsecond =>
      rcases neighbours_cases tie ordinal exponent with ⟨horder, -⟩ | ⟨horder, -⟩
      · rw [horder] at hfirst hsecond
        rcases ofDecimal_neighbour hg with ⟨-, hbelow⟩ | ⟨-, habove⟩
        · exact hfirst (decide_eq_true hbelow)
        · exact hsecond (decide_eq_true habove)
      · rw [horder] at hfirst hsecond
        rcases ofDecimal_neighbour hg with ⟨-, hbelow⟩ | ⟨-, habove⟩
        · exact hsecond (decide_eq_true hbelow)
        · exact hfirst (decide_eq_true habove)

/-- A candidate is at least as near to the magnitude as any number on the grid that rounds to it. If
ties go up, it is the larger one of two that are equally near. -/
theorem candidate?_nearest {tie : Tie} {d : Decimal}
    (h : candidate? tie ordinal exponent = some d) {g : Nat}
    (hg : ofDecimal false ⟨g, exponent⟩ = .finite false ordinal) :
    gridDistance ordinal exponent d.digits ≤ gridDistance ordinal exponent g ∧
      (gridDistance ordinal exponent d.digits = gridDistance ordinal exponent g → tie = .up →
        g ≤ d.digits) := by
  have hdiv := Nat.div_add_mod' (onGrid ordinal exponent) (gridStep exponent)
  have hmod := Nat.mod_lt (onGrid ordinal exponent) (gridStep_pos exponent)
  have hnext : (onGrid ordinal exponent / gridStep exponent + 1) * gridStep exponent
      = onGrid ordinal exponent / gridStep exponent * gridStep exponent + gridStep exponent :=
    Nat.succ_mul _ _
  rcases ofDecimal_neighbour hg with ⟨hside, hread⟩ | ⟨hside, hread⟩
  · have hle := Nat.mul_le_mul_right (gridStep exponent) hside
    rcases candidate?_cases h with ⟨rfl, -⟩ | ⟨rfl, hnear⟩
    · refine ⟨?_, fun _ _ => hside⟩
      simp only [gridDistance]
      omega
    · have hhalf := hnear.resolve_right fun hnot => hnot hread
      refine ⟨?_, fun _ _ => Nat.le_succ_of_le hside⟩
      simp only [gridDistance]
      omega
  · have hle := Nat.mul_le_mul_right (gridStep exponent) hside
    rcases candidate?_cases h with ⟨rfl, hnear⟩ | ⟨rfl, -⟩
    · obtain ⟨hhalf, htie⟩ := hnear.resolve_right fun hnot => hnot hread
      simp only [gridDistance]
      refine ⟨by omega, fun heq hup => absurd ?_ (htie hup)⟩
      omega
    · simp only [gridDistance]
      refine ⟨by omega, fun heq _ => Nat.le_of_mul_le_mul_right ?_ (gridStep_pos exponent)⟩
      omega

/-! ## The search -/

/-- A decimal number that rounds to a magnitude, while nothing on the next coarser grid does. Of the
numbers on its own grid that round to the magnitude it is nearest to it, and the larger one of two
that are equally near if ties go up. -/
structure Fewest (tie : Tie) (ordinal : Fin ordinalBound) (d : Decimal) : Prop where
  reads : ofDecimal false d = .finite false ordinal
  coarsest : ∀ g, ofDecimal false ⟨g, d.exponent + 1⟩ ≠ .finite false ordinal
  nearest : ∀ g, ofDecimal false ⟨g, d.exponent⟩ = .finite false ordinal →
    gridDistance ordinal d.exponent d.digits ≤ gridDistance ordinal d.exponent g ∧
      (gridDistance ordinal d.exponent d.digits = gridDistance ordinal d.exponent g → tie = .up →
        g ≤ d.digits)

/-- What is found first in a range is not found before. -/
theorem exists_of_findSome?_range {α : Type} {f : Nat → Option α} {n : Nat} {a : α}
    (h : (List.range n).findSome? f = some a) :
    ∃ i < n, f i = some a ∧ ∀ j < i, f j = none := by
  induction n with
  | zero => cases h
  | succ n ih =>
    rw [List.range_succ, List.findSome?_append, Option.or_eq_some_iff] at h
    rcases h with hbefore | ⟨hnone, hlast⟩
    · obtain ⟨i, hi, hfound, hfirst⟩ := ih hbefore
      exact ⟨i, Nat.lt_succ_of_lt hi, hfound, hfirst⟩
    · rw [List.findSome?_eq_none_iff] at hnone
      refine ⟨n, Nat.lt_succ_self n, ?_, fun j hj => hnone j (List.mem_range.2 hj)⟩
      simpa using hlast

/-- The number that the search finds is a candidate on its grid. On the next coarser grid there is
none, unless this one is too coarse to be tried. -/
theorem search?_cases {tie : Tie} {d : Decimal} (h : search? tie ordinal = some d) :
    candidate? tie ordinal d.exponent = some d ∧
      (d.exponent = leadingWeight (unitsOf ordinal) one ∨
        candidate? tie ordinal (d.exponent + 1) = none) := by
  obtain ⟨i, -, hfound, hfirst⟩ := exists_of_findSome?_range h
  have hexponent : d.exponent = leadingWeight (unitsOf ordinal) one - i := by
    rcases candidate?_cases hfound with ⟨rfl, -⟩ | ⟨rfl, -⟩ <;> rfl
  rw [hexponent]
  refine ⟨hfound, ?_⟩
  cases i with
  | zero => exact .inl (Int.sub_zero _)
  | succ i =>
    have hcoarser : leadingWeight (unitsOf ordinal) one - (i + 1 : Nat) + 1
        = leadingWeight (unitsOf ordinal) one - i := by omega
    rw [hcoarser]
    exact .inr (hfirst i (Nat.lt_succ_self i))

/-- If a number on a grid that is tried rounds to the magnitude, the search finds one. -/
theorem exists_search? (tie : Tie) {g i : Nat} (hi : i < 17)
    (hg : ofDecimal false ⟨g, leadingWeight (unitsOf ordinal) one - i⟩ = .finite false ordinal) :
    ∃ d, search? tie ordinal = some d := by
  obtain ⟨d, hd⟩ := exists_candidate? tie hg
  rw [← Option.isSome_iff_exists, search?, List.findSome?_isSome_iff]
  exact ⟨i, List.mem_range.2 hi, Option.isSome_iff_exists.2 ⟨d, hd⟩⟩

/-- Nothing on a coarser grid rounds to a magnitude if nothing on the next one does. -/
theorem ofDecimal_ne_of_coarser {e e' : Int} (hle : e ≤ e')
    (h : ∀ g, ofDecimal false ⟨g, e⟩ ≠ .finite false ordinal) (g : Nat) :
    ofDecimal false ⟨g, e'⟩ ≠ .finite false ordinal := by
  have hshift := ofDecimal_shift false g (e' - e).toNat e'
  have hexponent : e' - (e' - e).toNat = e := by omega
  rw [← hshift, hexponent]
  exact h _

/-- If a number on a grid that is tried rounds to a magnitude, and nothing on the grids that are too
coarse to be tried does, the magnitude is written in the fewest digits. -/
theorem fewest_shortest {tie : Tie} {g i : Nat} (hi : i < 17)
    (hg : ofDecimal false ⟨g, leadingWeight (unitsOf ordinal) one - i⟩ = .finite false ordinal)
    (htop : ∀ g, ofDecimal false ⟨g, leadingWeight (unitsOf ordinal) one + 1⟩
      ≠ .finite false ordinal) :
    Fewest tie ordinal (shortest tie ordinal) := by
  obtain ⟨d, hd⟩ := exists_search? tie hi hg
  obtain ⟨hcandidate, hcoarser⟩ := search?_cases hd
  have hreads := ofDecimal_candidate? hcandidate
  have hcoarsest : ∀ g, ofDecimal false ⟨g, d.exponent + 1⟩ ≠ .finite false ordinal := by
    rcases hcoarser with hfirst | hnone
    · rw [hfirst]
      exact htop
    · intro g hg
      obtain ⟨d', hd'⟩ := exists_candidate? tie hg
      rw [hnone] at hd'
      cases hd'
  have hstrip : stripZeros 17 d = d := by
    rw [stripZeros, if_neg]
    rintro ⟨-, hzero⟩
    refine hcoarsest (d.digits / 10) ?_
    rw [ofDecimal_div_ten false hzero]
    exact hreads
  rw [shortest, hd, Option.map_some, Option.getD_some, hstrip]
  exact ⟨hreads, hcoarsest, fun g hg => candidate?_nearest hcandidate hg⟩

end

end MovieCatalog.Binary64
