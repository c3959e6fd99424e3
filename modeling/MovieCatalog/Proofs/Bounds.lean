import MovieCatalog.Request.Basic

/-!
# Bounds that bound something

Bounds are sound when at least one is given and no given one is infinite or not a number. Making
bounds usable yields exactly the sound ones (`Bounds.sound_iff_usable?`), and whether it yields any
is what the emptiness check of a request asks of the two bounds one by one
(`Bounds.usable?_eq_none_iff`).
-/

namespace MovieCatalog

namespace Binary64

/-- A finite number equals itself. -/
theorem equal_self {x : Binary64} (hx : x.isFinite = true) : x.equal x = true := by
  cases x with
  | finite s k => simp [equal]
  | infinite s => cases hx
  | nan => cases hx

/-- A finite number is not above itself. -/
theorem atMost_self {x : Binary64} (hx : x.isFinite = true) : x.atMost x = true := by
  cases x with
  | finite s k => simp [atMost, units?]
  | infinite s => cases hx
  | nan => cases hx

/-- Two numbers are ordered like their units. -/
theorem atMost_eq_true_iff {x y : Binary64} :
    x.atMost y = true ↔ ∃ m n, x.units? = some m ∧ y.units? = some n ∧ m ≤ n := by
  unfold atMost
  split
  · next m n hm hn => simp [hm, hn]
  · next h =>
    refine ⟨fun hf => absurd hf Bool.false_ne_true, ?_⟩
    rintro ⟨m, n, hm, hn, -⟩
    exact (h m n hm hn).elim

/-- The order of finite numbers is transitive; a number that is not finite meets neither premise. -/
theorem atMost_trans {x y z : Binary64} (hxy : x.atMost y = true) (hyz : y.atMost z = true) :
    x.atMost z = true := by
  obtain ⟨l, m, hl, hm, hlm⟩ := atMost_eq_true_iff.1 hxy
  obtain ⟨m', n, hm', hn, hmn⟩ := atMost_eq_true_iff.1 hyz
  obtain rfl : m = m' := Option.some.inj (hm.symm.trans hm')
  exact atMost_eq_true_iff.2 ⟨l, n, hl, hn, Int.le_trans hlm hmn⟩

end Binary64

namespace Bounds

/-- One bound is given, and the bounds that are given are finite. -/
structure Sound (b : Bounds) : Prop where
  given : b.least.isSome ∨ b.greatest.isSome
  least_finite : ∀ x, b.least = some x → x.isFinite = true
  greatest_finite : ∀ x, b.greatest = some x → x.isFinite = true

/-- A bound is given unless both are missing, which is what the writer and the reader ask for. -/
theorem given_iff {b : Bounds} :
    (b.least.isSome ∨ b.greatest.isSome) ↔ ¬ (b.least.isNone ∧ b.greatest.isNone) := by
  cases b.least <;> cases b.greatest <;> simp

/-- What is left of a bound is the bound, if it is finite. -/
theorem filter_isFinite_eq_some_iff {bound : Option Binary64} {x : Binary64} :
    bound.filter (·.isFinite) = some x ↔ bound = some x ∧ x.isFinite = true := by
  simp [Option.filter_eq_some_iff]

/-- Something is left of a bound when it is finite. -/
theorem isSome_filter_isFinite {bound : Option Binary64} :
    (bound.filter (·.isFinite)).isSome = Request.isBound bound := by
  cases bound with
  | none => rfl
  | some x => cases hx : x.isFinite <;> simp [Request.isBound, hx]

/-- A given bound that is finite counts as a bound. -/
theorem isBound_of_isSome {bound : Option Binary64}
    (hfinite : ∀ x, bound = some x → x.isFinite = true) (h : bound.isSome) :
    Request.isBound bound = true := by
  obtain ⟨x, rfl⟩ := Option.isSome_iff_exists.1 h
  exact hfinite x rfl

/-- Usable bounds are the finite ones of those given, and there are some. -/
theorem usable?_eq_some_iff {b c : Bounds} :
    b.usable? = some c ↔
      (Request.isBound b.least = true ∨ Request.isBound b.greatest = true) ∧ c = b.finite := by
  rw [← isSome_filter_isFinite, ← isSome_filter_isFinite]
  unfold usable? finite
  cases b.least.filter (·.isFinite) <;> cases b.greatest.filter (·.isFinite) <;> simp [eq_comm]

/-- Bounds are of no use when neither is finite. -/
theorem usable?_eq_none_iff {b : Bounds} :
    b.usable? = none ↔ Request.isBound b.least = false ∧ Request.isBound b.greatest = false := by
  rw [← isSome_filter_isFinite, ← isSome_filter_isFinite]
  unfold usable? finite
  cases b.least.filter (·.isFinite) <;> cases b.greatest.filter (·.isFinite) <;> simp

/-- Finite bounds are kept. -/
theorem Sound.finite_eq {b : Bounds} (h : b.Sound) : b.finite = b := by
  obtain ⟨least, greatest⟩ := b
  have hl := h.least_finite
  have hg := h.greatest_finite
  cases least <;> cases greatest <;> simp_all [finite]

/-- The sound bounds are those that making bounds usable yields. -/
theorem sound_iff_usable? {c : Bounds} : c.Sound ↔ ∃ b : Bounds, b.usable? = some c := by
  constructor
  · intro h
    refine ⟨c, usable?_eq_some_iff.2 ⟨?_, h.finite_eq.symm⟩⟩
    exact h.given.imp (isBound_of_isSome h.least_finite) (isBound_of_isSome h.greatest_finite)
  · rintro ⟨b, hb⟩
    obtain ⟨hgiven, rfl⟩ := usable?_eq_some_iff.1 hb
    rw [← isSome_filter_isFinite, ← isSome_filter_isFinite] at hgiven
    exact ⟨hgiven, fun x hx => (filter_isFinite_eq_some_iff.1 hx).2,
      fun x hx => (filter_isFinite_eq_some_iff.1 hx).2⟩

/-- A bound that is absent or finite equals itself. -/
theorem equal_sameBound_self {bound : Option Binary64}
    (hfinite : ∀ x, bound = some x → x.isFinite = true) : equal.sameBound bound bound = true := by
  cases bound with
  | none => rfl
  | some x => exact Binary64.equal_self (hfinite x rfl)

/-- Sound bounds equal themselves, since none of them is not a number. -/
theorem Sound.equal_self {b : Bounds} (h : b.Sound) : b.equal b = true := by
  simp [equal, equal_sameBound_self h.least_finite, equal_sameBound_self h.greatest_finite]

/-! ## What bounds admit -/

/-- The finite ones of two bounds admit a number that each of them admits. -/
theorem admits_finite_iff {b : Bounds} {x : Binary64} :
    b.finite.admits x = true ↔
      (∀ low, b.least = some low → low.isFinite = true → low.atMost x = true) ∧
        ∀ high, b.greatest = some high → high.isFinite = true → x.atMost high = true := by
  simp only [admits, finite, Bool.and_eq_true, Option.all_eq_true, filter_isFinite_eq_some_iff,
    and_imp]

/-- Two finite bounds exclude each other: the lower one is above the upper one. -/
def Crossed (b : Bounds) : Prop :=
  ∃ low high, b.least = some low ∧ b.greatest = some high ∧ low.isFinite = true ∧
    high.isFinite = true ∧ low.atMost high = false

/-- Crossed bounds admit no number. -/
theorem Crossed.admits_eq_false {b : Bounds} (h : b.Crossed) (x : Binary64) :
    b.finite.admits x = false := by
  obtain ⟨low, high, hl, hg, hlow, hhigh, hcross⟩ := h
  rw [← Bool.not_eq_true, admits_finite_iff]
  rintro ⟨hleast, hgreatest⟩
  have hle := Binary64.atMost_trans (hleast low hl hlow) (hgreatest high hg hhigh)
  rw [hcross] at hle
  cases hle

/-- Bounds that are not crossed admit a number: a bound itself, if there is a finite one. -/
theorem exists_admits_of_not_crossed {b : Bounds} (h : ¬ b.Crossed) :
    ∃ x, b.finite.admits x = true := by
  cases hl : b.least.filter (·.isFinite) with
  | some low =>
    obtain ⟨hleast, hlow⟩ := filter_isFinite_eq_some_iff.1 hl
    refine ⟨low, admits_finite_iff.2 ⟨fun low' h' _ => ?_, fun high hgreatest hhigh => ?_⟩⟩
    · obtain rfl : low = low' := Option.some.inj (hleast.symm.trans h')
      exact Binary64.atMost_self hlow
    · rw [← Bool.not_eq_false]
      exact fun hcross => h ⟨low, high, hleast, hgreatest, hlow, hhigh, hcross⟩
  | none =>
    cases hg : b.greatest.filter (·.isFinite) with
    | some high =>
      obtain ⟨hgreatest, hhigh⟩ := filter_isFinite_eq_some_iff.1 hg
      exact ⟨high, by simp [finite, admits, hl, hg, Binary64.atMost_self hhigh]⟩
    | none => exact ⟨.zero, by simp [finite, admits, hl, hg]⟩

end Bounds

end MovieCatalog
