import MovieCatalog.Binary64.Basic

/-!
# Bounds on a number

A number may be bounded from below, from above, on both sides or not at all. Both bounds belong to
the admitted numbers. A bound that is infinite or not a number bounds nothing.
-/

namespace MovieCatalog

/-- A lower and an upper bound, each of which may be absent. -/
structure Bounds where
  least : Option Binary64
  greatest : Option Binary64
deriving DecidableEq, Inhabited

namespace Bounds

/-- No bounds. -/
def unbounded : Bounds := ⟨none, none⟩

/-- The bounds without those that are not finite. -/
def finite (b : Bounds) : Bounds :=
  ⟨b.least.filter (·.isFinite), b.greatest.filter (·.isFinite)⟩

/-- The bounds that are finite, if there are any. -/
def usable? (b : Bounds) : Option Bounds :=
  let b := b.finite
  if b.least.isNone ∧ b.greatest.isNone then none else some b

/-- Equality of bounds as numbers. -/
def equal (a b : Bounds) : Bool :=
  sameBound a.least b.least && sameBound a.greatest b.greatest
where
  /-- Equality of two bounds that may be absent. -/
  sameBound : Option Binary64 → Option Binary64 → Bool
    | some x, some y => x.equal y
    | none, none => true
    | _, _ => false

/-- A number lies between the bounds, which are finite if they are given. -/
def admits (b : Bounds) (x : Binary64) : Bool :=
  b.least.all (·.atMost x) && b.greatest.all x.atMost

end Bounds

end MovieCatalog
