import MovieCatalog.Power

/-!
# Binary floating point of 64 bits

The finite magnitudes of the format are whole multiples of `2^-1074`, its unit. In ascending order
they are numbered from zero; the number is the magnitude's ordinal. Up to ordinal `2^53` the
multiples are the ordinals themselves; from there on the step between neighbours doubles every
`2^52` ordinals. A value is a sign and an ordinal, an infinity, or not a number.
-/

namespace MovieCatalog

/-- The number of magnitudes with the same step between neighbours, `2^52`. -/
def binade : Nat := 0x10000000000000

/-- The number of finite magnitudes. -/
def ordinalBound : Nat := 2047 * binade

theorem ordinalBound_pos : 0 < ordinalBound := by decide

/-- A value of the format. There are two zeros. -/
inductive Binary64 where
  | finite (negative : Bool) (ordinal : Fin ordinalBound)
  | infinite (negative : Bool)
  | nan
deriving DecidableEq

namespace Binary64

/-- The multiple of the unit that the magnitude with a given ordinal is. -/
def unitsOf (ordinal : Nat) : Nat :=
  if ordinal < binade then ordinal
  else (binade + ordinal % binade) * twoTo (ordinal / binade - 1)

/-- One, in units. -/
def one : Nat := twoTo 1074

/-- The zero with a given sign. -/
def signedZero (negative : Bool) : Binary64 := .finite negative ⟨0, ordinalBound_pos⟩

/-- The zero without a sign. -/
def zero : Binary64 := signedZero false

instance : Inhabited Binary64 := ⟨zero⟩

/-- Neither an infinity nor not a number. -/
def isFinite : Binary64 → Bool
  | .finite .. => true
  | _ => false

/-- A finite value, in units and with its sign; nothing for other values. -/
def units? : Binary64 → Option Int
  | .finite negative ordinal =>
    let n : Int := unitsOf ordinal
    some (if negative then -n else n)
  | _ => none

/-- The integer that a finite value is, if it is one. -/
def integer? (x : Binary64) : Option Int :=
  match x.units? with
  | some n => if n.natAbs % one = 0 then some (n / one) else none
  | none => none

/-- Equality of numbers: the zeros are equal, and what is not a number equals nothing. -/
def equal : Binary64 → Binary64 → Bool
  | .nan, _ => false
  | _, .nan => false
  | .infinite s, .infinite t => s = t
  | .finite s k, .finite t l => k = l ∧ (s = t ∨ k.val = 0)
  | _, _ => false

/-- The order of finite numbers; what is not finite is below nothing and above nothing. -/
def atMost (x y : Binary64) : Bool :=
  match x.units?, y.units? with
  | some m, some n => m ≤ n
  | _, _ => false

end Binary64

end MovieCatalog
