import MovieCatalog.Binary64.Layout

/-!
# Numbers in JSON

A number is an integer of 64 bits, signed or unsigned, held exactly, or a finite floating-point
value. The text of an integer is its decimal numeral; a floating-point value always shows a point or
a power of ten, so that the two kinds stay apart when the text is read again.
-/

namespace MovieCatalog.Json

/-- The least integer that is held exactly. -/
def leastInteger : Int := -Word.half64

/-- The bound below which integers are held exactly. -/
def integerBound : Int := Word.size64

/-- A number. -/
inductive Number where
  | integer (n : Int) (held : leastInteger ≤ n ∧ n < integerBound)
  | float (x : Binary64) (finite : x.isFinite = true)
deriving DecidableEq

namespace Number

/-- The number for an integer, if it is held exactly. -/
def ofInt? (n : Int) : Option Number :=
  if h : leastInteger ≤ n ∧ n < integerBound then some (.integer n h) else none

/-- The number for a floating-point value, if it is finite. -/
def ofBinary64? (x : Binary64) : Option Number :=
  if h : x.isFinite = true then some (.float x h) else none

/-- The number for an unsigned integer. -/
def ofUInt64 (n : UInt64) : Number :=
  .integer n.toNat (by
    have := n.toNat_lt
    simp only [leastInteger, integerBound, Word.half64, Word.size64]
    omega)

/-- The number for a signed integer. -/
def ofInt64 (n : Int64) : Number :=
  .integer n.toInt (by
    have := n.le_toInt
    have := n.toInt_lt
    simp only [leastInteger, integerBound, Word.half64, Word.size64]
    omega)

/-- The number as a floating-point value: the nearest one to an integer. -/
def toBinary64 : Number → Binary64
  | .integer n _ => .ofInt n
  | .float x _ => x

/-- Floating-point values are written without a power of ten when the first digit weighs at least
`10^-5` and at most `10^15`, and then with a point always. -/
def floatLayout : Binary64.Layout where
  plain weight := -5 ≤ weight ∧ weight ≤ 15
  pointZero := true
  tie := .even

/-- The text of a floating-point value. -/
def floatText : Binary64 → List Char
  | .finite negative ordinal => floatLayout.text negative ordinal
  | .infinite _ | .nan => "null".toList

/-- The text of a number. -/
def text : Number → List Char
  | .integer n _ => Numeral.ofInt n
  | .float x _ => floatText x

end Number

end MovieCatalog.Json
