import MovieCatalog.Decimal.Estimate
import MovieCatalog.Json.Fault
import MovieCatalog.Text.Utf8

/-!
# Strings and numbers as they are spelt

A string or a number has two readings. Its meaning is wanted where a value is decoded; where a value
is passed over, only its grammar counts, so that unpaired surrogates, octets that are no UTF-8 and
numbers beyond all range do no harm. A lexeme keeps what both readings need.
-/

namespace MovieCatalog.Json

/-- A unit of a string: a character, written as itself or with a letter escape; one part of the
octets that is no UTF-8; or a number of sixteen bits, written in hexadecimal. -/
inductive StringUnit where
  | char (c : Char)
  | stray
  | code (n : Nat)
deriving DecidableEq

/-- How a string ends: at its closing quote, where the text ends, at a control character, at a
backslash with a letter that means nothing, or at four characters that are no hexadecimal number. -/
inductive StringEnd where
  | closed
  | textEnd
  | control
  | badEscape
  | badCode
deriving DecidableEq

/-- A string as it is spelt. -/
structure StringLexeme where
  units : List StringUnit
  ending : StringEnd
deriving DecidableEq

namespace StringEnd

/-- The fault of a string that ends in a given way. -/
def fault? : StringEnd → Option Fault
  | .closed => none
  | .textEnd => some (.ended .text)
  | .control => some .controlCharacter
  | .badEscape | .badCode => some .invalidEscape

/-- The fault of a string that ends in a given way where the second half of a surrogate pair must
stand. -/
def afterSurrogate : StringEnd → Fault
  | .textEnd => .ended .text
  | .badCode => .invalidEscape
  | .closed | .control | .badEscape => .unfinishedSurrogate

end StringEnd

/-- The first half of a surrogate pair. -/
def isLeading (n : Nat) : Bool := 0xD800 ≤ n ∧ n < 0xDC00

/-- The second half of a surrogate pair. -/
def isTrailing (n : Nat) : Bool := 0xDC00 ≤ n ∧ n < 0xE000

/-- The character of a surrogate pair. -/
def paired (leading trailing : Nat) : Char :=
  Char.ofNat (0x10000 + (leading - 0xD800) * 0x400 + (trailing - 0xDC00))

namespace StringLexeme

/-- The characters of the units, behind those in `done`, the last one first. Numbers of sixteen bits
that are halves of surrogate pairs must stand in pairs. -/
def characters (ending : StringEnd) (done : List Char) : List StringUnit → Except Fault (List Char)
  | [] =>
    match ending.fault? with
    | none => .ok done.reverse
    | some f => .error f
  | .char c :: rest => characters ending (c :: done) rest
  | .stray :: rest => characters ending done rest
  | .code n :: rest =>
    if isTrailing n then .error .loneSurrogate
    else if isLeading n then
      match rest with
      | .code m :: rest =>
        if isTrailing m then characters ending (paired n m :: done) rest else .error .loneSurrogate
      | [] => .error ending.afterSurrogate
      | _ => .error .unfinishedSurrogate
    else characters ending (Char.ofNat n :: done) rest

/-- The text that a string means. Octets that are no UTF-8 are noticed last. -/
def read (l : StringLexeme) : Except Fault String := do
  let cs ← characters l.ending [] l.units
  if StringUnit.stray ∈ l.units then throw .invalidUtf8
  return String.ofList cs

/-- Passes over a string. -/
def skip (l : StringLexeme) : Except Fault Unit :=
  match l.ending.fault? with
  | none => .ok ()
  | some f => .error f

end StringLexeme

/-- A number as it is spelt, or the place where it breaks off: at the end of the text or at
something else. `whole` numbers have neither a point nor a power of ten. -/
inductive NumberLexeme where
  | whole (negative : Bool) (digits : List Char)
  | scaled (literal : Decimal.Literal)
  | broken (atEnd : Bool)
deriving DecidableEq

namespace NumberLexeme

/-- The floating-point number that a literal is taken for, which may be a neighbour of the nearest
one; some literals near to the greatest number are refused. -/
def readFloat (l : Decimal.Literal) : Except Fault Number :=
  match Number.ofBinary64? l.estimate with
  | some n => .ok n
  | none => .error .numberOutOfRange

/-- The number that is meant. A whole number is an integer if it is held exactly, except that minus
zero is a floating-point number. -/
def read : NumberLexeme → Except Fault Number
  | .whole negative digits =>
    let n := Nat.ofDigitChars 10 digits 0
    let integer? : Option Number :=
      if negative then (if n = 0 then none else Number.ofInt? (-n)) else Number.ofInt? n
    match integer? with
    | some n => .ok n
    | none => readFloat ⟨negative, digits, [], 0⟩
  | .scaled l => readFloat l
  | .broken atEnd => .error (if atEnd then .ended .value else .invalidNumber)

/-- Passes over a number. -/
def skip : NumberLexeme → Except Fault Unit
  | .broken _ => .error .invalidNumber
  | _ => .ok ()

end NumberLexeme

end MovieCatalog.Json
