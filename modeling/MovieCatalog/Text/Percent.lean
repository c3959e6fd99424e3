import MovieCatalog.Text.Utf8

/-!
# Octets behind percent signs

An octet may be written as a percent sign and two hexadecimal digits. Reading accepts digits of
either case and leaves a percent sign that no such digits follow as it stands; writing uses
upper-case digits, so each octet has one written form.
-/

namespace MovieCatalog.Text.Percent

/-- The octet of the percent sign. -/
def sign : UInt8 := 0x25

/-- The value of a hexadecimal digit. -/
def digit? (b : UInt8) : Option UInt8 :=
  if 0x30 ≤ b ∧ b ≤ 0x39 then some (b - 0x30)
  else if 0x41 ≤ b ∧ b ≤ 0x46 then some (b - 0x37)
  else if 0x61 ≤ b ∧ b ≤ 0x66 then some (b - 0x57)
  else none

/-- The upper-case digit with a given value below sixteen. -/
def digit (n : UInt8) : UInt8 :=
  if n < 10 then 0x30 + n else 0x37 + n

/-- The value of two hexadecimal digits. -/
def pair? (h l : UInt8) : Option UInt8 := do
  return 16 * (← digit? h) + (← digit? l)

/-- Reads octets behind percent signs, and all others as they stand. -/
def decode : List UInt8 → List UInt8
  | [] => []
  | [b] => [b]
  | [b, c] => [b, c]
  | b :: h :: l :: rest =>
    match if b = sign then pair? h l else none with
    | some n => n :: decode rest
    | none => b :: decode (h :: l :: rest)

/-- An octet behind a percent sign. -/
def escaped (b : UInt8) : List UInt8 :=
  [sign, digit (b / 16), digit (b % 16)]

/-- Octets as the ASCII characters they stand for. -/
def ascii (octets : List UInt8) : List Char :=
  octets.map fun b => Char.ofNat b.toNat

/-- The text with the octets of all reserved characters, and of all characters outside ASCII, behind
percent signs. -/
def encode (reserved : Char → Bool) (s : List Char) : List Char :=
  s.flatMap fun c =>
    if c.toNat < 0x80 && !reserved c then [c]
    else ascii ((String.utf8EncodeChar c).flatMap escaped)

end MovieCatalog.Text.Percent
