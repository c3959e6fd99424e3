import MovieCatalog.Text.Percent
import MovieCatalog.Text.Cut

/-!
# Forms in a query string

A form is a list of names with values. In its written form the pairs are joined by ampersands and
name and value by an equals sign; a plus sign stands for a space and a percent sign begins an octet.
Reading accepts every text: empty parts are passed over, a part without an equals sign is a name
with an empty value, and octets that are no UTF-8 are replaced.
-/

namespace MovieCatalog.Form

/-- A form: its pairs of name and value, in order. -/
abbrev Pairs := List (String × String)

namespace Urlencoded

/-- The octet between pairs. -/
def ampersand : UInt8 := 0x26

/-- The octet between a name and its value. -/
def equalsSign : UInt8 := 0x3D

/-- The octet that stands for a space. -/
def plusSign : UInt8 := 0x2B

/-- The octet of a space. -/
def space : UInt8 := 0x20

/-- Reads a name or a value. -/
def decodeText (octets : List UInt8) : String :=
  let spaced := octets.map fun b => if b = plusSign then space else b
  String.ofList (Text.Utf8.lossy (Text.Percent.decode spaced))

/-- Reads a pair. -/
def decodePair (octets : List UInt8) : String × String :=
  let (name, value) := Text.cutAt equalsSign octets
  (decodeText name, decodeText (value.getD []))

/-- The pairs in a sequence of octets. -/
def decodeOctets (octets : List UInt8) : Pairs :=
  ((octets.splitOn ampersand).filter (!·.isEmpty)).map decodePair

/-- The pairs in a query string. -/
def decode (query : String) : Pairs :=
  decodeOctets (Text.Utf8.encode query.toList)

/-- Octets written as themselves: ASCII letters and digits, and four marks. -/
def isPlain (b : UInt8) : Bool :=
  (0x30 ≤ b ∧ b ≤ 0x39) ∨ (0x41 ≤ b ∧ b ≤ 0x5A) ∨ (0x61 ≤ b ∧ b ≤ 0x7A) ∨
    b = 0x2A ∨ b = 0x2D ∨ b = 0x2E ∨ b = 0x5F

/-- The written form of an octet. -/
def encodeOctet (b : UInt8) : List UInt8 :=
  if isPlain b then [b] else if b = space then [plusSign] else Text.Percent.escaped b

/-- The written form of a name or a value. -/
def encodeText (s : String) : List UInt8 :=
  (Text.Utf8.encode s.toList).flatMap encodeOctet

/-- The written form of a pair. -/
def encodePair (pair : String × String) : List UInt8 :=
  encodeText pair.1 ++ equalsSign :: encodeText pair.2

/-- The query string of a form. It holds ASCII characters only. -/
def encode (form : Pairs) : String :=
  String.ofList (Text.Percent.ascii ([ampersand].intercalate (form.map encodePair)))

end Urlencoded

end MovieCatalog.Form
