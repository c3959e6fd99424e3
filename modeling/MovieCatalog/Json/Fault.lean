import MovieCatalog.Json.Number
import MovieCatalog.Text.Quoted

/-!
# Faults in JSON texts

What can be wrong with a text that is read as a value of some kind: the text is no JSON, it ends too
early, or it is JSON of another shape than the one wanted. Every fault has one message.
-/

namespace MovieCatalog.Json

/-- The shape of a value, as far as a message shows it. -/
inductive Shape where
  | null
  | boolean (b : Bool)
  | number (n : Number)
  | text (s : String)
  | sequence
  | table
  | bareVariant
deriving DecidableEq

/-- What a reader wants. -/
inductive Wanted where
  | text
  | natural64
  | integer64
  | natural32
  | double
  | sequence
  | table
  | null
  | record (name : String)
  | envelope (name : String)
  | variantContent
deriving DecidableEq

/-- What a reader of a fixed number of elements wants. -/
inductive WantedLength where
  | record (name : String) (count : Nat)
  | envelope (name : String)
  | elements (count : Nat)
deriving DecidableEq

/-- The part of a text in which it ended. -/
inductive Part where
  | value
  | sequence
  | table
  | text
deriving DecidableEq

/-- A fault. -/
inductive Fault where
  | invalidType (found : Shape) (wanted : Wanted)
  | invalidInteger (found : Int) (wanted : Wanted)
  | invalidLength (found : Nat) (wanted : WantedLength)
  | missingField (name : String)
  | duplicateField (name : String)
  | unknownVariant (name : String) (known : List String)
  | unmatchedValue (kind : String)
  | fieldCount (clause : String) (found : Nat)
  | noBounds (field : String)
  | expectedValue
  | expectedKeyword
  | expectedColon
  | expectedCommaOrBracket
  | expectedCommaOrBrace
  | trailingComma
  | trailingText
  | keyNotText
  | invalidNumber
  | numberOutOfRange
  | invalidEscape
  | unfinishedSurrogate
  | loneSurrogate
  | invalidUtf8
  | controlCharacter
  | tooDeep
  | ended (part : Part)
deriving DecidableEq

/-- The three kinds of faults. -/
inductive Category where
  /-- The value has another shape than the one wanted. -/
  | data
  /-- The text is no JSON. -/
  | syntactic
  /-- The text ended too early. -/
  | ended
deriving DecidableEq

/-- A shape in a message. -/
def Shape.describe : Shape → String
  | .null => "null"
  | .boolean b => "boolean `" ++ (if b then "true" else "false") ++ "`"
  | .number (.integer n _) => "integer `" ++ String.ofList (Numeral.ofInt n) ++ "`"
  | .number (.float x _) => "floating point `" ++ String.ofList (Number.floatText x) ++ "`"
  | .text s => "string " ++ Text.quoted s
  | .sequence => "sequence"
  | .table => "map"
  | .bareVariant => "unit variant"

/-- A wish in a message. -/
def Wanted.describe : Wanted → String
  | .text => "a string"
  | .natural64 => "u64"
  | .integer64 => "i64"
  | .natural32 => "u32"
  | .double => "f64"
  | .sequence => "a sequence"
  | .table => "a map"
  | .null => "unit"
  | .record name => "struct " ++ name
  | .envelope name => "adjacently tagged enum " ++ name
  | .variantContent => "newtype variant"

/-- A count in a message, with a plural where one is due. -/
def countOfElements (n : Nat) : String :=
  if n = 1 then "1 element" else String.ofList (Numeral.ofNat n) ++ " elements"

/-- A wish for a number of elements in a message. -/
def WantedLength.describe : WantedLength → String
  | .record name count => "struct " ++ name ++ " with " ++ countOfElements count
  | .envelope name => (Wanted.envelope name).describe
  | .elements count => countOfElements count ++ " in sequence"

/-- A part of a text in a message. -/
def Part.describe : Part → String
  | .value => "a value"
  | .sequence => "a list"
  | .table => "an object"
  | .text => "a string"

/-- The names of an enumeration in a message: two are joined by `or`, more are listed. -/
def knownNames (names : List String) : String :=
  let quoted := names.map fun name => "`" ++ name ++ "`"
  match quoted with
  | [a] => a
  | [a, b] => a ++ " or " ++ b
  | _ => "one of " ++ String.intercalate ", " quoted

namespace Fault

/-- The message of a fault. -/
def message : Fault → String
  | invalidType found wanted =>
    "invalid type: " ++ found.describe ++ ", expected " ++ wanted.describe
  | invalidInteger found wanted =>
    "invalid value: integer `" ++ String.ofList (Numeral.ofInt found) ++ "`, expected "
      ++ wanted.describe
  | invalidLength found wanted =>
    "invalid length " ++ String.ofList (Numeral.ofNat found) ++ ", expected " ++ wanted.describe
  | missingField name => "missing field `" ++ name ++ "`"
  | duplicateField name => "duplicate field `" ++ name ++ "`"
  | unknownVariant name known => "unknown variant `" ++ name ++ "`, expected " ++ knownNames known
  | unmatchedValue kind => "data did not match any variant of untagged enum " ++ kind
  | fieldCount clause found =>
    clause ++ " clause must name exactly one field, got " ++ String.ofList (Numeral.ofNat found)
  | noBounds field => "range on '" ++ field ++ "' has no bounds"
  | expectedValue => "expected value"
  | expectedKeyword => "expected ident"
  | expectedColon => "expected `:`"
  | expectedCommaOrBracket => "expected `,` or `]`"
  | expectedCommaOrBrace => "expected `,` or `\x7d`"
  | trailingComma => "trailing comma"
  | trailingText => "trailing characters"
  | keyNotText => "key must be a string"
  | invalidNumber => "invalid number"
  | numberOutOfRange => "number out of range"
  | invalidEscape => "invalid escape"
  | unfinishedSurrogate => "unexpected end of hex escape"
  | loneSurrogate => "lone leading surrogate in hex escape"
  | invalidUtf8 => "invalid unicode code point"
  | controlCharacter => "control character (\\u0000-\\u001F) found while parsing a string"
  | tooDeep => "recursion limit exceeded"
  | ended part => "EOF while parsing " ++ part.describe

/-- The category of a fault. -/
def category : Fault → Category
  | invalidType .. | invalidInteger .. | invalidLength .. | missingField _ | duplicateField _
  | unknownVariant .. | unmatchedValue _ | fieldCount .. | noBounds _ => .data
  | ended _ => .ended
  | _ => .syntactic

end Fault

end MovieCatalog.Json
