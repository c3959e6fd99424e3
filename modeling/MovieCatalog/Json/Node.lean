import MovieCatalog.Json.Lexeme
import MovieCatalog.Json.Value

/-!
# Ragged syntax trees

Reading a text never fails here: what is wrong with it is kept in the tree at the place where it is
wrong, and nothing behind that place is kept. A reader of a value walks the tree from left to right
and reports the first fault it meets, so which fault that is depends on what the reader wants and on
which members it passes over.
-/

namespace MovieCatalog.Json

/-- What stands behind the elements of an array. -/
inductive ArrayEnd where
  | closed
  /-- The text ends where a comma or the bracket must stand. -/
  | textEnd
  /-- Something else than a comma or the bracket follows. -/
  | junk
  /-- A comma and the bracket. -/
  | comma
  /-- A comma and the end of the text. -/
  | commaTextEnd
  /-- Nothing is known: the last element is broken. -/
  | cut
deriving DecidableEq

/-- What stands behind the members of an object. -/
inductive ObjectEnd where
  | closed
  /-- The text ends where a comma, the brace or the first key must stand. -/
  | textEnd
  /-- Something else than a comma or the brace follows. -/
  | junk
  /-- A comma and the brace. -/
  | comma
  /-- A comma and the end of the text. -/
  | commaTextEnd
  /-- Something else than a key follows. -/
  | noKey
  /-- A key is not followed by a colon: the text ends there or something else follows. -/
  | noColon (key : StringLexeme) (atEnd : Bool)
  /-- Nothing is known: the last value is broken. -/
  | cut
deriving DecidableEq

/-- A value as it is spelt. -/
inductive Node where
  | null
  | boolean (b : Bool)
  | number (l : NumberLexeme)
  | string (l : StringLexeme)
  | array (items : List Node) (ending : ArrayEnd)
  | object (members : List (StringLexeme × Node)) (ending : ObjectEnd)
  /-- The text ends before the value. -/
  | missing
  /-- What stands here begins no value. -/
  | alien
  /-- A word that begins like `null`, `true` or `false` and goes on otherwise, or breaks off. -/
  | misspelt (atEnd : Bool)

namespace ArrayEnd

/-- The fault that a reader of elements meets behind the last one. -/
def read : ArrayEnd → Except Fault Unit
  | .closed => .ok ()
  | .textEnd | .cut => .error (.ended .sequence)
  | .junk => .error .expectedCommaOrBracket
  | .comma => .error .trailingComma
  | .commaTextEnd => .error (.ended .value)

/-- The fault met when an array is passed over. -/
def skip : ArrayEnd → Except Fault Unit
  | .comma => .error .expectedValue
  | e => e.read

/-- The fault that a reader of a fixed number of elements meets when it has read them all. -/
def close : ArrayEnd → Except Fault Unit
  | .closed => .ok ()
  | .textEnd => .error (.ended .sequence)
  | .comma => .error .trailingComma
  | .junk | .commaTextEnd | .cut => .error .trailingText

end ArrayEnd

/-- The fault at a key without a colon. -/
def colonFault (atEnd : Bool) : Fault :=
  if atEnd then .ended .table else .expectedColon

namespace ObjectEnd

/-- The fault that a reader of members meets behind the last one. -/
def read : ObjectEnd → Except Fault Unit
  | .closed => .ok ()
  | .textEnd | .cut => .error (.ended .table)
  | .junk => .error .expectedCommaOrBrace
  | .comma => .error .trailingComma
  | .commaTextEnd => .error (.ended .value)
  | .noKey => .error .keyNotText
  | .noColon key atEnd => do
    let _ ← key.read
    throw (colonFault atEnd)

/-- The fault met when an object is passed over. -/
def skip : ObjectEnd → Except Fault Unit
  | .comma => .error .keyNotText
  | .commaTextEnd => .error (.ended .table)
  | .noColon key atEnd => do
    key.skip
    throw (colonFault atEnd)
  | e => e.read

end ObjectEnd

namespace Node

/-- The shape of a value, or the fault met in finding it out. -/
def shape : Node → Except Fault Shape
  | .null => .ok .null
  | .boolean b => .ok (.boolean b)
  | .number l => .number <$> l.read
  | .string l => .text <$> l.read
  | .array .. => .ok .sequence
  | .object .. => .ok .table
  | .missing => .error (.ended .value)
  | .alien => .error .expectedValue
  | .misspelt atEnd => .error (if atEnd then .ended .value else .expectedKeyword)

/-- The fault of a value that has another shape than the one wanted. -/
def mismatch {α : Type} (wanted : Wanted) (n : Node) : Except Fault α := do
  throw (.invalidType (← n.shape) wanted)

mutual

/-- Passes over a value, to any depth. Only its grammar counts. -/
def skip : Node → Except Fault Unit
  | .number l => l.skip
  | .string l => l.skip
  | .array items ending => do
    skipItems items
    ending.skip
  | .object members ending => do
    skipMembers members
    ending.skip
  | .missing => .error (.ended .value)
  | .alien => .error .expectedValue
  | .misspelt atEnd => .error (if atEnd then .ended .value else .expectedKeyword)
  | .null | .boolean _ => .ok ()

/-- Passes over the elements of an array. -/
def skipItems : List Node → Except Fault Unit
  | [] => .ok ()
  | v :: rest => do
    v.skip
    skipItems rest

/-- Passes over the members of an object. -/
def skipMembers : List (StringLexeme × Node) → Except Fault Unit
  | [] => .ok ()
  | (k, v) :: rest => do
    k.skip
    v.skip
    skipMembers rest

end

mutual

/-- Reads any value of at most `room` levels. The members of its objects are in ascending order of
their keys, the last one of each key. -/
def value (room : Nat) : Node → Except Fault Json
  | .null => .ok .null
  | .boolean b => .ok (.boolean b)
  | .number l => .number <$> l.read
  | .string l => .string <$> l.read
  | .array items ending =>
    match room with
    | 0 => .error .tooDeep
    | room + 1 => do
      let values ← itemValues room items
      ending.read
      return .array values
  | .object members ending =>
    match room with
    | 0 => .error .tooDeep
    | room + 1 => do
      let values ← memberValues room members
      ending.read
      return .object (sortMembers values)
  | .missing => .error (.ended .value)
  | .alien => .error .expectedValue
  | .misspelt atEnd => .error (if atEnd then .ended .value else .expectedKeyword)

/-- Reads the elements of an array. -/
def itemValues (room : Nat) : List Node → Except Fault (List Json)
  | [] => .ok []
  | v :: rest => do
    let value ← v.value room
    return value :: (← itemValues room rest)

/-- Reads the members of an object. -/
def memberValues (room : Nat) : List (StringLexeme × Node) → Except Fault (List (String × Json))
  | [] => .ok []
  | (k, v) :: rest => do
    let key ← k.read
    let value ← v.value room
    return (key, value) :: (← memberValues room rest)

end

end Node

/-- A text read as a whole: its value, and whether anything but blanks follows it. -/
structure Document where
  root : Node
  more : Bool

end MovieCatalog.Json
