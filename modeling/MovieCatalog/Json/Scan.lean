import MovieCatalog.Json.Node

/-!
# From text to syntax tree

The scanner reads a value from the front of a text and returns what follows it, or nothing if the
value is broken, in which case the arrays and objects around it are cut there. Every step takes one
unit of fuel; two for every piece of the text, and two more, are enough, since of two steps in a row
one takes a piece away.
-/

namespace MovieCatalog.Json

open Text (Piece)

/-- Text that has still to be read. -/
abbrev Rest := List Piece

namespace Scan

/-- The blanks of JSON: space, tab, line feed and carriage return. -/
def isBlank : Piece → Bool
  | .scalar c => c = ' ' ∨ c = '\t' ∨ c = '\n' ∨ c = '\r'
  | .stray _ => false

/-- The text without the blanks at its front. -/
def skipBlanks (text : Rest) : Rest := text.dropWhile isBlank

/-- The character of a piece that is a decimal digit. -/
def digit? : Piece → Option Char
  | .scalar c => if c.isDigit then some c else none
  | .stray _ => none

/-- The digits at the front of a text, and what follows them. -/
def digits (text : Rest) : List Char × Rest :=
  ((text.takeWhile fun p => (digit? p).isSome).filterMap digit?,
    text.dropWhile fun p => (digit? p).isSome)

/-- The value of a hexadecimal digit. -/
def hexDigit? : Piece → Option Nat
  | .scalar c => Text.hexDigit? c
  | .stray _ => none

/-- The number that four hexadecimal digits write. -/
def hexCode? (a b c d : Piece) : Option Nat := do
  let a ← hexDigit? a
  let b ← hexDigit? b
  let c ← hexDigit? c
  let d ← hexDigit? d
  return ((a * 16 + b) * 16 + c) * 16 + d

/-- The character that a letter behind a backslash means. -/
def unescape? : Char → Option Char
  | '"' => some '"'
  | '\\' => some '\\'
  | '/' => some '/'
  | 'b' => some '\x08'
  | 'f' => some '\x0c'
  | 'n' => some '\n'
  | 'r' => some '\r'
  | 't' => some '\t'
  | _ => none

/-- Fewer than four octets of text are left. -/
def isShort (text : Rest) : Bool :=
  (text.take 4).foldl (fun n p => n + p.size) 0 < 4

/-- A string behind its opening quote, after the units in `done`, the last one first. -/
def string (done : List StringUnit) : Rest → StringLexeme × Rest
  | [] => (⟨done.reverse, .textEnd⟩, [])
  | .stray _ :: rest => string (.stray :: done) rest
  | .scalar '"' :: rest => (⟨done.reverse, .closed⟩, rest)
  | .scalar '\\' :: .scalar 'u' :: a :: b :: c :: d :: rest =>
    match hexCode? a b c d with
    | some n => string (.code n :: done) rest
    | none => (⟨done.reverse, .badCode⟩, rest)
  | .scalar '\\' :: .scalar 'u' :: rest =>
    (⟨done.reverse, if isShort rest then .textEnd else .badCode⟩, rest)
  | .scalar '\\' :: .scalar c :: rest =>
    match unescape? c with
    | some c => string (.char c :: done) rest
    | none => (⟨done.reverse, .badEscape⟩, rest)
  | .scalar '\\' :: .stray _ :: rest => (⟨done.reverse, .badEscape⟩, rest)
  | .scalar '\\' :: [] => (⟨done.reverse, .textEnd⟩, [])
  | .scalar c :: rest =>
    if c.toNat < 0x20 then (⟨done.reverse, .control⟩, rest) else string (.char c :: done) rest

/-- The power of ten at the front of a text, if there is one; nothing if it breaks off, and then
whether it breaks off at the end of the text. -/
def power (text : Rest) : Except Bool (Option Int) × Rest :=
  match text with
  | .scalar c :: rest =>
    if c = 'e' ∨ c = 'E' then
      let (negative, rest) : Bool × Rest :=
        match rest with
        | .scalar '-' :: rest => (true, rest)
        | .scalar '+' :: rest => (false, rest)
        | rest => (false, rest)
      let (ds, rest) := digits rest
      if ds.isEmpty then (.error rest.isEmpty, rest)
      else
        let n : Int := Nat.ofDigitChars 10 ds 0
        (.ok (some (if negative then -n else n)), rest)
    else (.ok none, text)
  | _ => (.ok none, text)

/-- A number behind its digits: the power of ten, if there is one. -/
def scaled (negative : Bool) (whole fraction : List Char) (text : Rest) : NumberLexeme × Rest :=
  match power text with
  | (.error atEnd, rest) => (.broken atEnd, rest)
  | (.ok (some p), rest) => (.scaled ⟨negative, whole, fraction, p⟩, rest)
  | (.ok none, rest) =>
    (if fraction.isEmpty then .whole negative whole else .scaled ⟨negative, whole, fraction, 0⟩,
      rest)

/-- A number behind its whole part. A point has a digit behind it. -/
def afterWhole (negative : Bool) (whole : List Char) (text : Rest) : NumberLexeme × Rest :=
  match text with
  | .scalar '.' :: rest =>
    let (fraction, rest) := digits rest
    if fraction.isEmpty then (.broken rest.isEmpty, rest) else scaled negative whole fraction rest
  | rest => scaled negative whole [] rest

/-- A number behind its sign. The whole part has no leading zeros. -/
def number (negative : Bool) (text : Rest) : NumberLexeme × Rest :=
  let (whole, rest) := digits text
  match whole with
  | [] => (.broken rest.isEmpty, rest)
  | '0' :: _ :: _ => (.broken false, rest)
  | _ => afterWhole negative whole rest

/-- A word of which the first letter has been read. -/
def word (node : Node) : List Char → Rest → Node × Option Rest
  | [], rest => (node, some rest)
  | _ :: _, [] => (.misspelt true, none)
  | c :: cs, p :: rest => if p = .scalar c then word node cs rest else (.misspelt false, none)

/-- A number as a value, with what follows it unless it is broken. -/
def numberValue (l : NumberLexeme × Rest) : Node × Option Rest :=
  match l with
  | (.broken atEnd, _) => (.number (.broken atEnd), none)
  | (l, rest) => (.number l, some rest)

/-- A string as a value, with what follows it unless it is broken. -/
def stringValue (l : StringLexeme × Rest) : Node × Option Rest :=
  (.string l.1, if l.1.ending = .closed then some l.2 else none)

mutual

/-- A value at the front of a text. -/
def value : Nat → Rest → Node × Option Rest
  | 0, _ => (.missing, none)
  | fuel + 1, text =>
    match skipBlanks text with
    | [] => (.missing, none)
    | .scalar '"' :: rest => stringValue (string [] rest)
    | .scalar '[' :: rest =>
      match skipBlanks rest with
      | [] => (.array [] .textEnd, none)
      | .scalar ']' :: rest => (.array [] .closed, some rest)
      | rest =>
        let (vs, ending, after) := items fuel rest
        (.array vs ending, after)
    | .scalar '\x7b' :: rest =>
      match skipBlanks rest with
      | [] => (.object [] .textEnd, none)
      | .scalar '\x7d' :: rest => (.object [] .closed, some rest)
      | rest =>
        let (ms, ending, after) := members fuel rest
        (.object ms ending, after)
    | .scalar 'n' :: rest => word .null "ull".toList rest
    | .scalar 't' :: rest => word (.boolean true) "rue".toList rest
    | .scalar 'f' :: rest => word (.boolean false) "alse".toList rest
    | .scalar '-' :: rest => numberValue (number true rest)
    | p :: rest =>
      if (digit? p).isSome then numberValue (number false (p :: rest)) else (.alien, none)

/-- The elements of an array from one of them on, which a text begins with. -/
def items : Nat → Rest → List Node × ArrayEnd × Option Rest
  | 0, _ => ([], .cut, none)
  | fuel + 1, text =>
    match value fuel text with
    | (v, none) => ([v], .cut, none)
    | (v, some rest) =>
      match skipBlanks rest with
      | [] => ([v], .textEnd, none)
      | .scalar ']' :: rest => ([v], .closed, some rest)
      | .scalar ',' :: rest =>
        match skipBlanks rest with
        | [] => ([v], .commaTextEnd, none)
        | .scalar ']' :: _ => ([v], .comma, none)
        | rest =>
          let (vs, ending, after) := items fuel rest
          (v :: vs, ending, after)
      | _ => ([v], .junk, none)

/-- The members of an object from one of them on, which a text begins with. -/
def members : Nat → Rest → List (StringLexeme × Node) × ObjectEnd × Option Rest
  | 0, _ => ([], .cut, none)
  | fuel + 1, text =>
    match text with
    | .scalar '"' :: rest =>
      match string [] rest with
      | (key, rest) =>
        match if key.ending = .closed then skipBlanks rest else [] with
        | [] => ([], .noColon key true, none)
        | .scalar ':' :: rest =>
          match value fuel rest with
          | (v, none) => ([(key, v)], .cut, none)
          | (v, some rest) =>
            match skipBlanks rest with
            | [] => ([(key, v)], .textEnd, none)
            | .scalar '\x7d' :: rest => ([(key, v)], .closed, some rest)
            | .scalar ',' :: rest =>
              match skipBlanks rest with
              | [] => ([(key, v)], .commaTextEnd, none)
              | .scalar '\x7d' :: _ => ([(key, v)], .comma, none)
              | rest =>
                let (ms, ending, after) := members fuel rest
                ((key, v) :: ms, ending, after)
            | _ => ([(key, v)], .junk, none)
        | _ => ([], .noColon key false, none)
    | _ => ([], .noKey, none)

end

end Scan

/-- Reads a text as a whole. -/
def Document.read (text : Rest) : Document :=
  match Scan.value (2 * text.length + 2) text with
  | (root, none) => ⟨root, false⟩
  | (root, some rest) => ⟨root, !(Scan.skipBlanks rest).isEmpty⟩

end MovieCatalog.Json
