import MovieCatalog.Decimal.Literal
import MovieCatalog.Text.Blank

/-!
# Directives for the log

A directive sets the level of detail for a part of the program: for a target, for a span within it,
for spans with a field, or for everything. A directive without a level asks for all details.
-/

namespace MovieCatalog.Log

/-- A level of detail. -/
inductive Level where
  | off
  | error
  | warn
  | info
  | debug
  | trace
deriving DecidableEq, Repr

namespace Level

/-- All levels, in ascending order. -/
def all : List Level := [off, error, warn, info, debug, trace]

/-- The name of a level. -/
def name : Level → String
  | off => "off"
  | error => "error"
  | warn => "warn"
  | info => "info"
  | debug => "debug"
  | trace => "trace"

/-- Reads a level: its name, in letters of either case, or its number. -/
def read? (s : List Char) : Option Level :=
  let digits := match s with
    | '+' :: rest => rest
    | s => s
  match Numeral.nat? digits with
  | some n => all[n]?
  | none => all.find? (·.name.toList = s.map Char.toLower)

end Level

/-- A directive. A field is a name, perhaps with an equals sign and a value. -/
structure Directive where
  target : Option (List Char)
  span : Option (List Char)
  fields : List (List Char)
  level : Level
deriving DecidableEq

namespace Directive

/-- The directive that sets a level for everything. -/
def forAll (level : Level) : Directive := ⟨none, none, [], level⟩

/-- Reads a level behind an equals sign, if there is one. -/
def levelThen? (s : List Char) : Option Level :=
  match s with
  | [] | ['='] => some .trace
  | '=' :: rest => Level.read? rest
  | _ => none

/-- Reads a directive behind its target and an opening bracket. -/
def inBrackets? (target : Option (List Char)) (s : List Char) : Option Directive :=
  let span := s.takeWhile fun c => c ≠ ']' ∧ c ≠ '\x7b'
  match s.drop span.length with
  | ']' :: rest => (levelThen? rest).map fun l => ⟨target, some span, [], l⟩
  | '\x7b' :: rest =>
    let field := rest.takeWhile (· ≠ '\x7d')
    match rest.drop field.length with
    | '\x7d' :: ']' :: rest =>
      if field.isEmpty then none
      else (levelThen? rest).map fun l =>
        ⟨target, if span.isEmpty then none else some span, [field], l⟩
    | _ => none
  | _ => none

/-- A character with which a target may begin. -/
def isTargetStart (c : Char) : Bool :=
  c.isAlphanum ∨ 0x80 ≤ c.toNat ∨ c = '-' ∨ c = ':' ∨ c = '_'

/-- Reads a directive. A text without level and brackets is a level if it can be read as one, and a
target otherwise. -/
def read? (s : List Char) : Option Directive :=
  let s := Text.trim s
  match s with
  | [] => none
  | '[' :: rest => inBrackets? none rest
  | c :: _ =>
    if isTargetStart c then
      let target := s.takeWhile fun c => c ≠ '=' ∧ c ≠ '['
      match s.drop target.length with
      | [] =>
        match Level.read? target with
        | some l => some (forAll l)
        | none => some ⟨some target, none, [], .trace⟩
      | '[' :: rest => inBrackets? (some target) rest
      | rest => (levelThen? rest).map fun l => ⟨some target, none, [], l⟩
    else none

/-- The directive depends on what happens while the program runs: on spans or on fields. -/
def isDynamic (d : Directive) : Bool :=
  d.span.isSome || !d.fields.isEmpty

/-- The part of a directive that does not depend on spans and values can be applied beforehand. -/
def isStatic (d : Directive) : Bool :=
  d.span.isNone && d.fields.all fun f => !f.contains '='

/-- The text of a directive. -/
def text (d : Directive) : List Char :=
  let fields := if d.fields.isEmpty then [] else '\x7b' :: [','].intercalate d.fields ++ ['\x7d']
  let brackets := if d.isDynamic then '[' :: d.span.getD [] ++ fields ++ [']'] else []
  let front := d.target.getD [] ++ brackets
  front ++ (if d.target.isSome ∨ d.isDynamic then ['='] else []) ++ d.level.name.toList

/-- A text as a sequence of numbers that ends in the least one. -/
def rank (s : List Char) : List Nat :=
  s.map (·.toNat + 1) ++ [0]

/-- What a directive is sorted by. Of two directives the more specific one has the greater key: the
one with the longer target, with a span, with more fields. What remains is decided by the texts. -/
def key (d : Directive) : List Nat :=
  [(d.target.map fun t => (String.ofList t).utf8ByteSize + 1).getD 0, d.span.toList.length,
    d.fields.length] ++ rank (d.target.getD []) ++ rank (d.span.getD []) ++ d.fields.flatMap rank

end Directive

end MovieCatalog.Log
