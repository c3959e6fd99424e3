import MovieCatalog.Settings.Basic
import MovieCatalog.Text.Cut

/-!
# Settings on the command line

Arguments are looked at from left to right. An option stands in one argument with its value, behind
an equals sign, or in front of it. The value in an argument of its own is judged only when the next
known option comes or the arguments end, so that an argument that means nothing is noticed first.
-/

namespace MovieCatalog

/-- Why arguments and environment give no settings. -/
inductive UsageFault where
  | unreadableValue
  | missingValue
  | unknownArgument
  | repeatedOption
  | surplusValue
  | helpWanted
  | versionWanted
deriving DecidableEq, Repr

/-- What an argument is by its form. -/
inductive Argument where
  | option (s : Setting) (value : Option String)
  | help
  | version
  /-- A value for an option that takes none. -/
  | surplus
  | unknown
  /-- The mark behind which no option stands. -/
  | endOfOptions
  | plain (text : String)
deriving DecidableEq

namespace Argument

/-- A long option, without its dashes. -/
def ofLong (s : List Char) : Argument :=
  let (front, behind) := Text.cutAt '=' s
  let name := String.ofList front
  let value := behind.map String.ofList
  match Setting.ofOption? name with
  | some setting => option setting value
  | none =>
    if name = "help" then (if value.isSome then surplus else help)
    else if name = "version" then (if value.isSome then surplus else version)
    else unknown

/-- What an argument is. A lone dash is a plain text; of one-letter options only the first letter
counts. -/
def ofText (text : String) : Argument :=
  match text.toList with
  | ['-', '-'] => endOfOptions
  | '-' :: '-' :: rest => ofLong rest
  | '-' :: c :: _ => if c = 'h' then help else if c = 'V' then version else unknown
  | _ => plain text

end Argument

/-- Where the reading of arguments stands: the settings given, and the option whose value is to come
or has not been judged yet. -/
structure CommandLine where
  given : GivenSettings
  pending : Option (Setting × Option String)
deriving DecidableEq

namespace CommandLine

/-- Gives a setting a value for the first time. -/
def give (g : GivenSettings) (s : Setting) (value : String) : Except UsageFault GivenSettings :=
  if g.has s then .error .repeatedOption
  else
    match g.give? s value with
    | some g => .ok g
    | none => .error .unreadableValue

/-- Judges the option that is pending. -/
def settle (c : CommandLine) : Except UsageFault GivenSettings :=
  match c.pending with
  | none => .ok c.given
  | some (_, none) => .error .missingValue
  | some (s, some value) => give c.given s value

/-- Takes an argument into account. -/
def step (c : CommandLine) (a : Argument) : Except UsageFault CommandLine :=
  match a with
  | .plain text =>
    match c.pending with
    | some (s, none) => .ok { c with pending := some (s, some text) }
    | _ => .error .unknownArgument
  | .option s (some value) => do
    return ⟨← give (← c.settle) s value, none⟩
  | .option s none => do
    return ⟨← c.settle, some (s, none)⟩
  | .help => do
    let _ ← c.settle
    throw .helpWanted
  | .version => do
    let _ ← c.settle
    throw .versionWanted
  | .surplus => .error .surplusValue
  | .unknown => .error .unknownArgument
  | .endOfOptions => .ok c

/-- Reads arguments. Nothing may stand behind the end of the options. -/
def read (c : CommandLine) : List String → Except UsageFault GivenSettings
  | [] => c.settle
  | text :: rest => do
    let a := Argument.ofText text
    if a = .endOfOptions ∧ !rest.isEmpty then throw .unknownArgument
    read (← c.step a) rest

end CommandLine

namespace GivenSettings

/-- Gives a setting the value of its variable, if it has none yet. -/
def fromVariable (environment : List (String × String)) (g : GivenSettings) (s : Setting) :
    Except UsageFault GivenSettings :=
  if g.has s then .ok g
  else
    match environment.lookup s.variableName with
    | none => .ok g
    | some value =>
      match g.give? s value with
      | some g => .ok g
      | none => .error .unreadableValue

end GivenSettings

/-- The settings that arguments and environment make. -/
def Settings.read (arguments : List String) (environment : List (String × String)) :
    Except UsageFault Settings := do
  let given ← CommandLine.read ⟨.nothing, none⟩ arguments
  return (← Setting.all.foldlM (GivenSettings.fromVariable environment) given).complete

end MovieCatalog
