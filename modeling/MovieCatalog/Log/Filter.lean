import MovieCatalog.Log.Directive

/-!
# The filter of the log

A filter is a set of directives, the more specific ones first. It is read from a variable of the
environment if that can be read as a whole; else it is made from the level in the settings.
-/

namespace MovieCatalog.Log

/-- A filter. -/
structure Filter where
  statics : List Directive
  dynamics : List Directive
deriving DecidableEq

namespace Filter

/-- The name of the variable that overrides the level in the settings. -/
def variableName : String := "RUST_LOG"

/-- Puts a directive into a list with descending keys. One with the same key is replaced. -/
def insert (d : Directive) : List Directive → List Directive
  | [] => [d]
  | e :: rest =>
    if d.key = e.key then d :: rest
    else if e.key < d.key then d :: e :: rest
    else e :: insert d rest

/-- Directives in descending order, the last one of each key. -/
def sorted (directives : List Directive) : List Directive :=
  directives.foldl (fun found d => insert d found) []

/-- The filter with given directives. -/
def ofDirectives (directives : List Directive) : Filter :=
  let dynamics := directives.filter Directive.isDynamic
  let statics := directives.filter (!·.isDynamic)
  ⟨sorted (statics ++ dynamics.filter Directive.isStatic), sorted dynamics⟩

/-- The parts of a text between commas, without empty ones. -/
def parts (text : String) : List (List Char) :=
  (text.toList.splitOn ',').filter (!·.isEmpty)

/-- Reads a filter all of whose directives can be read. -/
def read? (text : String) : Option Filter :=
  ((parts text).mapM Directive.read?).map ofDirectives

/-- The filter of all directives in a text that can be read. If there are none, errors are
logged. -/
def readLoosely (text : String) : Filter :=
  match (parts text).filterMap Directive.read? with
  | [] => ofDirectives [.forAll .error]
  | directives => ofDirectives directives

/-- The filter for the value of the variable, if it is set, and the level in the settings. -/
def choose (given : Option String) (level : String) : Filter :=
  (given.bind read?).getD (readLoosely level)

/-- The text of a filter. -/
def text (f : Filter) : String :=
  String.ofList ([','].intercalate ((f.statics ++ f.dynamics).map Directive.text))

end Filter

end MovieCatalog.Log
