import MovieCatalog.Net.SocketAddress

/-!
# Settings

The program has five settings. Each of them has a name as an option, a variable of the environment
and a value that it takes when neither is given. The value of an option is preferred to that of its
variable, which then is not even looked at.
-/

namespace MovieCatalog

/-- A setting. -/
inductive Setting where
  /-- The address to listen on. -/
  | bind
  /-- The engine, as a URL or as a host. -/
  | engineUrl
  /-- The index with the movies. -/
  | index
  /-- The time in seconds that the engine may take. -/
  | timeout
  /-- The level of detail in the log. -/
  | logLevel
deriving DecidableEq, Repr

namespace Setting

/-- All settings, in their order. -/
def all : List Setting := [bind, engineUrl, index, timeout, logLevel]

/-- The name of a setting as an option. -/
def option : Setting → String
  | bind => "bind"
  | engineUrl => "elasticsearch-url"
  | index => "index"
  | timeout => "request-timeout-secs"
  | logLevel => "log-level"

/-- The variable of a setting. -/
def variableName : Setting → String
  | bind => "BIND_ADDR"
  | engineUrl => "ELASTICSEARCH_URL"
  | index => "ELASTICSEARCH_INDEX"
  | timeout => "REQUEST_TIMEOUT_SECS"
  | logLevel => "LOG_LEVEL"

/-- The setting with a given name as an option. -/
def ofOption? (name : String) : Option Setting :=
  all.find? (·.option = name)

end Setting

/-- The settings. -/
structure Settings where
  bind : Net.SocketAddress
  engineUrl : String
  index : String
  timeout : UInt64
  logLevel : String
deriving DecidableEq

/-- The settings that have been given. -/
structure GivenSettings where
  bind : Option Net.SocketAddress
  engineUrl : Option String
  index : Option String
  timeout : Option UInt64
  logLevel : Option String
deriving DecidableEq

namespace GivenSettings

/-- No setting has been given. -/
def nothing : GivenSettings :=
  ⟨none, none, none, none, none⟩

/-- A setting has been given. -/
def has (g : GivenSettings) : Setting → Bool
  | .bind => g.bind.isSome
  | .engineUrl => g.engineUrl.isSome
  | .index => g.index.isSome
  | .timeout => g.timeout.isSome
  | .logLevel => g.logLevel.isSome

/-- Reads a number of seconds: decimal digits behind a plus sign or none. -/
def seconds? (value : String) : Option UInt64 :=
  let digits := match value.toList with
    | '+' :: rest => rest
    | s => s
  ((Numeral.nat? digits).filter (· < Word.size64)).map .ofNat

/-- Gives a setting a value, if the value can be read. -/
def give? (g : GivenSettings) (s : Setting) (value : String) : Option GivenSettings :=
  match s with
  | .bind => (Net.SocketAddress.read? value.toList).map fun a => { g with bind := some a }
  | .engineUrl => some { g with engineUrl := some value }
  | .index => some { g with index := some value }
  | .timeout => (seconds? value).map fun n => { g with timeout := some n }
  | .logLevel => some { g with logLevel := some value }

/-- The settings, with their usual values where none has been given. -/
def complete (g : GivenSettings) : Settings where
  bind := g.bind.getD (.v4 (.ofOctets 0 0 0 0) 7000)
  engineUrl := g.engineUrl.getD "http://localhost:9200"
  index := g.index.getD "movie_index"
  timeout := g.timeout.getD 30
  logLevel := g.logLevel.getD "info"

end GivenSettings

end MovieCatalog
