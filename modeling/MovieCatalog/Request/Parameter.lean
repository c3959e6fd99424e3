import MovieCatalog.Binary64.Integral
import MovieCatalog.Text.Blank

/-!
# Parameters of a request

A request is sent as values of named parameters. Blanks around a value do not count. A value that
cannot be read is as good as none.
-/

namespace MovieCatalog

/-- A parameter. -/
inductive Parameter where
  | words
  | country
  | ratingMin
  | ratingMax
  | language
  | year
  | genre
  | durationMin
  | durationMax
  | page
  | limit
deriving DecidableEq, Repr

namespace Parameter

/-- All parameters. -/
def all : List Parameter :=
  [words, country, ratingMin, ratingMax, language, year, genre, durationMin, durationMax, page,
    limit]

/-- The name under which a parameter is sent. -/
def name : Parameter → String
  | words => "searchText"
  | country => "country"
  | ratingMin => "ratingMin"
  | ratingMax => "ratingMax"
  | language => "language"
  | year => "year"
  | genre => "genre"
  | durationMin => "durationMin"
  | durationMax => "durationMax"
  | page => "page"
  | limit => "limit"

/-- The name for genres that marks a list. -/
def genreList : String := "genre[]"

/-- The parameter with a given name. -/
def ofName? (name : String) : Option Parameter :=
  if name = genreList then some genre else all.find? (·.name = name)

/-- A parameter is known by its name. -/
theorem ofName?_name (p : Parameter) : ofName? p.name = some p := by
  cases p <;> decide

/-- The genre is known by its name for lists too. -/
theorem ofName?_genreList : ofName? genreList = some genre := by
  decide

/-- Reads a text that is not blank. -/
def text? (value : String) : Option String :=
  let s := Text.trimmed value
  if s.isEmpty then none else some s

/-- Reads a finite number. -/
def number? (value : String) : Option Binary64 :=
  (Binary64.read? (Text.trim value.toList)).filter (·.isFinite)

/-- The integer as which a number is taken: one without a fraction whose magnitude is below the
greatest signed integer of 64 bits, as a number in floating point. -/
def ofNumber? (x : Binary64) : Option Int64 :=
  x.wholeBelow? (.ofInt (Word.half64 - 1))

/-- Reads an integer of 64 bits: in plain digits, or as a number that is an integer. -/
def integer? (value : String) : Option Int64 :=
  let plain : Option Int := (Numeral.int? (Text.trim value.toList)).filter fun n =>
    -(Word.half64 : Int) ≤ n ∧ n < Word.half64
  plain.map .ofInt <|> (number? value).bind ofNumber?

/-- Reads an integer that is not negative. -/
def natural? (value : String) : Option UInt64 :=
  ((integer? value).filter (0 ≤ ·)).map (·.toUInt64)

/-- Reads a list with commas between its elements, without those that are blank. -/
def list (value : String) : List String :=
  ((value.toList.splitOn ',').map fun s => String.ofList (Text.trim s)).filter (!·.isEmpty)

end Parameter

end MovieCatalog
