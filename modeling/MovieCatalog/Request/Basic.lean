import MovieCatalog.Bounds
import MovieCatalog.Text.Blank

/-!
# Search requests

A request names the criteria that a movie has to meet and the part of the result that is wanted.
Every criterion may be absent. A blank text and a bound that is not finite count as absent too; a
bound of zero does not.
-/

namespace MovieCatalog

/-- A request. -/
structure Request where
  /-- Words to be found in the texts of a movie. -/
  words : Option String
  country : Option String
  language : Option String
  year : Option Int64
  rating : Bounds
  duration : Bounds
  /-- Genres, each of which qualifies a movie. -/
  genres : List String
  /-- The number of the wanted page, counted from zero. -/
  page : Option UInt64
  /-- The number of movies on a page. -/
  limit : Option UInt64
deriving DecidableEq, Inhabited

namespace Request

/-- The request that asks for nothing. -/
def empty : Request where
  words := none
  country := none
  language := none
  year := none
  rating := .unbounded
  duration := .unbounded
  genres := []
  page := none
  limit := none

/-- A text that is absent or blank. -/
def isBlank (text : Option String) : Bool :=
  text.all fun s => Text.AllBlank s

/-- A bound that is finite. -/
def isBound (bound : Option Binary64) : Bool :=
  bound.any (·.isFinite)

/-- The request has no criterion: nothing but the page and its size may be given. -/
def isUnfiltered (r : Request) : Bool :=
  isBlank r.words && isBlank r.country && isBlank r.language && r.year.isNone && r.genres.isEmpty
    && !isBound r.rating.least && !isBound r.rating.greatest
    && !isBound r.duration.least && !isBound r.duration.greatest

end Request

end MovieCatalog
