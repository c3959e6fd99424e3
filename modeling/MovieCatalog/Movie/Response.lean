import MovieCatalog.Facet.Basic
import MovieCatalog.Movie.Basic

/-!
# The answer to a search

An answer holds one page of movies, the number of all movies that match, and the facets.
-/

namespace MovieCatalog

/-- The answer to a search. -/
structure MovieResponse where
  /-- The time that the engine took, in milliseconds. -/
  searchDuration : UInt64
  /-- The number of movies that match. -/
  total : UInt64
  movies : List Movie
  facets : Facets
deriving DecidableEq, Inhabited

namespace MovieResponse

/-- The answer as JSON. -/
def toJson (r : MovieResponse) : Json :=
  .object [("searchDuration", .ofUInt64 r.searchDuration), ("total", .ofUInt64 r.total),
    ("movies", .array (r.movies.map Movie.toJson)), ("facets", r.facets.toJson)]

/-- Reads an answer. -/
def decoder : Json.Decoder MovieResponse := fun ctx n => do
  let (searchDuration, total, movies, facets, ()) ← Json.Fields.decode "MovieResponse"
    (.cons (.required "searchDuration" .natural64) (.cons (.required "total" .natural64)
      (.cons (.required "movies" (.list Movie.decoder))
        (.cons (.required "facets" Facets.decoder) .nil)))) ctx n
  return ⟨searchDuration, total, movies, facets⟩

end MovieResponse

end MovieCatalog
