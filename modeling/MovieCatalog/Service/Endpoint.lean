import MovieCatalog.Request.QueryString
import MovieCatalog.Search.Basic

/-!
# Endpoints

The service answers at three paths: with one page of movies, with the facets of the whole catalog,
and with its version. A path is matched as it is written.
-/

namespace MovieCatalog

/-- An endpoint. -/
inductive Endpoint where
  | movies
  | facets
  | version
deriving DecidableEq, Repr

namespace Endpoint

/-- All endpoints. -/
def all : List Endpoint := [movies, facets, version]

/-- The path of an endpoint. -/
def path : Endpoint → String
  | movies => "/movies"
  | facets => "/movies/facets"
  | version => "/version"

/-- The endpoint at a path. -/
def ofPath? (path : String) : Option Endpoint :=
  all.find? (·.path = path)

/-- The search that an endpoint needs for its answer, if it needs one. -/
def search? (e : Endpoint) (query : String) : Option Search :=
  match e with
  | movies => some (.ofRequest (.ofQueryString query))
  | facets => some .countsOnly
  | version => none

end Endpoint

end MovieCatalog
