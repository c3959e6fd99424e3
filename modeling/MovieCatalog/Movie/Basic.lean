import MovieCatalog.Json.Decode

/-!
# Movies

The index keeps a record of each movie in which any property may be missing. Callers receive movies
with all properties: what is missing becomes zero or empty, and some properties bear another name.
-/

namespace MovieCatalog

/-- A movie. -/
structure Movie where
  id : String
  title : String
  year : Int64
  rating : Binary64
  votes : UInt64
  image : String
  countries : List String
  languages : List String
  actors : List String
  genre : List String
  directors : List String
  description : String
  duration : Binary64
  imdbUrl : String
deriving DecidableEq, Inhabited

/-- What the index holds about a movie. -/
structure MovieRecord where
  title : Option String
  year : Option Int64
  usersRating : Option Binary64
  votes : Option UInt64
  imgUrl : Option String
  countries : Option (List String)
  languages : Option (List String)
  actors : Option (List String)
  genre : Option (List String)
  directors : Option (List String)
  description : Option String
  runtime : Option Binary64
  imdbUrl : Option String
deriving DecidableEq, Inhabited

namespace MovieRecord

/-- The record of a movie about which nothing is known. -/
def empty : MovieRecord :=
  ⟨none, none, none, none, none, none, none, none, none, none, none, none, none⟩

/-- Reads a record. -/
def decoder : Json.Decoder MovieRecord := fun ctx n => do
  let field {α : Type} (name : String) (d : Json.Decoder α) : Json.Field (Option α) :=
    .withDefault name (.nullable d) none
  let text (name : String) := field name .string
  let texts (name : String) := field name (.list .string)
  let (title, year, rating, votes, image, countries, languages, actors, genre, directors,
      description, runtime, imdbUrl, ()) ← Json.Fields.decode "MovieSource"
    (.cons (text "title") (.cons (field "year" .integer64) (.cons (field "users_rating" .double)
      (.cons (field "votes" .natural64) (.cons (text "img_url") (.cons (texts "countries")
      (.cons (texts "languages") (.cons (texts "actors") (.cons (texts "genre")
      (.cons (texts "directors") (.cons (text "description") (.cons (field "runtime" .double)
      (.cons (text "imdb_url") .nil))))))))))))) ctx n
  return ⟨title, year, rating, votes, image, countries, languages, actors, genre, directors,
    description, runtime, imdbUrl⟩

end MovieRecord

namespace Movie

/-- The movie with a given identifier that a record describes. -/
def ofRecord (id : String) (r : MovieRecord) : Movie where
  id := id
  title := r.title.getD ""
  year := r.year.getD 0
  rating := r.usersRating.getD .zero
  votes := r.votes.getD 0
  image := r.imgUrl.getD ""
  countries := r.countries.getD []
  languages := r.languages.getD []
  actors := r.actors.getD []
  genre := r.genre.getD []
  directors := r.directors.getD []
  description := r.description.getD ""
  duration := r.runtime.getD .zero
  imdbUrl := r.imdbUrl.getD ""

/-- The movie as JSON. -/
def toJson (m : Movie) : Json :=
  .object [("id", .string m.id), ("title", .string m.title), ("year", .ofInt64 m.year),
    ("rating", .ofBinary64 m.rating), ("votes", .ofUInt64 m.votes), ("image", .string m.image),
    ("countries", .ofStrings m.countries), ("languages", .ofStrings m.languages),
    ("actors", .ofStrings m.actors), ("genre", .ofStrings m.genre),
    ("directors", .ofStrings m.directors), ("description", .string m.description),
    ("duration", .ofBinary64 m.duration), ("imdbUrl", .string m.imdbUrl)]

/-- Reads a movie. -/
def decoder : Json.Decoder Movie := fun ctx n => do
  let text (name : String) : Json.Field String := .required name .string
  let texts (name : String) : Json.Field (List String) := .required name (.list .string)
  let (id, title, year, rating, votes, image, countries, languages, actors, genre, directors,
      description, duration, imdbUrl, ()) ← Json.Fields.decode "Movie"
    (.cons (text "id") (.cons (text "title") (.cons (.required "year" .integer64)
      (.cons (.required "rating" .double) (.cons (.required "votes" .natural64)
      (.cons (text "image") (.cons (texts "countries") (.cons (texts "languages")
      (.cons (texts "actors") (.cons (texts "genre") (.cons (texts "directors")
      (.cons (text "description") (.cons (.required "duration" .double)
      (.cons (text "imdbUrl") .nil)))))))))))))) ctx n
  return ⟨id, title, year, rating, votes, image, countries, languages, actors, genre, directors,
    description, duration, imdbUrl⟩

end Movie

end MovieCatalog
