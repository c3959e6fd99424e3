import MovieCatalog.Facet.Dimension
import MovieCatalog.Json.Pointer
import MovieCatalog.Request.Parameter
import MovieCatalog.Service.Endpoint
import MovieCatalog.Version

/-!
# The description of the interface

The service describes its endpoints, their parameters and the records they answer with in a JSON
document, of which the names, the explanations and the lists of required fields are kept here.
-/

namespace MovieCatalog.Document

/-- A member with an explanation, if there is one. -/
def explained (key : String) (text : Option String) : List (String × Json) :=
  (text.map fun s => (key, Json.string s)).toList

/-- The explanation of a parameter. -/
def parameterText : Parameter → String
  | .words => "Free text matched against title, description, actors, directors and genre"
  | .country => "Country filter"
  | .ratingMin => "Lowest user rating, inclusive"
  | .ratingMax => "Highest user rating, inclusive"
  | .language => "Exact language"
  | .year => "Exact release year"
  | .genre => "Genres, any of which qualifies; repeat or comma-separate"
  | .durationMin => "Shortest runtime in hours, inclusive"
  | .durationMax => "Longest runtime in hours, inclusive"
  | .page => "Zero-based page index"
  | .limit => "Page size, 10 when absent"

/-- A parameter in the document. -/
def parameter (p : Parameter) : Json :=
  .object [("name", .string p.name), ("in", .string "query"),
    ("description", .string (parameterText p)), ("required", .boolean false)]

/-- What is said of the answers with a given payload. -/
def envelopeText (payload : String) : String :=
  "`\x7b\"status\": \"success\", \"data\": " ++ payload ++
    "\x7d`, or `\x7b\"status\": \"failure\", \"data\": FailureData\x7d` when the engine call fails"

/-- An endpoint in the document: its tags, a short and a long explanation, its parameters and the
explanation of its answer. -/
structure Operation where
  tags : List String
  summary : Option String
  description : Option String
  parameters : List Parameter
  answer : String

/-- What the document says of an endpoint. -/
def operation : Endpoint → Operation
  | .movies =>
    { tags := ["movies"]
      summary := "Search movies by free text and filters."
      description := "Engine failures are reported inside the envelope (`status: \"failure\"`),\n"
        ++ "not through the HTTP status."
      parameters := Parameter.all
      answer := envelopeText "MovieResponse" }
  | .facets =>
    { tags := ["movies"]
      summary := "Facet counts across the whole catalog, for building filter controls."
      description := none
      parameters := []
      answer := envelopeText "Facets" }
  | .version =>
    { tags := [], summary := none, description := none, parameters := [],
      answer := "Service version" }

/-- An operation as JSON. -/
def Operation.toJson (o : Operation) : Json :=
  .object <|
    [("tags", Json.ofStrings o.tags)] ++ explained "summary" o.summary
      ++ explained "description" o.description
      ++ (if o.parameters.isEmpty then [] else
        [("parameters", Json.array (o.parameters.map parameter))])
      ++ [("responses", .object [("200", .object [("description", .string o.answer)])])]

/-- A record in the document: its explanation, its required fields, and the explanations of fields
that have one. -/
structure Schema where
  name : String
  description : Option String
  required : List String
  fields : List (String × String)

/-- The records in the document. -/
def schemas : List Schema :=
  [{ name := "MovieResponse"
     description := "Payload of a successful search"
     required := ["searchDuration", "total", "movies", "facets"]
     fields := [("searchDuration", "Engine-reported search time in milliseconds"),
       ("total", "Total number of matching movies")] },
   { name := "Movie"
     description := "A movie as returned to the UI."
     required := ["id", "title", "year", "rating", "votes", "image", "countries", "languages",
       "actors", "genre", "directors", "description", "duration", "imdbUrl"]
     fields := [("duration", "Runtime in hours")] },
   { name := "Facets"
     description := "Facet lists per dimension, in the order the engine returned the buckets."
     required := Dimension.all.map Dimension.name
     fields := [] },
   { name := "FacetBucket"
     description := "One facet value with its document count"
     required := ["key", "count"]
     fields := [] },
   { name := "FailureData"
     description :=
       "Failure details; `error` carries the engine's own error body when it sent one"
     required := ["message"]
     fields := [] },
   { name := "VersionResponse"
     description := none
     required := ["service", "version", "index"]
     fields := [] }]

/-- A record as JSON. -/
def Schema.toJson (s : Schema) : Json :=
  .object <|
    explained "description" s.description
      ++ [("required", Json.ofStrings s.required),
        ("properties", .object (s.fields.map fun f =>
          (f.1, .object [("description", .string f.2)])))]

/-- The document. -/
def json : Json :=
  .object [
    ("info", .object [("title", .string serviceName), ("version", .string serviceVersion)]),
    ("paths", .object (Endpoint.all.map fun e =>
      (e.path, .object [("get", (operation e).toJson)]))),
    ("components", .object [("schemas", .object (schemas.map fun s => (s.name, s.toJson)))]),
    ("tags", .array [.object [("name", .string "movies"),
      ("description", .string "Movie catalog search")]])]

end MovieCatalog.Document
