import MovieCatalog.Json.Decode

/-!
# The version of the service

Callers may ask which service they talk to, in which version, and on which index it works.
-/

namespace MovieCatalog

/-- The name of the service. -/
def serviceName : String := "movie-search"

/-- The version of the service. -/
def serviceVersion : String := "0.1.0"

/-- What a service tells about itself. -/
structure Version where
  service : String
  version : String
  index : String
deriving DecidableEq, Inhabited

namespace Version

/-- The version of this service when it works on a given index. -/
def ofIndex (index : String) : Version := ⟨serviceName, serviceVersion, index⟩

/-- The version as JSON. -/
def toJson (v : Version) : Json :=
  .object [("service", .string v.service), ("version", .string v.version),
    ("index", .string v.index)]

/-- Reads a version. -/
def decoder : Json.Decoder Version := fun ctx n => do
  let (service, version, index, ()) ← Json.Fields.decode "VersionResponse"
    (.cons (.required "service" .string) (.cons (.required "version" .string)
      (.cons (.required "index" .string) .nil))) ctx n
  return ⟨service, version, index⟩

end Version

end MovieCatalog
