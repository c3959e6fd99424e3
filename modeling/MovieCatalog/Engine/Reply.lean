import MovieCatalog.Movie.Response

/-!
# Replies of the engine

Of a reply to a search only the time, the number of matches, the records and the counts are read.
The counts are kept as JSON, so that odd ones do not spoil the rest.
-/

namespace MovieCatalog

/-- A record that matches, under its identifier. -/
structure EngineHit where
  id : String
  record : MovieRecord
deriving DecidableEq, Inhabited

/-- The records that match. -/
structure EngineHits where
  total : UInt64
  hits : List EngineHit
deriving DecidableEq, Inhabited

/-- A reply to a search. -/
structure EngineReply where
  took : UInt64
  hits : EngineHits
  aggregations : Option Json
deriving Inhabited

namespace EngineHit

/-- The movie that a hit is. -/
def toMovie (hit : EngineHit) : Movie :=
  .ofRecord hit.id hit.record

/-- Reads a hit. -/
def decoder : Json.Decoder EngineHit := fun ctx n => do
  let (id, record, ()) ← Json.Fields.decode "RawHit"
    (.cons (.required "_id" .string)
      (.cons (.withDefault "_source" MovieRecord.decoder .empty) .nil)) ctx n
  return ⟨id, record⟩

end EngineHit

namespace EngineHits

/-- No hits. -/
def empty : EngineHits := ⟨0, []⟩

/-- Reads the number of matches. -/
def totalDecoder : Json.Decoder UInt64 := fun ctx n => do
  let (value, ()) ← Json.Fields.decode "RawTotal"
    (.cons (.withDefault "value" .natural64 0) .nil) ctx n
  return value

/-- Reads the hits. -/
def decoder : Json.Decoder EngineHits := fun ctx n => do
  let (total, hits, ()) ← Json.Fields.decode "RawHits"
    (.cons (.withDefault "total" totalDecoder 0)
      (.cons (.withDefault "hits" (.list EngineHit.decoder) []) .nil)) ctx n
  return ⟨total, hits⟩

end EngineHits

namespace EngineReply

/-- Reads a reply. -/
def decoder : Json.Decoder EngineReply := fun ctx n => do
  let (took, hits, aggregations, ()) ← Json.Fields.decode "RawSearchResponse"
    (.cons (.withDefault "took" .natural64 0)
      (.cons (.withDefault "hits" EngineHits.decoder .empty)
        (.cons (.withDefault "aggregations" (.nullable .json) none) .nil))) ctx n
  return ⟨took, hits, aggregations⟩

/-- The answer that a reply gives. -/
def toResponse (reply : EngineReply) : MovieResponse where
  searchDuration := reply.took
  total := reply.hits.total
  movies := reply.hits.hits.map EngineHit.toMovie
  facets := .ofEngine reply.aggregations

end EngineReply

end MovieCatalog
