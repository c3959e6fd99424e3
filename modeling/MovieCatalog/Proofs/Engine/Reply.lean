import MovieCatalog.Engine.Reply
import MovieCatalog.Proofs.Envelope
import MovieCatalog.Proofs.Json.Meaning
import MovieCatalog.Proofs.Movie.Codec

/-!
# Answers and the replies they are made of

An answer shows a reply (`MovieResponse.Shows`) if it has one movie for each hit, in the same order,
of which every property is what the record of the hit gives for it (`Movie.Shows`), and its numbers
and facets are those of the reply. Replies are read from objects and from arrays alike, and the
answer that is made of any reply that can be read shows this reply; put into an envelope, it is read
back as it is if its numbers are legible (`EngineReply.toResponse_shows_reply`).
-/

namespace MovieCatalog

open Json (Decoder Document Fields Node)

/-! ## Fields -/

/-- The fields of a record. -/
abbrev MovieRecord.fields : Fields (Option String × Option Int64 × Option Binary64 ×
    Option UInt64 × Option String × Option (List String) × Option (List String) ×
    Option (List String) × Option (List String) × Option (List String) × Option String ×
    Option Binary64 × Option String × Unit) :=
  .cons (.withDefault "title" (.nullable .string) none) <|
    .cons (.withDefault "year" (.nullable .integer64) none) <|
    .cons (.withDefault "users_rating" (.nullable .double) none) <|
    .cons (.withDefault "votes" (.nullable .natural64) none) <|
    .cons (.withDefault "img_url" (.nullable .string) none) <|
    .cons (.withDefault "countries" (.nullable (.list .string)) none) <|
    .cons (.withDefault "languages" (.nullable (.list .string)) none) <|
    .cons (.withDefault "actors" (.nullable (.list .string)) none) <|
    .cons (.withDefault "genre" (.nullable (.list .string)) none) <|
    .cons (.withDefault "directors" (.nullable (.list .string)) none) <|
    .cons (.withDefault "description" (.nullable .string) none) <|
    .cons (.withDefault "runtime" (.nullable .double) none) <|
    .cons (.withDefault "imdb_url" (.nullable .string) none) .nil

/-- The fields of a hit. -/
abbrev EngineHit.fields : Fields (String × MovieRecord × Unit) :=
  .cons (.required "_id" .string) <|
    .cons (.withDefault "_source" MovieRecord.decoder .empty) .nil

/-- The field of the number of matches. -/
abbrev EngineHits.totalFields : Fields (UInt64 × Unit) :=
  .cons (.withDefault "value" .natural64 0) .nil

/-- The fields of the hits. -/
abbrev EngineHits.fields : Fields (UInt64 × List EngineHit × Unit) :=
  .cons (.withDefault "total" EngineHits.totalDecoder 0) <|
    .cons (.withDefault "hits" (.list EngineHit.decoder) []) .nil

/-- The fields of a reply. -/
abbrev EngineReply.fields : Fields (UInt64 × EngineHits × Option Json × Unit) :=
  .cons (.withDefault "took" .natural64 0) <|
    .cons (.withDefault "hits" EngineHits.decoder .empty) <|
    .cons (.withDefault "aggregations" (.nullable .json) none) .nil

/-! ## Parts of a reply -/

namespace MovieRecord

/-- The names of the properties in a record, in order. -/
def names : List String :=
  ["title", "year", "users_rating", "votes", "img_url", "countries", "languages", "actors", "genre",
    "directors", "description", "runtime", "imdb_url"]

end MovieRecord

namespace EngineHit

/-- The names of the parts of a hit, in order. -/
def names : List String := ["_id", "_source"]

/-- What the record of a hit gives for a property. -/
def property? (hit : Node) (name : String) : Option Node :=
  (hit.part? names "_source").bind (·.part? MovieRecord.names name)

end EngineHit

namespace EngineReply

/-- The names of the parts of a reply, in order. -/
def names : List String := ["took", "hits", "aggregations"]

/-- The names of what a reply has for its hits, in order. -/
def hitsNames : List String := ["total", "hits"]

/-- A part of what a reply has for its hits. -/
def hitsPart? (reply : Node) (name : String) : Option Node :=
  (reply.part? names "hits").bind (·.part? hitsNames name)

/-- The number of matches that a reply gives. -/
def total? (reply : Node) : Option Node :=
  (hitsPart? reply "total").bind (·.part? ["value"] "value")

end EngineReply

/-! ## What an answer shows -/

/-- The movie is the hit: it has the identifier of the hit, and each property is what the record of
the hit gives for it, or zero or empty if the record gives nothing or `null`. -/
structure Movie.Shows (m : Movie) (hit : Node) : Prop where
  id : ∃ n, hit.part? EngineHit.names "_id" = some n ∧ n.MeansText m.id
  title : Node.Known Node.MeansText "" (EngineHit.property? hit "title") m.title
  year : Node.Known Node.MeansInteger 0 (EngineHit.property? hit "year") m.year
  rating : Node.Known Node.MeansDouble .zero (EngineHit.property? hit "users_rating") m.rating
  votes : Node.Known Node.MeansNatural 0 (EngineHit.property? hit "votes") m.votes
  image : Node.Known Node.MeansText "" (EngineHit.property? hit "img_url") m.image
  countries : Node.Known Node.MeansTexts [] (EngineHit.property? hit "countries") m.countries
  languages : Node.Known Node.MeansTexts [] (EngineHit.property? hit "languages") m.languages
  actors : Node.Known Node.MeansTexts [] (EngineHit.property? hit "actors") m.actors
  genre : Node.Known Node.MeansTexts [] (EngineHit.property? hit "genre") m.genre
  directors : Node.Known Node.MeansTexts [] (EngineHit.property? hit "directors") m.directors
  description : Node.Known Node.MeansText "" (EngineHit.property? hit "description") m.description
  duration : Node.Known Node.MeansDouble .zero (EngineHit.property? hit "runtime") m.duration
  imdbUrl : Node.Known Node.MeansText "" (EngineHit.property? hit "imdb_url") m.imdbUrl

/-- The answer is the reply: it has a movie for each hit, in the same order, the time and the number
of matches that the reply gives, or zero, and the facets in what the reply gives for them. -/
structure MovieResponse.Shows (r : MovieResponse) (reply : Node) : Prop where
  movies : Node.Stated (Node.MeansItems fun hit m => Movie.Shows m hit) []
    (EngineReply.hitsPart? reply "hits") r.movies
  searchDuration : Node.Stated Node.MeansNatural 0 (reply.part? EngineReply.names "took")
    r.searchDuration
  total : Node.Stated Node.MeansNatural 0 (EngineReply.total? reply) r.total
  facets : Node.Known (fun n facets => ∃ room v, n.value room = .ok v ∧ facets = .ofEngine (some v))
    Facets.empty (reply.part? EngineReply.names "aggregations") r.facets

/-! ## Hits -/

/-- What stands for a number that is known is finite. -/
theorem isFinite_of_known {part : Option Node} {x : Binary64}
    (h : Node.Known Node.MeansDouble .zero part x) : x.isFinite = true := by
  cases h with
  | absent | null => rfl
  | given h =>
    obtain ⟨number, -, rfl⟩ := h
    exact number.isFinite_toBinary64

/-- What is shown of a hit is finite, since numbers that are not are neither read nor shown by
default. -/
theorem Movie.Shows.finite {m : Movie} {hit : Node} (h : m.Shows hit) : m.Finite :=
  ⟨isFinite_of_known h.rating, isFinite_of_known h.duration⟩

namespace MovieRecord

/-- The values of the fields of a record. -/
abbrev values (r : MovieRecord) := (r.title, r.year, r.usersRating, r.votes, r.imgUrl, r.countries,
  r.languages, r.actors, r.genre, r.directors, r.description, r.runtime, r.imdbUrl, ())

/-- A record that is read takes the parts of the tree for its properties. -/
theorem takes_of_decoder {ctx : Json.Context} {n : Node} {r : MovieRecord}
    (h : MovieRecord.decoder ctx n = .ok r) :
    ∃ inside, fields.Takes inside (fun name => n.part? names name) r.values := by
  obtain ⟨as, hread, h⟩ := Json.ok_of_bind h
  cases h
  exact fields.takes_of_decode (by decide) hread

end MovieRecord

namespace EngineHit

/-- A hit that is read has the identifier in its tree and a record of its properties. -/
theorem takes_of_decoder {ctx : Json.Context} {n : Node} {hit : EngineHit}
    (h : EngineHit.decoder ctx n = .ok hit) :
    (∃ v, n.part? names "_id" = some v ∧ v.MeansText hit.id) ∧
      ∃ inside, MovieRecord.fields.Takes inside (property? n) hit.record.values := by
  obtain ⟨as, hread, h⟩ := Json.ok_of_bind h
  cases h
  obtain ⟨inside, hid, hrecord, -⟩ := fields.takes_of_decode (by decide) hread
  refine ⟨?_, ?_⟩
  · obtain ⟨-, hdefault⟩ | ⟨v, hv, hread⟩ := hid
    · cases hdefault
    · exact ⟨v, hv, Decoder.soundFor_string inside v _ hread⟩
  · obtain ⟨hnone, hdefault⟩ | ⟨v, hv, hread⟩ := hrecord
    · have hnone : n.part? names "_source" = none := hnone
      have hparts : ∀ name ∈ MovieRecord.fields.names, property? n name = none := by
        intro name _
        rw [property?, hnone]
        rfl
      rw [← Option.some.inj hdefault]
      exact ⟨inside, Fields.takes_of_finish_empty hparts rfl⟩
    · have hv : n.part? names "_source" = some v := hv
      obtain ⟨within, htakes⟩ := MovieRecord.takes_of_decoder hread
      refine ⟨within, htakes.congr fun name _ => ?_⟩
      rw [property?, hv]
      rfl

/-- A hit that is read is shown as a movie. -/
theorem soundFor_decoder :
    EngineHit.decoder.SoundFor fun n hit => hit.toMovie.Shows n := by
  intro ctx n hit h
  obtain ⟨hid, inside, htitle, hyear, hrating, hvotes, himage, hcountries, hlanguages, hactors,
    hgenre, hdirectors, hdescription, hduration, himdbUrl, -⟩ := takes_of_decoder h
  exact {
    id := hid
    title := Decoder.soundFor_string.known htitle
    year := Decoder.soundFor_integer64.known hyear
    rating := Decoder.soundFor_double.known hrating
    votes := Decoder.soundFor_natural64.known hvotes
    image := Decoder.soundFor_string.known himage
    countries := Decoder.soundFor_strings.known hcountries
    languages := Decoder.soundFor_strings.known hlanguages
    actors := Decoder.soundFor_strings.known hactors
    genre := Decoder.soundFor_strings.known hgenre
    directors := Decoder.soundFor_strings.known hdirectors
    description := Decoder.soundFor_string.known hdescription
    duration := Decoder.soundFor_double.known hduration
    imdbUrl := Decoder.soundFor_string.known himdbUrl }

end EngineHit

/-! ## Replies -/

namespace EngineHits

/-- A total is the number that is stated in it, or zero. -/
theorem soundFor_totalDecoder : totalDecoder.SoundFor fun n total =>
    Node.Stated Node.MeansNatural 0 (n.part? ["value"] "value") total := by
  intro ctx n total h
  obtain ⟨as, hread, h⟩ := Json.ok_of_bind h
  cases h
  obtain ⟨inside, hvalue, -⟩ := totalFields.takes_of_decode (by decide) hread
  exact Decoder.soundFor_natural64.stated hvalue

/-- The hits that are read are those in the tree, in the same order, with the number of matches that
it gives. -/
theorem soundFor_decoder : EngineHits.decoder.SoundFor fun n hits =>
    Node.Stated (Node.MeansItems fun hit m => Movie.Shows m hit) []
      (n.part? EngineReply.hitsNames "hits") (hits.hits.map EngineHit.toMovie) ∧
    Node.Stated Node.MeansNatural 0
      ((n.part? EngineReply.hitsNames "total").bind (·.part? ["value"] "value")) hits.total := by
  intro ctx n hits h
  obtain ⟨as, hread, h⟩ := Json.ok_of_bind h
  cases h
  obtain ⟨inside, htotal, hhits, -⟩ := fields.takes_of_decode (by decide) hread
  have hmap : ∀ n hits, Node.MeansItems (fun n hit => (EngineHit.toMovie hit).Shows n) n hits →
      Node.MeansItems (fun n m => Movie.Shows m n) n (hits.map EngineHit.toMovie) :=
    fun n hits h => h.map
  exact ⟨(EngineHit.soundFor_decoder.list.stated hhits).map _ hmap,
    (soundFor_totalDecoder.stated htotal).bind⟩

end EngineHits

namespace EngineReply

/-- The answer to a reply that is read shows the reply. -/
theorem soundFor_decoder : EngineReply.decoder.SoundFor fun n reply => reply.toResponse.Shows n := by
  intro ctx n reply h
  obtain ⟨as, hread, h⟩ := Json.ok_of_bind h
  cases h
  obtain ⟨inside, htook, hhits, haggregations, -⟩ := fields.takes_of_decode (by decide) hread
  have hstated := EngineHits.soundFor_decoder.stated hhits
  have hmovies := hstated.map (fun hits => hits.hits.map EngineHit.toMovie) fun _ _ h => h.1
  have htotal := hstated.map EngineHits.total fun _ _ h => h.2
  have hfacets : Decoder.json.SoundFor fun n v =>
      ∃ room w, n.value room = .ok w ∧ Facets.ofEngine (some v) = .ofEngine (some w) :=
    fun ctx n v hread => ⟨ctx.room, v, hread, rfl⟩
  exact {
    movies := hmovies.bind
    searchDuration := Decoder.soundFor_natural64.stated htook
    total := by
      rw [total?, hitsPart?, Option.bind_assoc]
      exact htotal.bind
    facets := Decoder.SoundFor.known_map (f := Facets.ofEngine) hfacets haggregations }

end EngineReply

/-- An answer that shows a reply has finite numbers. -/
theorem MovieResponse.Shows.finite {r : MovieResponse} {reply : Node} (h : r.Shows reply) :
    r.Finite := by
  have hmovies := h.movies
  rw [MovieResponse.Finite]
  generalize r.movies = movies, EngineReply.hitsPart? reply "hits" = part at hmovies
  cases hmovies with
  | absent => exact fun _ hm => nomatch hm
  | given hitems => exact hitems.forall_mem fun hit m hm => hm.finite

/-- The answer that is made of any reply shows this reply: there is a movie for each hit, in the same
order, and each of its properties is what the record of the hit gives for it, or zero or empty. Put
into an envelope the answer is read back as it is if it is legible, whether its status or its data
stand first. -/
theorem EngineReply.toResponse_shows_reply {text : Json.Rest} {reply : EngineReply}
    (h : EngineReply.decoder.read text = .ok reply) :
    reply.toResponse.Shows (Document.read text).root ∧ reply.toResponse.Finite ∧
      (reply.toResponse.toJson.Legible →
        (Envelope.decoder MovieResponse.decoder).readString
            ((Envelope.success reply.toResponse).toJson MovieResponse.toJson).text
          = .ok (.success reply.toResponse) ∧
        (Envelope.decoder MovieResponse.decoder).readString
            (Json.object [("data", reply.toResponse.toJson), ("status", .string "success")]).text
          = .ok (.success reply.toResponse)) := by
  have hshows := soundFor_decoder _ _ _ (Decoder.read_eq_ok_iff.1 h).1
  refine ⟨hshows, hshows.finite, fun hlegible => ?_⟩
  have hread : Decoder.Reads (fun ctx n => Envelope.success <$> MovieResponse.decoder ctx n) 4
      reply.toResponse.toJson (.success reply.toResponse) :=
    (MovieResponse.reads_toJson hshows.finite hlegible).bind rfl
  have hstatus := Envelope.reads_success MovieResponse.decoder
  have hfirst := Envelope.reads_status_data hstatus hread
  have hlast := Envelope.reads_data_status hstatus hread hlegible reply.toResponse.depth_toJson_le
  exact ⟨hfirst.readString (by decide), hlast.readString (by decide)⟩

/-- A reply with two hits, of which one gives only three properties, in another order and one of them
as `null`, and the other is an array that breaks off behind the title. -/
theorem EngineReply.toResponse_shows_reply_ragged :
    let alien := Json.object [("_id", .string "tt1"), ("_source", .object
      [("year", .ofInt64 1979), ("title", .string "Alien"), ("votes", .null)])]
    let stalker := Json.array [.string "tt2", .array [.string "Stalker"]]
    let text := Text.pieces
      (Json.object [("hits", .object [("hits", .array [alien, stalker])]), ("took", .ofUInt64 3)]).text
    let reply : EngineReply :=
      ⟨3, ⟨0, [⟨"tt1", { MovieRecord.empty with title := some "Alien", year := some 1979 }⟩,
        ⟨"tt2", { MovieRecord.empty with title := some "Stalker" }⟩]⟩, none⟩
    EngineReply.decoder.read text = .ok reply ∧
      reply.toResponse.Shows (Document.read text).root ∧ reply.toResponse.Finite ∧
      reply.toResponse.toJson.Legible ∧
      (Envelope.decoder MovieResponse.decoder).readString
          ((Envelope.success reply.toResponse).toJson MovieResponse.toJson).text
        = .ok (.success reply.toResponse) ∧
      (Envelope.decoder MovieResponse.decoder).readString
          (Json.object [("data", reply.toResponse.toJson), ("status", .string "success")]).text
        = .ok (.success reply.toResponse) := by
  intro alien stalker text reply
  have hread : EngineReply.decoder.read text = .ok reply := by
    subst text reply alien stalker
    cbv
  obtain ⟨hshows, hfinite, hback⟩ := toResponse_shows_reply hread
  have hlegible : reply.toResponse.toJson.Legible := by
    have hzero : (Json.ofBinary64 .zero).Legible := .number (by decide +kernel)
    refine MovieResponse.legible_toJson_iff.2 fun m hm => Movie.legible_toJson_iff.2 ?_
    rcases List.mem_pair.1 hm with rfl | rfl
    · exact ⟨hzero, hzero⟩
    · exact ⟨hzero, hzero⟩
  exact ⟨hread, hshows, hfinite, hlegible, hback hlegible⟩

end MovieCatalog
