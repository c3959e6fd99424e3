import MovieCatalog.Movie.Response
import MovieCatalog.Proofs.Facet.Codec

/-!
# Answers read back

A movie is read back from what it is written as if its numbers are finite and legible
(`Movie.reads_toJson`), and so is an answer with such movies (`MovieResponse.reads_toJson`). None but
finite numbers are read from any tree (`Movie.finite_of_yields`, `MovieResponse.finite_of_yields`).
-/

namespace MovieCatalog

open Json (Decoder Field Fields)

/-! ## Movies -/

namespace Movie

/-- The fields of a movie. -/
abbrev fields : Fields (String × String × Int64 × Binary64 × UInt64 × String × List String ×
    List String × List String × List String × List String × String × Binary64 × String × Unit) :=
  .cons (.required "id" .string) <| .cons (.required "title" .string) <|
    .cons (.required "year" .integer64) <| .cons (.required "rating" .double) <|
    .cons (.required "votes" .natural64) <| .cons (.required "image" .string) <|
    .cons (.required "countries" (.list .string)) <|
    .cons (.required "languages" (.list .string)) <|
    .cons (.required "actors" (.list .string)) <| .cons (.required "genre" (.list .string)) <|
    .cons (.required "directors" (.list .string)) <| .cons (.required "description" .string) <|
    .cons (.required "duration" .double) <| .cons (.required "imdbUrl" .string) .nil

/-- The numbers of a movie that are not integers are finite. -/
structure Finite (m : Movie) : Prop where
  rating : m.rating.isFinite = true
  duration : m.duration.isFinite = true

/-- A movie is legible if its two floating-point numbers are. -/
theorem legible_toJson_iff {m : Movie} :
    m.toJson.Legible ↔ (Json.ofBinary64 m.rating).Legible ∧ (Json.ofBinary64 m.duration).Legible := by
  simp [toJson]

/-- A movie with finite numbers that are legible is read back. -/
theorem reads_toJson {m : Movie} (h : m.Finite) (hlegible : m.toJson.Legible) :
    Movie.decoder.Reads 2 m.toJson m := by
  obtain ⟨hratingLegible, hdurationLegible⟩ := legible_toJson_iff.1 hlegible
  have htext : ∀ s : String, Decoder.string.Reads 1 (.string s) s :=
    fun s => (Decoder.reads_string s).mono (Nat.zero_le 1)
  have hyear := (Decoder.reads_integer64 m.year).mono (Nat.zero_le 1)
  have hvotes := (Decoder.reads_natural64 m.votes).mono (Nat.zero_le 1)
  have hrating := (Decoder.reads_double h.rating hratingLegible).mono (Nat.zero_le 1)
  have hduration := (Decoder.reads_double h.duration hdurationLegible).mono (Nat.zero_le 1)
  have hrecord := fields.reads_decode "Movie" (by decide)
    (.given (htext m.id) <| .given (htext m.title) <| .given hyear <| .given hrating <|
      .given hvotes <| .given (htext m.image) <| .given (Decoder.reads_ofStrings m.countries) <|
      .given (Decoder.reads_ofStrings m.languages) <| .given (Decoder.reads_ofStrings m.actors) <|
      .given (Decoder.reads_ofStrings m.genre) <| .given (Decoder.reads_ofStrings m.directors) <|
      .given (htext m.description) <| .given hduration <| .given (htext m.imdbUrl) .nil)
  exact hrecord.bind rfl

/-- Only movies with finite numbers are read. -/
theorem finite_of_yields {m : Movie} (h : Movie.decoder.Yields m) : m.Finite := by
  obtain ⟨values, hread, h⟩ := Decoder.yields_of_bind h
  cases h
  obtain ⟨-, -, -, hrating, -, -, -, -, -, -, -, -, hduration, -⟩ := fields.yields_of_decode hread
  exact ⟨Decoder.isFinite_of_yields_double (Field.yields_of_required hrating),
    Decoder.isFinite_of_yields_double (Field.yields_of_required hduration)⟩

/-- A movie is nested on two levels: its members, and texts in lists. -/
theorem depth_toJson_le (m : Movie) : m.toJson.depth ≤ 2 := by
  refine Json.depth_object_le_iff.2 ?_
  simp [Json.depth_ofStrings_le]

end Movie

/-! ## Answers -/

namespace MovieResponse

/-- The fields of an answer. -/
abbrev fields : Fields (UInt64 × UInt64 × List Movie × Facets × Unit) :=
  .cons (.required "searchDuration" .natural64) <| .cons (.required "total" .natural64) <|
    .cons (.required "movies" (.list Movie.decoder)) <|
    .cons (.required "facets" Facets.decoder) .nil

/-- The numbers of all movies of an answer that are not integers are finite. -/
def Finite (r : MovieResponse) : Prop :=
  ∀ m ∈ r.movies, m.Finite

/-- An answer is legible if its movies are. -/
theorem legible_toJson_iff {r : MovieResponse} :
    r.toJson.Legible ↔ ∀ m ∈ r.movies, m.toJson.Legible := by
  simp [toJson]

/-- An answer with finite numbers that are legible is read back. -/
theorem reads_toJson {r : MovieResponse} (h : r.Finite) (hlegible : r.toJson.Legible) :
    MovieResponse.decoder.Reads 4 r.toJson r := by
  have hduration := (Decoder.reads_natural64 r.searchDuration).mono (Nat.zero_le 3)
  have htotal := (Decoder.reads_natural64 r.total).mono (Nat.zero_le 3)
  have hmovies : (Decoder.list Movie.decoder).Reads 3 (.array (r.movies.map Movie.toJson)) r.movies :=
    Decoder.reads_list fun m hm => Movie.reads_toJson (h m hm) (legible_toJson_iff.1 hlegible m hm)
  have hrecord := fields.reads_decode "MovieResponse" (by decide)
    (.given hduration <| .given htotal <| .given hmovies <| .given r.facets.reads_toJson .nil)
  exact hrecord.bind rfl

/-- Only answers with finite numbers are read. -/
theorem finite_of_yields {r : MovieResponse} (h : MovieResponse.decoder.Yields r) : r.Finite := by
  obtain ⟨values, hread, h⟩ := Decoder.yields_of_bind h
  cases h
  obtain ⟨-, -, hmovies, -⟩ := fields.yields_of_decode hread
  have hlist := Decoder.yields_of_list (Field.yields_of_required hmovies)
  exact fun m hm => Movie.finite_of_yields (hlist m hm)

/-- An answer is nested on four levels: members, the list of movies, and the movies in it. -/
theorem depth_toJson_le (r : MovieResponse) : r.toJson.depth ≤ 4 := by
  have hmovies : (Json.array (r.movies.map Movie.toJson)).depth ≤ 3 :=
    Json.depth_array_le_iff.2 (List.forall_mem_map.2 fun m _ => m.depth_toJson_le)
  refine Json.depth_object_le_iff.2 ?_
  simp [hmovies, r.facets.depth_toJson_le]

end MovieResponse

end MovieCatalog
