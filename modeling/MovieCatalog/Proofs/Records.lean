import MovieCatalog.Proofs.Movie.Codec
import MovieCatalog.Version

/-!
# Writing and reading keep to each other

The records that go in and out are written by one function and read by another one, each with its
own list of names. Neither can change alone (`Json.Faithful`): a value is read back from its text as
long as its numbers are finite and legible, and what is read from any text at all, with its records
as objects or as arrays, has finite numbers and is read again from its own text if they are legible.
This holds of movies, answers, buckets, facets, aggregations and versions (`records_faithful`).
-/

namespace MovieCatalog

open Json (Decoder Fields)

namespace Json

section
variable {α : Type} {toJson : α → Json} {d : Decoder α} {Regular Clear : α → Prop}

/-- Writing and reading keep to each other, for the values that are regular, as long as their
numbers are clear. -/
structure Faithful (toJson : α → Json) (d : Decoder α) (Regular Clear : α → Prop) : Prop where
  /-- A regular value is read back from its text. -/
  reads_back : ∀ a, Regular a → Clear a → d.readString (toJson a).text = .ok a
  /-- Only regular values are read. -/
  regular : ∀ text a, d.read text = .ok a → Regular a
  /-- A value that is read from any text is read again from its own text. -/
  reads_again : ∀ text a, d.read text = .ok a → Clear a → d.readString (toJson a).text = .ok a

/-- It is enough that regular values are read back from their trees and no others are found. -/
theorem Faithful.of_reads {depth : Nat} (hdepth : depth ≤ Context.start.room)
    (hreads : ∀ a, Regular a → Clear a → d.Reads depth (toJson a) a)
    (hyields : ∀ a, d.Yields a → Regular a) : Faithful toJson d Regular Clear := by
  have hback : ∀ a, Regular a → Clear a → d.readString (toJson a).text = .ok a :=
    fun a ha hclear => (hreads a ha hclear).readString hdepth
  have hregular : ∀ text a, d.read text = .ok a → Regular a :=
    fun _ a h => hyields a (Decoder.yields_of_read h)
  exact ⟨hback, hregular, fun text a h => hback a (hregular text a h)⟩

end

end Json

/-! ## Versions -/

namespace Version

/-- The fields of a version. -/
abbrev fields : Fields (String × String × String × Unit) :=
  .cons (.required "service" .string) <| .cons (.required "version" .string) <|
    .cons (.required "index" .string) .nil

/-- A version is read back. -/
theorem reads_toJson (v : Version) : Version.decoder.Reads 1 v.toJson v := by
  have hrecord := fields.reads_decode "VersionResponse" (by decide)
    (.given (Decoder.reads_string v.service) <| .given (Decoder.reads_string v.version) <|
      .given (Decoder.reads_string v.index) .nil)
  exact hrecord.bind rfl

end Version

/-! ## All records -/

/-- Each record that goes in or out is read back from its own text, and what is read from any text
is read again from its own text. The numbers of a movie must be finite for this, and are when they
have been read; and they must be legible. The other records hold no such numbers. -/
theorem records_faithful :
    Json.Faithful Movie.toJson Movie.decoder Movie.Finite (fun m => m.toJson.Legible) ∧
      Json.Faithful MovieResponse.toJson MovieResponse.decoder MovieResponse.Finite
        (fun r => r.toJson.Legible) ∧
      Json.Faithful FacetBucket.toJson FacetBucket.decoder (fun _ => True) (fun _ => True) ∧
      Json.Faithful Facets.toJson Facets.decoder (fun _ => True) (fun _ => True) ∧
      Json.Faithful Aggregation.toJson Aggregation.decoder (fun _ => True) (fun _ => True) ∧
      Json.Faithful Aggregation.allToJson Aggregation.allDecoder (fun _ => True) (fun _ => True) ∧
      Json.Faithful Version.toJson Version.decoder (fun _ => True) (fun _ => True) := by
  refine ⟨?movie, ?response, ?bucket, ?facets, ?aggregation, ?aggregations, ?version⟩
  case movie =>
    exact .of_reads (by decide) (fun _ => Movie.reads_toJson) fun _ => Movie.finite_of_yields
  case response =>
    exact .of_reads (by decide) (fun _ => MovieResponse.reads_toJson)
      fun _ => MovieResponse.finite_of_yields
  case bucket => exact .of_reads (by decide) (fun b _ _ => b.reads_toJson) fun _ _ => trivial
  case facets => exact .of_reads (by decide) (fun f _ _ => Facets.reads_toJson f) fun _ _ => trivial
  case aggregation => exact .of_reads (by decide) (fun a _ _ => a.reads_toJson) fun _ _ => trivial
  case aggregations =>
    exact .of_reads (by decide) (fun spec _ _ => Aggregation.reads_allToJson spec) fun _ _ => trivial
  case version => exact .of_reads (by decide) (fun v _ _ => v.reads_toJson) fun _ _ => trivial

/-- Records may stand as arrays, at every level. -/
example : MovieResponse.decoder.readString "[7,1,[],[[],[[\"Canada\",1]],[],[],[],[]]]"
    = .ok ⟨7, 1, [], ⟨[], [⟨"Canada", 1⟩], [], [], [], []⟩⟩ := by
  decide +kernel

end MovieCatalog
