import MovieCatalog.Facet.Dimension
import MovieCatalog.Index

/-!
# Counting along a dimension

The engine counts the movies with the same value of a field. Values that are texts or plain numbers
are counted as they are, the most frequent ones first; numbers on a scale are put into steps of a
fixed width. Every search asks for the same six counts, one for each dimension.
-/

namespace MovieCatalog

/-- A way to count. -/
inductive Aggregation where
  /-- Counts the values of a field, `size` of them at most. -/
  | terms (field : String) (size : UInt32)
  /-- Counts numbers in steps of a width, without the steps that hold fewer than `least`. -/
  | histogram (field : String) (interval least : UInt32)
deriving DecidableEq, Inhabited

namespace Aggregation

/-- The number of values that are counted at most. -/
def termsSize : UInt32 := 100

/-- Counts the most frequent values of a field. -/
def ofValues (field : String) : Aggregation := .terms field termsSize

/-- Counts numbers in steps of one, without empty steps. -/
def ofSteps (field : String) : Aggregation := .histogram field 1 1

/-- The way to count along a dimension. -/
def ofDimension : Dimension → Aggregation
  | .rating => ofSteps Index.rating
  | .country => ofValues Index.country
  | .language => ofValues Index.language
  | .year => ofSteps Index.year
  | .genre => ofValues Index.genre
  | .duration => ofSteps Index.duration

/-- The name of the count along a dimension. -/
def key (d : Dimension) : String := "by_" ++ d.name

/-- The counts that every search asks for. -/
def all : PerDimension Aggregation := .ofFunction ofDimension

/-- The aggregation as JSON. -/
def toJson : Aggregation → Json
  | .terms field size =>
    .object [("terms", .object [("field", .string field), ("size", .ofUInt32 size)])]
  | .histogram field interval least =>
    .object [("histogram", .object [("field", .string field), ("interval", .ofUInt32 interval),
      ("min_doc_count", .ofUInt32 least)])]

/-- The aggregations of all dimensions as JSON. -/
def allToJson (spec : PerDimension Aggregation) : Json :=
  spec.toJson key toJson

/-- Reads how values are counted. -/
def termsDecoder : Json.Decoder Aggregation := fun ctx n => do
  let (field, size, ()) ← Json.Fields.decode "TermsAggregation"
    (.cons (.required "field" .string) (.cons (.required "size" .natural32) .nil)) ctx n
  return .terms field size

/-- Reads how numbers are counted in steps. -/
def histogramDecoder : Json.Decoder Aggregation := fun ctx n => do
  let (field, interval, least, ()) ← Json.Fields.decode "HistogramAggregation"
    (.cons (.required "field" .string) (.cons (.required "interval" .natural32)
      (.cons (.required "min_doc_count" .natural32) .nil))) ctx n
  return .histogram field interval least

/-- Reads an aggregation. -/
def decoder : Json.Decoder Aggregation :=
  .oneOf [.withContent "terms" termsDecoder, .withContent "histogram" histogramDecoder]

/-- Reads the aggregations of all dimensions. -/
def allDecoder : Json.Decoder (PerDimension Aggregation) :=
  PerDimension.decoder "AggregationSpec" key decoder

end Aggregation

end MovieCatalog
