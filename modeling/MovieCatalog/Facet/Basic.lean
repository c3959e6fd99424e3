import MovieCatalog.Binary64.Integral
import MovieCatalog.Facet.Aggregation

/-!
# Facets

A facet lists the values that occur along a dimension, each with the number of movies that have it.
The values stand in the order in which the engine delivers them. A missing or malformed count leaves
its own facet empty and disturbs no other one.
-/

namespace MovieCatalog

/-- A value along a dimension with the number of movies that have it. -/
structure FacetBucket where
  key : String
  count : UInt64
deriving DecidableEq, Inhabited

/-- A list of values for each dimension. -/
abbrev Facets := PerDimension (List FacetBucket)

namespace FacetBucket

/-- The bucket as JSON. -/
def toJson (b : FacetBucket) : Json :=
  .object [("key", .string b.key), ("count", .ofUInt64 b.count)]

/-- The buckets of one dimension as JSON. -/
def listToJson (buckets : List FacetBucket) : Json :=
  .array (buckets.map toJson)

/-- Reads a bucket. -/
def decoder : Json.Decoder FacetBucket := fun ctx n => do
  let (key, count, ()) ← Json.Fields.decode "FacetBucket"
    (.cons (.required "key" .string) (.cons (.required "count" .natural64) .nil)) ctx n
  return ⟨key, count⟩

/-- Floating-point keys are written out in full, without a power of ten and without a point where
none is needed. -/
def keyLayout : Binary64.Layout where
  plain _ := true
  pointZero := false
  tie := .up

/-- The bound below which whole floating-point keys are written as integers. -/
def wholeBound : Nat := tenTo 15

/-- The text of a floating-point key. -/
def floatKey (x : Binary64) : List Char :=
  match (x.wholeBelow? (.ofInt wholeBound)).map (·.toInt) with
  | some n => Numeral.ofInt n
  | none =>
    match x with
    | .finite negative ordinal => keyLayout.text negative ordinal
    | .infinite _ | .nan => []

/-- The text of a key: a text as it is, a number as a numeral, and nothing for what is neither.
Integers beyond 63 bits are taken as floating-point numbers. -/
def keyText : Json → String
  | .string s => s
  | .number (.integer n held) =>
    if n < Word.half64 then String.ofList (Numeral.ofInt n)
    else String.ofList (floatKey (Json.Number.integer n held).toBinary64)
  | .number (.float x _) => String.ofList (floatKey x)
  | .boolean b => if b then "true" else "false"
  | .null | .array _ | .object _ => ""

/-- The count that a JSON value is: an integer that is not negative. -/
def countOf : Json → UInt64
  | .number (.integer n _) => if 0 ≤ n then .ofNat n.toNat else 0
  | _ => 0

/-- The bucket for what the engine delivers; what is missing in it becomes empty or zero. -/
def ofEngine (bucket : Json) : FacetBucket where
  key := ((bucket.get? "key").map keyText).getD ""
  count := ((bucket.get? "doc_count").map countOf).getD 0

/-- The buckets in what the engine delivers for one dimension. -/
def listOfEngine (aggregation : Json) : List FacetBucket :=
  match aggregation.get? "buckets" with
  | some (.array buckets) => buckets.map ofEngine
  | _ => []

end FacetBucket

namespace Facets

/-- Facets without values. -/
def empty : Facets := .ofFunction fun _ => []

/-- Takes over what the engine delivers for one dimension, if it delivers anything for it. -/
def take (aggregations : Json) (facets : Facets) (d : Dimension) : Facets :=
  match aggregations.get? (Aggregation.key d) with
  | some aggregation => facets.modify d fun _ => FacetBucket.listOfEngine aggregation
  | none => facets

/-- The facets in what the engine delivers. -/
def ofEngine (aggregations : Option Json) : Facets :=
  match aggregations with
  | some v => Dimension.all.foldl (take v) empty
  | none => empty

/-- The facets as JSON. -/
def toJson (facets : Facets) : Json :=
  PerDimension.toJson Dimension.name FacetBucket.listToJson facets

/-- Reads facets. -/
def decoder : Json.Decoder Facets :=
  PerDimension.decoder "Facets" Dimension.name (.list FacetBucket.decoder)

end Facets

/-- A change of the facets of one dimension. -/
inductive FacetStep where
  | push (bucket : FacetBucket)
  | clear
  | look
deriving DecidableEq

namespace FacetStep

/-- The list of one dimension after a step. -/
def apply (step : FacetStep) (buckets : List FacetBucket) : List FacetBucket :=
  match step with
  | .push b => buckets ++ [b]
  | .clear => []
  | .look => buckets

end FacetStep

/-- The facets after a step on one dimension. -/
def Facets.step (facets : Facets) (d : Dimension) (step : FacetStep) : Facets :=
  facets.modify d step.apply

end MovieCatalog
