import MovieCatalog.Facet.Basic
import MovieCatalog.Proofs.Json.Record
import MovieCatalog.Proofs.Json.Strings

/-!
# Entries of all dimensions read back

A record with an entry for each dimension is read back if its entries are and no two dimensions have
the same key (`PerDimension.reads_toJson`). So the counts that a search asks for are read back from
what is sent (`Aggregation.reads_allToJson`), and facets from what they are written as
(`Facets.reads_toJson`). What is written for the counts holds the counted fields as strings and
nothing but fixed keys.
-/

namespace MovieCatalog

open Json (Decoder Fields Framed)

namespace PerDimension

variable {α : Type}

/-- The fields of a record with an entry for each dimension. -/
abbrev fields (key : Dimension → String) (entry : Decoder α) :
    Fields (α × α × α × α × α × α × Unit) :=
  .cons (.required (key .rating) entry) <| .cons (.required (key .country) entry) <|
    .cons (.required (key .language) entry) <| .cons (.required (key .year) entry) <|
    .cons (.required (key .genre) entry) <| .cons (.required (key .duration) entry) .nil

/-- A record is read back if its entries are. -/
theorem reads_toJson (record : String) {key : Dimension → String}
    (hkeys : (Dimension.all.map key).Nodup) {entry : Decoder α} {entryJson : α → Json} {depth : Nat}
    {r : PerDimension α} (h : ∀ d, entry.Reads depth (entryJson (r.get d)) (r.get d)) :
    (decoder record key entry).Reads (depth + 1) (r.toJson key entryJson) r := by
  have hrecord := (fields key entry).reads_decode record hkeys
    (.given (h .rating) <| .given (h .country) <| .given (h .language) <| .given (h .year) <|
      .given (h .genre) <| .given (h .duration) .nil)
  exact hrecord.bind rfl

/-- A record has one level more than its entries. -/
theorem depth_toJson_le {key : Dimension → String} {entryJson : α → Json} {depth : Nat}
    {r : PerDimension α} (h : ∀ d, (entryJson (r.get d)).depth ≤ depth) :
    (r.toJson key entryJson).depth ≤ depth + 1 :=
  Json.depth_object_le_iff.2 (List.forall_mem_map.2 fun d _ => h d)

end PerDimension

/-! ## Facets -/

namespace FacetBucket

/-- The fields of a bucket. -/
abbrev fields : Fields (String × UInt64 × Unit) :=
  .cons (.required "key" .string) (.cons (.required "count" .natural64) .nil)

/-- A bucket is read back. -/
theorem reads_toJson (b : FacetBucket) : FacetBucket.decoder.Reads 1 b.toJson b := by
  have hrecord := fields.reads_decode "FacetBucket" (by decide)
    (.given (Decoder.reads_string b.key) (.given (Decoder.reads_natural64 b.count) .nil))
  exact hrecord.bind rfl

/-- The buckets of a dimension are read back. -/
theorem reads_listToJson (buckets : List FacetBucket) :
    (Decoder.list decoder).Reads 2 (listToJson buckets) buckets :=
  Decoder.reads_list fun b _ => b.reads_toJson

theorem depth_listToJson_le (buckets : List FacetBucket) : (listToJson buckets).depth ≤ 2 := by
  refine Json.depth_array_le_iff.2 (List.forall_mem_map.2 fun b _ => ?_)
  refine Json.depth_object_le_iff.2 (List.forall_mem_cons.2 ⟨Nat.le_refl 0, ?_⟩)
  exact List.forall_mem_singleton.2 (Nat.le_refl 0)

end FacetBucket

namespace Facets

/-- Different dimensions have different names. -/
theorem name_nodup : (Dimension.all.map Dimension.name).Nodup := by
  decide

/-- Facets are read back. -/
theorem reads_toJson (facets : Facets) : Facets.decoder.Reads 3 (Facets.toJson facets) facets :=
  PerDimension.reads_toJson "Facets" name_nodup fun d => FacetBucket.reads_listToJson (facets.get d)

/-- Facets hold no floating-point numbers. -/
@[simp] theorem legible_toJson (facets : Facets) : (Facets.toJson facets).Legible := by
  refine .object (List.forall_mem_map.2 fun d _ => .array (List.forall_mem_map.2 fun b _ => ?_))
  simp [FacetBucket.toJson]

theorem depth_toJson_le (facets : Facets) : (Facets.toJson facets).depth ≤ 3 :=
  PerDimension.depth_toJson_le fun d => FacetBucket.depth_listToJson_le (facets.get d)

end Facets

/-! ## Aggregations -/

namespace Aggregation

/-- The fields of what is said of counted values. -/
abbrev termsFields : Fields (String × UInt32 × Unit) :=
  .cons (.required "field" .string) (.cons (.required "size" .natural32) .nil)

/-- The fields of what is said of counted steps. -/
abbrev histogramFields : Fields (String × UInt32 × UInt32 × Unit) :=
  .cons (.required "field" .string) (.cons (.required "interval" .natural32)
    (.cons (.required "min_doc_count" .natural32) .nil))

/-- An aggregation is read back by the decoder of its kind. -/
theorem reads_toJson (a : Aggregation) : Aggregation.decoder.Reads 2 a.toJson a := by
  cases a with
  | terms field size =>
    have hrecord := termsFields.reads_decode "TermsAggregation" (by decide)
      (.given (Decoder.reads_string field) (.given (Decoder.reads_natural32 size) .nil))
    exact Decoder.reads_oneOf rfl (hrecord.bind rfl)
  | histogram field interval least =>
    have hrecord := histogramFields.reads_decode "HistogramAggregation" (by decide)
      (.given (Decoder.reads_string field) (.given (Decoder.reads_natural32 interval)
        (.given (Decoder.reads_natural32 least) .nil)))
    exact Decoder.reads_oneOf rfl (hrecord.bind rfl)

/-- Different dimensions are counted under different keys. -/
theorem key_nodup : (Dimension.all.map key).Nodup := by
  decide

/-- The aggregations of all dimensions are read back. -/
theorem reads_allToJson (spec : PerDimension Aggregation) :
    allDecoder.Reads 3 (allToJson spec) spec :=
  PerDimension.reads_toJson "AggregationSpec" key_nodup fun d => (spec.get d).reads_toJson

/-! ## Contents -/

/-- The field whose values are counted. -/
def field : Aggregation → String
  | .terms field _ => field
  | .histogram field _ _ => field

/-- The only free text in a count is the name of its field. -/
theorem strings_toJson (a : Aggregation) : a.toJson.node.strings = [.ofString a.field] := by
  cases a <;> simp [toJson, field, Json.ofUInt32]

/-- The free texts in all counts are the names of their fields, in the order of the dimensions. -/
theorem strings_allToJson (spec : PerDimension Aggregation) :
    (allToJson spec).node.strings
      = (Dimension.all.map fun d => (spec.get d).field).map .ofString := by
  simp [allToJson, PerDimension.toJson, Dimension.all, strings_toJson]

/-- The keys of the aggregations. -/
def fixedKeys : List String :=
  ["terms", "histogram", "field", "size", "interval", "min_doc_count"]
    ++ Dimension.all.map Aggregation.key

/-- A count has no keys but fixed ones, on two levels. -/
theorem framed_toJson {names : List String} {depth : Nat} (hnames : fixedKeys ⊆ names)
    (a : Aggregation) : Framed names (depth + 2) a.toJson := by
  cases a with
  | terms field size =>
    refine Json.framed_singleton (hnames (by simp [fixedKeys])) (Json.framed_object ?_)
    refine List.forall_mem_cons.2 ⟨?_, List.forall_mem_singleton.2 ?_⟩
    · exact ⟨hnames (by simp [fixedKeys]), Json.framed_string field⟩
    · exact ⟨hnames (by simp [fixedKeys]), Json.framed_number _⟩
  | histogram field interval least =>
    refine Json.framed_singleton (hnames (by simp [fixedKeys])) (Json.framed_object ?_)
    refine List.forall_mem_cons.2
      ⟨?_, List.forall_mem_cons.2 ⟨?_, List.forall_mem_singleton.2 ?_⟩⟩
    · exact ⟨hnames (by simp [fixedKeys]), Json.framed_string field⟩
    · exact ⟨hnames (by simp [fixedKeys]), Json.framed_number _⟩
    · exact ⟨hnames (by simp [fixedKeys]), Json.framed_number _⟩

/-- All counts together have no keys but fixed ones, on three levels. -/
theorem framed_allToJson {names : List String} {depth : Nat} (hnames : fixedKeys ⊆ names)
    (spec : PerDimension Aggregation) : Framed names (depth + 3) (allToJson spec) := by
  refine Json.framed_object (List.forall_mem_map.2 fun d hd => ⟨hnames ?_, framed_toJson hnames _⟩)
  exact List.mem_append_right _ (List.mem_map_of_mem hd)

end Aggregation

end MovieCatalog
