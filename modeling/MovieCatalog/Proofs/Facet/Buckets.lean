import MovieCatalog.Facet.Basic

/-!
# Facets keep out of each other's way

Taking over the count along one dimension changes the facet of this dimension and no other one
(`Facets.get_take`), so after all counts have been taken over, every facet is what its own count
gives and does not depend on the others (`Facets.get_foldl_take`). A facet has one value for each
bucket that the engine delivers for it (`Facets.Delivers`), and each value comes from its own
bucket, whatever the other buckets are (`Facets.ofEngine_bucket_by_bucket`).
-/

namespace MovieCatalog

/-- What is delivered for one dimension gives the buckets that it holds in an array, and else
none. -/
theorem FacetBucket.listOfEngine_of_buckets {aggregation : Json} {buckets : List Json}
    (h : aggregation.get? "buckets" = some (.array buckets)) :
    listOfEngine aggregation = buckets.map ofEngine := by
  rw [listOfEngine, h]

/-- What has no array of buckets delivers nothing. -/
theorem FacetBucket.listOfEngine_eq_nil {aggregation : Json}
    (h : ∀ buckets, aggregation.get? "buckets" ≠ some (.array buckets)) :
    listOfEngine aggregation = [] := by
  unfold listOfEngine
  split
  · next buckets hbuckets => exact absurd hbuckets (h buckets)
  · rfl

namespace Facets

/-- The engine delivers buckets along a dimension: there is an object, its member under the key of
the dimension is an object too, and the member `buckets` of this one is an array. -/
inductive Delivers (d : Dimension) : Option Json → List Json → Prop
  | array {members count : List (String × Json)} {buckets : List Json}
      (hcount : members.lookup (Aggregation.key d) = some (.object count))
      (hbuckets : count.lookup "buckets" = some (.array buckets)) :
      Delivers d (some (.object members)) buckets

/-- What a facet becomes when the count along its dimension is taken over: the values in this count,
if there is one. -/
def taken (aggregations : Json) (d : Dimension) (values : List FacetBucket) : List FacetBucket :=
  ((aggregations.get? (Aggregation.key d)).map FacetBucket.listOfEngine).getD values

/-- A count that is taken over twice is as good as taken over once. -/
theorem taken_taken (aggregations : Json) (d : Dimension) (values : List FacetBucket) :
    taken aggregations d (taken aggregations d values) = taken aggregations d values := by
  unfold taken
  cases aggregations.get? (Aggregation.key d) <;> rfl

/-- The count along one dimension is taken over into the facet of this dimension alone. -/
theorem get_take (aggregations : Json) (facets : Facets) (d e : Dimension) :
    (take aggregations facets d).get e
      = if e = d then taken aggregations e (facets.get e) else facets.get e := by
  unfold take taken
  by_cases h : e = d
  · subst h
    rw [if_pos rfl]
    cases aggregations.get? (Aggregation.key e) with
    | none => rfl
    | some aggregation => exact PerDimension.get_modify_self facets e _
  · rw [if_neg h]
    cases aggregations.get? (Aggregation.key d) with
    | none => rfl
    | some aggregation => exact PerDimension.get_modify_of_ne facets _ h

/-- After the counts along several dimensions have been taken over, in any order and any of them
more than once, the facet of each of these dimensions is what its own count gives, and the other
facets are as before. -/
theorem get_foldl_take (aggregations : Json) (ds : List Dimension) (facets : Facets)
    (e : Dimension) :
    (ds.foldl (take aggregations) facets).get e
      = if e ∈ ds then taken aggregations e (facets.get e) else facets.get e := by
  induction ds generalizing facets with
  | nil => rfl
  | cons d ds ih =>
    rw [List.foldl_cons, ih, get_take]
    by_cases hd : e = d
    · subst hd
      rw [if_pos rfl, if_pos List.mem_cons_self, taken_taken, ite_self]
    · rw [if_neg hd]
      simp only [List.mem_cons, hd, false_or]

/-- Every facet is what its own count gives. -/
theorem get_ofEngine (aggregations : Json) (d : Dimension) :
    (ofEngine (some aggregations)).get d = taken aggregations d [] := by
  rw [ofEngine, get_foldl_take, if_pos d.mem_all, empty, PerDimension.get_ofFunction]

/-- Where nothing is delivered at all, every facet is empty. -/
theorem get_ofEngine_none (d : Dimension) : (ofEngine none).get d = [] := by
  rw [ofEngine, empty, PerDimension.get_ofFunction]

/-- A facet has a value for each bucket that is delivered for it. -/
theorem Delivers.get_ofEngine {d : Dimension} {aggregations : Option Json} {buckets : List Json}
    (h : Delivers d aggregations buckets) :
    (ofEngine aggregations).get d = buckets.map FacetBucket.ofEngine := by
  cases h with
  | array hcount hbuckets =>
    rw [Facets.get_ofEngine, taken, Json.get?, hcount, Option.map_some, Option.getD_some]
    exact FacetBucket.listOfEngine_of_buckets hbuckets

/-- A facet for which no buckets are delivered is empty. -/
theorem get_ofEngine_of_not_delivers {d : Dimension} {aggregations : Option Json}
    (h : ∀ buckets, ¬ Delivers d aggregations buckets) : (ofEngine aggregations).get d = [] := by
  cases aggregations with
  | none => exact get_ofEngine_none d
  | some v =>
    rw [get_ofEngine, taken]
    cases hcount : v.get? (Aggregation.key d) with
    | none => rfl
    | some aggregation =>
      refine FacetBucket.listOfEngine_eq_nil fun buckets hbuckets => ?_
      -- only objects have members
      cases v with
      | object members =>
        cases aggregation with
        | object count => exact h buckets (.array hcount hbuckets)
        | _ => cases hbuckets
      | _ => cases hcount

/-- A facet depends on nothing but the count along its own dimension. It has one value for each
bucket in this count, in the same order, and each value depends on nothing but the bucket in its
place, whatever the other buckets are. Where the engine delivers no buckets for it, it is empty.
-/
theorem ofEngine_bucket_by_bucket (d : Dimension) :
    (∀ a b : Json, a.get? (Aggregation.key d) = b.get? (Aggregation.key d) →
      (ofEngine (some a)).get d = (ofEngine (some b)).get d) ∧
    (∀ aggregations buckets, Delivers d aggregations buckets →
      ((ofEngine aggregations).get d).length = buckets.length ∧
      (∀ i : Nat, ((ofEngine aggregations).get d)[i]? = buckets[i]?.map FacetBucket.ofEngine) ∧
      ∀ aggregations' buckets', ∀ i : Nat, Delivers d aggregations' buckets' →
        buckets'[i]? = buckets[i]? →
        ((ofEngine aggregations').get d)[i]? = ((ofEngine aggregations).get d)[i]?) ∧
    ∀ aggregations, (∀ buckets, ¬ Delivers d aggregations buckets) →
      (ofEngine aggregations).get d = [] := by
  refine ⟨fun a b hsame => ?_, fun aggregations buckets h => ⟨?_, fun i => ?_, ?_⟩, fun _ h => ?_⟩
  · rw [get_ofEngine, get_ofEngine, taken, taken, hsame]
  · rw [h.get_ofEngine, List.length_map]
  · rw [h.get_ofEngine, List.getElem?_map]
  · intro aggregations' buckets' i h' hsame
    rw [h.get_ofEngine, h'.get_ofEngine, List.getElem?_map, List.getElem?_map, hsame]
  · exact get_ofEngine_of_not_delivers h

/-- Three genres of which two are malformed, beside a year that is no object: the genres are the
same beside other counts, the second one is the same between other buckets, and there are no
years. -/
theorem ofEngine_bucket_by_bucket_drama :
    let drama := Json.object [("key", .string "Drama"), ("doc_count", .ofUInt64 30)]
    let genres := [Json.null, drama, .object [("doc_count", .string "x")]]
    let others := [Json.array [], drama]
    let count := fun buckets : List Json => Json.object [("buckets", .array buckets)]
    let a := Json.object [("by_genre", count genres), ("by_year", .null)]
    let b := Json.object [("by_rating", .string ""), ("by_genre", count genres)]
    let c := Json.object [("by_genre", count others)]
    (ofEngine (some a)).get .genre = (ofEngine (some b)).get .genre ∧
      ((ofEngine (some a)).get .genre).length = 3 ∧
      (ofEngine (some a)).get .genre = [⟨"", 0⟩, ⟨"Drama", 30⟩, ⟨"", 0⟩] ∧
      ((ofEngine (some c)).get .genre)[1]? = ((ofEngine (some a)).get .genre)[1]? ∧
      (ofEngine (some a)).get .year = [] := by
  intro drama genres others count a b c
  obtain ⟨hsame, hbuckets, -⟩ := ofEngine_bucket_by_bucket .genre
  have ha : Delivers .genre (some a) genres := .array rfl rfl
  have hc : Delivers .genre (some c) others := .array rfl rfl
  obtain ⟨hlength, -, hother⟩ := hbuckets _ _ ha
  have hyear : ∀ buckets, ¬ Delivers .year (some a) buckets := by
    intro buckets h
    subst a
    cases h with
    | array hcount => cases hcount
  exact ⟨hsame a b rfl, hlength, by decide +kernel, hother _ _ 1 hc rfl,
    (ofEngine_bucket_by_bucket .year).2.2 _ hyear⟩

end Facets

end MovieCatalog
