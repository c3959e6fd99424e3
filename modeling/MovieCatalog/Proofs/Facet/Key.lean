import MovieCatalog.Proofs.Facet.Buckets
import MovieCatalog.Proofs.Facet.Integer
import MovieCatalog.Proofs.Request.Parameter
import MovieCatalog.Search.Basic

/-!
# Keys of facets as criteria

A value of a facet is shown under its key, and choosing it sends the key back as a parameter. A
whole number, as an integer or in floating point, has its decimal numeral as its key
(`FacetBucket.keyText_of_whole`), and this numeral is read as the number again: as itself where an
integer is wanted, and as the value nearest to it where a bound is wanted. So the search that
comes of it filters by the number that the engine has counted, and by nothing else
(`Facets.ofEngine_key_selects`).
-/

namespace MovieCatalog

namespace FacetBucket

/-- A key is a whole number: a signed integer of 64 bits, or a value in floating point without a
fraction and below `10^15`. Both zeros are zero. -/
inductive WholeKey : Json → Int → Prop
  | integer {n : Int} {held : Json.leastInteger ≤ n ∧ n < Json.integerBound}
      (hsigned : n < Word.half64) : WholeKey (.number (.integer n held)) n
  | float {x : Binary64} {finite : x.isFinite = true} {n : Int}
      (hwhole : x.units? = some (n * Binary64.one)) (hbound : n.natAbs < wholeBound) :
      WholeKey (.number (.float x finite)) n

/-- A whole number is shown in decimal digits. -/
theorem keyText_of_whole {key : Json} {n : Int} (h : WholeKey key n) :
    keyText key = String.ofList (Numeral.ofInt n) := by
  cases h with
  | integer hsigned => rw [keyText, if_pos hsigned]
  | float hwhole hbound =>
    rw [keyText, floatKey_of_small (Binary64.integer?_iff_units?.2 hwhole) hbound]

/-- A whole number is a signed integer of 64 bits. -/
theorem WholeKey.signed {key : Json} {n : Int} (h : WholeKey key n) :
    -(Word.half64 : Int) ≤ n ∧ n < Word.half64 := by
  cases h with
  | @integer _ held hsigned => exact ⟨held.1, hsigned⟩
  | float hwhole hbound =>
    have hsize : wholeBound < Word.half64 := by decide
    omega

end FacetBucket

/-! ## Requests with one criterion -/

namespace Parameter

/-- A form with one value of a parameter makes a request, and what is looked for is a query with one
filter. -/
structure Asks (p : Parameter) (value : String) (r : Request) (c : Clause) : Prop where
  request : Request.ofForm [(p.name, value)] = r
  query : (Search.ofRequest r).query = some ⟨[], [c], []⟩

/-- The four parameters that bound a number from one side, with the request that bounds nothing else
and the range that has this bound alone. -/
inductive Bounding (x : Binary64) : Parameter → Request → Clause → Prop
  | ratingMin : Bounding x .ratingMin { Request.empty with rating := ⟨some x, none⟩ }
      (.range Index.rating ⟨some x, none⟩)
  | ratingMax : Bounding x .ratingMax { Request.empty with rating := ⟨none, some x⟩ }
      (.range Index.rating ⟨none, some x⟩)
  | durationMin : Bounding x .durationMin { Request.empty with duration := ⟨some x, none⟩ }
      (.range Index.duration ⟨some x, none⟩)
  | durationMax : Bounding x .durationMax { Request.empty with duration := ⟨none, some x⟩ }
      (.range Index.duration ⟨none, some x⟩)

/-- A year that can be read asks for the movies of this year. -/
theorem asks_year {value : String} {n : Int64} (h : integer? value = some n) :
    Asks .year value { Request.empty with year := some n } (.term Index.year (.integer n)) where
  request := by rw [ofForm_single, Request.assign, h]
  query := rfl

/-- A finite bound that can be read asks for the range with this bound. -/
theorem asks_bound {p : Parameter} {value : String} {x : Binary64} {r : Request} {c : Clause}
    (h : number? value = some x) (hbounding : Bounding x p r c) : Asks p value r c where
  request := by
    cases hbounding <;> rw [ofForm_single, Request.assign, h] <;> rfl
  query := by
    have hfinite := isFinite_of_number? h
    cases hbounding <;>
      simp [Search.ofRequest, Search.queryOf, Search.wordClauses, Search.filterClauses,
        Search.genreClauses, Search.present?, Request.isUnfiltered, Request.isBound, Request.empty,
        Clause.range?, Bounds.usable?, Bounds.finite, Bounds.unbounded, hfinite]

/-- The numeral of an integer that is held exactly is read as the value nearest to it. -/
theorem number?_numeral {n : Int} (h : n.natAbs ≤ Word.size64) :
    number? (String.ofList (Numeral.ofInt n)) = some (.ofInt n) := by
  refine number?_of_read? ?_ (Binary64.isFinite_ofInt h)
  rw [String.toList_ofList]
  exact Binary64.read?_numeral n

end Parameter

open FacetBucket (WholeKey)

/-- The entry of a facet for a bucket that is counted under a whole number can be sent back. As a
year its key asks for just this year, and as one of the four bounds for the range that the value
nearest to the number bounds. -/
theorem Facets.ofEngine_key_selects {d : Dimension} {aggregations : Option Json}
    {buckets : List Json} {i : Nat} {bucket key : Json} {n : Int}
    (hbuckets : Delivers d aggregations buckets) (hbucket : buckets[i]? = some bucket)
    (hkey : bucket.get? "key" = some key) (hwhole : WholeKey key n) :
    ∃ entry, ((ofEngine aggregations).get d)[i]? = some entry ∧
      Parameter.Asks .year entry.key { Request.empty with year := some (.ofInt n) }
        (.term Index.year (.integer (.ofInt n))) ∧
      (Int64.ofInt n).toInt = n ∧
      (∀ p r c, Parameter.Bounding (.ofInt n) p r c → Parameter.Asks p entry.key r c) ∧
      (Binary64.ofInt n).NearestTo n 1 := by
  obtain ⟨hlow, hhigh⟩ := hwhole.signed
  have hsize : n.natAbs ≤ Word.size64 := by
    have hword : Word.half64 ≤ Word.size64 := by decide
    omega
  have hentry : (FacetBucket.ofEngine bucket).key = String.ofList (Numeral.ofInt n) := by
    rw [FacetBucket.ofEngine, hkey, Option.map_some, Option.getD_some,
      FacetBucket.keyText_of_whole hwhole]
  refine ⟨FacetBucket.ofEngine bucket, ?_, ?_, ?_, fun p r c hbounding => ?_, ?_⟩
  · rw [hbuckets.get_ofEngine, List.getElem?_map, hbucket, Option.map_some]
  · rw [hentry]
    exact Parameter.asks_year (Parameter.integer?_ofInt hlow hhigh)
  · exact Word.toInt_ofInt hlow hhigh
  · rw [hentry]
    exact Parameter.asks_bound (Parameter.number?_numeral hsize) hbounding
  · exact Binary64.nearestTo_ofInt hsize

/-- A year that lies between two neighbouring values in floating point, and minus zero as a rating:
the first one asks for itself as a year and for a value nearest to it as a bound, the second one for
zero. -/
theorem Facets.ofEngine_key_selects_between_values :
    let year := Json.object [("key", .number (.integer 9007199254740993 (by decide)))]
    let rating := Json.object [("key", .number (.float (.signedZero true) rfl))]
    let aggregations := Json.object
      [("by_year", .object [("buckets", .array [.null, year])]),
        ("by_rating", .object [("buckets", .array [rating])])]
    let even := Binary64.ofInt 9007199254740993
    (Delivers .year (some aggregations) [.null, year] ∧
      Delivers .rating (some aggregations) [rating]) ∧
      (WholeKey (.number (.integer 9007199254740993 (by decide))) 9007199254740993 ∧
        WholeKey (.number (.float (.signedZero true) rfl)) 0) ∧
      ((ofEngine (some aggregations)).get .year)[1]? = some ⟨"9007199254740993", 0⟩ ∧
      Request.ofForm [("year", "9007199254740993")]
        = { Request.empty with year := some 9007199254740993 } ∧
      (Search.ofRequest { Request.empty with year := some 9007199254740993 }).query
        = some ⟨[], [.term Index.year (.integer 9007199254740993)], []⟩ ∧
      Request.ofForm [("durationMax", "9007199254740993")]
        = { Request.empty with duration := ⟨none, some even⟩ } ∧
      (even = .ofInt 9007199254740992 ∧ even.NearestTo 9007199254740993 1) ∧
      ((ofEngine (some aggregations)).get .rating)[0]? = some ⟨"0", 0⟩ ∧
      Request.ofForm [("ratingMin", "0")]
        = { Request.empty with rating := ⟨some .zero, none⟩ } ∧
      (Search.ofRequest { Request.empty with rating := ⟨some .zero, none⟩ }).query
        = some ⟨[], [.range Index.rating ⟨some .zero, none⟩], []⟩ := by
  intro year rating aggregations even
  have hyears : Delivers .year (some aggregations) [.null, year] := .array rfl rfl
  have hratings : Delivers .rating (some aggregations) [rating] := .array rfl rfl
  have hyear : WholeKey (.number (.integer 9007199254740993 (by decide))) 9007199254740993 :=
    .integer (by decide)
  have hrating : WholeKey (.number (.float (.signedZero true) rfl)) 0 :=
    .float (congrArg some (Int.zero_mul _).symm) (by decide)
  obtain ⟨entry, hentry, hasks, -, hbound, hnearest⟩ :=
    ofEngine_key_selects (i := 1) hyears rfl rfl hyear
  obtain ⟨entry0, hentry0, -, -, hbound0, -⟩ :=
    ofEngine_key_selects (i := 0) hratings rfl rfl hrating
  have hkey : ((ofEngine (some aggregations)).get .year)[1]? = some ⟨"9007199254740993", 0⟩ := by
    decide +kernel
  have hkey0 : ((ofEngine (some aggregations)).get .rating)[0]? = some ⟨"0", 0⟩ := by
    decide +kernel
  obtain rfl := Option.some.inj (hentry.symm.trans hkey)
  obtain rfl := Option.some.inj (hentry0.symm.trans hkey0)
  have hzero : Binary64.ofInt 0 = .zero := by decide +kernel
  rw [hzero] at hbound0
  have hleast := hbound0 _ _ _ .ratingMin
  exact ⟨⟨hyears, hratings⟩, ⟨hyear, hrating⟩, hkey, hasks.request, hasks.query,
    (hbound _ _ _ .durationMax).request, ⟨by decide +kernel, hnearest⟩, hkey0, hleast.request,
    hleast.query⟩

end MovieCatalog
