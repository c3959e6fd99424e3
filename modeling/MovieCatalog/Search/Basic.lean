import MovieCatalog.Facet.Aggregation
import MovieCatalog.Query.Codec
import MovieCatalog.Request.Basic

/-!
# Searches

A search is what a request comes to: a query, or none when every movie matches, and the window of
the result that makes up the wanted page. It is sent to the engine together with the counts along
all dimensions.
-/

namespace MovieCatalog

/-- A search. -/
structure Search where
  query : Option Query
  /-- The number of results before the window. -/
  offset : UInt64
  /-- The number of results in the window. -/
  size : UInt64
deriving DecidableEq, Inhabited

namespace Search

/-- The size of a page when none is asked for. -/
def defaultSize : UInt64 := 10

/-- The country that every request for a country comes to. -/
def pinnedCountry : String := "Canada"

/-- The product, or the greatest number of 64 bits if the product exceeds it. -/
def saturatingMul (a b : UInt64) : UInt64 :=
  .ofNat (min (a.toNat * b.toNat) (Word.size64 - 1))

/-- The size of a page: the limit, unless it is zero or absent. -/
def sizeOf (limit : Option UInt64) : UInt64 :=
  (limit.filter (0 < ·)).getD defaultSize

/-- The number of results before a page. -/
def offsetOf (page : Option UInt64) (size : UInt64) : UInt64 :=
  ((page.filter (0 < ·)).map (saturatingMul · size)).getD 0

/-- A text that is not blank, as it is given. -/
def present? (text : Option String) : Option String :=
  text.filter fun s => !decide (Text.AllBlank s)

/-- The clause for the wanted words. -/
def wordClauses (r : Request) : List Clause :=
  ((present? r.words).map (Clause.multiMatch · Index.wordFields)).toList

/-- The clauses for the criteria that every match has to meet. -/
def filterClauses (r : Request) : List Clause :=
  [(present? r.country).map fun _ => .term Index.country (.text pinnedCountry),
    Clause.range? Index.rating r.rating,
    (present? r.language).map fun s => .term Index.language (.text s),
    r.year.map fun n => .term Index.year (.integer n),
    Clause.range? Index.duration r.duration].filterMap id

/-- The clauses for the wanted genres, any of which qualifies a movie. -/
def genreClauses (r : Request) : List Clause :=
  r.genres.map fun g => .term Index.genre (.text g)

/-- The query with a clause for each criterion of a request. -/
def queryOf (r : Request) : Query where
  must := wordClauses r
  filter := filterClauses r
  should := genreClauses r

/-- The search that a request comes to. -/
def ofRequest (r : Request) : Search where
  query := if r.isUnfiltered then none else some (queryOf r)
  offset := offsetOf r.page (sizeOf r.limit)
  size := sizeOf r.limit

/-- The search for the counts over the whole index, without any results. -/
def countsOnly : Search := ⟨none, 0, 0⟩

/-- Equality of searches, bounds being compared as numbers. -/
def equal (s t : Search) : Bool :=
  s.offset = t.offset && s.size = t.size &&
    match s.query, t.query with
    | some q, some r => q.equal r
    | none, none => true
    | _, _ => false

/-- What is sent to the engine. -/
def body (s : Search) : Json :=
  .object <|
    [("from", .ofUInt64 s.offset), ("size", .ofUInt64 s.size)]
      ++ (s.query.map fun q => ("query", q.toJson)).toList
      ++ [("aggs", Aggregation.allToJson Aggregation.all)]

end Search

end MovieCatalog
