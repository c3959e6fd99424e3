import MovieCatalog.Proofs.Search.Presence
import MovieCatalog.Query.Meaning
import Mathlib.Tactic.ByContra

/-!
# What a search finds

The criteria of a request have a meaning of their own, which does not speak of clauses
(`Request.MeetsAll`). The clauses that constrain together say exactly this
(`Search.holdsAll_iff_meetsAll`). The genres are alternatives, and alternatives constrain only a
query without other clauses; so a movie of another genre is found as soon as anything else is asked
for that a movie can meet (`Search.genres_constrain_iff`).
-/

namespace MovieCatalog

variable {Document : Type} {k : Reading Document} {d : Document}

/-! ## Criteria -/

/-- A field holds a number that the finite ones of two bounds admit; if neither is finite, nothing
is asked of the field. -/
def Reading.Within (k : Reading Document) (d : Document) (field : String) (b : Bounds) : Prop :=
  Request.isBound b.least = true ∨ Request.isBound b.greatest = true →
    ∃ x, k.HoldsNumber d field x ∧
      (∀ low, b.least = some low → low.isFinite = true → low.atMost x = true) ∧
      ∀ high, b.greatest = some high → high.isFinite = true → x.atMost high = true

/-- A document meets the criteria of a request, the genres aside. What is absent, blank or not
finite asks for nothing; any country that is asked for stands for the pinned one. -/
structure Request.MeetsAll (k : Reading Document) (r : Request) (d : Document) : Prop where
  words : ∀ s, r.words = some s → ¬ Text.AllBlank s → k.Finds d s Index.wordFields
  country : ∀ s, r.country = some s → ¬ Text.AllBlank s →
    k.Holds d Index.country (.text Search.pinnedCountry)
  rating : k.Within d Index.rating r.rating
  language : ∀ s, r.language = some s → ¬ Text.AllBlank s → k.Holds d Index.language (.text s)
  year : ∀ n, r.year = some n → k.Holds d Index.year (.integer n)
  duration : k.Within d Index.duration r.duration

/-- A request asks for nothing but genres. -/
def Request.OnlyGenres (r : Request) : Prop :=
  ({ r with genres := [] } : Request).isUnfiltered = true

/-- Documents given by the values of their fields. A number is an integer that a field has, and
words are found when a field is exactly these words. -/
def Reading.ofValues : Reading (List (String × TermValue)) where
  Holds d field v := (field, v) ∈ d
  HoldsNumber d field x := ∃ n : Int64, (field, .integer n) ∈ d ∧ x = .ofInt n.toInt
  Finds d words fields := ∃ field ∈ fields, (field, .text words) ∈ d

namespace Search

/-- The clause for a range says that the field lies within the bounds. -/
theorem range?_holds_iff {field : String} {b : Bounds} :
    (∀ c, Clause.range? field b = some c → c.Holds k d) ↔ k.Within d field b := by
  simp only [Clause.range?, Option.map_eq_some_iff, Bounds.usable?_eq_some_iff, Reading.Within,
    ← Bounds.admits_finite_iff]
  constructor
  · intro h hbound
    exact h _ ⟨_, ⟨hbound, rfl⟩, rfl⟩
  · rintro h _ ⟨_, ⟨hbound, rfl⟩, rfl⟩
    exact h hbound

/-- The clause for a text that may be blank. -/
theorem present?_map_holds_iff {text : Option String} {clause : String → Clause} :
    (∀ c, (present? text).map clause = some c → c.Holds k d) ↔
      ∀ s, text = some s → ¬ Text.AllBlank s → (clause s).Holds k d := by
  simp only [Option.map_eq_some_iff, present?_eq_some_iff]
  constructor
  · intro h s hs hblank
    exact h _ ⟨s, ⟨hs, hblank⟩, rfl⟩
  · rintro h _ ⟨s, ⟨hs, hblank⟩, rfl⟩
    exact h s hs hblank

/-- The clauses for words hold if the words, when they are not blank, are found. -/
theorem wordClauses_hold_iff {r : Request} :
    (∀ c ∈ wordClauses r, c.Holds k d) ↔
      ∀ s, r.words = some s → ¬ Text.AllBlank s → k.Finds d s Index.wordFields := by
  simp only [wordClauses, Option.mem_toList]
  exact present?_map_holds_iff

/-- Clauses that may be missing hold when those that are there do. -/
theorem filterMap_id_hold_iff {clauses : List (Option Clause)} :
    (∀ c ∈ clauses.filterMap id, c.Holds k d) ↔
      ∀ o ∈ clauses, ∀ c, o = some c → c.Holds k d := by
  simp only [List.mem_filterMap, id_eq]
  constructor
  · intro h o ho c hc
    exact h c ⟨o, ho, hc⟩
  · rintro h c ⟨o, ho, hc⟩
    exact h o ho c hc

/-- The clauses that filter hold when the clause of each criterion does. -/
theorem filterClauses_hold_iff {r : Request} :
    (∀ c ∈ filterClauses r, c.Holds k d) ↔
      (∀ s, r.country = some s → ¬ Text.AllBlank s →
        k.Holds d Index.country (.text pinnedCountry)) ∧
      k.Within d Index.rating r.rating ∧
      (∀ s, r.language = some s → ¬ Text.AllBlank s → k.Holds d Index.language (.text s)) ∧
      (∀ n, r.year = some n → k.Holds d Index.year (.integer n)) ∧
      k.Within d Index.duration r.duration := by
  rw [filterClauses, filterMap_id_hold_iff]
  simp only [List.forall_mem_cons, List.not_mem_nil, false_implies, implies_true, and_true]
  refine and_congr present?_map_holds_iff (and_congr range?_holds_iff
    (and_congr present?_map_holds_iff (and_congr ?_ range?_holds_iff)))
  simp [Clause.Holds]

/-- One of the wanted genres is a genre of the movie. -/
theorem genreClauses_holdsSome_iff {r : Request} :
    (∃ c ∈ genreClauses r, c.Holds k d) ↔ ∃ g ∈ r.genres, k.Holds d Index.genre (.text g) := by
  simp [genreClauses, Clause.Holds]

/-- The query of a request asks together for all criteria but the genres. -/
theorem queryOf_holdsAll_iff {r : Request} :
    (queryOf r).HoldsAll k d ↔ r.MeetsAll k d := by
  simp only [Query.HoldsAll, queryOf, wordClauses_hold_iff, filterClauses_hold_iff]
  constructor
  · rintro ⟨hwords, hcountry, hrating, hlanguage, hyear, hduration⟩
    exact ⟨hwords, hcountry, hrating, hlanguage, hyear, hduration⟩
  · rintro ⟨hwords, hcountry, hrating, hlanguage, hyear, hduration⟩
    exact ⟨hwords, hcountry, hrating, hlanguage, hyear, hduration⟩

/-- The clauses of a query that constrain together are true of a document exactly when it meets all
criteria of the request but the genres, and one of the alternatives is true exactly when one of the
wanted genres is a genre of the document. -/
theorem holdsAll_iff_meetsAll {r : Request} {q : Query} (h : (ofRequest r).query = some q)
    (k : Reading Document) (d : Document) :
    (q.HoldsAll k d ↔ r.MeetsAll k d) ∧
      (q.HoldsSome k d ↔ ∃ g ∈ r.genres, k.Holds d Index.genre (.text g)) := by
  obtain rfl := eq_queryOf_of_ofRequest h
  exact ⟨queryOf_holdsAll_iff, genreClauses_holdsSome_iff⟩

/-- A search for words, the country, one finite bound, a year and two genres, read on a document
that has one of the genres. -/
theorem holdsAll_iff_meetsAll_space :
    let r : Request := { Request.empty with
      words := some "space", country := some "France", language := some " ",
      rating := ⟨some .nan, some .zero⟩, year := some 1968, genres := ["Drama", "Sci-Fi"] }
    let q : Query := ⟨[.multiMatch "space" Index.wordFields],
      [.term Index.country (.text "Canada"), .range Index.rating ⟨none, some .zero⟩,
        .term Index.year (.integer 1968)],
      [.term Index.genre (.text "Drama"), .term Index.genre (.text "Sci-Fi")]⟩
    let d := [(Index.year, TermValue.integer 1968), (Index.genre, .text "Sci-Fi")]
    (ofRequest r).query = some q ∧
      (q.HoldsAll Reading.ofValues d ↔ r.MeetsAll Reading.ofValues d) ∧
      (q.HoldsSome Reading.ofValues d ↔
        ∃ g ∈ r.genres, Reading.ofValues.Holds d Index.genre (.text g)) := by
  intro r q d
  have hq : (ofRequest r).query = some q := by decide +kernel
  exact ⟨hq, holdsAll_iff_meetsAll hq Reading.ofValues d⟩

/-! ## Genres -/

/-- A request that names a genre has a query. -/
theorem ofRequest_query_of_genres {r : Request} (h : r.genres ≠ []) :
    (ofRequest r).query = some (queryOf r) := by
  have hempty : (queryOf r).isEmpty = false := by
    simp [Query.isEmpty, queryOf, genreClauses_eq_nil_iff, h]
  rw [ofRequest_query, hempty]
  rfl

/-- Nothing is asked for but genres when no other clause is there. -/
theorem onlyGenres_iff {r : Request} :
    r.OnlyGenres ↔ wordClauses r = [] ∧ filterClauses r = [] := by
  rw [Request.OnlyGenres, ← isEmpty_queryOf]
  simp [Query.isEmpty, queryOf, genreClauses, wordClauses, filterClauses]

/-- Crossed bounds are met by no document. -/
theorem not_within_of_crossed {field : String} {b : Bounds} (h : b.Crossed) :
    ¬ k.Within d field b := by
  intro hwithin
  have hcross := h.admits_eq_false
  obtain ⟨low, -, hleast, -, hlow, -, -⟩ := h
  obtain ⟨x, -, hx⟩ := hwithin (.inl (by rw [hleast]; exact hlow))
  have hadmits := Bounds.admits_finite_iff.2 hx
  rw [hcross x] at hadmits
  cases hadmits

/-- Documents of which everything is true, except that they have no genre. -/
def genreless : Reading Unit where
  Holds _ field _ := field ≠ Index.genre
  HoldsNumber _ _ _ := True
  Finds _ _ _ := True

/-- A movie without a genre meets all criteria but the genres, if any movie can. -/
theorem genreless_meetsAll {r : Request} (hrating : ¬ r.rating.Crossed)
    (hduration : ¬ r.duration.Crossed) : r.MeetsAll genreless () := by
  have hwithin {field : String} {b : Bounds} (h : ¬ b.Crossed) : genreless.Within () field b := by
    obtain ⟨x, hx⟩ := Bounds.exists_admits_of_not_crossed h
    exact fun _ => ⟨x, trivial, Bounds.admits_finite_iff.1 hx⟩
  constructor
  case words => exact fun _ _ _ => trivial
  case rating => exact hwithin hrating
  case duration => exact hwithin hduration
  all_goals simp [genreless, Index.country, Index.language, Index.year, Index.genre]

/-- Whatever a request asks for beside genres, every movie that is found has one of the wanted
genres exactly when there is nothing beside them, or bounds that exclude each other so that no movie
is found. -/
theorem genres_constrain_iff {r : Request} (h : r.genres ≠ []) :
    (∀ (Document : Type) (k : Reading Document) (d : Document) (q : Query),
        (ofRequest r).query = some q → q.Matches k d →
          ∃ g ∈ r.genres, k.Holds d Index.genre (.text g)) ↔
      r.OnlyGenres ∨ r.rating.Crossed ∨ r.duration.Crossed := by
  constructor
  · intro hall
    by_contra hnone
    obtain ⟨hother, hrating, hduration⟩ := not_or.1 hnone |>.imp_right not_or.1
    -- Another clause is there, so the alternatives do not count.
    have hmatches : (queryOf r).Matches genreless () := by
      refine ⟨queryOf_holdsAll_iff.2 (genreless_meetsAll hrating hduration), ?_⟩
      intro hmust hfilter
      exact absurd (onlyGenres_iff.2 ⟨hmust, hfilter⟩) hother
    obtain ⟨g, -, hg⟩ := hall Unit genreless () _ (ofRequest_query_of_genres h) hmatches
    exact hg rfl
  · rintro hr Document k d q hq ⟨hconstrained, halternatives⟩
    obtain rfl := eq_queryOf_of_ofRequest hq
    have hmeets := queryOf_holdsAll_iff.1 hconstrained
    rcases hr with honly | hrating | hduration
    · obtain ⟨hmust, hfilter⟩ := onlyGenres_iff.1 honly
      exact genreClauses_holdsSome_iff.1
        (halternatives hmust hfilter (mt genreClauses_eq_nil_iff.1 h))
    · exact absurd hmeets.rating (not_within_of_crossed hrating)
    · exact absurd hmeets.duration (not_within_of_crossed hduration)

/-- A search for two genres and a blank text finds movies of these genres only. -/
theorem genres_constrain_iff_drama :
    let r : Request := { Request.empty with words := some " ", genres := ["Drama", "Horror"] }
    r.genres ≠ [] ∧ r.OnlyGenres ∧
      ((∀ (Document : Type) (k : Reading Document) (d : Document) (q : Query),
          (ofRequest r).query = some q → q.Matches k d →
            ∃ g ∈ r.genres, k.Holds d Index.genre (.text g)) ↔
        r.OnlyGenres ∨ r.rating.Crossed ∨ r.duration.Crossed) := by
  intro r
  have hgenres : r.genres ≠ [] := by decide
  exact ⟨hgenres, by unfold Request.OnlyGenres; decide +kernel, genres_constrain_iff hgenres⟩

/-- A search for dramas of 2014 finds a comedy of that year. -/
theorem comedy_matches_drama :
    let r : Request := { Request.empty with year := some 2014, genres := ["Drama"] }
    let d := [(Index.year, TermValue.integer 2014), (Index.genre, .text "Comedy")]
    (∃ q, (ofRequest r).query = some q ∧ q.Matches Reading.ofValues d) ∧
      ¬ ∃ g ∈ r.genres, Reading.ofValues.Holds d Index.genre (.text g) := by
  intro r d
  have hfilter : filterClauses r = [.term Index.year (.integer 2014)] := by decide +kernel
  have hyear : ∀ c ∈ filterClauses r, c.Holds Reading.ofValues d := by
    rw [hfilter, List.forall_mem_singleton]
    exact List.mem_cons_self
  refine ⟨⟨queryOf r, ofRequest_query_of_genres (by decide), ⟨(fun c hc => nomatch hc), hyear⟩,
    fun _ hnone => ?_⟩, ?_⟩
  · exact absurd (hfilter.symm.trans hnone) (List.cons_ne_nil _ _)
  · rintro ⟨g, hg, hd⟩
    obtain rfl := List.mem_singleton.1 hg
    revert hd
    simp [Reading.ofValues, d, Index.genre, Index.year]

end Search

end MovieCatalog
