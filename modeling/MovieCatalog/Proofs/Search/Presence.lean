import MovieCatalog.Proofs.Bounds
import MovieCatalog.Search.Basic
import Mathlib.Tactic.Tauto

/-!
# When a search has a query

Whether a request asks for anything is decided twice: by a check of its fields, and by the clauses
that they come to. Both decisions rest on the same two facts about a field, that a text is not blank
(`Search.present?_eq_none_iff`) and that one of two bounds is finite
(`Bounds.usable?_eq_none_iff`), so they agree on every request
(`Search.isEmpty_queryOf`).
-/

namespace MovieCatalog

namespace Search

/-- A text counts as present when the check does not call it blank. -/
theorem present?_eq_none_iff {text : Option String} :
    present? text = none ↔ Request.isBlank text = true := by
  cases text with
  | none => simp [present?, Request.isBlank]
  | some s => simp [present?, Request.isBlank, Option.filter_eq_none_iff]

/-- A present text is the given one. -/
theorem present?_eq_some_iff {text : Option String} {s : String} :
    present? text = some s ↔ text = some s ∧ ¬ Text.AllBlank s := by
  simp [present?, Option.filter_eq_some_iff]

/-- A range is asked for when one of its bounds is finite. -/
theorem range?_eq_none_iff {field : String} {b : Bounds} :
    Clause.range? field b = none ↔
      Request.isBound b.least = false ∧ Request.isBound b.greatest = false := by
  rw [Clause.range?, Option.map_eq_none_iff, Bounds.usable?_eq_none_iff]

/-- No words are looked up when the wanted text is blank. -/
theorem wordClauses_eq_nil_iff {r : Request} :
    wordClauses r = [] ↔ Request.isBlank r.words = true := by
  rw [wordClauses, Option.toList_eq_nil_iff, Option.map_eq_none_iff, present?_eq_none_iff]

/-- No clause filters when none of the five criteria is given. -/
theorem filterClauses_eq_nil_iff {r : Request} :
    filterClauses r = [] ↔
      Request.isBlank r.country = true ∧
      (Request.isBound r.rating.least = false ∧ Request.isBound r.rating.greatest = false) ∧
      Request.isBlank r.language = true ∧ r.year = none ∧
      (Request.isBound r.duration.least = false ∧
        Request.isBound r.duration.greatest = false) := by
  rw [filterClauses, List.filterMap_eq_nil_iff]
  simp [present?_eq_none_iff, range?_eq_none_iff]

/-- No genre is an alternative when none is given. -/
theorem genreClauses_eq_nil_iff {r : Request} : genreClauses r = [] ↔ r.genres = [] :=
  List.map_eq_nil_iff

/-- The check of the fields calls a request unfiltered when its clauses are none. -/
theorem isEmpty_queryOf (r : Request) : (queryOf r).isEmpty = r.isUnfiltered := by
  rw [Bool.eq_iff_iff]
  simp only [Query.isEmpty, queryOf, Bool.and_eq_true, List.isEmpty_iff, wordClauses_eq_nil_iff,
    filterClauses_eq_nil_iff, genreClauses_eq_nil_iff, Request.isUnfiltered, Bool.not_eq_true',
    Option.isNone_iff_eq_none]
  tauto

/-- A request comes to the query of its clauses, unless there are none. -/
theorem ofRequest_query (r : Request) :
    (ofRequest r).query = if (queryOf r).isEmpty then none else some (queryOf r) := by
  rw [isEmpty_queryOf]
  rfl

/-- The query that a request comes to has all its clauses. -/
theorem eq_queryOf_of_ofRequest {r : Request} {q : Query} (h : (ofRequest r).query = some q) :
    q = queryOf r := by
  rw [ofRequest_query] at h
  split at h
  · cases h
  · exact (Option.some.inj h).symm

/-- A search goes without a query exactly when no criterion of the request comes to a clause. A
query that is sent has all the clauses of the request, and at least one. -/
theorem query_eq_none_iff_no_clause (r : Request) :
    ((ofRequest r).query = none ↔
        wordClauses r = [] ∧ filterClauses r = [] ∧ genreClauses r = []) ∧
      ∀ q, (ofRequest r).query = some q →
        q = queryOf r ∧ (q.must ≠ [] ∨ q.filter ≠ [] ∨ q.should ≠ []) := by
  have hempty : (queryOf r).isEmpty = true ↔
      wordClauses r = [] ∧ filterClauses r = [] ∧ genreClauses r = [] := by
    simp [Query.isEmpty, queryOf, and_assoc]
  have hnone : (ofRequest r).query = none ↔ (queryOf r).isEmpty = true := by
    simp [ofRequest_query]
  refine ⟨hnone.trans hempty, fun q h => ?_⟩
  have hq : ¬ (wordClauses r = [] ∧ filterClauses r = [] ∧ genreClauses r = []) := by
    rw [← hempty, ← hnone, h]
    exact Option.some_ne_none q
  rw [Decidable.not_and_iff_or_not, Decidable.not_and_iff_or_not] at hq
  obtain rfl := eq_queryOf_of_ofRequest h
  exact ⟨rfl, hq⟩

/-- A blank text, a bound that is not a number and an infinite one ask for nothing; a bound of zero
asks for a range. -/
example :
    (ofRequest { Request.empty with
      words := some " ", rating := ⟨some .nan, some (.infinite false)⟩ }).query = none ∧
    (ofRequest { Request.empty with rating := ⟨some .zero, some .nan⟩ }).query
      = some ⟨[], [.range Index.rating ⟨some .zero, none⟩], []⟩ := by
  decide +kernel

end Search

end MovieCatalog
