import MovieCatalog.Json.Decode

/-!
# Dimensions of the catalog

Movies are counted along six dimensions. What is the same for each dimension is kept in a record
with one entry per dimension; an entry is read and changed by naming its dimension.
-/

namespace MovieCatalog

/-- A dimension. -/
inductive Dimension where
  | rating
  | country
  | language
  | year
  | genre
  | duration
deriving DecidableEq, Repr

namespace Dimension

/-- All dimensions, in their order. -/
def all : List Dimension := [rating, country, language, year, genre, duration]

/-- The name of a dimension. -/
def name : Dimension → String
  | rating => "rating"
  | country => "country"
  | language => "language"
  | year => "year"
  | genre => "genre"
  | duration => "duration"

theorem mem_all (d : Dimension) : d ∈ all := by
  cases d <;> simp [all]

/-- The dimension with a given name. -/
def ofName? (name : String) : Option Dimension :=
  all.find? (·.name = name)

end Dimension

/-- An entry for each dimension. -/
structure PerDimension (α : Type) where
  rating : α
  country : α
  language : α
  year : α
  genre : α
  duration : α
deriving DecidableEq, Inhabited

namespace PerDimension

variable {α : Type}

/-- The record with entries computed from the dimensions. -/
def ofFunction (f : Dimension → α) : PerDimension α where
  rating := f .rating
  country := f .country
  language := f .language
  year := f .year
  genre := f .genre
  duration := f .duration

/-- The entry of a dimension. -/
def get (r : PerDimension α) : Dimension → α
  | .rating => r.rating
  | .country => r.country
  | .language => r.language
  | .year => r.year
  | .genre => r.genre
  | .duration => r.duration

/-- Changes the entry of a dimension and no other one. -/
def modify (r : PerDimension α) (d : Dimension) (f : α → α) : PerDimension α :=
  match d with
  | .rating => { r with rating := f r.rating }
  | .country => { r with country := f r.country }
  | .language => { r with language := f r.language }
  | .year => { r with year := f r.year }
  | .genre => { r with genre := f r.genre }
  | .duration => { r with duration := f r.duration }

@[simp] theorem get_ofFunction (f : Dimension → α) (d : Dimension) :
    (ofFunction f).get d = f d := by
  cases d <;> rfl

@[simp] theorem get_modify_self (r : PerDimension α) (d : Dimension) (f : α → α) :
    (r.modify d f).get d = f (r.get d) := by
  cases d <;> rfl

/-- A change of one entry leaves every other one as it is. -/
theorem get_modify_of_ne (r : PerDimension α) {d e : Dimension} (f : α → α) (h : e ≠ d) :
    (r.modify d f).get e = r.get e := by
  cases d <;> cases e <;> first | rfl | exact absurd rfl h

/-- The record as JSON: a member for each dimension, in order, under a key chosen by `key`. -/
def toJson (key : Dimension → String) (entry : α → Json) (r : PerDimension α) : Json :=
  .object (Dimension.all.map fun d => (key d, entry (r.get d)))

/-- Reads a record in which every dimension has an entry, under a key chosen by `key`. -/
def decoder (record : String) (key : Dimension → String) (entry : Json.Decoder α) :
    Json.Decoder (PerDimension α) := fun ctx n => do
  let field (d : Dimension) : Json.Field α := .required (key d) entry
  let (rating, country, language, year, genre, duration, ()) ← Json.Fields.decode record
    (.cons (field .rating) (.cons (field .country) (.cons (field .language)
      (.cons (field .year) (.cons (field .genre) (.cons (field .duration) .nil)))))) ctx n
  return ⟨rating, country, language, year, genre, duration⟩

end PerDimension

end MovieCatalog
