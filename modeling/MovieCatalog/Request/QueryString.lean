import MovieCatalog.Form.Urlencoded
import MovieCatalog.Json.Number
import MovieCatalog.Request.Basic
import MovieCatalog.Request.Parameter

/-!
# Requests in query strings

A request is read from the pairs of a form, one after the other. A later value of a parameter
replaces an earlier one, even if it cannot be read; genres are collected from all their values.
Pairs with other names are passed over. A request in normal form can be written as a query string
from which it is read again.
-/

namespace MovieCatalog.Request

/-- Gives a parameter a value. -/
def assign (r : Request) (p : Parameter) (value : String) : Request :=
  match p with
  | .words => { r with words := Parameter.text? value }
  | .country => { r with country := Parameter.text? value }
  | .language => { r with language := Parameter.text? value }
  | .ratingMin => { r with rating.least := Parameter.number? value }
  | .ratingMax => { r with rating.greatest := Parameter.number? value }
  | .durationMin => { r with duration.least := Parameter.number? value }
  | .durationMax => { r with duration.greatest := Parameter.number? value }
  | .year => { r with year := Parameter.integer? value }
  | .page => { r with page := Parameter.natural? value }
  | .limit => { r with limit := Parameter.natural? value }
  | .genre => { r with genres := r.genres ++ Parameter.list value }

/-- Takes a pair of a form into account. -/
def accept (r : Request) (pair : String × String) : Request :=
  match Parameter.ofName? pair.1 with
  | some p => r.assign p pair.2
  | none => r

/-- The request that a form makes. -/
def ofForm (form : Form.Pairs) : Request :=
  form.foldl accept empty

/-- The request that a query string makes. -/
def ofQueryString (query : String) : Request :=
  ofForm (Form.Urlencoded.decode query)

/-- A text is absent, or it is not empty and no blank stands at its ends. -/
def NormalText (text : Option String) : Prop :=
  ∀ s ∈ text, s ≠ "" ∧ Text.Unpadded s.toList

/-- Bounds are absent or finite. -/
def NormalBounds (b : Bounds) : Prop :=
  (∀ x ∈ b.least, x.isFinite = true) ∧ ∀ x ∈ b.greatest, x.isFinite = true

/-- A count is absent or at most the greatest signed integer. -/
def NormalCount (count : Option UInt64) : Prop :=
  ∀ n ∈ count, n.toNat < Word.half64

/-- The requests that are read from query strings. -/
structure Normal (r : Request) : Prop where
  words : NormalText r.words
  country : NormalText r.country
  language : NormalText r.language
  genres : ∀ g ∈ r.genres, NormalText (some g) ∧ ',' ∉ g.toList
  rating : NormalBounds r.rating
  duration : NormalBounds r.duration
  page : NormalCount r.page
  limit : NormalCount r.limit

/-- The pair that gives a parameter a value, if there is one. -/
def pairFor {α : Type} (p : Parameter) (text : α → List Char) (value : Option α) : Form.Pairs :=
  (value.map fun a => (p.name, String.ofList (text a))).toList

/-- The form of a request: one pair for each criterion that is given, and one for each genre. -/
def toForm (r : Request) : Form.Pairs :=
  pairFor .words String.toList r.words
    ++ pairFor .country String.toList r.country
    ++ pairFor .ratingMin Json.Number.floatText r.rating.least
    ++ pairFor .ratingMax Json.Number.floatText r.rating.greatest
    ++ pairFor .language String.toList r.language
    ++ pairFor .year (fun n => Numeral.ofInt n.toInt) r.year
    ++ r.genres.flatMap (fun g => pairFor .genre String.toList (some g))
    ++ pairFor .durationMin Json.Number.floatText r.duration.least
    ++ pairFor .durationMax Json.Number.floatText r.duration.greatest
    ++ pairFor .page (fun n => Numeral.ofNat n.toNat) r.page
    ++ pairFor .limit (fun n => Numeral.ofNat n.toNat) r.limit

/-- The query string of a request. -/
def toQueryString (r : Request) : String :=
  Form.Urlencoded.encode r.toForm

end MovieCatalog.Request
