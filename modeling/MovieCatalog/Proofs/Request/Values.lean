import MovieCatalog.Request.QueryString
import MovieCatalog.Search.Basic
import Mathlib.Data.List.Induction

/-!
# The values that decide a request

A form may give a parameter many values, between those of other parameters and pairs that name
nothing. What counts of it are the values of each parameter in their order (`Parameter.valuesIn`):
the last one of a parameter that has one value (`Parameter.readLast`), and all of them for the
genres. The request with just these fields (`Request.ofValues`) takes a further pair into account as
the fold over the form does (`Request.ofValues_concat`), so it is the request that the form makes
(`Request.ofForm_eq_ofValues`), and forms that differ in nothing but the order between parameters
and in pairs that name nothing come to the same search.
-/

namespace MovieCatalog

namespace Parameter

/-- A parameter is sent under its own name, genres also under the one that marks a list. -/
def SentAs (p : Parameter) (name : String) : Prop :=
  name = p.name ∨ (p = .genre ∧ name = genreList)

instance (p : Parameter) (name : String) : Decidable (p.SentAs name) :=
  inferInstanceAs (Decidable (_ ∨ _))

/-- A name is that of a parameter exactly when the parameter is sent under it. -/
theorem ofName?_eq_some_iff {p : Parameter} {name : String} :
    ofName? name = some p ↔ p.SentAs name := by
  constructor
  · intro h
    unfold ofName? at h
    split at h
    · next hlist =>
      obtain rfl := Option.some.inj h
      exact .inr ⟨rfl, hlist⟩
    · have hname := List.find?_some h
      exact .inl (of_decide_eq_true hname).symm
  · rintro (rfl | ⟨rfl, rfl⟩)
    · exact ofName?_name p
    · exact ofName?_genreList

/-- The values that a form gives a parameter, in order. -/
def valuesIn (p : Parameter) (form : Form.Pairs) : List String :=
  (form.filter fun pair => p.SentAs pair.1).map Prod.snd

/-- What the last value of a parameter is read as. Without a value, or if the last one cannot be
read, there is nothing, whatever the values before it are. -/
def readLast {α : Type} (p : Parameter) (read : String → Option α) (form : Form.Pairs) : Option α :=
  (p.valuesIn form).getLast?.bind read

/-- A pair at the end of a form adds a value to the parameter that it names, and to no other one. -/
theorem valuesIn_concat (p : Parameter) (form : Form.Pairs) (pair : String × String) :
    p.valuesIn (form ++ [pair])
      = p.valuesIn form ++ if ofName? pair.1 = some p then [pair.2] else [] := by
  by_cases h : p.SentAs pair.1
  · simp [valuesIn, ofName?_eq_some_iff, h]
  · simp [valuesIn, ofName?_eq_some_iff, h]

/-- The value at the end of a form is the last one of the parameter that it is given to. -/
theorem readLast_concat {α : Type} (p : Parameter) (read : String → Option α) (form : Form.Pairs)
    (pair : String × String) :
    p.readLast read (form ++ [pair])
      = if ofName? pair.1 = some p then read pair.2 else p.readLast read form := by
  rw [readLast, valuesIn_concat]
  split
  · rw [List.getLast?_concat, Option.bind_some]
  · rw [List.append_nil, readLast]

end Parameter

namespace Request

open Parameter (valuesIn readLast)

/-- The request with the last values of a form, and with the genres of all of them. -/
def ofValues (form : Form.Pairs) : Request where
  words := readLast .words Parameter.text? form
  country := readLast .country Parameter.text? form
  language := readLast .language Parameter.text? form
  year := readLast .year Parameter.integer? form
  rating := ⟨readLast .ratingMin Parameter.number? form,
    readLast .ratingMax Parameter.number? form⟩
  duration := ⟨readLast .durationMin Parameter.number? form,
    readLast .durationMax Parameter.number? form⟩
  genres := (valuesIn .genre form).flatMap Parameter.list
  page := readLast .page Parameter.natural? form
  limit := readLast .limit Parameter.natural? form

/-- The last values change with one more pair as the request does that takes it into account. -/
theorem ofValues_concat (form : Form.Pairs) (pair : String × String) :
    ofValues (form ++ [pair]) = (ofValues form).accept pair := by
  cases h : Parameter.ofName? pair.1 with
  | none => simp [ofValues, accept, h, Parameter.readLast_concat, Parameter.valuesIn_concat]
  | some p =>
    cases p <;>
      simp [ofValues, accept, assign, h, Parameter.readLast_concat, Parameter.valuesIn_concat]

/-- The fold over a form leaves the last values. -/
theorem foldl_accept_eq_ofValues (form : Form.Pairs) :
    form.foldl accept empty = ofValues form := by
  induction form using List.reverseRecOn with
  | nil => rfl
  | append_singleton form pair ih =>
    rw [List.foldl_append, ih, ofValues_concat, List.foldl_cons, List.foldl_nil]

/-- Every field of a request that has one value is what the last value of its parameter is read as,
and the genres are those of all values of theirs. So two forms that give each parameter the same
values in the same order make the same request, the same search and the same text for the engine,
however the values of different parameters are interleaved and whatever pairs that name no parameter
stand between them. -/
theorem ofForm_eq_ofValues (form : Form.Pairs) :
    ofForm form = ofValues form ∧
      ∀ other : Form.Pairs, (∀ p, valuesIn p other = valuesIn p form) →
        ofForm other = ofForm form ∧
          Search.ofRequest (ofForm other) = Search.ofRequest (ofForm form) ∧
          (Search.ofRequest (ofForm other)).body.text
            = (Search.ofRequest (ofForm form)).body.text := by
  have hvalues : ∀ form, ofForm form = ofValues form := foldl_accept_eq_ofValues
  refine ⟨hvalues form, fun other h => ?_⟩
  have hsame : ofForm other = ofForm form := by
    simp only [hvalues, ofValues, readLast, h]
  exact ⟨hsame, by rw [hsame], by rw [hsame]⟩

/-- A year that cannot be read behind one that can, and three genres under both names, each beside
the other and apart. -/
theorem ofForm_eq_ofValues_interleaved :
    let form : Form.Pairs := [("year", "1999"), ("genre", "Drama"), ("Year", "7"), ("year", "x"),
      ("genre[]", "Crime, Horror")]
    let other : Form.Pairs := [("genre", "Drama"), ("genre[]", "Crime, Horror"), ("year", "1999"),
      ("year", "x")]
    (∀ p, valuesIn p other = valuesIn p form) ∧
      ofForm form = { empty with genres := ["Drama", "Crime", "Horror"] } ∧
      ofForm form = ofValues form ∧
      ofForm other = ofForm form ∧
      Search.ofRequest (ofForm other) = Search.ofRequest (ofForm form) ∧
      (Search.ofRequest (ofForm other)).body.text
        = (Search.ofRequest (ofForm form)).body.text := by
  intro form other
  have hvalues : ∀ p, valuesIn p other = valuesIn p form := by
    intro p
    cases p <;> decide +kernel
  obtain ⟨hform, hother⟩ := ofForm_eq_ofValues form
  exact ⟨hvalues, by decide +kernel, hform, hother other hvalues⟩

end Request

end MovieCatalog
