import MovieCatalog.Proofs.Form.Urlencoded
import MovieCatalog.Proofs.Request.Parameter
import MovieCatalog.Proofs.Request.Values

/-!
# Requests that are read from query strings

Every pair of a form keeps a request in normal form (`Request.normal_accept`), so what is read from
a form or a query string is in normal form, whatever its octets are. Nothing more can be said of it:
a request in normal form is read from every form that spells it (`Request.ofForm_of_spells`), one
value for each criterion and each genre, and there is such a form (`Request.spells_toForm`). So the
requests in normal form are exactly those that are read from query strings
(`Request.normal_iff_ofQueryString`).
-/

namespace MovieCatalog.Request

open Parameter (valuesIn readLast)
open Form.Urlencoded (Written)

/-! ## What is read is in normal form -/

/-- A bound that is read is finite. -/
theorem normalBound_number? (value : String) :
    ∀ x ∈ Parameter.number? value, x.isFinite = true :=
  fun _ hx => Parameter.isFinite_of_number? hx

theorem normal_empty : empty.Normal where
  words := fun _ h => nomatch h
  country := fun _ h => nomatch h
  language := fun _ h => nomatch h
  genres := fun _ h => nomatch h
  rating := ⟨fun _ h => (nomatch h), fun _ h => nomatch h⟩
  duration := ⟨fun _ h => (nomatch h), fun _ h => nomatch h⟩
  page := fun _ h => nomatch h
  limit := fun _ h => nomatch h

/-- A value that is given to a parameter keeps a request in normal form. -/
theorem normal_assign {r : Request} (hr : r.Normal) (p : Parameter) (value : String) :
    (r.assign p value).Normal := by
  have htext := Parameter.normalText_text? value
  have hnumber := normalBound_number? value
  have hcount := Parameter.normalCount_natural? value
  -- All that counts of what is read is that it is in normal form.
  unfold assign
  generalize Parameter.text? value = text at htext ⊢
  generalize Parameter.number? value = number at hnumber ⊢
  generalize Parameter.natural? value = count at hcount ⊢
  cases p with
  | words => exact { hr with words := htext }
  | country => exact { hr with country := htext }
  | language => exact { hr with language := htext }
  | ratingMin => exact { hr with rating := ⟨hnumber, hr.rating.2⟩ }
  | ratingMax => exact { hr with rating := ⟨hr.rating.1, hnumber⟩ }
  | durationMin => exact { hr with duration := ⟨hnumber, hr.duration.2⟩ }
  | durationMax => exact { hr with duration := ⟨hr.duration.1, hnumber⟩ }
  | year => exact { hr with }
  | page => exact { hr with page := hcount }
  | limit => exact { hr with limit := hcount }
  | genre =>
    refine { hr with genres := fun g hg => ?_ }
    rcases List.mem_append.1 hg with hg | hg
    · exact hr.genres g hg
    · exact Parameter.normal_of_mem_list hg

/-- A pair of a form keeps a request in normal form. -/
theorem normal_accept {r : Request} (hr : r.Normal) (pair : String × String) :
    (r.accept pair).Normal := by
  unfold accept
  split
  · exact normal_assign hr _ pair.2
  · exact hr

/-- So do all pairs of a form, one after the other. -/
theorem normal_foldl {r : Request} (hr : r.Normal) (form : Form.Pairs) :
    (form.foldl accept r).Normal := by
  induction form generalizing r with
  | nil => exact hr
  | cons pair form ih => exact ih (normal_accept hr pair)

/-- Whatever the form is, its request is in normal form. -/
theorem normal_ofForm (form : Form.Pairs) : (ofForm form).Normal :=
  normal_foldl normal_empty form

/-! ## What is in normal form is read -/

/-- A form gives a bound one value, any text that means it, if there is a bound, and none
otherwise. -/
def SpellsBound (form : Form.Pairs) (p : Parameter) (bound : Option Binary64) : Prop :=
  (valuesIn p form).map (fun value => Binary64.read? value.toList) = bound.toList.map some

instance (form : Form.Pairs) (p : Parameter) (bound : Option Binary64) :
    Decidable (SpellsBound form p bound) :=
  inferInstanceAs (Decidable (_ = _))

/-- A form spells a request: it gives one value to each criterion that is asked for, a decimal
numeral where an integer is meant, and one to each genre, and no other values. The pairs may stand
in any order as long as the genres keep theirs, and between pairs that name nothing. -/
structure Spells (form : Form.Pairs) (r : Request) : Prop where
  words : valuesIn .words form = r.words.toList
  country : valuesIn .country form = r.country.toList
  language : valuesIn .language form = r.language.toList
  year : valuesIn .year form
    = (r.year.map fun n => String.ofList (Numeral.ofInt n.toInt)).toList
  ratingMin : SpellsBound form .ratingMin r.rating.least
  ratingMax : SpellsBound form .ratingMax r.rating.greatest
  durationMin : SpellsBound form .durationMin r.duration.least
  durationMax : SpellsBound form .durationMax r.duration.greatest
  genres : valuesIn .genre form = r.genres
  page : valuesIn .page form
    = (r.page.map fun n => String.ofList (Numeral.ofNat n.toNat)).toList
  limit : valuesIn .limit form
    = (r.limit.map fun n => String.ofList (Numeral.ofNat n.toNat)).toList

/-- The only value of a parameter is the last one. -/
theorem readLast_eq {α : Type} {p : Parameter} {read : String → Option α} {form : Form.Pairs}
    (text : α → String) {value : Option α} (hvalues : valuesIn p form = (value.map text).toList)
    (hread : ∀ a, value = some a → read (text a) = some a) : readLast p read form = value := by
  rw [readLast, hvalues]
  cases value with
  | none => rfl
  | some a => exact hread a rfl

/-- A text in normal form is read from its only value. -/
theorem readLast_text?_eq {p : Parameter} {form : Form.Pairs} {value : Option String}
    (hnormal : NormalText value) (hvalues : valuesIn p form = value.toList) :
    readLast p Parameter.text? form = value := by
  refine readLast_eq id (by rw [hvalues, Option.map_id]; rfl) fun s hs => ?_
  exact Parameter.text?_of_normal fun t ht => Option.some.inj ht ▸ hnormal s hs

/-- A finite bound is read from its only value, however the bound is spelt. -/
theorem readLast_number?_eq {p : Parameter} {form : Form.Pairs} {bound : Option Binary64}
    (hnormal : ∀ x ∈ bound, x.isFinite = true) (hspells : SpellsBound form p bound) :
    readLast p Parameter.number? form = bound := by
  rw [SpellsBound] at hspells
  cases bound with
  | none =>
    have hvalues : valuesIn p form = [] := List.map_eq_nil_iff.1 hspells
    rw [readLast, hvalues]
    rfl
  | some x =>
    obtain ⟨value, hvalues, hread⟩ := List.map_eq_singleton_iff.1 hspells
    rw [readLast, hvalues, List.getLast?_singleton, Option.bind_some]
    exact Parameter.number?_of_read? hread (hnormal x rfl)

/-- Each genre in normal form is the list that it is read as. -/
theorem flatMap_list_of_normal {genres : List String}
    (h : ∀ g ∈ genres, NormalText (some g) ∧ ',' ∉ g.toList) :
    genres.flatMap Parameter.list = genres := by
  induction genres with
  | nil => rfl
  | cons g genres ih =>
    obtain ⟨hg, hrest⟩ := List.forall_mem_cons.1 h
    rw [List.flatMap_cons, Parameter.list_of_normal hg.1 hg.2, ih hrest, List.singleton_append]

/-- A request in normal form is read from every form that spells it. -/
theorem ofForm_of_spells {r : Request} {form : Form.Pairs} (hr : r.Normal) (h : Spells form r) :
    ofForm form = r := by
  have hyear : readLast .year Parameter.integer? form = r.year := by
    refine readLast_eq _ h.year fun n _ => ?_
    rw [Parameter.integer?_ofInt n.le_toInt n.toInt_lt, Int64.ofInt_toInt]
  have hpage : readLast .page Parameter.natural? form = r.page :=
    readLast_eq _ h.page fun n hn => Parameter.natural?_ofNat (hr.page n hn)
  have hlimit : readLast .limit Parameter.natural? form = r.limit :=
    readLast_eq _ h.limit fun n hn => Parameter.natural?_ofNat (hr.limit n hn)
  have hgenres : (valuesIn .genre form).flatMap Parameter.list = r.genres := by
    rw [h.genres, flatMap_list_of_normal hr.genres]
  rw [ofForm, foldl_accept_eq_ofValues, ofValues, readLast_text?_eq hr.words h.words,
    readLast_text?_eq hr.country h.country, readLast_text?_eq hr.language h.language, hyear,
    readLast_number?_eq hr.rating.1 h.ratingMin, readLast_number?_eq hr.rating.2 h.ratingMax,
    readLast_number?_eq hr.duration.1 h.durationMin,
    readLast_number?_eq hr.duration.2 h.durationMax, hgenres, hpage, hlimit]

/-! ## A form that spells a request -/

@[simp] theorem valuesIn_nil (p : Parameter) : valuesIn p [] = [] :=
  rfl

@[simp] theorem valuesIn_append (p : Parameter) (form rest : Form.Pairs) :
    valuesIn p (form ++ rest) = valuesIn p form ++ valuesIn p rest := by
  simp [valuesIn]

/-- A parameter is sent under no other parameter's name. -/
theorem sentAs_name_iff {p q : Parameter} : p.SentAs q.name ↔ q = p := by
  rw [← Parameter.ofName?_eq_some_iff, Parameter.ofName?_name, Option.some.injEq]

/-- A pair has a value for its own parameter only. -/
@[simp] theorem valuesIn_pairFor {α : Type} (p q : Parameter) (text : α → List Char)
    (value : Option α) :
    valuesIn p (pairFor q text value)
      = if q = p then (value.map fun a => String.ofList (text a)).toList else [] := by
  cases value with
  | none => simp [pairFor]
  | some a => by_cases h : q = p <;> simp [pairFor, valuesIn, sentAs_name_iff, h]

/-- Pairs for genres have the genres as their values, and none for another parameter. -/
@[simp] theorem valuesIn_genrePairs (p : Parameter) (genres : List String) :
    valuesIn p (genres.flatMap fun g => pairFor .genre String.toList (some g))
      = if Parameter.genre = p then genres else [] := by
  induction genres with
  | nil => simp
  | cons g genres ih =>
    rw [List.flatMap_cons, valuesIn_append, ih, valuesIn_pairFor]
    split <;> simp

/-- The text that is written for a finite bound is one that means it. -/
theorem spellsBound_floatText {form : Form.Pairs} {p : Parameter} {bound : Option Binary64}
    (hnormal : ∀ x ∈ bound, x.isFinite = true)
    (hvalues : valuesIn p form
      = (bound.map fun x => String.ofList (Json.Number.floatText x)).toList) :
    SpellsBound form p bound := by
  rw [SpellsBound, hvalues]
  cases bound with
  | none => rfl
  | some x => simp [Binary64.read?_floatText (hnormal x rfl)]

/-- The form of a request in normal form spells it. -/
theorem spells_toForm {r : Request} (hr : r.Normal) : Spells r.toForm r where
  words := by simp [toForm]
  country := by simp [toForm]
  language := by simp [toForm]
  year := by simp [toForm]
  ratingMin := spellsBound_floatText hr.rating.1 (by simp [toForm])
  ratingMax := spellsBound_floatText hr.rating.2 (by simp [toForm])
  durationMin := spellsBound_floatText hr.duration.1 (by simp [toForm])
  durationMax := spellsBound_floatText hr.duration.2 (by simp [toForm])
  genres := by simp [toForm]
  page := by simp [toForm]
  limit := by simp [toForm]

/-- A query string whose octets are a written form makes the request of this form. -/
theorem ofQueryString_of_written {form : Form.Pairs} {query : String}
    (h : Written form (Text.Utf8.encode query.toList)) : ofQueryString query = ofForm form := by
  rw [ofQueryString, Form.Urlencoded.decode, Form.Urlencoded.decodeOctets_of_written h]

/-- The requests in normal form are exactly those that are read from query strings, and also those
that are read from forms. Such a request is read from every written form of every form that spells
it: decimal numerals for its integers, one pair for each genre, and for each bound any text that
means it. The form of the request is one that spells it, and the query string of the request is a
written form of it. -/
theorem normal_iff_ofQueryString (r : Request) :
    (r.Normal ↔ ∃ query, ofQueryString query = r) ∧
      (r.Normal ↔ ∃ form, ofForm form = r) ∧
      (r.Normal →
        (∀ form query, Spells form r → Written form (Text.Utf8.encode query.toList) →
          ofQueryString query = r) ∧
        Spells r.toForm r ∧ Written r.toForm (Text.Utf8.encode r.toQueryString.toList)) := by
  have hread : r.Normal → ∀ form query, Spells form r →
      Written form (Text.Utf8.encode query.toList) → ofQueryString query = r := by
    intro hr form query hspells hwritten
    rw [ofQueryString_of_written hwritten, ofForm_of_spells hr hspells]
  have hwritten : Written r.toForm (Text.Utf8.encode r.toQueryString.toList) :=
    Form.Urlencoded.written_encode r.toForm
  refine ⟨⟨fun hr => ?_, ?_⟩, ⟨fun hr => ?_, ?_⟩, fun hr => ?_⟩
  · exact ⟨r.toQueryString, hread hr _ _ (spells_toForm hr) hwritten⟩
  · rintro ⟨query, rfl⟩
    exact normal_ofForm _
  · exact ⟨r.toForm, ofForm_of_spells hr (spells_toForm hr)⟩
  · rintro ⟨form, rfl⟩
    exact normal_ofForm form
  · exact ⟨hread hr, spells_toForm hr, hwritten⟩

/-- Marks of query strings in a text and in a genre, a negative year and a negative zero as a bound,
which other spellings of the bound and another order of the pairs give as well. -/
theorem normal_iff_ofQueryString_marks :
    let r : Request := { empty with
      words := some "a&b=c+d %41é"
      year := some (-7)
      rating := ⟨some (.finite true ⟨0, by decide⟩), none⟩
      genres := ["Sci-Fi & more", "%"]
      page := some 9223372036854775807 }
    let form : Form.Pairs := [("genre", "Sci-Fi & more"), ("Year", "8"), ("ratingMin", "-.0e9"),
      ("page", "9223372036854775807"), ("genre[]", "%"), ("year", "-7"),
      ("searchText", "a&b=c+d %41é")]
    r.Normal ∧ Spells form r ∧ ofQueryString (Form.Urlencoded.encode form) = r ∧
      ofQueryString r.toQueryString = r ∧ r.toForm ≠ form := by
  intro r form
  have hr : r.Normal := by
    have hread : ofForm form = r := by decide +kernel
    rw [← hread]
    exact normal_ofForm form
  have hspells : Spells form r := by
    constructor <;> decide +kernel
  obtain ⟨hread, hform, hwritten⟩ := (normal_iff_ofQueryString r).2.2 hr
  exact ⟨hr, hspells, hread form _ hspells (Form.Urlencoded.written_encode form),
    hread _ _ hform hwritten, by decide +kernel⟩

end MovieCatalog.Request
