import MovieCatalog.Proofs.Request.Normal
import MovieCatalog.Proofs.Search.Presence

/-!
# Spellings of a list of genres

Genres are given one by one or many in a value, under either of their names. All that counts of a
form are the pieces between the commas of these values, one behind the other
(`Request.genrePieces`), and of a piece what trimming leaves of it, unless it is blank
(`Request.named`). Joining values by commas keeps the pieces (`Parameter.pieces_intercalate`), and
neither blanks around a piece nor further blank pieces change what is named
(`Request.Respelt.named_eq`), so all these spellings make one request
(`Request.ofForm_spellings_agree`).
-/

namespace MovieCatalog

/-- Blanks around a text are trimmed with those in it. -/
theorem Text.trim_append_append {before s after : List Char}
    (hbefore : ∀ c ∈ before, isBlank c = true) (hafter : ∀ c ∈ after, isBlank c = true) :
    trim (before ++ s ++ after) = trim s := by
  have hback : ∀ c ∈ after.reverse, isBlank c = true :=
    fun c hc => hafter c (List.mem_reverse.1 hc)
  rw [trim, trim, List.append_assoc, List.dropWhile_append_of_pos hbefore, List.dropWhile_append]
  split
  · next hblank => rw [List.isEmpty_iff.1 hblank, dropWhile_isBlank_eq_nil_iff.2 hafter]
  · rw [List.reverse_append, List.dropWhile_append_of_pos hback]

/-! ## Pieces -/

namespace Parameter

/-- The pieces of a value between its commas. -/
def pieces (value : String) : List (List Char) :=
  value.toList.splitOn ','

/-- Values joined by commas have the pieces of each of them. -/
theorem pieces_intercalate {values : List String} (h : values ≠ []) :
    pieces (",".intercalate values) = values.flatMap pieces := by
  induction values with
  | nil => exact absurd rfl h
  | cons v rest ih =>
    cases rest with
    | nil => simp [pieces]
    | cons w rest =>
      have hjoined : (",".intercalate (v :: w :: rest)).toList
          = v.toList ++ ',' :: (",".intercalate (w :: rest)).toList := by
        simp [String.toList_intercalate]
      have hsplit := List.splitOnP_append_cons (p := (· == ',')) v.toList
        (",".intercalate (w :: rest)).toList (beq_self_eq_true ',')
      rw [List.flatMap_cons, ← ih (List.cons_ne_nil w rest), pieces, hjoined]
      exact hsplit

end Parameter

namespace Request

open Parameter (pieces valuesIn)

/-- The pieces of all values that a form gives the genres, in order. -/
def genrePieces (form : Form.Pairs) : List (List Char) :=
  (valuesIn .genre form).flatMap pieces

/-- The genres that pieces name: each piece that is not blank, trimmed. -/
def named (ps : List (List Char)) : List String :=
  (ps.filter fun s => !s.all Text.isBlank).map fun s => String.ofList (Text.trim s)

/-- Pieces that are spelt in another way, with blanks around them and with further pieces between
them that are empty or blank. -/
inductive Respelt : List (List Char) → List (List Char) → Prop
  | nil : Respelt [] []
  | blank {s : List Char} {ps qs : List (List Char)} (hs : ∀ c ∈ s, Text.isBlank c = true)
      (h : Respelt ps qs) : Respelt ps (s :: qs)
  | padded {before s after : List Char} {ps qs : List (List Char)}
      (hbefore : ∀ c ∈ before, Text.isBlank c = true)
      (hafter : ∀ c ∈ after, Text.isBlank c = true) (h : Respelt ps qs) :
      Respelt (s :: ps) ((before ++ s ++ after) :: qs)

/-- A piece that is blank names nothing. -/
theorem named_cons_of_blank {s : List Char} (hs : ∀ c ∈ s, Text.isBlank c = true)
    (ps : List (List Char)) : named (s :: ps) = named ps := by
  rw [named, List.filter_cons_of_neg (by simpa using hs), named]

/-- A piece that is not blank names a genre. -/
theorem named_cons_of_not_blank {s : List Char} (hs : ¬ ∀ c ∈ s, Text.isBlank c = true)
    (ps : List (List Char)) : named (s :: ps) = String.ofList (Text.trim s) :: named ps := by
  rw [named, List.filter_cons_of_pos (by simpa using hs), List.map_cons, named]

/-- What a piece names depends on what trimming leaves of it. -/
theorem named_cons_congr {s t : List Char} (h : Text.trim s = Text.trim t)
    {ps qs : List (List Char)} (hrest : named ps = named qs) :
    named (s :: ps) = named (t :: qs) := by
  have hblank : (∀ c ∈ s, Text.isBlank c = true) ↔ ∀ c ∈ t, Text.isBlank c = true := by
    rw [← Text.trim_eq_nil_iff, ← Text.trim_eq_nil_iff, h]
  by_cases hs : ∀ c ∈ t, Text.isBlank c = true
  · rw [named_cons_of_blank (hblank.2 hs), named_cons_of_blank hs, hrest]
  · rw [named_cons_of_not_blank (mt hblank.1 hs), named_cons_of_not_blank hs, h, hrest]

/-- Pieces that are spelt in another way name the same genres. -/
theorem Respelt.named_eq {ps qs : List (List Char)} (h : Respelt ps qs) : named qs = named ps := by
  induction h with
  | nil => rfl
  | blank hs _ ih => rw [named_cons_of_blank hs, ih]
  | padded hbefore hafter _ ih =>
    exact named_cons_congr (Text.trim_append_append hbefore hafter) ih

/-- Nothing is named exactly if all pieces are blank. -/
theorem named_eq_nil_iff {ps : List (List Char)} :
    named ps = [] ↔ ∀ s ∈ ps, ∀ c ∈ s, Text.isBlank c = true := by
  simp [named]

/-- The elements of a list are what its pieces name. -/
theorem list_eq_named (value : String) : Parameter.list value = named (pieces value) := by
  have hblank (s : List Char) : (String.ofList (Text.trim s)).isEmpty = s.all Text.isBlank := by
    rw [Bool.eq_iff_iff, String.isEmpty_iff, List.all_eq_true, ← Text.trim_eq_nil_iff,
      ← String.ofList_nil, String.ofList_inj]
  rw [Parameter.list, named, pieces, List.filter_map]
  exact congrArg _ (List.filter_congr fun s _ => by simp [hblank])

/-- The genres of a request are what the pieces of its form name. -/
theorem genres_ofForm (form : Form.Pairs) : (ofForm form).genres = named (genrePieces form) := by
  have hvalues : (ofForm form).genres = (valuesIn .genre form).flatMap Parameter.list :=
    congrArg genres (foldl_accept_eq_ofValues form)
  rw [hvalues, genrePieces, named, List.filter_flatMap, List.map_flatMap]
  exact List.flatMap_congr fun value _ => list_eq_named value

/-- Forms that name the same genres, and give every other parameter the same values, make the same
request. -/
theorem ofForm_congr {form other : Form.Pairs}
    (hvalues : ∀ p, p ≠ .genre → valuesIn p other = valuesIn p form)
    (hgenres : named (genrePieces other) = named (genrePieces form)) :
    ofForm other = ofForm form := by
  have hsame : ofForm other = { ofForm form with genres := (ofForm other).genres } := by
    simp [ofForm, foldl_accept_eq_ofValues, ofValues, Parameter.readLast, hvalues]
  rw [hsame, genres_ofForm, hgenres, ← genres_ofForm]

/-! ## One value for many -/

/-- Pairs under the names of the genres give them their values, and no other parameter any. -/
theorem valuesIn_of_genres {pairs : Form.Pairs}
    (h : ∀ pair ∈ pairs, Parameter.genre.SentAs pair.1) (p : Parameter) :
    valuesIn p pairs = if p = .genre then pairs.map Prod.snd else [] := by
  by_cases hp : p = .genre
  · subst hp
    rw [if_pos rfl, valuesIn, List.filter_eq_self.2 fun pair hpair => decide_eq_true (h pair hpair)]
  · rw [if_neg hp, valuesIn, List.map_eq_nil_iff, List.filter_eq_nil_iff]
    intro pair hpair hsent
    have hgenre := Parameter.ofName?_eq_some_iff.2 (h pair hpair)
    have hother := Parameter.ofName?_eq_some_iff.2 (of_decide_eq_true hsent)
    exact hp (Option.some.inj (hother.symm.trans hgenre))

/-- Values of the genres, under either name and anywhere in a form, may be joined by commas into one.
-/
theorem ofForm_join {pairs : Form.Pairs} (hne : pairs ≠ [])
    (hgenre : ∀ pair ∈ pairs, Parameter.genre.SentAs pair.1) (before after : Form.Pairs) :
    ofForm (before ++ (Parameter.genre.name, ",".intercalate (pairs.map Prod.snd)) :: after)
      = ofForm (before ++ pairs ++ after) := by
  have hjoined : ∀ pair ∈ [(Parameter.genre.name, ",".intercalate (pairs.map Prod.snd))],
      Parameter.genre.SentAs pair.1 := by
    intro pair hpair
    obtain rfl := List.mem_singleton.1 hpair
    exact .inl rfl
  rw [← List.singleton_append, ← List.append_assoc]
  refine ofForm_congr (fun p hp => ?_) (congrArg named ?_)
  · simp only [valuesIn_append, valuesIn_of_genres hgenre, valuesIn_of_genres hjoined, if_neg hp]
  · simp only [genrePieces, valuesIn_append, valuesIn_of_genres hgenre, valuesIn_of_genres hjoined,
      if_pos, List.flatMap_append, List.map_singleton, List.flatMap_singleton]
    rw [Parameter.pieces_intercalate (by simpa using hne)]

/-- However the values of the genres are spelt, the request is the same: they may stand under either
name, be joined by commas into one value, and have blanks around their pieces and empty or blank
pieces among them, also in pairs of their own; pairs of other parameters may stand anywhere. If
there is a query, its alternatives are one clause for each piece that is not blank, trimmed and in
order; and if the request asks for nothing else, there is none exactly if all pieces are blank. -/
theorem ofForm_spellings_agree {pairs : Form.Pairs} (hne : pairs ≠ [])
    (hgenre : ∀ pair ∈ pairs, Parameter.genre.SentAs pair.1) (before after : Form.Pairs) :
    let form := before ++ pairs ++ after
    let joined := (Parameter.genre.name, ",".intercalate (pairs.map Prod.snd))
    let query := (Search.ofRequest (ofForm form)).query
    ofForm (before ++ joined :: after) = ofForm form ∧
      (∀ other, (∀ p, p ≠ .genre → valuesIn p other = valuesIn p form) →
        Respelt (genrePieces form) (genrePieces other) → ofForm other = ofForm form) ∧
      (∀ q, query = some q →
        q.should = (named (genrePieces form)).map fun g => .term "genre.keyword" (.text g)) ∧
      ({ ofForm form with genres := [] }.isUnfiltered = true →
        (query = none ↔ ∀ s ∈ genrePieces form, ∀ c ∈ s, Text.isBlank c = true)) := by
  intro form joined query
  refine ⟨ofForm_join hne hgenre before after, fun other hvalues hpieces => ?_, fun q hq => ?_,
    fun hunfiltered => ?_⟩
  · exact ofForm_congr hvalues hpieces.named_eq
  · rw [Search.eq_queryOf_of_ofRequest hq, ← genres_ofForm]
    rfl
  · have hquery : query = none ↔ (ofForm form).isUnfiltered = true := by
      simp [query, Search.ofRequest]
    have hgenres : (ofForm form).isUnfiltered = (ofForm form).genres.isEmpty := by
      simp only [isUnfiltered, List.isEmpty_nil, Bool.and_true, Bool.and_eq_true] at hunfiltered
      simp [isUnfiltered, hunfiltered]
    rw [hquery, hgenres, genres_ofForm, List.isEmpty_iff, named_eq_nil_iff]

/-- Two names, commas in a value, a blank of another script around a piece, an empty piece and a
blank pair, beside a year. -/
theorem ofForm_spellings_agree_mixed :
    let pairs : Form.Pairs := [("genre[]", "Drama,Sci-Fi"), ("genre", "Drama")]
    let form := ("year", "2014") :: pairs
    let other : Form.Pairs := [("genre", "\u3000Drama ,,Sci-Fi"), ("year", "2014"), ("genre[]", " "),
      ("genre[]", "Drama\t")]
    (pairs ≠ [] ∧ ∀ pair ∈ pairs, Parameter.genre.SentAs pair.1) ∧
      (∀ p, p ≠ .genre → valuesIn p other = valuesIn p form) ∧
      Respelt (genrePieces form) (genrePieces other) ∧
      ofForm [("year", "2014"), ("genre", "Drama,Sci-Fi,Drama")] = ofForm form ∧
      ofForm other = ofForm form ∧
      (Search.ofRequest (ofForm form)).query = some ⟨[], [.term "year" (.integer 2014)],
        ["Drama", "Sci-Fi", "Drama"].map fun g => .term "genre.keyword" (.text g)⟩ := by
  intro pairs form other
  have hgenre : ∀ pair ∈ pairs, Parameter.genre.SentAs pair.1 := by decide
  have hvalues : ∀ p, p ≠ .genre → valuesIn p other = valuesIn p form := by
    intro p hp
    cases p with
    | genre => exact absurd rfl hp
    | _ => decide +kernel
  have hpieces : Respelt (genrePieces form) (genrePieces other) := by
    have hform : genrePieces form = ["Drama".toList, "Sci-Fi".toList, "Drama".toList] := by
      decide +kernel
    have hother : genrePieces other
        = [['\u3000'] ++ "Drama".toList ++ [' '], [], [] ++ "Sci-Fi".toList ++ [], [' '],
          [] ++ "Drama".toList ++ ['\t']] := by
      decide +kernel
    rw [hform, hother]
    have blanks {s : List Char} (h : s.all Text.isBlank = true) :
        ∀ c ∈ s, Text.isBlank c = true :=
      List.all_eq_true.1 h
    exact .padded (blanks rfl) (blanks rfl) (.blank (blanks rfl) (.padded (blanks rfl) (blanks rfl)
      (.blank (blanks rfl) (.padded (blanks rfl) (blanks rfl) .nil))))
  obtain ⟨hjoin, hother, -, -⟩ :=
    ofForm_spellings_agree (List.cons_ne_nil _ _) hgenre [("year", "2014")] []
  exact ⟨⟨List.cons_ne_nil _ _, hgenre⟩, hvalues, hpieces, hjoin, hother other hvalues hpieces,
    by decide +kernel⟩

end Request

end MovieCatalog
