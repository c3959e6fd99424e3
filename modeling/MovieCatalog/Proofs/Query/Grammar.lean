import MovieCatalog.Proofs.Json.Definite
import MovieCatalog.Query.Codec

/-!
# The grammar of clauses

Which JSON values are clauses, and what each of them says, is stated here without a decoder
(`Clause.Means`): the only member of an object names the kind; words are sought with a record of a
text and of names of fields; a field is compared with a text or an integer, or bounded by a record
of two numbers of which at least one is given. A record is an object, with other members or
without, or an array of its parts in order. From every text that the grammar of JSON allows, if
its value is definite, a clause is read exactly if the value is one, and then the clause says what
the value says (`Clause.readString_eq_ok_iff`).
-/

namespace MovieCatalog

open Json (Node NumberLexeme StringLexeme ObjectEnd ArrayEnd Context Decoder Fields)

/-! ## The grammar -/

/-- What stands for a bound: nothing, `null`, or a number, of which the floating-point value is the
bound. -/
inductive Bounds.MeansBound : Option Node → Option Binary64 → Prop
  | absent : MeansBound none none
  | null : MeansBound (some .null) none
  | number {n : Node} {x : Binary64} (h : n.MeansDouble x) : MeansBound (some n) (some x)

/-- Bounds: an object in which the two bounds have names, or an array of the two that may end before
a bound. -/
inductive Bounds.Means : Node → Bounds → Prop
  | object {members : List (StringLexeme × Node)} {ending : ObjectEnd} {b : Bounds}
      (hleast : MeansBound (Json.named "gte" members).head? b.least)
      (hgreatest : MeansBound (Json.named "lte" members).head? b.greatest) :
      Means (.object members ending) b
  | array {items : List Node} {ending : ArrayEnd} {b : Bounds} (hlength : items.length ≤ 2)
      (hleast : MeansBound items[0]? b.least) (hgreatest : MeansBound items[1]? b.greatest) :
      Means (.array items ending) b

/-- A value that a field is compared with: a text, or an integer of 64 bits without a point and a
power of ten. Minus zero is no integer. -/
inductive TermValue.Means : Node → TermValue → Prop
  | text {n : Node} {s : String} (h : n.MeansText s) : Means n (.text s)
  | integer {negative : Bool} {digits : List Char} {k : Int64}
      (hvalue : Json.signedValue negative digits = k.toInt)
      (hzero : negative = true → k.toInt ≠ 0) :
      Means (.number (.whole negative digits)) (.integer k)

namespace Clause

/-- What is said of words: an object in which the words and the names of the fields have names, or
an array of the two. -/
inductive MeansWords : Node → String → List String → Prop
  | object {members : List (StringLexeme × Node)} {ending : ObjectEnd} {query fields : Node}
      {words : String} {names : List String}
      (hquery : (Json.named "query" members).head? = some query)
      (hfields : (Json.named "fields" members).head? = some fields)
      (hwords : query.MeansText words) (hnames : fields.MeansTexts names) :
      MeansWords (.object members ending) words names
  | array {query fields : Node} {ending : ArrayEnd} {words : String} {names : List String}
      (hwords : query.MeansText words) (hnames : fields.MeansTexts names) :
      MeansWords (.array [query, fields] ending) words names

/-- What stands behind the name of a kind: a record of words and fields, or an object whose only
member has the name of a field. -/
inductive MeansContent : Node → Clause → Prop
  | multiMatch {n : Node} {words : String} {fields : List String} (h : MeansWords n words fields) :
      MeansContent n (.multiMatch words fields)
  | term {n v : Node} {field : String} {value : TermValue} (hfield : Node.OnlyMember field v n)
      (h : value.Means v) : MeansContent n (.term field value)
  | range {n v : Node} {field : String} {bounds : Bounds} (hfield : Node.OnlyMember field v n)
      (h : bounds.Means v) (hbounded : bounds.least ≠ none ∨ bounds.greatest ≠ none) :
      MeansContent n (.range field bounds)

/-- The value is a clause, and says what this clause says. -/
def Means (n : Node) (c : Clause) : Prop :=
  ∃ content, Node.OnlyMember c.kind content n ∧ MeansContent content c

end Clause

/-! ## Values and bounds -/

/-- A signed integer of 64 bits is held exactly. -/
theorem Json.held_toInt (k : Int64) : leastInteger ≤ k.toInt ∧ k.toInt < integerBound := by
  have hle := k.le_toInt
  have hlt := k.toInt_lt
  simp only [leastInteger, integerBound, Word.half64, Word.size64]
  omega

namespace TermValue

/-- Only a string is a text. -/
theorem ofJson?_eq_text_iff {v : Json} {s : String} :
    ofJson? v = some (.text s) ↔ v = .string s := by
  constructor
  · intro h
    unfold ofJson? at h
    split at h
    · cases h
      rfl
    · split at h <;> cases h
    · cases h
  · rintro rfl
    rfl

/-- Only an integer that fits 64 bits with a sign is an integer. -/
theorem ofJson?_eq_integer_iff {v : Json} {k : Int64} :
    ofJson? v = some (.integer k) ↔ v = .number (.integer k.toInt (Json.held_toInt k)) := by
  constructor
  · intro h
    unfold ofJson? at h
    split at h
    · cases h
    · next i held =>
      split at h
      · next hi =>
        cases h
        have hword : (Int64.ofInt i).toInt = i := by
          simp only [Json.leastInteger] at held
          exact Word.toInt_ofInt (by omega) (by omega)
        simp only [hword]
      · cases h
    · cases h
  · rintro rfl
    have hlt : k.toInt < Word.half64 := by
      have hlt := k.toInt_lt
      simp only [Word.half64]
      omega
    rw [ofJson?, if_pos hlt, Int64.ofInt_toInt]

/-- A term is read as a value first, and is then the text or the signed integer that this value is.
-/
theorem decoder_eq_ok_iff {ctx : Context} {n : Node} {t : TermValue} :
    decoder ctx n = .ok t ↔ ∃ v, n.value ctx.room = .ok v ∧ ofJson? v = some t := by
  constructor
  · intro h
    obtain ⟨v, hv, h⟩ := Json.ok_of_bind h
    split at h
    · next ht =>
      cases h
      exact ⟨v, hv, ht⟩
    · cases h
  · rintro ⟨v, hv, ht⟩
    have hjson : Decoder.json ctx n = .ok v := hv
    refine (Json.bind_of_ok hjson _).trans ?_
    rw [ht]
    rfl

/-- A term value is read exactly from a value that means it. -/
theorem exactFor_decoder : decoder.ExactFor 0 Means := by
  intro ctx n t _ _
  rw [decoder_eq_ok_iff]
  cases t with
  | text s =>
    simp only [ofJson?_eq_text_iff, exists_eq_right, Node.value_eq_string_iff]
    constructor
    · exact .text
    · intro h
      cases h with
      | text h => exact h
  | integer k =>
    simp only [ofJson?_eq_integer_iff, exists_eq_right, Node.value_eq_number_iff]
    constructor
    · intro h
      cases h with
      | number hread =>
        obtain ⟨negative, digits, rfl, hvalue, hzero⟩ := NumberLexeme.read_eq_integer_iff.1 hread
        exact .integer hvalue hzero
    · intro h
      cases h with
      | integer hvalue hzero =>
        exact .number (NumberLexeme.read_eq_integer_iff.2 ⟨_, _, rfl, hvalue, hzero⟩)

end TermValue

/-- A bound is read exactly from what stands for it. -/
theorem Bounds.meansBound_iff {ctx : Context} {part : Option Node} {bound : Option Binary64} :
    ((part = none ∧ some none = some bound) ∨
      ∃ n, part = some n ∧ Decoder.nullable .double ctx n = .ok bound) ↔ MeansBound part bound := by
  constructor
  · rintro (⟨rfl, h⟩ | ⟨n, rfl, h⟩)
    · cases h
      exact .absent
    · unfold Decoder.nullable at h
      split at h
      · cases h
        exact .null
      · obtain ⟨x, hx, h⟩ := Json.ok_of_bind h
        cases h
        exact .number (Decoder.soundFor_double ctx n x hx)
  · intro h
    cases h with
    | absent => exact .inl ⟨rfl, rfl⟩
    | null => exact .inr ⟨_, rfl, rfl⟩
    | @number n x h =>
      refine .inr ⟨n, rfl, ?_⟩
      have hread := Decoder.double_of_means ctx h
      obtain ⟨-, ⟨-⟩, -⟩ := h
      exact congrArg (some <$> ·) hread

/-- What bounds mean, as a record with the two bounds as its parts. -/
theorem Bounds.means_iff {n : Node} {b : Bounds} :
    b.Means n ↔ Fields.IsRecord 2 n ∧ MeansBound (n.part? ["gte", "lte"] "gte") b.least ∧
      MeansBound (n.part? ["gte", "lte"] "lte") b.greatest := by
  constructor
  · intro h
    cases h with
    | object hleast hgreatest => exact ⟨.object, hleast, hgreatest⟩
    | array hlength hleast hgreatest => exact ⟨.array hlength, hleast, hgreatest⟩
  · rintro ⟨hshape, hleast, hgreatest⟩
    cases hshape with
    | object => exact .object hleast hgreatest
    | array hlength => exact .array hlength hleast hgreatest

/-- Bounds are read exactly from a value that means them. -/
theorem Bounds.exactFor_decoder : Bounds.decoder.ExactFor 1 Means := by
  intro ctx n b hroom hn
  obtain ⟨inside, henter, -⟩ := Context.enter_of_le hroom
  have hdecode := @Fields.decode_eq_ok_iff _
    (.cons (.withDefault "gte" (.nullable .double) none)
      (.cons (.withDefault "lte" (.nullable .double) none) .nil))
    (by decide) "RangeBounds" ctx inside henter n hn
  rw [means_iff]
  constructor
  · intro h
    obtain ⟨⟨least, greatest, _⟩, hread, h⟩ := Json.ok_of_bind h
    cases h
    obtain ⟨hshape, hleast, hgreatest, -⟩ := hdecode.1 hread
    exact ⟨hshape, meansBound_iff.1 hleast, meansBound_iff.1 hgreatest⟩
  · rintro ⟨hshape, hleast, hgreatest⟩
    have hread := (@hdecode (b.least, b.greatest, ())).2
      ⟨hshape, meansBound_iff.2 hleast, meansBound_iff.2 hgreatest, trivial⟩
    exact Json.bind_of_ok hread _

/-! ## Clauses -/

namespace Clause

/-- What words and their fields mean, as a record with these two parts. -/
theorem meansWords_iff {n : Node} {words : String} {names : List String} :
    MeansWords n words names ↔ Fields.IsRecord 2 n ∧
      (∃ query, n.part? ["query", "fields"] "query" = some query ∧ query.MeansText words) ∧
      ∃ fields, n.part? ["query", "fields"] "fields" = some fields ∧ fields.MeansTexts names := by
  constructor
  · intro h
    cases h with
    | object hquery hfields hwords hnames =>
      exact ⟨.object, ⟨_, hquery, hwords⟩, _, hfields, hnames⟩
    | array hwords hnames => exact ⟨.array (Nat.le_refl 2), ⟨_, rfl, hwords⟩, _, rfl, hnames⟩
  · rintro ⟨hshape, ⟨query, hquery, hwords⟩, fields, hfields, hnames⟩
    cases hshape with
    | object => exact .object hquery hfields hwords hnames
    | @array items ending hlength =>
      match items, hlength, hquery, hfields with
      | [_, _], _, rfl, rfl => exact .array hwords hnames

/-- The content of a clause of a given kind. -/
def MeansOfKind (name : String) (n : Node) (c : Clause) : Prop :=
  c.kind = name ∧ MeansContent n c

/-- What is said of words is read exactly from a value that means it. -/
theorem exactFor_multiMatchDecoder :
    multiMatchDecoder.ExactFor 2 (MeansOfKind "multi_match") := by
  intro ctx n c hroom hn
  obtain ⟨inside, henter, hinside⟩ := Context.enter_of_le hroom
  have hdecode := @Fields.decode_eq_ok_iff _
    (.cons (.required "query" .string) (.cons (.required "fields" (.list .string)) .nil))
    (by decide) "MultiMatch" ctx inside henter n hn
  have htexts : ∀ v, n.part? ["query", "fields"] "fields" = some v → ∀ texts,
      Decoder.list .string inside v = .ok texts ↔ v.MeansTexts texts := fun v hv texts =>
    Decoder.exactFor_string.list Decoder.soundFor_string inside v texts hinside (hn.part hv)
  constructor
  · intro h
    obtain ⟨⟨words, names, _⟩, hread, h⟩ := Json.ok_of_bind h
    cases h
    obtain ⟨hshape, ⟨-, h⟩ | ⟨query, hquery, hwords⟩, ⟨-, h⟩ | ⟨fields, hfields, hnames⟩, -⟩ :=
      hdecode.1 hread
    · cases h
    · cases h
    · cases h
    · exact ⟨rfl, .multiMatch (meansWords_iff.2 ⟨hshape,
        ⟨query, hquery, Decoder.soundFor_string inside query words hwords⟩, fields, hfields,
        (htexts fields hfields names).1 hnames⟩)⟩
  · rintro ⟨hkind, h⟩
    cases h with
    | @multiMatch words names h =>
      obtain ⟨hshape, ⟨query, hquery, hwords⟩, fields, hfields, hnames⟩ := meansWords_iff.1 h
      have hread := (@hdecode (words, names, ())).2 ⟨hshape,
        .inr ⟨query, hquery, (Decoder.exactFor_string inside query words (Nat.zero_le _)
          (hn.part hquery)).2 hwords⟩,
        .inr ⟨fields, hfields, (htexts fields hfields names).2 hnames⟩, trivial⟩
      exact Json.bind_of_ok hread _
    | term | range => exact absurd hkind (by simp [kind])

/-- A single member is found in a table if there is one and no other. -/
theorem onlyField_eq_ok_iff {α : Type} {kind : String} {members : List (String × α)}
    {member : String × α} : onlyField kind members = .ok member ↔ members = [member] := by
  constructor
  · intro h
    unfold onlyField at h
    split at h
    · cases h
      rfl
    · cases h
  · rintro rfl
    rfl

/-- What is said of a field is read exactly from an object whose only member has the name of the
field and means it. -/
theorem onlyField_table_iff {α : Type} {d : Decoder α} {depth : Nat} {means : Node → α → Prop}
    (hd : d.ExactFor depth means) {ctx : Context} {n : Node} (hroom : depth + 1 ≤ ctx.room)
    (hn : n.Definite) {kind field : String} {a : α} :
    (Decoder.table d ctx n >>= onlyField kind) = .ok (field, a) ↔
      ∃ v, Node.OnlyMember field v n ∧ means v a := by
  rw [← hd.table_singleton hroom hn]
  constructor
  · intro h
    obtain ⟨members, hread, h⟩ := Json.ok_of_bind h
    rwa [onlyField_eq_ok_iff.1 h] at hread
  · intro h
    exact (Json.bind_of_ok h _).trans rfl

/-- What is said of a field's value is read exactly from a value that means it. -/
theorem exactFor_termDecoder : termDecoder.ExactFor 2 (MeansOfKind "term") := by
  intro ctx n c hroom hn
  have hfield : ∀ field value, (Decoder.table TermValue.decoder ctx n >>= onlyField "term")
      = .ok (field, value) ↔ ∃ v, Node.OnlyMember field v n ∧ value.Means v := fun _ _ =>
    onlyField_table_iff TermValue.exactFor_decoder (Nat.le_of_succ_le hroom) hn
  constructor
  · intro h
    obtain ⟨members, hread, h⟩ := Json.ok_of_bind h
    obtain ⟨⟨field, value⟩, honly, h⟩ := Json.ok_of_bind h
    cases h
    obtain ⟨v, hmember, hmeans⟩ := (hfield field value).1 ((Json.bind_of_ok hread _).trans honly)
    exact ⟨rfl, .term hmember hmeans⟩
  · rintro ⟨hkind, h⟩
    cases h with
    | @term v field value hmember h =>
      obtain ⟨members, hread, honly⟩ := Json.ok_of_bind ((hfield field value).2 ⟨v, hmember, h⟩)
      exact (Json.bind_of_ok hread _).trans (Json.bind_of_ok honly _)
    | multiMatch | range => exact absurd hkind (by simp [kind])

/-- What is said of the range of a field is read exactly from a value that means it. -/
theorem exactFor_rangeDecoder : rangeDecoder.ExactFor 2 (MeansOfKind "range") := by
  intro ctx n c hroom hn
  have hfield : ∀ field bounds, (Decoder.table Bounds.decoder ctx n >>= onlyField "range")
      = .ok (field, bounds) ↔ ∃ v, Node.OnlyMember field v n ∧ bounds.Means v := fun _ _ =>
    onlyField_table_iff Bounds.exactFor_decoder hroom hn
  have hbounded : ∀ b : Bounds, (b.least.isNone ∧ b.greatest.isNone) ↔
      ¬ (b.least ≠ none ∨ b.greatest ≠ none) := by
    simp
  constructor
  · intro h
    obtain ⟨members, hread, h⟩ := Json.ok_of_bind h
    obtain ⟨⟨field, bounds⟩, honly, h⟩ := Json.ok_of_bind h
    obtain ⟨v, hmember, hmeans⟩ := (hfield field bounds).1 ((Json.bind_of_ok hread _).trans honly)
    dsimp only at h
    split at h
    · cases h
    · next hgiven =>
      cases h
      exact ⟨rfl, .range hmember hmeans (not_not.1 fun hnone => hgiven ((hbounded bounds).2 hnone))⟩
  · rintro ⟨hkind, h⟩
    cases h with
    | @range v field bounds hmember h hgiven =>
      obtain ⟨members, hread, honly⟩ := Json.ok_of_bind ((hfield field bounds).2 ⟨v, hmember, h⟩)
      have hcheck : ¬ (bounds.least.isNone ∧ bounds.greatest.isNone) := fun hnone =>
        (hbounded bounds).1 hnone hgiven
      refine (Json.bind_of_ok hread _).trans ((Json.bind_of_ok honly _).trans ?_)
      dsimp only
      rw [if_neg hcheck]
      rfl
    | multiMatch | term => exact absurd hkind (by simp [kind])

/-- A clause is read exactly from a value that means it. -/
theorem exactFor_decoder : Clause.decoder.ExactFor 3 Means := by
  have hexact : Clause.decoder.ExactFor 3 fun n c =>
      ∃ name v, Node.OnlyMember name v n ∧ MeansOfKind name v c := by
    refine Decoder.ExactFor.oneOf (by simp [Json.Variant.withContent]) ?_ ?_
    · rintro name v c ⟨rfl, -⟩
      cases c <;> exact ⟨_, rfl⟩
    · simp only [List.forall_mem_cons]
      exact ⟨exactFor_multiMatchDecoder, exactFor_termDecoder, exactFor_rangeDecoder,
        fun _ hw => nomatch hw⟩
  intro ctx n c hroom hn
  rw [hexact ctx n c hroom hn]
  constructor
  · rintro ⟨name, v, hmember, rfl, hmeans⟩
    exact ⟨v, hmember, hmeans⟩
  · rintro ⟨v, hmember, hmeans⟩
    exact ⟨c.kind, v, hmember, rfl, hmeans⟩

end Clause

end MovieCatalog
