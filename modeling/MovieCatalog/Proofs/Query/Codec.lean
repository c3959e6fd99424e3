import MovieCatalog.Proofs.Bounds
import MovieCatalog.Proofs.Json.Record
import MovieCatalog.Query.Codec

/-!
# Queries read back

A query is sound when every range in it has sound bounds (`Query.Sound`). Queries become sound in two
ways that know nothing of each other: their ranges are made with usable bounds
(`Clause.Built.sound`), or they are decoded, where a number is always near to a finite one and a range
without bounds is refused (`Query.sound_of_yields`). A sound query with legible bounds is read back
from its text (`Query.reads_toJson`), clause by clause and level by level, and there is no `null` in
the text of any sound query.
-/

namespace MovieCatalog

open Json (Decoder Fields)

/-! ## Bounds -/

namespace Bounds

/-- The fields of bounds. -/
abbrev fields : Fields (Option Binary64 × Option Binary64 × Unit) :=
  .cons (.withDefault "gte" (.nullable .double) none)
    (.cons (.withDefault "lte" (.nullable .double) none) .nil)

/-- A finite number is not written as `null`. -/
theorem not_holdsNull_ofBinary64 {x : Binary64} (hx : x.isFinite = true) :
    ¬ (Json.ofBinary64 x).node.HoldsNull := by
  rw [Json.ofBinary64, Json.Number.ofBinary64?_of_finite hx]
  exact Json.not_holdsNull_number _

/-- Bounds that are absent are not written, and the others are no `null`. -/
theorem not_holdsNull_toJson {b : Bounds} (h : b.Sound) : ¬ b.toJson.node.HoldsNull := by
  refine Json.not_holdsNull_object fun m hm => ?_
  rcases List.mem_append.1 hm with hm | hm
  · obtain ⟨x, hx, rfl⟩ := Option.map_eq_some_iff.1 (Option.mem_toList.1 hm)
    exact not_holdsNull_ofBinary64 (h.least_finite x hx)
  · obtain ⟨x, hx, rfl⟩ := Option.map_eq_some_iff.1 (Option.mem_toList.1 hm)
    exact not_holdsNull_ofBinary64 (h.greatest_finite x hx)

/-- Finite bounds are written as fields of which the absent ones are left out. -/
theorem writes_bound (name : String) {bound : Option Binary64}
    (hbound : ∀ x, bound = some x → x.isFinite = true)
    (hlegible : ∀ x, bound = some x → (Json.ofBinary64 x).Legible) {τ : Type} {rest : Fields τ}
    {ms : List (String × Json)} {as : τ} (h : rest.Writes 0 ms as) :
    (Fields.cons (.withDefault name (.nullable .double) none) rest).Writes 0
      ((bound.map fun x => (name, Json.ofBinary64 x)).toList ++ ms) (bound, as) := by
  cases bound with
  | none => exact .omitted rfl h
  | some x =>
    have hx := hbound x rfl
    have hnull : (Json.ofBinary64 x).node ≠ .null :=
      fun heq => not_holdsNull_ofBinary64 hx (heq ▸ .null)
    exact .given (Decoder.reads_nullable hnull (Decoder.reads_double hx (hlegible x rfl))) h

/-- Bounds that are present are members of what is written. -/
theorem legible_bounds {b : Bounds} (h : b.toJson.Legible) :
    (∀ x, b.least = some x → (Json.ofBinary64 x).Legible) ∧
      ∀ x, b.greatest = some x → (Json.ofBinary64 x).Legible := by
  have hmembers := Json.legible_object_iff.1 h
  refine ⟨fun x hx => hmembers ("gte", .ofBinary64 x) (List.mem_append_left _ ?_),
    fun x hx => hmembers ("lte", .ofBinary64 x) (List.mem_append_right _ ?_)⟩
  · simp [hx]
  · simp [hx]

/-- Finite bounds that are legible are read back. -/
theorem reads_toJson {b : Bounds} (h : b.Sound) (hlegible : b.toJson.Legible) :
    Bounds.decoder.Reads 1 b.toJson b := by
  obtain ⟨hleast, hgreatest⟩ := legible_bounds hlegible
  have hwrites := writes_bound "gte" h.least_finite hleast
    (writes_bound "lte" h.greatest_finite hgreatest .nil)
  rw [List.append_nil] at hwrites
  have hread := fields.reads_decode "RangeBounds" (by decide) hwrites
  exact hread.bind rfl

/-- A bound that is left out is absent, and one that is read is `null` or finite. -/
theorem isFinite_of_field {bound : Option Binary64}
    (h : some none = some bound ∨ (Decoder.nullable .double).Yields bound) :
    ∀ x, bound = some x → x.isFinite = true := by
  rintro x rfl
  rcases h with h | h
  · cases h
  · exact Decoder.isFinite_of_yields_double (Decoder.yields_of_nullable h)

/-- Only finite bounds are read. -/
theorem finite_of_yields {b : Bounds} (h : Bounds.decoder.Yields b) :
    (∀ x, b.least = some x → x.isFinite = true) ∧
      ∀ x, b.greatest = some x → x.isFinite = true := by
  obtain ⟨⟨least, greatest, ⟨⟩⟩, hread, h⟩ := Decoder.yields_of_bind h
  cases h
  obtain ⟨hleast, hgreatest, -⟩ := fields.yields_of_decode hread
  exact ⟨isFinite_of_field hleast, isFinite_of_field hgreatest⟩

end Bounds

/-! ## Clauses -/

/-- The value of a term is read back. -/
theorem TermValue.reads_toJson (t : TermValue) : TermValue.decoder.Reads 0 t.toJson t := by
  cases t with
  | text s =>
    have hread : Decoder.json.Reads 0 (.string s) (.string s) := by
      intro ctx _
      rw [Decoder.json, Json.node, Json.Node.value, Json.StringLexeme.read_ofString]
      rfl
    exact hread.bind rfl
  | integer n =>
    have hread : Decoder.json.Reads 0 (.ofInt64 n) (.ofInt64 n) := by
      intro ctx _
      exact congrArg (Json.number <$> ·) (Json.Number.legible_integer _ _)
    have hvalue : TermValue.ofJson? (.ofInt64 n) = some (.integer n) := by
      have hlt : n.toInt < Word.half64 := n.toInt_lt
      rw [Json.ofInt64, Json.Number.ofInt64, TermValue.ofJson?, if_pos hlt, Int64.ofInt_toInt]
    refine hread.bind ?_
    rw [hvalue]
    rfl

namespace Clause

/-- The bounds of a range are sound. -/
def Sound : Clause → Prop
  | .multiMatch .. | .term .. => True
  | .range _ bounds => bounds.Sound

/-- The clause is made in one of the three ways of making clauses. -/
inductive Built : Clause → Prop
  | multiMatch (words : String) (fields : List String) : Built (.multiMatch words fields)
  | term (field : String) (value : TermValue) : Built (.term field value)
  | range {field : String} {b : Bounds} {c : Clause} (h : range? field b = some c) : Built c

/-- A clause that a request can lead to is sound. -/
theorem Built.sound {c : Clause} (h : c.Built) : c.Sound := by
  cases h with
  | multiMatch words fields => trivial
  | term field value => trivial
  | range h =>
    obtain ⟨b, hb, rfl⟩ := Option.map_eq_some_iff.1 h
    exact Bounds.sound_iff_usable?.2 ⟨_, hb⟩

/-- A sound clause equals itself. -/
theorem Sound.equal_self {c : Clause} (h : c.Sound) : c.equal c = true := by
  cases c with
  | multiMatch words fields => simp [equal]
  | term field value => simp [equal]
  | range field b => simp [equal, Bounds.Sound.equal_self h]

/-- The fields of what a clause says of words. -/
abbrev wordFields : Fields (String × List String × Unit) :=
  .cons (.required "query" .string) (.cons (.required "fields" (.list .string)) .nil)

/-- What a sound clause says is read back by the decoder of its kind, and a clause is an object that
names its kind. -/
theorem reads_toJson {c : Clause} (h : c.Sound) (hlegible : c.toJson.Legible) :
    Clause.decoder.Reads 3 c.toJson c := by
  cases c with
  | multiMatch words fields =>
    have hlist := Decoder.reads_ofStrings fields
    have hwords : Decoder.string.Reads 1 (.string words) words :=
      (Decoder.reads_string words).mono (Nat.zero_le 1)
    have hrecord := wordFields.reads_decode "MultiMatch" (by decide)
      (.given hwords (.given hlist .nil))
    exact Decoder.reads_oneOf rfl (hrecord.bind rfl)
  | term field value =>
    have htable := Decoder.reads_table field value.reads_toJson
    exact Decoder.reads_oneOf rfl ((htable.mono (Nat.le_succ 1)).bind rfl)
  | range field b =>
    have hbounds : b.toJson.Legible := by
      simpa [toJson, contentJson] using hlegible
    have htable := Decoder.reads_table field (Bounds.reads_toJson h hbounds)
    refine Decoder.reads_oneOf rfl (htable.bind ?_)
    have hgiven := Bounds.given_iff.1 h.given
    simp only [onlyField, bind, Except.bind]
    rw [if_neg hgiven]
    rfl

/-- What a sound clause is written as holds no `null`. -/
theorem not_holdsNull_toJson {c : Clause} (h : c.Sound) : ¬ c.toJson.node.HoldsNull := by
  refine Json.not_holdsNull_singleton ?_
  cases c with
  | multiMatch words fields =>
    refine Json.not_holdsNull_object fun m hm => ?_
    rcases List.mem_pair.1 hm with rfl | rfl
    · exact Json.not_holdsNull_string words
    · refine Json.not_holdsNull_array fun v hv => ?_
      obtain ⟨s, -, rfl⟩ := List.mem_map.1 hv
      exact Json.not_holdsNull_string s
  | term field value =>
    refine Json.not_holdsNull_singleton ?_
    cases value with
    | text s => exact Json.not_holdsNull_string s
    | integer n => exact Json.not_holdsNull_number (.ofInt64 n)
  | range field b => exact Json.not_holdsNull_singleton (Bounds.not_holdsNull_toJson h)

/-- The only member of an object is one of its members. -/
theorem mem_of_onlyField {α : Type} {kind : String} {ms : List (String × α)} {m : String × α}
    (h : onlyField kind ms = .ok m) : m ∈ ms := by
  unfold onlyField at h
  split at h
  · cases h
    exact List.mem_singleton_self m
  · cases h

/-- Only sound clauses are read. -/
theorem sound_of_yields {c : Clause} (h : Clause.decoder.Yields c) : c.Sound := by
  obtain ⟨w, hw, hcontent⟩ := Decoder.yields_of_oneOf h
  simp only [List.mem_cons, List.not_mem_nil, or_false] at hw
  rcases hw with rfl | rfl | rfl
  · obtain h | h := hcontent
    · cases h
    · obtain ⟨⟨words, fields, ⟨⟩⟩, -, h⟩ := Decoder.yields_of_bind h
      cases h
      trivial
  · obtain h | h := hcontent
    · cases h
    · obtain ⟨ms, -, h⟩ := Decoder.yields_of_bind h
      obtain ⟨⟨field, value⟩, -, h⟩ := Json.ok_of_bind h
      cases h
      trivial
  · obtain h | h := hcontent
    · cases h
    · obtain ⟨ms, htable, h⟩ := Decoder.yields_of_bind h
      obtain ⟨⟨field, b⟩, honly, h⟩ := Json.ok_of_bind h
      obtain ⟨hleast, hgreatest⟩ :=
        Bounds.finite_of_yields (Decoder.yields_of_table htable _ (mem_of_onlyField honly))
      dsimp only at h
      split at h
      · cases h
      · next hnone =>
        cases h
        exact ⟨Bounds.given_iff.2 hnone, hleast, hgreatest⟩

end Clause

/-! ## Queries -/

namespace Query

/-- The clauses of all groups. -/
def clauses (q : Query) : List Clause :=
  q.must ++ q.filter ++ q.should

/-- Every clause is sound. -/
def Sound (q : Query) : Prop :=
  ∀ c ∈ q.clauses, c.Sound

/-- A query is sound if all clauses in its three groups are. -/
theorem sound_iff {q : Query} :
    q.Sound ↔ (∀ c ∈ q.must, c.Sound) ∧ (∀ c ∈ q.filter, c.Sound) ∧ ∀ c ∈ q.should, c.Sound := by
  simp only [Sound, clauses, List.forall_mem_append, and_assoc]

/-- Sound clauses equal themselves one by one; a bound that is not a number would not. -/
theorem allEqual_self {cs : List Clause} (h : ∀ c ∈ cs, c.Sound) :
    Clause.allEqual cs cs = true := by
  induction cs with
  | nil => rfl
  | cons c cs ih =>
    have hhead := (h c List.mem_cons_self).equal_self
    have htail := ih fun d hd => h d (List.mem_cons_of_mem _ hd)
    rw [Clause.allEqual, hhead, htail]
    rfl

/-- A sound query equals itself. -/
theorem Sound.equal_self {q : Query} (h : q.Sound) : q.equal q = true := by
  obtain ⟨hmust, hfilter, hshould⟩ := sound_iff.1 h
  rw [equal, allEqual_self hmust, allEqual_self hfilter, allEqual_self hshould]
  rfl

/-- The clauses of a legible query are legible. -/
theorem legible_groups {q : Query} (h : q.toJson.Legible) :
    (∀ c ∈ q.must, c.toJson.Legible) ∧ (∀ c ∈ q.filter, c.toJson.Legible) ∧
      ∀ c ∈ q.should, c.toJson.Legible := by
  simpa [toJson, groupsJson] using h

/-- The fields of the groups. -/
abbrev groupFields : Fields (List Clause × List Clause × List Clause × Unit) :=
  .cons (.withDefault "must" (.list Clause.decoder) [])
    (.cons (.withDefault "filter" (.list Clause.decoder) [])
      (.cons (.withDefault "should" (.list Clause.decoder) []) .nil))

/-- The field of a query. -/
abbrev queryFields : Fields (Query × Unit) :=
  .cons (.required "bool" groupsDecoder) .nil

/-- A sound query with legible bounds is read back from what it is written as. -/
theorem reads_toJson {q : Query} (h : q.Sound) (hlegible : q.toJson.Legible) :
    Query.decoder.Reads 6 q.toJson q := by
  obtain ⟨hmust, hfilter, hshould⟩ := sound_iff.1 h
  obtain ⟨hmustLegible, hfilterLegible, hshouldLegible⟩ := legible_groups hlegible
  have hgroup : ∀ {cs : List Clause}, (∀ c ∈ cs, c.Sound) → (∀ c ∈ cs, c.toJson.Legible) →
      (Decoder.list Clause.decoder).Reads 4 (.array (cs.map Clause.toJson)) cs :=
    fun hcs hcsLegible =>
      Decoder.reads_list fun c hc => Clause.reads_toJson (hcs c hc) (hcsLegible c hc)
  have hgroups := groupFields.reads_decode "BoolQuery" (by decide)
    (.given (hgroup hmust hmustLegible) (.given (hgroup hfilter hfilterLegible)
      (.given (hgroup hshould hshouldLegible) .nil)))
  have hquery := queryFields.reads_decode "Query" (by decide)
    (.given (hgroups.bind (b := q) rfl) .nil)
  exact hquery.bind rfl

/-- A group that is left out is empty, and one that is read has sound clauses. -/
theorem sound_of_field {cs : List Clause}
    (h : some [] = some cs ∨ (Decoder.list Clause.decoder).Yields cs) : ∀ c ∈ cs, c.Sound := by
  rcases h with h | h
  · cases h
    exact fun c hc => nomatch hc
  · exact fun c hc => Clause.sound_of_yields (Decoder.yields_of_list h c hc)

/-- Only sound queries are read. -/
theorem sound_of_yields {q : Query} (h : Query.decoder.Yields q) : q.Sound := by
  obtain ⟨⟨p, ⟨⟩⟩, hquery, h⟩ := Decoder.yields_of_bind h
  cases h
  obtain ⟨hbool, -⟩ := queryFields.yields_of_decode hquery
  rcases hbool with hbool | hbool
  · cases hbool
  · obtain ⟨⟨must, filter, should, ⟨⟩⟩, hgroups, h⟩ := Decoder.yields_of_bind hbool
    cases h
    obtain ⟨hmust, hfilter, hshould, -⟩ := groupFields.yields_of_decode hgroups
    exact sound_iff.2 ⟨sound_of_field hmust, sound_of_field hfilter, sound_of_field hshould⟩

/-- What a sound query is written as holds no `null`. -/
theorem not_holdsNull_toJson {q : Query} (h : q.Sound) : ¬ q.toJson.node.HoldsNull := by
  obtain ⟨hmust, hfilter, hshould⟩ := sound_iff.1 h
  have hgroup : ∀ {cs : List Clause}, (∀ c ∈ cs, c.Sound) →
      ¬ (Json.node (.array (cs.map Clause.toJson))).HoldsNull := by
    intro cs hcs
    refine Json.not_holdsNull_array fun v hv => ?_
    obtain ⟨c, hc, rfl⟩ := List.mem_map.1 hv
    exact Clause.not_holdsNull_toJson (hcs c hc)
  refine Json.not_holdsNull_singleton (Json.not_holdsNull_object fun m hm => ?_)
  rcases List.mem_cons.1 hm with rfl | hm
  · exact hgroup hmust
  · rcases List.mem_pair.1 hm with rfl | rfl
    · exact hgroup hfilter
    · exact hgroup hshould

/-- A query of clauses that are made in the ways of making clauses, or one that any text is decoded
to, is decoded from its own text if its bounds are legible, and writing the decoded query gives this
text again. Every range in it has a bound and none that is not finite, so there is no `null` in the
text. -/
theorem readString_text {q : Query}
    (h : (∀ c ∈ q.clauses, c.Built) ∨ ∃ text, Query.decoder.read text = .ok q) :
    (q.toJson.Legible → ∃ r, Query.decoder.readString q.toJson.text = .ok r ∧
        r = q ∧ r.equal q = true ∧ r.toJson.text = q.toJson.text) ∧
      (∀ field b, .range field b ∈ q.clauses → b.Sound) ∧
      ¬ (Json.Document.read (Text.pieces q.toJson.text)).root.HoldsNull := by
  have hsound : q.Sound := by
    rcases h with hbuilt | ⟨text, hread⟩
    · exact fun c hc => (hbuilt c hc).sound
    · exact sound_of_yields (Decoder.yields_of_read hread)
  refine ⟨fun hlegible => ?_, fun field b hrange => hsound _ hrange, ?_⟩
  · have hback : Query.decoder.readString q.toJson.text = .ok q :=
      (reads_toJson hsound hlegible).readString (by decide)
    exact ⟨q, hback, rfl, hsound.equal_self, rfl⟩
  rw [Json.Document.read_text]
  exact not_holdsNull_toJson hsound

/-- A query for a quote, a backslash and a control character, with the least integer and a range up to
minus zero of which the lower bound was no number. -/
theorem readString_text_control :
    let q : Query := ⟨[.multiMatch "\"\\\x00" ["", "title^3"]],
      [.term "year" (.integer Int64.minValue),
        .range "" ⟨none, some (.finite true ⟨0, by decide⟩)⟩], []⟩
    (∀ c ∈ q.clauses, c.Built) ∧ q.toJson.Legible ∧
      (∃ r, Query.decoder.readString q.toJson.text = .ok r ∧
        r = q ∧ r.equal q = true ∧ r.toJson.text = q.toJson.text) ∧
      (∀ field b, .range field b ∈ q.clauses → b.Sound) ∧
      ¬ (Json.Document.read (Text.pieces q.toJson.text)).root.HoldsNull := by
  intro q
  have hbuilt : ∀ c ∈ q.clauses, c.Built := by
    have hrange : Clause.range? "" ⟨some .nan, some (.finite true ⟨0, by decide⟩)⟩
        = some (.range "" ⟨none, some (.finite true ⟨0, by decide⟩)⟩) := by decide +kernel
    intro c hc
    rcases List.mem_cons.1 hc with rfl | hc
    · exact .multiMatch _ _
    · rcases List.mem_pair.1 hc with rfl | rfl
      · exact .term _ _
      · exact .range hrange
  have hlegible : q.toJson.Legible := by
    have hzero : (Json.ofBinary64 (.finite true ⟨0, by decide⟩)).Legible := .number (by decide +kernel)
    simpa [q, toJson, groupsJson, Clause.toJson, Clause.contentJson, TermValue.toJson,
      Bounds.toJson] using hzero
  obtain ⟨hback, hsound, hnull⟩ := readString_text (.inl hbuilt)
  exact ⟨hbuilt, hlegible, hback hlegible, hsound, hnull⟩

end Query

end MovieCatalog
