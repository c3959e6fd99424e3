import MovieCatalog.Proofs.Facet.Codec
import MovieCatalog.Proofs.Request.Normal
import MovieCatalog.Proofs.Search.Agreement

/-!
# What is sent for a query string

Whatever a query string says, the text that is sent for it is one JSON object with fixed members,
from which the window, the query and the counts are read back (`Search.CarriedBy`). The strings in
it that are values are those of the request, as they are, between fixed ones
(`Request.sentStrings`), and the keys are names out of a fixed list (`Search.vocabulary`). So
nothing in a request changes anything but its own string (`Search.body_ofQueryString`).
-/

namespace MovieCatalog

open Json (Decoder Framed Node StringLexeme)

/-! ## Requests -/

namespace Request

/-- The strings that are values in what is sent for a request that was read from a query string: the
words with the fields in which they are looked up, the pinned country for any country, the language,
the genres, and the fields whose values are counted. -/
def sentStrings (r : Request) : List String :=
  (r.words.toList.flatMap fun words => words :: Index.wordFields)
    ++ (r.country.toList.map fun _ => Search.pinnedCountry) ++ r.language.toList ++ r.genres
    ++ [Index.rating, Index.country, Index.language, Index.year, Index.genre, Index.duration]

/-- A text in normal form is present if there is one. -/
theorem present?_of_normal {text : Option String} (h : NormalText text) :
    Search.present? text = text := by
  cases text with
  | none => rfl
  | some s =>
    obtain ⟨hne, hunpadded⟩ := h s rfl
    refine Search.present?_eq_some_iff.2 ⟨rfl, fun hblank => hne ?_⟩
    have htrim : Text.trim s.toList = [] := Text.trim_eq_nil_iff.2 hblank
    rw [hunpadded.trim_eq] at htrim
    exact String.toList_eq_nil_iff.1 htrim

end Request

namespace Search

/-- The strings that are values in the clauses of a request. -/
theorem strings_queryOf (r : Request) :
    (queryOf r).clauses.flatMap Clause.strings
      = ((present? r.words).toList.flatMap fun words => words :: Index.wordFields)
        ++ ((present? r.country).toList.map fun _ => pinnedCountry)
        ++ (present? r.language).toList ++ r.genres := by
  have hfilter : (filterClauses r).flatMap Clause.strings
      = ((present? r.country).toList.map fun _ => pinnedCountry)
        ++ (present? r.language).toList := by
    unfold filterClauses Clause.range?
    cases present? r.country <;> cases r.rating.usable? <;> cases present? r.language <;>
      cases r.year <;> cases r.duration.usable? <;> simp [Clause.strings]
  have hwords : (wordClauses r).flatMap Clause.strings
      = (present? r.words).toList.flatMap fun words => words :: Index.wordFields := by
    unfold wordClauses
    cases present? r.words <;> simp [Clause.strings]
  have hgenres : (genreClauses r).flatMap Clause.strings = r.genres := by
    simp [genreClauses, Clause.strings, List.flatMap_map]
  simp only [Query.clauses, queryOf, List.flatMap_append, hwords, hfilter, hgenres,
    List.append_assoc]

/-- A clause that filters asks of the field of a criterion for a value or a range. -/
theorem mem_filterClauses {r : Request} {c : Clause} (h : c ∈ filterClauses r) :
    ∃ field ∈ filterFields,
      (∃ value, c = .term field value) ∨ ∃ b, Clause.range? field b = some c := by
  obtain ⟨o, ho, hc⟩ := List.mem_filterMap.1 h
  simp only [List.mem_cons, List.not_mem_nil, or_false] at ho
  obtain rfl | rfl | rfl | rfl | rfl := ho
  · obtain ⟨_, -, rfl⟩ := Option.map_eq_some_iff.1 hc
    exact ⟨Index.country, by decide, .inl ⟨_, rfl⟩⟩
  · exact ⟨Index.rating, by decide, .inr ⟨_, hc⟩⟩
  · obtain ⟨_, -, rfl⟩ := Option.map_eq_some_iff.1 hc
    exact ⟨Index.language, by decide, .inl ⟨_, rfl⟩⟩
  · obtain ⟨_, -, rfl⟩ := Option.map_eq_some_iff.1 hc
    exact ⟨Index.year, by decide, .inl ⟨_, rfl⟩⟩
  · exact ⟨Index.duration, by decide, .inr ⟨_, hc⟩⟩

/-- A clause of a request looks words up, or asks of the field of a criterion. -/
theorem mem_clauses_queryOf {r : Request} {c : Clause} (h : c ∈ (queryOf r).clauses) :
    (∃ words fields, c = .multiMatch words fields) ∨
      ∃ field ∈ filterFields ++ [Index.genre],
        (∃ value, c = .term field value) ∨ ∃ b, Clause.range? field b = some c := by
  rcases List.mem_append.1 h with h | h
  · rcases List.mem_append.1 h with h | h
    · obtain ⟨words, -, rfl⟩ := Option.map_eq_some_iff.1 (Option.mem_toList.1 h)
      exact .inl ⟨words, _, rfl⟩
    · obtain ⟨field, hfield, hc⟩ := mem_filterClauses h
      exact .inr ⟨field, List.mem_append_left _ hfield, hc⟩
  · obtain ⟨g, -, rfl⟩ := List.mem_map.1 h
    exact .inr ⟨Index.genre, by decide, .inl ⟨_, rfl⟩⟩

/-- The query of a request is sound, since its clauses are made in the ways of making clauses. -/
theorem sound_queryOf (r : Request) : (queryOf r).Sound := by
  intro c hc
  refine Clause.Built.sound ?_
  obtain ⟨words, fields, rfl⟩ | ⟨field, -, ⟨value, rfl⟩ | ⟨b, hb⟩⟩ := mem_clauses_queryOf hc
  · exact .multiMatch words fields
  · exact .term field value
  · exact .range hb

/-- The clauses of a request ask of fixed fields. -/
theorem field?_mem_of_queryOf {r : Request} {c : Clause} (h : c ∈ (queryOf r).clauses)
    (field : String) (hfield : c.field? = some field) : field ∈ filterFields ++ [Index.genre] := by
  obtain ⟨words, fields, rfl⟩ | ⟨other, hother, ⟨value, rfl⟩ | ⟨b, hb⟩⟩ := mem_clauses_queryOf h
  · cases hfield
  · exact Option.some.inj hfield ▸ hother
  · have hrange := field?_of_map (fun _ => rfl) c hb
    exact Option.some.inj (hrange.symm.trans hfield) ▸ hother

/-- The clauses that are sent for a request are all its clauses. -/
theorem clauses_ofRequest (r : Request) :
    (ofRequest r).query.toList.flatMap Query.clauses = (queryOf r).clauses := by
  rw [ofRequest_query]
  split
  · next hempty =>
    simp only [Query.isEmpty, Bool.and_eq_true, List.isEmpty_iff] at hempty
    simp [Query.clauses, hempty]
  · simp

/-! ## The body -/

/-- The members of what is sent. -/
def members (s : Search) : List (String × Json) :=
  [("from", .ofUInt64 s.offset), ("size", .ofUInt64 s.size)]
    ++ (s.query.map fun q => ("query", q.toJson)).toList
    ++ [("aggs", Aggregation.allToJson Aggregation.all)]

/-- The body is one object with the members of the search. -/
theorem body_eq (s : Search) : s.body = .object s.members :=
  rfl

/-- What holds of the window, the query and the counts holds of all members. -/
theorem forall_mem_members {s : Search} {P : String × Json → Prop}
    (hoffset : P ("from", .ofUInt64 s.offset)) (hsize : P ("size", .ofUInt64 s.size))
    (hquery : ∀ q, s.query = some q → P ("query", q.toJson))
    (haggs : P ("aggs", Aggregation.allToJson Aggregation.all)) : ∀ m ∈ s.members, P m := by
  refine List.forall_mem_append.2 ⟨List.forall_mem_append.2 ⟨?_, fun m hm => ?_⟩, ?_⟩
  · exact List.forall_mem_cons.2 ⟨hoffset, List.forall_mem_singleton.2 hsize⟩
  · obtain ⟨q, hq, rfl⟩ := Option.map_eq_some_iff.1 (Option.mem_toList.1 hm)
    exact hquery q hq
  · exact List.forall_mem_singleton.2 haggs

/-- All keys that may stand in what is sent. -/
def vocabulary : List String :=
  ["from", "size", "aggs"] ++ Query.fixedKeys ++ filterFields ++ [Index.genre]
    ++ Aggregation.fixedKeys

/-- What is sent has seven levels at most, and all its keys are in the vocabulary. -/
theorem framed_body (r : Request) : Framed vocabulary 7 (ofRequest r).body := by
  have hqueryKeys : Query.fixedKeys ⊆ vocabulary := by
    intro key hkey
    simp only [vocabulary, List.mem_append]
    tauto
  have haggsKeys : Aggregation.fixedKeys ⊆ vocabulary := List.subset_append_right _ _
  refine Json.framed_object (forall_mem_members ?_ ?_ (fun q hq => ?_) ?_)
  · exact ⟨by simp [vocabulary], Json.framed_number _⟩
  · exact ⟨by simp [vocabulary], Json.framed_number _⟩
  · obtain rfl := eq_queryOf_of_ofRequest hq
    refine ⟨hqueryKeys (by simp [Query.fixedKeys, Clause.fixedKeys]), ?_⟩
    refine Query.framed_toJson hqueryKeys fun c hc field hfield => ?_
    have hmem := field?_mem_of_queryOf hc field hfield
    simp only [vocabulary, List.mem_append] at hmem ⊢
    tauto
  · exact ⟨by simp [vocabulary], Aggregation.framed_allToJson haggsKeys _⟩

/-- The strings that are values in what is sent for a request are those of its clauses and the
fields whose values are counted. -/
theorem strings_body (r : Request) :
    (ofRequest r).body.node.strings
      = ((queryOf r).clauses.flatMap Clause.strings
        ++ Dimension.all.map fun d => (Aggregation.all.get d).field).map .ofString := by
  rw [body_eq, Json.strings_object, ← clauses_ofRequest, members]
  cases (ofRequest r).query with
  | none => simp [Json.ofUInt64, Aggregation.strings_allToJson]
  | some q => simp [Json.ofUInt64, Aggregation.strings_allToJson, Query.strings_toJson]

/-- What is sent, with its members in the order of their keys. -/
def orderedBody (s : Search) : Json :=
  .object <|
    [("aggs", (Aggregation.allToJson Aggregation.all).sorted), ("from", .ofUInt64 s.offset)]
      ++ (s.query.map fun q => ("query", q.toJson.sorted)).toList
      ++ [("size", .ofUInt64 s.size)]

/-- A reader of any value reads what is sent as one object with the numbers of the window, if the
bounds in it are legible. -/
theorem readString_body {r : Request} (h : (ofRequest r).body.Legible) :
    Decoder.json.readString (ofRequest r).body.text = .ok (ofRequest r).orderedBody := by
  have hdepth : (ofRequest r).body.depth ≤ Json.Context.start.room :=
    Nat.le_trans (framed_body r).depth_le (by decide)
  have hnumber (n : UInt64) : (Json.ofUInt64 n).sorted = .ofUInt64 n := rfl
  rw [(Decoder.reads_json h).readString hdepth, body_eq, members, orderedBody]
  cases (ofRequest r).query with
  | none =>
    simp (disch := decide) [Json.sorted, Json.sortedEntries, Json.sortMembers, hnumber,
      Json.insertMember_nil, Json.insertMember_of_gt, Json.insertMember_of_lt]
  | some q =>
    simp (disch := decide) [Json.sorted, Json.sortedEntries, Json.sortMembers, hnumber,
      Json.insertMember_nil, Json.insertMember_of_gt, Json.insertMember_of_lt]

/-- Among the members of an object there is one under the key from which the decoder reads `a`,
wherever six levels may be entered. -/
def ReadsUnder {α : Type} (members : List (StringLexeme × Node)) (key : String) (d : Decoder α)
    (a : α) : Prop :=
  ∃ m ∈ members, m.1.read = .ok key ∧ ∀ ctx : Json.Context, 6 ≤ ctx.room → d ctx m.2 = .ok a

/-- The members of an object carry a search: there are these keys and no others, and the window, the
query, if its bounds are legible, and the counts are read under them. -/
structure CarriedBy (s : Search) (members : List (StringLexeme × Node)) : Prop where
  keys : members.map (fun m => m.1.read)
    = (["from", "size"] ++ (s.query.map fun _ => "query").toList ++ ["aggs"]).map .ok
  offset : ReadsUnder members "from" .natural64 s.offset
  size : ReadsUnder members "size" .natural64 s.size
  query : ∀ q, s.query = some q →
    (q.toJson.Legible → ReadsUnder members "query" Query.decoder q) ∧ q.equal q = true
  aggs : ReadsUnder members "aggs" Aggregation.allDecoder Aggregation.all

/-- A member of the body is found under its key and read back, if there is room for its levels. -/
theorem readsUnder_of_mem {α : Type} {ms : List (String × Json)} {key : String} {v : Json}
    {d : Decoder α} {a : α} {depth : Nat} (hmem : (key, v) ∈ ms) (h : d.Reads depth v a)
    (hdepth : depth ≤ 6) : ReadsUnder (Json.memberNodes ms) key d a := by
  rw [Json.memberNodes_eq_map]
  exact ⟨_, List.mem_map_of_mem hmem, StringLexeme.read_ofString key, h.mono hdepth⟩

/-- The members of what is sent carry the search. -/
theorem carriedBy_members (r : Request) :
    (ofRequest r).CarriedBy (Json.memberNodes (ofRequest r).members) where
  keys := by
    rw [Json.memberNodes_eq_map, List.map_map, members]
    cases (ofRequest r).query <;> simp [StringLexeme.read_ofString]
  offset := readsUnder_of_mem (by simp [members]) (Decoder.reads_natural64 _) (by decide)
  size := readsUnder_of_mem (by simp [members]) (Decoder.reads_natural64 _) (by decide)
  query q hq := by
    obtain rfl := eq_queryOf_of_ofRequest hq
    have hsound := sound_queryOf r
    refine ⟨fun hlegible => ?_, hsound.equal_self⟩
    exact readsUnder_of_mem (by simp [members, hq]) (Query.reads_toJson hsound hlegible) (by decide)
  aggs := readsUnder_of_mem (by simp [members]) (Aggregation.reads_allToJson _) (by decide)

/-- The search that a query string comes to. -/
def ofQueryString (query : String) : Search :=
  ofRequest (Request.ofQueryString query)

/-- What is sent for a query string, whatever it holds, is one JSON object. Its keys are those of the
window, of the counts and, if there is a query, of the query, and under each of them the search is
read back, as long as its bounds are legible. The strings in it are the fixed ones and those of the
request, each as it is given in a place of its own, and all its keys are fixed. -/
theorem body_ofQueryString (query : String) :
    ∃ members,
      Json.Document.read (Text.pieces (ofQueryString query).body.text)
        = ⟨.object members .closed, false⟩ ∧
      (ofQueryString query).CarriedBy members ∧
      ((ofQueryString query).body.Legible →
        Decoder.json.readString (ofQueryString query).body.text
          = .ok (ofQueryString query).orderedBody) ∧
      (Node.object members .closed).strings.map (·.read)
        = (Request.ofQueryString query).sentStrings.map .ok ∧
      (Node.object members .closed).keys.map (·.read) ⊆ vocabulary.map .ok := by
  have hnormal : (Request.ofQueryString query).Normal := Request.normal_ofForm _
  rw [ofQueryString]
  generalize Request.ofQueryString query = r at hnormal ⊢
  refine ⟨Json.memberNodes (ofRequest r).members, Json.Document.read_text _, carriedBy_members r,
    readString_body, ?_, ?_⟩
  · have hstrings := strings_body r
    rw [strings_queryOf, Request.present?_of_normal hnormal.words,
      Request.present?_of_normal hnormal.country, Request.present?_of_normal hnormal.language]
      at hstrings
    have hsent : (Node.object (Json.memberNodes (ofRequest r).members) .closed).strings
        = r.sentStrings.map .ofString := hstrings
    rw [hsent, Json.map_read_ofString]
  · intro read hread
    obtain ⟨key, hkey, rfl⟩ := List.mem_map.1 hread
    obtain ⟨name, hname, rfl⟩ := (framed_body r).keys_mem key hkey
    exact List.mem_map.2 ⟨name, hname, (StringLexeme.read_ofString name).symm⟩

/-- A quote, a brace and a backslash as words, a quote as the country, and an octet that is no UTF-8
as a genre. -/
example :
    (Request.ofQueryString "searchText=%22%7D%5C&country=%22&genre=%FF").sentStrings
      = "\"\x7d\\" :: Index.wordFields ++ [pinnedCountry, "\uFFFD"]
        ++ [Index.rating, Index.country, Index.language, Index.year, Index.genre,
          Index.duration] := by
  decide +kernel

end Search

end MovieCatalog
