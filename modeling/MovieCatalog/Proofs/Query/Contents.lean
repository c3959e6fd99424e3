import MovieCatalog.Proofs.Json.Strings
import MovieCatalog.Proofs.Query.Codec

/-!
# The contents of a written query

A query is written with the strings of its clauses, as they are and in their order, and with no
others (`Query.strings_toJson`). It has six levels, and its keys are fixed apart from the fields that
its clauses ask of (`Query.framed_toJson`).
-/

namespace MovieCatalog

open Json (Framed)

/-! ## Bounds and clauses -/

namespace Bounds

/-- Bounds are written as an object of numbers, under two keys. -/
theorem mem_toJson (b : Bounds) :
    ∃ ms, b.toJson = .object ms ∧ ∀ m ∈ ms, ∃ x, m.1 ∈ ["gte", "lte"] ∧ m.2 = .ofBinary64 x := by
  refine ⟨_, rfl, fun m hm => ?_⟩
  rcases List.mem_append.1 hm with hm | hm
  · obtain ⟨x, -, rfl⟩ := Option.map_eq_some_iff.1 (Option.mem_toList.1 hm)
    exact ⟨x, List.mem_cons_self, rfl⟩
  · obtain ⟨x, -, rfl⟩ := Option.map_eq_some_iff.1 (Option.mem_toList.1 hm)
    exact ⟨x, List.mem_cons_of_mem _ List.mem_cons_self, rfl⟩

/-- There is no free text in bounds. -/
theorem strings_toJson (b : Bounds) : b.toJson.node.strings = [] := by
  obtain ⟨ms, hms, hmem⟩ := b.mem_toJson
  rw [hms, Json.strings_object, List.flatMap_eq_nil_iff]
  intro m hm
  obtain ⟨x, -, hx⟩ := hmem m hm
  rw [hx, Json.strings_ofBinary64]

/-- Bounds have no keys but their two. -/
theorem framed_toJson {names : List String} {depth : Nat} (hnames : ["gte", "lte"] ⊆ names)
    (b : Bounds) : Framed names (depth + 1) b.toJson := by
  obtain ⟨ms, hms, hmem⟩ := b.mem_toJson
  rw [hms]
  refine Json.framed_object fun m hm => ?_
  obtain ⟨x, hkey, hx⟩ := hmem m hm
  exact ⟨hnames hkey, hx ▸ Json.framed_ofBinary64 x⟩

end Bounds

namespace Clause

/-- The field that a clause asks of. Words are looked up in several. -/
def field? : Clause → Option String
  | .multiMatch _ _ => none
  | .term field _ => some field
  | .range field _ => some field

/-- The strings that are values in a clause. -/
def strings : Clause → List String
  | .multiMatch words fields => words :: fields
  | .term _ (.text s) => [s]
  | .term _ (.integer _) | .range _ _ => []

/-- The free texts in a clause are the ones it is made of, in order. -/
theorem strings_toJson (c : Clause) : c.toJson.node.strings = c.strings.map .ofString := by
  cases c with
  | multiMatch words fields => simp [toJson, contentJson, strings]
  | term field value =>
    cases value <;> simp [toJson, contentJson, strings, TermValue.toJson, Json.ofInt64]
  | range field b => simp [toJson, contentJson, strings, Bounds.strings_toJson]

/-- The keys of a clause, apart from the field that it asks of. -/
def fixedKeys : List String :=
  ["multi_match", "query", "fields", "term", "range", "gte", "lte"]

/-- A clause has no keys but fixed ones and the name of its field. -/
theorem framed_toJson {names : List String} {depth : Nat} (hnames : fixedKeys ⊆ names) {c : Clause}
    (hfield : ∀ field, c.field? = some field → field ∈ names) :
    Framed names (depth + 3) c.toJson := by
  refine Json.framed_singleton (hnames (by cases c <;> simp [kind, fixedKeys])) ?_
  cases c with
  | multiMatch words fields =>
    refine Json.framed_object (List.forall_mem_cons.2 ⟨?_, List.forall_mem_singleton.2 ?_⟩)
    · exact ⟨hnames (by simp [fixedKeys]), Json.framed_string words⟩
    · exact ⟨hnames (by simp [fixedKeys]), Json.framed_ofStrings fields⟩
  | term field value =>
    refine Json.framed_singleton (hfield field rfl) ?_
    cases value with
    | text s => exact Json.framed_string s
    | integer n => exact Json.framed_number _
  | range field b =>
    have hbounds : ["gte", "lte"] ⊆ names := List.Subset.trans (by simp [fixedKeys]) hnames
    exact Json.framed_singleton (hfield field rfl) (Bounds.framed_toJson hbounds b)

end Clause

/-! ## Queries -/

namespace Query

/-- The free texts in a query are those of its clauses, in order. -/
theorem strings_toJson (q : Query) :
    q.toJson.node.strings = (q.clauses.flatMap Clause.strings).map .ofString := by
  simp [toJson, groupsJson, clauses, List.flatMap_map, Clause.strings_toJson, List.map_flatMap]

/-- The keys of a query, apart from the fields that its clauses ask of. -/
def fixedKeys : List String :=
  ["bool", "must", "filter", "should"] ++ Clause.fixedKeys

/-- A query has no keys but fixed ones and the names of the fields of its clauses. -/
theorem framed_toJson {names : List String} {depth : Nat} (hnames : fixedKeys ⊆ names) {q : Query}
    (hfield : ∀ c ∈ q.clauses, ∀ field, c.field? = some field → field ∈ names) :
    Framed names (depth + 6) q.toJson := by
  have hclauseKeys : Clause.fixedKeys ⊆ names :=
    List.Subset.trans (List.subset_append_right _ _) hnames
  have hgroup : ∀ {cs : List Clause}, cs ⊆ q.clauses →
      Framed names (depth + 4) (.array (cs.map Clause.toJson)) := fun hcs =>
    Json.framed_array (List.forall_mem_map.2 fun c hc =>
      Clause.framed_toJson hclauseKeys (hfield c (hcs hc)))
  refine Json.framed_singleton (hnames (by simp [fixedKeys])) (Json.framed_object ?_)
  refine List.forall_mem_cons.2 ⟨?_, List.forall_mem_cons.2 ⟨?_, List.forall_mem_singleton.2 ?_⟩⟩
  · exact ⟨hnames (by simp [fixedKeys]), hgroup (by simp [clauses])⟩
  · exact ⟨hnames (by simp [fixedKeys]), hgroup (by simp [clauses])⟩
  · exact ⟨hnames (by simp [fixedKeys]), hgroup (by simp [clauses])⟩

end Query

end MovieCatalog
