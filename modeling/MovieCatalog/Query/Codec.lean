import MovieCatalog.Json.Decode
import MovieCatalog.Query.Basic

/-!
# Queries as JSON

A clause is an object whose only member names its kind. What it says of a field is an object whose
only member names the field. Every group of a query is written, also when it is empty; when a query
is read, groups may be left out.
-/

namespace MovieCatalog

namespace Bounds

/-- The bounds as JSON: one member for each bound that is given. -/
def toJson (b : Bounds) : Json :=
  .object <|
    (b.least.map fun x => ("gte", Json.ofBinary64 x)).toList
      ++ (b.greatest.map fun x => ("lte", Json.ofBinary64 x)).toList

/-- Reads bounds. -/
def decoder : Json.Decoder Bounds := fun ctx n => do
  let bound := Json.Decoder.nullable .double
  let (least, greatest, ()) ← Json.Fields.decode "RangeBounds"
    (.cons (.withDefault "gte" bound none)
      (.cons (.withDefault "lte" bound none) .nil)) ctx n
  return ⟨least, greatest⟩

end Bounds

namespace TermValue

/-- The value as JSON. -/
def toJson : TermValue → Json
  | .text s => .string s
  | .integer n => .ofInt64 n

/-- The term value that a JSON value is: a text, or an integer of 64 bits. -/
def ofJson? : Json → Option TermValue
  | .string s => some (.text s)
  | .number (.integer n _) => if n < Word.half64 then some (.integer (.ofInt n)) else none
  | _ => none

/-- Reads a term value. -/
def decoder : Json.Decoder TermValue := fun ctx n => do
  match ofJson? (← Json.Decoder.json ctx n) with
  | some v => return v
  | none => throw (.unmatchedValue "TermValue")

end TermValue

namespace Clause

/-- The only member of an object about one field. -/
def onlyField {α : Type} (kind : String) : List (String × α) → Except Json.Fault (String × α)
  | [member] => .ok member
  | members => .error (.fieldCount kind members.length)

/-- Reads what a clause says of words in fields. -/
def multiMatchDecoder : Json.Decoder Clause := fun ctx n => do
  let (words, fields, ()) ← Json.Fields.decode "MultiMatch"
    (.cons (.required "query" .string) (.cons (.required "fields" (.list .string)) .nil)) ctx n
  return .multiMatch words fields

/-- Reads what a clause says of a field's value. -/
def termDecoder : Json.Decoder Clause := fun ctx n => do
  let (field, value) ← onlyField "term" (← Json.Decoder.table TermValue.decoder ctx n)
  return .term field value

/-- Reads what a clause says of the range of a field. -/
def rangeDecoder : Json.Decoder Clause := fun ctx n => do
  let (field, bounds) ← onlyField "range" (← Json.Decoder.table Bounds.decoder ctx n)
  if bounds.least.isNone ∧ bounds.greatest.isNone then throw (.noBounds field)
  return .range field bounds

/-- Reads a clause. -/
def decoder : Json.Decoder Clause :=
  .oneOf [.withContent "multi_match" multiMatchDecoder, .withContent "term" termDecoder,
    .withContent "range" rangeDecoder]

/-- The name of a clause's kind. -/
def kind : Clause → String
  | .multiMatch .. => "multi_match"
  | .term .. => "term"
  | .range .. => "range"

/-- What a clause says, as JSON. -/
def contentJson : Clause → Json
  | .multiMatch words fields =>
    .object [("query", .string words), ("fields", .ofStrings fields)]
  | .term field value => .object [(field, value.toJson)]
  | .range field bounds => .object [(field, bounds.toJson)]

/-- The clause as JSON. -/
def toJson (c : Clause) : Json :=
  .object [(c.kind, c.contentJson)]

end Clause

namespace Query

/-- The groups of a query as JSON. -/
def groupsJson (q : Query) : Json :=
  .object [("must", .array (q.must.map Clause.toJson)),
    ("filter", .array (q.filter.map Clause.toJson)),
    ("should", .array (q.should.map Clause.toJson))]

/-- The query as JSON. -/
def toJson (q : Query) : Json :=
  .object [("bool", q.groupsJson)]

/-- Reads the groups of a query. -/
def groupsDecoder : Json.Decoder Query := fun ctx n => do
  let group := Json.Decoder.list Clause.decoder
  let (must, filter, should, ()) ← Json.Fields.decode "BoolQuery"
    (.cons (.withDefault "must" group [])
      (.cons (.withDefault "filter" group [])
        (.cons (.withDefault "should" group []) .nil))) ctx n
  return ⟨must, filter, should⟩

/-- Reads a query. -/
def decoder : Json.Decoder Query := fun ctx n => do
  let (q, ()) ← Json.Fields.decode "Query" (.cons (.required "bool" groupsDecoder) .nil) ctx n
  return q

end Query

end MovieCatalog
