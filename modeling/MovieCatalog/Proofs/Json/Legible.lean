import MovieCatalog.Proofs.Json.Value

/-!
# Values whose numbers are read back

A value is legible if every number in it is read back from its own text (`Legible`). What is said
of values that are written and read again is said of legible ones: everything else in them is read
back in any case. Values without floating-point numbers are legible.
-/

namespace MovieCatalog.Json

/-- Every number in the value is legible. -/
inductive Legible : Json → Prop
  | null : Legible .null
  | boolean (b : Bool) : Legible (.boolean b)
  | number {n : Number} (h : n.Legible) : Legible (.number n)
  | string (s : String) : Legible (.string s)
  | array {items : List Json} (h : ∀ v ∈ items, Legible v) : Legible (.array items)
  | object {members : List (String × Json)} (h : ∀ m ∈ members, Legible m.2) :
    Legible (.object members)

@[simp] theorem legible_null : Json.null.Legible :=
  .null

@[simp] theorem legible_string (s : String) : (Json.string s).Legible :=
  .string s

/-- A number is legible as a value if it is read back. -/
@[simp] theorem legible_number_iff {n : Number} : (Json.number n).Legible ↔ n.Legible := by
  constructor
  · intro h
    cases h with
    | number h => exact h
  · exact .number

/-- An array is legible if its items are. -/
@[simp] theorem legible_array_iff {items : List Json} :
    (Json.array items).Legible ↔ ∀ v ∈ items, v.Legible := by
  constructor
  · intro h
    cases h with
    | array h => exact h
  · exact .array

/-- An object is legible if the values of its members are. -/
@[simp] theorem legible_object_iff {members : List (String × Json)} :
    (Json.object members).Legible ↔ ∀ m ∈ members, m.2.Legible := by
  constructor
  · intro h
    cases h with
    | object h => exact h
  · exact .object

@[simp] theorem legible_ofUInt64 (n : UInt64) : (ofUInt64 n).Legible :=
  .number (Number.legible_integer _ _)

@[simp] theorem legible_ofUInt32 (n : UInt32) : (ofUInt32 n).Legible :=
  .number (Number.legible_integer _ _)

@[simp] theorem legible_ofInt64 (n : Int64) : (ofInt64 n).Legible :=
  .number (Number.legible_integer _ _)

/-- A list of texts is legible. -/
@[simp] theorem legible_ofStrings (texts : List String) : (ofStrings texts).Legible :=
  .array (List.forall_mem_map.2 fun s _ => .string s)

/-- A finite number that is legible as a value is legible as a number. -/
theorem Legible.number_of_finite {x : Binary64} (h : (ofBinary64 x).Legible)
    (hx : x.isFinite = true) : (Number.float x hx).Legible := by
  rw [ofBinary64, Number.ofBinary64?_of_finite hx] at h
  exact legible_number_iff.1 h

end MovieCatalog.Json
