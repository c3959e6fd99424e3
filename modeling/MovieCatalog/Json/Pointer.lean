import MovieCatalog.Json.Value

/-!
# Pointers into values

A pointer names a part of a value by the keys and positions that lead to it, each behind a slash. A
slash in a key is written `~1`, and a tilde `~0`.
-/

namespace MovieCatalog.Json

namespace Pointer

/-- A step of a pointer with its tildes resolved. -/
def unescape : List Char → List Char
  | '~' :: '1' :: rest => '/' :: unescape rest
  | '~' :: '0' :: rest => '~' :: unescape rest
  | c :: rest => c :: unescape rest
  | [] => []

/-- The steps of a pointer. -/
def steps? (pointer : String) : Option (List String) :=
  match pointer.toList with
  | [] => some []
  | '/' :: rest => some ((rest.splitOn '/').map fun s => String.ofList (unescape s))
  | _ => none

/-- A position in an array: a numeral without a leading zero. -/
def position? (step : String) : Option Nat :=
  match step.toList with
  | '0' :: _ :: _ => none
  | s => Numeral.nat? s

end Pointer

/-- The element or the member that a step leads to. -/
def step? (step : String) : Json → Option Json
  | .object members => members.lookup step
  | .array items => (Pointer.position? step).bind (items[·]?)
  | _ => none

/-- The part of a value that a pointer names. -/
def at? (v : Json) (pointer : String) : Option Json :=
  (Pointer.steps? pointer).bind fun steps => steps.foldlM (fun v s => v.step? s) v

end MovieCatalog.Json
