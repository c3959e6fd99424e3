import MovieCatalog.Json.Number
import MovieCatalog.Text.Quoted

/-!
# JSON values and their text

A value keeps the members of an object in the order in which they are written. The text is compact:
no blank stands between tokens, and a string escapes quotes, backslashes and the control characters
below the space, and nothing else.
-/

namespace MovieCatalog

/-- A JSON value. -/
inductive Json where
  | null
  | boolean (b : Bool)
  | number (n : Json.Number)
  | string (s : String)
  | array (items : List Json)
  | object (members : List (String × Json))

namespace Json

/-- The value for an unsigned integer. -/
def ofUInt64 (n : UInt64) : Json := .number (.ofUInt64 n)

/-- The value for an unsigned integer of 32 bits. -/
def ofUInt32 (n : UInt32) : Json := .number (.ofUInt64 n.toUInt64)

/-- The value for a signed integer. -/
def ofInt64 (n : Int64) : Json := .number (.ofInt64 n)

/-- The value for a floating-point number; one that is not finite has no number in JSON, and `null`
takes its place. -/
def ofBinary64 (x : Binary64) : Json :=
  match Number.ofBinary64? x with
  | some n => .number n
  | none => .null

/-- The value for a list of texts. -/
def ofStrings (texts : List String) : Json := .array (texts.map .string)

/-- The member of an object under a key; nothing in a value that is no object. -/
def get? (key : String) : Json → Option Json
  | .object members => members.lookup key
  | _ => none

/-- Puts a member into a list of members with ascending keys. A member under the same key is
replaced. -/
def insertMember {α : Type} (key : String) (value : α) : List (String × α) → List (String × α)
  | [] => [(key, value)]
  | (k, v) :: rest =>
    if key < k then (key, value) :: (k, v) :: rest
    else if key = k then (key, value) :: rest
    else (k, v) :: insertMember key value rest

/-- Members in ascending order of their keys, the last one of each key. -/
def sortMembers {α : Type} (members : List (String × α)) : List (String × α) :=
  members.foldl (fun sorted m => insertMember m.1 m.2 sorted) []

/-- A character inside a string. -/
def escapedChar (c : Char) : List Char :=
  match c with
  | '"' => ['\\', '"']
  | '\\' => ['\\', '\\']
  | '\x08' => ['\\', 'b']
  | '\x0c' => ['\\', 'f']
  | '\n' => ['\\', 'n']
  | '\r' => ['\\', 'r']
  | '\t' => ['\\', 't']
  | c =>
    if c.toNat < 0x10 then '\\' :: 'u' :: '0' :: '0' :: '0' :: Text.hex c.toNat
    else if c.toNat < 0x20 then '\\' :: 'u' :: '0' :: '0' :: Text.hex c.toNat
    else [c]

/-- The text of a string. -/
def stringText (s : String) : List Char :=
  '"' :: s.toList.flatMap escapedChar ++ ['"']

/-- The parts with commas between them. -/
def commaSeparated (parts : List (List Char)) : List Char :=
  [','].intercalate parts

mutual

/-- The characters of a value's text. -/
def chars : Json → List Char
  | .null => "null".toList
  | .boolean b => (if b then "true" else "false").toList
  | .number n => n.text
  | .string s => stringText s
  | .array items => '[' :: commaSeparated (itemTexts items) ++ [']']
  | .object members => '\x7b' :: commaSeparated (memberTexts members) ++ ['\x7d']

/-- The texts of the elements of an array. -/
def itemTexts : List Json → List (List Char)
  | [] => []
  | v :: rest => v.chars :: itemTexts rest

/-- The texts of the members of an object. -/
def memberTexts : List (String × Json) → List (List Char)
  | [] => []
  | (k, v) :: rest => (stringText k ++ ':' :: v.chars) :: memberTexts rest

end

/-- The text of a value. -/
def text (v : Json) : String :=
  String.ofList v.chars

end Json

end MovieCatalog
