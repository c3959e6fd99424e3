import MovieCatalog.Text.Hex
import MovieCatalog.Text.Hidden

/-!
# Quoted text in messages

A message that shows a text puts it between double quotes. Quotes, backslashes and the common
control characters are written with a backslash and a letter, other hidden characters by their
number in braces.
-/

namespace MovieCatalog.Text

/-- A character inside quotes. -/
def quotedChar (c : Char) : List Char :=
  match c with
  | '"' => ['\\', '"']
  | '\\' => ['\\', '\\']
  | '\n' => ['\\', 'n']
  | '\r' => ['\\', 'r']
  | '\t' => ['\\', 't']
  | '\x00' => ['\\', '0']
  | c => if isHidden c then '\\' :: 'u' :: '\x7b' :: hex c.toNat ++ ['\x7d'] else [c]

/-- A text in double quotes. -/
def quoted (s : String) : String :=
  String.ofList ('"' :: s.toList.flatMap quotedChar ++ ['"'])

end MovieCatalog.Text
