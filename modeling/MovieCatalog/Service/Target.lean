import MovieCatalog.Text.Cut

/-!
# Targets of requests

A request names what it asks for by a path with an optional query, or by a whole URL without its
fragment. Spaces, quotes and angle brackets must not occur in it.
-/

namespace MovieCatalog

/-- A path with an optional query. -/
structure Target where
  path : String
  query : Option String
deriving DecidableEq

namespace Target

/-- A character that must not occur in a query. -/
def badInQuery (c : Char) : Bool :=
  c.toNat ≤ 0x20 ∨ c = '"' ∨ c = '<' ∨ c = '>'

/-- A character that must not occur in a path. -/
def badInPath (c : Char) : Bool :=
  badInQuery c ∨ c = '\x60'

/-- Reads a path with an optional query. -/
def ofPath? (s : List Char) : Option Target :=
  let (path, query) := Text.cutAt '?' s
  if path.any badInPath ∨ (query.getD []).any badInQuery then none
  else some ⟨String.ofList path, query.map String.ofList⟩

/-- What stands behind the scheme of a whole URL and its two slashes, if the text is one. -/
def behindScheme? (s : List Char) : Option (List Char) :=
  match s.dropWhile fun c => c.isAlphanum ∨ c = '+' ∨ c = '-' ∨ c = '.' with
  | ':' :: '/' :: '/' :: rest => some rest
  | _ => none

/-- Reads a target. A text that does not begin with a slash is a whole URL or a host; a host has no
path. -/
def read? (text : String) : Option Target :=
  let s := text.toList.takeWhile (· ≠ '#')
  match s with
  | [] => none
  | '/' :: _ => ofPath? s
  | s =>
    let isHostEnd (c : Char) : Bool := c = '/' ∨ c = '?'
    match behindScheme? s with
    | some rest =>
      let host := rest.takeWhile (!isHostEnd ·)
      if host.isEmpty ∨ host.any badInPath then none
      else
        match rest.drop host.length with
        | '/' :: path => ofPath? ('/' :: path)
        | path => ofPath? ('/' :: path)
    | none => if s.any (fun c => isHostEnd c || badInPath c) then none else some ⟨"", none⟩

end Target

end MovieCatalog
