/-!
# Schemes

Some schemes are special: their URLs always have a path, a backslash in them counts as a slash, and
most of them always have a host and imply a port. A URL of a file may have an empty host.
-/

namespace MovieCatalog.Url

/-- How URLs of a scheme are read. -/
inductive SchemeKind where
  /-- With a host always, and the given port if none is named. -/
  | network (port : Nat)
  | file
  | other
deriving DecidableEq, Repr

namespace SchemeKind

/-- The kind of a scheme in small letters. -/
def ofScheme (scheme : List Char) : SchemeKind :=
  let s := String.ofList scheme
  if s = "http" ∨ s = "ws" then network 80
  else if s = "https" ∨ s = "wss" then network 443
  else if s = "ftp" then network 21
  else if s = "file" then file
  else other

/-- The scheme is special. -/
def isSpecial : SchemeKind → Bool
  | other => false
  | _ => true

/-- A character that separates segments. -/
def isSlash (k : SchemeKind) (c : Char) : Bool :=
  c = '/' ∨ (k.isSpecial ∧ c = '\\')

end SchemeKind

/-- A character of a scheme, behind its first one. -/
def isSchemeChar (c : Char) : Bool :=
  c.isAlphanum ∨ c = '+' ∨ c = '-' ∨ c = '.'

/-- The scheme at the front of a text, in small letters, and what follows its colon. -/
def schemeThen? (s : List Char) : Option (List Char × List Char) :=
  match s with
  | c :: rest =>
    if c.isAlpha then
      match rest.dropWhile isSchemeChar with
      | ':' :: behind => some ((c :: rest.takeWhile isSchemeChar).map Char.toLower, behind)
      | _ => none
    else none
  | [] => none

end MovieCatalog.Url
