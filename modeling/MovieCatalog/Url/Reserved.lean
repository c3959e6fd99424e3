/-!
# Characters with a meaning in URLs

Each part of a URL has its own set of characters that are written behind percent signs, and there
are characters that must not occur in a host at all. All these sets lie in ASCII.
-/

namespace MovieCatalog.Url

/-- The control characters. -/
def isControl (c : Char) : Bool :=
  c.toNat < 0x20 ∨ c.toNat = 0x7F

/-- One of the characters of a text. -/
def isOneOf (s : String) (c : Char) : Bool :=
  s.toList.contains c

/-- Reserved in fragments. -/
def reservedInFragment (c : Char) : Bool :=
  isControl c || isOneOf " \"<>\x60" c

/-- Reserved in queries. -/
def reservedInQuery (special : Bool) (c : Char) : Bool :=
  isControl c || isOneOf " \"#<>" c || (special && c = '\'')

/-- Reserved in paths. -/
def reservedInPath (c : Char) : Bool :=
  reservedInFragment c || isOneOf "#?\x7b\x7d" c

/-- Reserved in user names and passwords. -/
def reservedInUser (c : Char) : Bool :=
  reservedInPath c || isOneOf "/:;=@[\\]^|" c

/-- Forbidden in hosts. -/
def forbiddenInHost (c : Char) : Bool :=
  isOneOf "\x00\t\n\r #/:<>?@[\\]^|" c

/-- Forbidden in domain names. -/
def forbiddenInDomain (c : Char) : Bool :=
  isControl c || isOneOf " #%/:<>?@[\\]^|" c

end MovieCatalog.Url
