import MovieCatalog.Net.Ip

/-!
# URLs

A URL has a scheme, perhaps an authority with a host, a path, and perhaps a query and a fragment.
All parts are kept in their normal form, as they are written. A path is a list of segments, or a
text without structure if the URL has neither an authority nor a slash behind its scheme.
-/

namespace MovieCatalog

namespace Url

/-- A host. -/
inductive Host where
  | name (s : List Char)
  | ipv4 (a : Net.Ipv4)
  | ipv6 (a : Net.Ipv6)
deriving DecidableEq

/-- Who is addressed: perhaps a user with a password, a host, and a port unless it is the one that
the scheme implies. -/
structure Authority where
  user : List Char
  password : List Char
  host : Host
  port : Option Nat
deriving DecidableEq

/-- A path. -/
inductive Path where
  | segments (parts : List (List Char))
  | opaqueText (s : List Char)
deriving DecidableEq

end Url

/-- A URL. -/
structure Url where
  scheme : List Char
  authority : Option Url.Authority
  path : Url.Path
  query : Option (List Char)
  fragment : Option (List Char)
deriving DecidableEq

namespace Url

/-- The text of a host. -/
def Host.text : Host → List Char
  | name s => s
  | ipv4 a => a.text
  | ipv6 a => '[' :: a.text ++ [']']

/-- The text of an authority. -/
def Authority.text (a : Authority) : List Char :=
  let password := if a.password.isEmpty then [] else ':' :: a.password
  let mark := if a.user.isEmpty ∧ a.password.isEmpty then [] else ['@']
  let port := (a.port.map fun n => ':' :: Numeral.ofNat n).getD []
  a.user ++ password ++ mark ++ a.host.text ++ port

/-- The text of segments: a slash before each of them. -/
def segmentsText (parts : List (List Char)) : List Char :=
  parts.flatMap ('/' :: ·)

/-- The text of a path. Without an authority, a path must not begin with two slashes, and a segment
that means nothing is put in front. -/
def Path.text (hasAuthority : Bool) : Path → List Char
  | segments ([] :: p :: rest) =>
    (if hasAuthority then [] else ['/', '.']) ++ segmentsText ([] :: p :: rest)
  | segments parts => segmentsText parts
  | opaqueText s => s

/-- A part of a URL behind its mark, if it is there. -/
def marked (mark : Char) (part : Option (List Char)) : List Char :=
  (part.map (mark :: ·)).getD []

/-- The path and the query of a URL, as they are sent in a request. -/
def target (u : Url) : List Char :=
  u.path.text u.authority.isSome ++ marked '?' u.query

/-- The URL without its user and password. -/
def withoutAccount (u : Url) : Url :=
  { u with authority := u.authority.map fun a => { a with user := [], password := [] } }

/-- The text of a URL. -/
def text (u : Url) : List Char :=
  u.scheme ++ ':' :: (u.authority.map fun a => '/' :: '/' :: a.text).getD []
    ++ u.target ++ marked '#' u.fragment

end Url

end MovieCatalog
