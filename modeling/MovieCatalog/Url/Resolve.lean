import MovieCatalog.Text.Cut
import MovieCatalog.Url.Host
import MovieCatalog.Url.Segments

/-!
# Reading URLs

A text is read as a URL of its own, or relative to a base. Control characters and spaces around it
do not count, nor do tabs and line breaks in it. A relative text may replace everything behind the
scheme, the path, a part of the path, the query or the fragment.
-/

namespace MovieCatalog.Url

/-- A control character of ASCII below the delete character, or a space. -/
def isEdge (c : Char) : Bool :=
  c.toNat ≤ 0x20

/-- The text as far as it counts. -/
def tidy (s : List Char) : List Char :=
  let s := ((s.dropWhile isEdge).reverse.dropWhile isEdge).reverse
  s.filter fun c => c ≠ '\t' ∧ c ≠ '\n' ∧ c ≠ '\r'

/-- A text cut at the marks of its query and its fragment. -/
structure Cut where
  body : List Char
  query : Option (List Char)
  fragment : Option (List Char)
deriving DecidableEq

/-- Cuts a text. -/
def Cut.ofText (s : List Char) : Cut :=
  let (front, fragment) := Text.cutAt '#' s
  let (body, query) := Text.cutAt '?' front
  ⟨body, query, fragment⟩

/-- A query as it is written in a URL. -/
def encodeQuery (kind : SchemeKind) (query : Option (List Char)) : Option (List Char) :=
  query.map (Text.Percent.encode (reservedInQuery kind.isSpecial))

/-- A fragment as it is written in a URL. -/
def encodeFragment (fragment : Option (List Char)) : Option (List Char) :=
  fragment.map (Text.Percent.encode reservedInFragment)

/-- The user and the password in front of the last at sign, and what stands behind it. -/
def userThen (authority : List Char) : Option (List Char × List Char) × List Char :=
  let behind := (authority.reverse.takeWhile (· ≠ '@')).reverse
  if behind.length = authority.length then (none, authority)
  else
    let front := authority.take (authority.length - behind.length - 1)
    let (user, password) := Text.cutAt ':' front
    (some (user, password.getD []), behind)

/-- What stands before the colon of the port, and what stands behind it. A colon in brackets belongs
to the host. -/
def hostThen (inBrackets : Bool) : List Char → List Char × Option (List Char)
  | [] => ([], none)
  | c :: rest =>
    if c = ':' ∧ !inBrackets then ([], some rest)
    else
      let inside := if c = '[' then true else if c = ']' then false else inBrackets
      let (host, port) := hostThen inside rest
      (c :: host, port)

/-- Reads a port. One that the scheme implies is left out. -/
def readPort (kind : SchemeKind) (s : List Char) : Except Fault (Option Nat) :=
  if s.isEmpty then .ok none
  else
    match (Numeral.nat? s).filter (· < Word.size16) with
    | some n => .ok (if kind = .network n then none else some n)
    | none => .error .invalidPort

/-- Reads a host. -/
def readHost (kind : SchemeKind) (s : List Char) : Except Fault Host :=
  match kind with
  | .network _ => networkHost s
  | .file => fileHost s
  | .other => otherHost s

/-- Reads an authority. -/
def Authority.read (kind : SchemeKind) (s : List Char) : Except Fault Authority := do
  let (account, address) := userThen s
  let (user, password) := account.getD ([], [])
  if account.isSome ∧ address.isEmpty then throw .emptyHost
  let (hostText, portText) := hostThen false address
  let h ← readHost kind hostText
  if hostText.isEmpty ∧ (portText.isSome ∨ account.isSome) then throw .emptyHost
  let p ← readPort kind (portText.getD [])
  let encoded := Text.Percent.encode reservedInUser
  return ⟨encoded user, encoded password, h, p⟩

/-- Reads what follows two slashes: an authority and a path. -/
def afterSlashes (scheme : List Char) (kind : SchemeKind) (s : List Char) (cut : Cut) :
    Except Fault Url := do
  let a ← Authority.read kind (s.takeWhile (!kind.isSlash ·))
  let path :=
    match s.dropWhile (!kind.isSlash ·) with
    | [] => if kind.isSpecial then [[]] else []
    | _ :: rest => followText kind [] rest
  return ⟨scheme, some a, .segments path, encodeQuery kind cut.query, encodeFragment cut.fragment⟩

/-- Reads a text without a scheme, or with the scheme of its base, behind that scheme. -/
def relativeTo (base : Url) (s : List Char) (cut : Cut) : Except Fault Url :=
  let kind := SchemeKind.ofScheme base.scheme
  match base.path with
  | .opaqueText _ =>
    if s.isEmpty ∧ cut.query.isNone ∧ cut.fragment.isSome then
      .ok { base with fragment := encodeFragment cut.fragment }
    else .error .relativeToOpaque
  | .segments baseParts =>
    match s with
    | [] =>
      let query := if cut.query.isSome then encodeQuery kind cut.query else base.query
      .ok { base with query := query, fragment := encodeFragment cut.fragment }
    | c :: rest =>
      let slashes := s.takeWhile kind.isSlash
      if 2 ≤ slashes.length then
        let behind := if ['/', '/'].isPrefixOf s then s.drop 2 else s.dropWhile kind.isSlash
        afterSlashes base.scheme kind behind cut
      else
        let path := if kind.isSlash c then followText kind [] rest
          else followText kind (shorten kind baseParts) s
        .ok { base with
          path := .segments path
          query := encodeQuery kind cut.query
          fragment := encodeFragment cut.fragment }

/-- Reads the path of a file behind its scheme. -/
def filePath (base : Option Url) (s : List Char) (cut : Cut) : Except Fault Url :=
  let kind := SchemeKind.file
  let slashes := (s.takeWhile kind.isSlash).length
  let drive := isDriveLetter ((s.drop slashes).takeWhile (!kind.isSlash ·))
  match base.filter (·.scheme = "file".toList) with
  | some base => if slashes < 2 ∧ !drive then relativeTo base s cut else ofFile s slashes drive
  | none => ofFile s slashes drive
where
  /-- Reads a file's path on its own. -/
  ofFile (s : List Char) (slashes : Nat) (drive : Bool) : Except Fault Url :=
    let isLocal := slashes < 2 ∨ (slashes = 2 ∧ drive)
    if isLocal then
      let path := followText .file [] (s.drop slashes)
      .ok ⟨"file".toList, some ⟨[], [], .name [], none⟩, .segments path,
        encodeQuery .file cut.query, encodeFragment cut.fragment⟩
    else do
      let h ← fileHost ((s.drop 2).takeWhile (!SchemeKind.file.isSlash ·))
      let path := followText .file [] (((s.drop 2).dropWhile (!SchemeKind.file.isSlash ·)).drop 1)
      return ⟨"file".toList, some ⟨[], [], h, none⟩, .segments path,
        encodeQuery .file cut.query, encodeFragment cut.fragment⟩

/-- Reads what follows a scheme that is not special. -/
def afterOther (scheme : List Char) (s : List Char) (cut : Cut) : Except Fault Url :=
  match s with
  | '/' :: '/' :: rest => afterSlashes scheme .other rest cut
  | s =>
    let path :=
      match s with
      | '/' :: rest => Path.segments (followText .other [] rest)
      | s => .opaqueText (Text.Percent.encode isControl s)
    .ok ⟨scheme, none, path, encodeQuery .other cut.query, encodeFragment cut.fragment⟩

/-- Reads a text as a URL, perhaps relative to a base. -/
def resolve (base : Option Url) (text : String) : Except Fault Url :=
  let cut := Cut.ofText (tidy text.toList)
  match schemeThen? cut.body with
  | some (scheme, rest) =>
    let kind := SchemeKind.ofScheme scheme
    match kind with
    | .other => afterOther scheme rest cut
    | .file => filePath base rest cut
    | .network _ =>
      let slashes := rest.takeWhile kind.isSlash
      match base.filter (fun b => b.scheme = scheme ∧ slashes.length < 2) with
      | some b => relativeTo b rest cut
      | none => afterSlashes scheme kind (rest.dropWhile kind.isSlash) cut
  | none =>
    match base with
    | some b => relativeTo b cut.body cut
    | none => .error .relativeWithoutBase

end MovieCatalog.Url
