import MovieCatalog.Text.Case
import MovieCatalog.Text.Percent
import MovieCatalog.Url.Basic
import MovieCatalog.Url.Fault
import MovieCatalog.Url.Punycode
import MovieCatalog.Url.Reserved
import MovieCatalog.Url.Scheme

/-!
# Hosts

The host of a network scheme is an address of version 6 in brackets, an address of version 4, or a
domain name. A host whose last label is a number is an address of version 4 and nothing else; its
parts may be decimal, octal or hexadecimal, and the last part may stand for several octets. Domain
names are written in small ASCII letters; the mapping of international names is there in part only
(`asciiDomain`).
-/

namespace MovieCatalog.Url

/-- A part of an address of version 4: digits in the base that its beginning shows. -/
def addressPart? (s : List Char) : Option Nat :=
  match s with
  | '0' :: 'x' :: rest | '0' :: 'X' :: rest =>
    (rest.mapM Text.hexDigit?).map fun digits => digits.foldl (fun n d => 16 * n + d) 0
  | '0' :: d :: rest =>
    if (d :: rest).all fun c => '0' ≤ c ∧ c ≤ '7' then some (Nat.ofDigitChars 8 (d :: rest) 0)
    else none
  | s => Numeral.nat? s

/-- The parts of a host between its points; a point at the end closes the last part. -/
def labels (host : List Char) : List (List Char) :=
  let parts := host.splitOn '.'
  if 1 < parts.length ∧ parts.getLast? = some [] then parts.dropLast else parts

/-- The last label is a number. -/
def endsInNumber (host : List Char) : Bool :=
  match (labels host).getLast? with
  | some l => (!l.isEmpty && l.all Char.isDigit) || (addressPart? l).isSome
  | none => false

/-- The address of version 4 that numbers stand for. All but the last one are octets. -/
def addressOf? (numbers : List Nat) : Option Net.Ipv4 :=
  let front := numbers.dropLast
  let last := numbers.getLastD 0
  let room := twoTo (8 * (4 - front.length))
  if numbers.isEmpty ∨ 4 < numbers.length ∨ front.any (255 < ·) ∨ room ≤ last then none
  else some ⟨.ofNat (front.foldl (fun n d => 256 * n + d) 0 * room + last)⟩

/-- A label of a domain name in its ASCII form. -/
def asciiLabel (label : List Char) : Except Fault (List Char) :=
  if label.any (0x80 ≤ ·.toNat) then .ok ("xn--".toList ++ Punycode.encode label)
  else if "xn--".toList.isPrefixOf label then
    match Punycode.decode? (label.drop 4) with
    | some s => if s.any (0x80 ≤ ·.toNat) then .ok label else .error .invalidDomain
    | none => .error .invalidDomain
  else .ok label

/-- Full stops of other scripts, which separate labels too. -/
def isFullStop (c : Char) : Bool :=
  c = '\u3002' ∨ c = '\uFF0E' ∨ c = '\uFF61'

/-- A domain name in its ASCII form. Of the mapping of international names, only capitals become
small letters and the full stops of other scripts points. What else the mapping does is left out:
letters in other forms, such as wide ones or ligatures, do not become plain ones, marks are not
composed with their letters, characters without meaning are not dropped, and characters, joiners and
directions that a label may not have are not refused. -/
def asciiDomain (name : List Char) : Except Fault (List Char) := do
  let small := name.map fun c => if isFullStop c then '.' else Text.small c
  if small.any forbiddenInDomain then throw .invalidDomain
  return ['.'].intercalate (← (small.splitOn '.').mapM asciiLabel)

/-- The characters that octets spell in UTF-8, if they do. -/
def characters? (octets : List UInt8) : Option (List Char) :=
  (Text.Utf8.pieces octets).mapM fun
    | .scalar c => some c
    | .stray _ => none

/-- The host in brackets. -/
def bracketedHost (s : List Char) : Except Fault Host :=
  match s.getLast?, Net.Ipv6.read? s.dropLast with
  | some ']', some a => .ok (.ipv6 a)
  | _, _ => .error .invalidIpv6

/-- Reads the host of a special scheme. -/
def networkHost (s : List Char) : Except Fault Host :=
  match s with
  | [] => .error .emptyHost
  | '[' :: rest => bracketedHost rest
  | s => do
    let some name := characters? (Text.Percent.decode (Text.Utf8.encode s))
      | throw .invalidDomain
    let domain ← asciiDomain name
    if domain.isEmpty then throw .emptyHost
    if endsInNumber domain then
      match (labels domain).mapM addressPart? >>= addressOf? with
      | some a => return .ipv4 a
      | none => throw .invalidIpv4
    return .name domain

/-- Reads the host of a scheme that is not special. -/
def otherHost (s : List Char) : Except Fault Host :=
  match s with
  | '[' :: rest => bracketedHost rest
  | s =>
    if s.any forbiddenInHost then .error .forbiddenInHost
    else .ok (.name (Text.Percent.encode isControl s))

/-- Reads the host of a file. -/
def fileHost (s : List Char) : Except Fault Host := do
  if s.isEmpty then return .name []
  let host ← networkHost s
  return if host = .name "localhost".toList then .name [] else host

end MovieCatalog.Url
