import MovieCatalog.Net.Ip

/-!
# Socket addresses

A socket address is an internet address with a port. One of version 6 stands in brackets and may
have a scope, a number that tells apart addresses that are valid only locally; scope zero is not
written.
-/

namespace MovieCatalog.Net

/-- A socket address. -/
inductive SocketAddress where
  | v4 (address : Ipv4) (port : UInt16)
  | v6 (address : Ipv6) (scope : UInt32) (port : UInt16)
deriving DecidableEq

namespace SocketAddress

/-- Reads a decimal numeral below a bound; leading zeros do not count. -/
def numeralBelow? (bound : Nat) (s : List Char) : Option Nat :=
  (Numeral.nat? s).filter (· < bound)

/-- Reads a port. -/
def port? (s : List Char) : Option UInt16 :=
  (numeralBelow? Word.size16 s).map .ofNat

/-- Reads an address of version 6 with its scope, if one is given. -/
def scoped? (s : List Char) : Option (Ipv6 × UInt32) :=
  match s.dropWhile (· ≠ '%') with
  | [] => (Ipv6.read? s).map fun a => (a, 0)
  | _ :: scope => do
    return (← Ipv6.read? (s.takeWhile (· ≠ '%')), .ofNat (← numeralBelow? Word.size32 scope))

/-- Reads a socket address. -/
def read? (s : List Char) : Option SocketAddress :=
  match s with
  | '[' :: rest =>
    match rest.dropWhile (· ≠ ']') with
    | ']' :: ':' :: p => do
      let (address, scope) ← scoped? (rest.takeWhile (· ≠ ']'))
      return .v6 address scope (← port? p)
    | _ => none
  | s =>
    match s.dropWhile (· ≠ ':') with
    | ':' :: p => do return .v4 (← Ipv4.read? (s.takeWhile (· ≠ ':'))) (← port? p)
    | _ => none

/-- The text of an address of version 6. One that stands for an address of version 4 shows it. -/
def ipv6Text (a : Ipv6) : List Char :=
  match a.embedded? with
  | some inner => "::ffff:".toList ++ inner.text
  | none => a.text

/-- The text of a socket address. -/
def text : SocketAddress → List Char
  | v4 a p => a.text ++ ':' :: Numeral.ofNat p.toNat
  | v6 a scope p =>
    let scopeText := if scope = 0 then [] else '%' :: Numeral.ofNat scope.toNat
    '[' :: ipv6Text a ++ scopeText ++ [']', ':'] ++ Numeral.ofNat p.toNat

end SocketAddress

end MovieCatalog.Net
