import MovieCatalog.Decimal.Literal
import MovieCatalog.Text.Hex

/-!
# Internet addresses

An address of version 4 has four octets, written in decimal with points between them. One of version
6 has eight groups of sixteen bits, written in hexadecimal with colons between them; one run of zero
groups may be left out between two colons, and the last two groups may be written like an address of
version 4.
-/

namespace MovieCatalog.Net

/-- An address of version 4. -/
structure Ipv4 where
  bits : UInt32
deriving DecidableEq, Inhabited

/-- An address of version 6. -/
structure Ipv6 where
  groups : List UInt16
  length_groups : groups.length = 8
deriving DecidableEq

namespace Ipv4

/-- The address with the given octets. -/
def ofOctets (a b c d : Nat) : Ipv4 :=
  ⟨.ofNat (((a * 256 + b) * 256 + c) * 256 + d)⟩

/-- Reads an octet: a decimal numeral below 256 without a leading zero. -/
def octet? (s : List Char) : Option Nat :=
  if s.length ≤ 3 ∧ (s.length = 1 ∨ s.head? ≠ some '0') then (Numeral.nat? s).filter (· < 256)
  else none

/-- Reads an address written as four decimal octets. -/
def read? (s : List Char) : Option Ipv4 :=
  match (s.splitOn '.').mapM octet? with
  | some [a, b, c, d] => some (ofOctets a b c d)
  | _ => none

/-- An octet of an address, the highest one having number 3. -/
def octet (a : Ipv4) (i : Nat) : Nat :=
  (a.bits.toNat >>> (8 * i)) % 256

/-- The text of an address. -/
def text (a : Ipv4) : List Char :=
  ['.'].intercalate ([3, 2, 1, 0].map fun i => Numeral.ofNat (a.octet i))

end Ipv4

namespace Ipv6

/-- Reads a group: one to four hexadecimal digits. -/
def group? (s : List Char) : Option UInt16 :=
  if s.isEmpty ∨ 4 < s.length then none
  else (s.mapM Text.hexDigit?).map fun digits => .ofNat (digits.foldl (fun n d => 16 * n + d) 0)

/-- Reads groups. If `mixed`, the last two may be written like an address of version 4. -/
def groups? (mixed : Bool) : List (List Char) → Option (List UInt16)
  | [] => some []
  | [part] =>
    if mixed ∧ '.' ∈ part then
      (Ipv4.read? part).map fun a =>
        [.ofNat (a.bits.toNat / Word.size16), .ofNat (a.bits.toNat % Word.size16)]
    else (group? part).map fun g => [g]
  | part :: rest => do
    return (← group? part) :: (← groups? mixed rest)

/-- The parts between colons; an empty text has none. -/
def parts (s : List Char) : List (List Char) :=
  if s.isEmpty then [] else s.splitOn ':'

/-- What stands before and behind the first two colons in a row. -/
def aroundGap? : List Char → Option (List Char × List Char)
  | ':' :: ':' :: rest => some ([], rest)
  | c :: rest => (aroundGap? rest).map fun s => (c :: s.1, s.2)
  | [] => none

/-- The address with given groups, if they are eight. -/
def ofGroups? (groups : List UInt16) : Option Ipv6 :=
  if h : groups.length = 8 then some ⟨groups, h⟩ else none

/-- Reads an address. A gap stands for one zero group or more. -/
def read? (s : List Char) : Option Ipv6 :=
  match aroundGap? s with
  | none => (groups? true (parts s)).bind ofGroups?
  | some (before, behind) => do
    let front ← groups? false (parts before)
    let back ← groups? true (parts behind)
    if 8 ≤ front.length + back.length then none
    else ofGroups? (front ++ List.replicate (8 - front.length - back.length) 0 ++ back)

/-- The number of zeros at the front of groups. -/
def zeros (groups : List UInt16) : Nat :=
  (groups.takeWhile (· = 0)).length

/-- The first one among the longest runs of zero groups: where it begins and its length. -/
def longestRun (groups : List UInt16) : Nat × Nat :=
  (List.range groups.length).foldl
    (fun best i =>
      let n := zeros (groups.drop i)
      if best.2 < n then (i, n) else best)
    (0, 0)

/-- Groups with colons between them. -/
def joined (groups : List UInt16) : List Char :=
  [':'].intercalate (groups.map fun g => Text.hex g.toNat)

/-- The text of an address: two colons stand for the first one of the longest runs of zero groups,
if it has two groups at least. -/
def text (a : Ipv6) : List Char :=
  let (start, n) := longestRun a.groups
  if n < 2 then joined a.groups
  else joined (a.groups.take start) ++ ':' :: ':' :: joined (a.groups.drop (start + n))

/-- The address of version 4 that an address of version 6 stands for, if its first five groups are
zero and the sixth has all bits set. -/
def embedded? (a : Ipv6) : Option Ipv4 :=
  match a.groups with
  | [0, 0, 0, 0, 0, 0xFFFF, high, low] => some ⟨.ofNat (high.toNat * Word.size16 + low.toNat)⟩
  | _ => none

end Ipv6

end MovieCatalog.Net
